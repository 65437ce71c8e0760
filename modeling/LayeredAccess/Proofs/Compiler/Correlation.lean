/-
  LayeredAccess.Proofs.Compiler.Correlation

  Calls and replies that reach a client in any order, while both of its channels
  stay open. Replies may be malformed, unknown or duplicate, or no replies at
  all, and a key may be asked for again once it has been answered.

  What a call is told is stated by the history alone: it is the first answer to
  its key that arrives after it. The open requests of the client are the keys of
  the calls that have not been answered; `Tracks` says so, every event keeps it,
  and `correlated` follows.

  A call is one event here: it enters its request and sends it before anything
  else happens. Calls whose steps interleave are those of `Traffic`.
-/
import LayeredAccess.Proofs.Compiler.Connection
import Mathlib.Data.Set.Card

namespace LayeredAccess.Compiler.Client

open Connection (requestKey)

/-! ## Histories -/

/-- Something that happens to a client. -/
inductive Event where
  | call (job : CompileJob)
  | reply (message : Envelope)

/-- What an event says about a key. -/
def Event.answer? (key : RequestKey) : Event → Option CompileOutcome
  | call _ => none
  | reply message => (outcome? message).bind fun a => if a.1 = key then some a.2 else none

/-- A message that says how a job ended, by its node and its generation. -/
inductive Reports (job : CompileJob) : Envelope → CompileOutcome → Prop where
  | compiled {data : Json} {d : CompiledData} (h : CompiledData.decode data = .ok d)
    (hid : d.id = job.id) (hgeneration : d.generation = job.generation) :
    Reports job ⟨.compiled, data⟩ (.compiled d.generation d.value)
  | failed {data : Json} {d : FailedData} (h : FailedData.decode data = .ok d)
    (hid : d.id = job.id) (hgeneration : d.generation = job.generation) :
    Reports job ⟨.compilationFailed, data⟩ (.failed d.generation d.missing)

/-- The first answer to a key. -/
def answer? (key : RequestKey) (events : List Event) : Option CompileOutcome :=
  events.findSome? (·.answer? key)

/-- The number of calls. -/
def callCount (history : List Event) : Nat :=
  history.countP fun | .call _ => true | .reply _ => false

/-- A call was made for a job, and what has happened since. Calls are numbered in their order. -/
def Called (history : List Event) (n : Waiter) (job : CompileJob) (since : List Event) : Prop :=
  ∃ before, history = before ++ .call job :: since ∧ n = callCount before

/-- A call for a key that has not been answered. -/
def Unanswered (history : List Event) (key : RequestKey) (n : Waiter) : Prop :=
  ∃ job since, Called history n job since ∧ requestKey job = key ∧ answer? key since = none

def step (c : Client) : Event → Client × Output
  | .call job => c.compile job
  | .reply message => c.receive message

/-- The client after a history. -/
def after (history : List Event) : Client := history.foldl (fun c event => (c.step event).1) {}

/-- What callers have been told, in that order, from a client on. -/
def tellings (c : Client) : List Event → List (Waiter × Except EngineError CompileOutcome)
  | [] => []
  | event :: rest => (c.step event).2.done ++ tellings (c.step event).1 rest

/-- What callers have been told in the course of a history. -/
def told (history : List Event) : List (Waiter × Except EngineError CompileOutcome) :=
  tellings {} history

/-- A key for which a request was sent that has not been answered. -/
def Outstanding (history : List Event) (key : RequestKey) : Prop :=
  ∃ before job since, history = before ++ .call job :: since ∧ requestKey job = key ∧
    ((after before).compile job).2.sent ≠ [] ∧ answer? key since = none

/-! ## Histories that go on -/

variable {history : List Event}

theorem after_concat (history : List Event) (event : Event) :
    after (history ++ [event]) = ((after history).step event).1 := by
  rw [after, List.foldl_append]
  rfl

theorem told_concat (history : List Event) (event : Event) :
    told (history ++ [event]) = told history ++ ((after history).step event).2.done := by
  have hfrom : ∀ c : Client, c.tellings (history ++ [event]) = c.tellings history ++
      ((history.foldl (fun c event => (c.step event).1) c).step event).2.done := by
    induction history with
    | nil => intro c; simp [tellings]
    | cons first rest ih => intro c; simp [tellings, ih]
  exact hfrom {}

theorem answer?_concat (key : RequestKey) (since : List Event) (event : Event) :
    answer? key (since ++ [event]) = (answer? key since).or (event.answer? key) := by
  simp [answer?, List.findSome?_append]

theorem callCount_concat (history : List Event) (event : Event) :
    callCount (history ++ [event]) =
      callCount history + match event with | .call _ => 1 | .reply _ => 0 := by
  cases event <;> simp [callCount]

/-- A call of a longer history is an earlier one, or the last event. -/
theorem called_concat_iff {event : Event} {n : Waiter} {job : CompileJob} {since : List Event} :
    Called (history ++ [event]) n job since ↔
      (∃ earlier, Called history n job earlier ∧ since = earlier ++ [event]) ∨
        event = .call job ∧ since = [] ∧ n = callCount history := by
  constructor
  · rintro ⟨before, hsplit, rfl⟩
    rcases List.eq_nil_or_concat since with rfl | ⟨earlier, last, rfl⟩
    · obtain ⟨rfl, hlast⟩ := List.append_inj' hsplit rfl
      exact .inr ⟨List.head_eq_of_cons_eq hlast, rfl, rfl⟩
    · rw [List.concat_eq_append, ← List.cons_append, ← List.append_assoc] at hsplit
      obtain ⟨rfl, hlast⟩ := List.append_inj' hsplit rfl
      obtain rfl := List.head_eq_of_cons_eq hlast
      exact .inl ⟨earlier, ⟨before, rfl, rfl⟩, List.concat_eq_append⟩
  · rintro (⟨earlier, ⟨before, rfl, rfl⟩, rfl⟩ | ⟨rfl, rfl, rfl⟩)
    · exact ⟨before, by simp, rfl⟩
    · exact ⟨history, rfl, rfl⟩

theorem Called.lt {n : Waiter} {job : CompileJob} {since : List Event}
    (h : Called history n job since) : n < callCount history := by
  obtain ⟨before, rfl, rfl⟩ := h
  simp [callCount]

/-- A number stands for one call. -/
theorem Called.unique {n : Waiter} {job job' : CompileJob} {since since' : List Event}
    (h : Called history n job since) (h' : Called history n job' since') :
    job = job' ∧ since = since' := by
  induction history using List.reverseRecOn generalizing since since' with
  | nil => exact absurd h.lt (by simp [callCount])
  | append_singleton rest event ih =>
    rcases called_concat_iff.1 h with ⟨earlier, hcalled, rfl⟩ | ⟨rfl, rfl, rfl⟩
    · rcases called_concat_iff.1 h' with ⟨earlier', hcalled', rfl⟩ | ⟨rfl, rfl, rfl⟩
      · obtain ⟨hjob, rfl⟩ := ih hcalled hcalled'
        exact ⟨hjob, rfl⟩
      · exact absurd hcalled.lt (Nat.lt_irrefl _)
    · rcases called_concat_iff.1 h' with ⟨earlier', hcalled', rfl⟩ | ⟨hevent, rfl, -⟩
      · exact absurd hcalled'.lt (Nat.lt_irrefl _)
      · exact ⟨Event.call.inj hevent, rfl⟩

theorem unanswered_call_iff {job : CompileJob} {key : RequestKey} {n : Waiter} :
    Unanswered (history ++ [.call job]) key n ↔
      Unanswered history key n ∨ requestKey job = key ∧ n = callCount history := by
  constructor
  · rintro ⟨job', since, hcalled, hkey, hnone⟩
    rcases called_concat_iff.1 hcalled with ⟨earlier, hearlier, rfl⟩ | ⟨hevent, rfl, rfl⟩
    · rw [answer?_concat] at hnone
      exact .inl ⟨job', earlier, hearlier, hkey, (Option.or_eq_none_iff.1 hnone).1⟩
    · exact .inr ⟨Event.call.inj hevent ▸ hkey, rfl⟩
  · rintro (⟨job', since, hcalled, hkey, hnone⟩ | ⟨hkey, rfl⟩)
    · refine ⟨job', _, called_concat_iff.2 (.inl ⟨since, hcalled, rfl⟩), hkey, ?_⟩
      rw [answer?_concat, hnone]
      rfl
    · exact ⟨job, [], called_concat_iff.2 (.inr ⟨rfl, rfl, rfl⟩), hkey, rfl⟩

theorem unanswered_reply_iff {message : Envelope} {key : RequestKey} {n : Waiter} :
    Unanswered (history ++ [.reply message]) key n ↔
      Unanswered history key n ∧ (Event.reply message).answer? key = none := by
  constructor
  · rintro ⟨job, since, hcalled, hkey, hnone⟩
    rcases called_concat_iff.1 hcalled with ⟨earlier, hearlier, rfl⟩ | ⟨hevent, -⟩
    · rw [answer?_concat] at hnone
      obtain ⟨hearlier', hreply⟩ := Option.or_eq_none_iff.1 hnone
      exact ⟨⟨job, earlier, hearlier, hkey, hearlier'⟩, hreply⟩
    · cases hevent
  · rintro ⟨⟨job, since, hcalled, hkey, hnone⟩, hreply⟩
    refine ⟨job, _, called_concat_iff.2 (.inl ⟨since, hcalled, rfl⟩), hkey, ?_⟩
    rw [answer?_concat, hnone, hreply]
    rfl

theorem reply_answer?_eq_some_iff {message : Envelope} {key : RequestKey}
    {outcome : CompileOutcome} :
    (Event.reply message).answer? key = some outcome ↔ outcome? message = some (key, outcome) := by
  simp only [Event.answer?, Option.bind_eq_some_iff, Option.ite_none_right_eq_some,
    Option.some.injEq]
  constructor
  · rintro ⟨⟨key', outcome'⟩, h, rfl, rfl⟩
    exact h
  · exact fun h => ⟨_, h, rfl, rfl⟩

theorem eq_ok_of_toOption {ε α : Type} {x : Except ε α} {v : α} (h : x.toOption = some v) :
    x = .ok v := by
  cases x with
  | error e => cases h
  | ok v' => exact congrArg Except.ok (Option.some.inj h)

/-- Only a reply that reports on a job answers the call for it. -/
theorem reports_of_outcome? {message : Envelope} {job : CompileJob} {outcome : CompileOutcome}
    (h : outcome? message = some (requestKey job, outcome)) : Reports job message outcome := by
  obtain ⟨event, data⟩ := message
  cases event with
  | compiled =>
    obtain ⟨d, hd, he⟩ := Option.map_eq_some_iff.1 h
    obtain ⟨hkey, rfl⟩ := Prod.mk.inj he
    obtain ⟨hid, hgeneration⟩ := Prod.mk.inj hkey
    exact .compiled (eq_ok_of_toOption hd) hid hgeneration
  | compilationFailed =>
    obtain ⟨d, hd, he⟩ := Option.map_eq_some_iff.1 h
    obtain ⟨hkey, rfl⟩ := Prod.mk.inj he
    obtain ⟨hid, hgeneration⟩ := Prod.mk.inj hkey
    exact .failed (eq_ok_of_toOption hd) hid hgeneration
  | process => cases h
  | invalidate => cases h
  | clearCache => cases h
  | deleteCached => cases h

theorem exists_reply_of_answer? {job : CompileJob} {since : List Event} {outcome : CompileOutcome}
    (h : answer? (requestKey job) since = some outcome) :
    ∃ message, .reply message ∈ since ∧ Reports job message outcome := by
  obtain ⟨event, hin, hevent⟩ := List.exists_of_findSome?_eq_some h
  cases event with
  | call job' => cases hevent
  | reply message =>
    exact ⟨message, hin, reports_of_outcome? (reply_answer?_eq_some_iff.1 hevent)⟩

/-! ## The open requests -/

/-- The open requests of a client are the keys of the calls that have not been answered. -/
structure Tracks (history : List Event) (c : Client) : Prop where
  requestsOpen : c.requestsOpen = true
  repliesOpen : c.repliesOpen = true
  nextWaiter_eq : c.nextWaiter = callCount history
  nodup_keys : (KeyMap.keys c.pending).Nodup
  mem_iff : ∀ key n, n ∈ (KeyMap.find? c.pending key).getD [] ↔ Unanswered history key n
  /-- Nobody waits twice, and no request is open that nobody waits for. -/
  ascending : ∀ key waiters, KeyMap.find? c.pending key = some waiters →
    waiters ≠ [] ∧ waiters.Pairwise (· < ·)

variable {c : Client}

/-- A request is open if somebody waits for it. -/
theorem Tracks.find?_eq_none_iff (h : Tracks history c) (key : RequestKey) :
    KeyMap.find? c.pending key = none ↔ ∀ n, ¬ Unanswered history key n := by
  have hmem := h.mem_iff key
  cases hfind : KeyMap.find? c.pending key with
  | none => exact iff_of_true rfl fun n => by simp [← hmem, hfind]
  | some waiters =>
    obtain ⟨n, hn⟩ := List.exists_mem_of_ne_nil waiters (h.ascending key waiters hfind).1
    refine iff_of_false (by simp) fun hnone => hnone n ((hmem n).1 ?_)
    rw [hfind]
    exact hn

/-- A call that finds its request open joins it, and nothing is sent. -/
theorem compile_open {job : CompileJob} {waiters : List Waiter}
    (h : KeyMap.find? c.pending (requestKey job) = some waiters) :
    c.compile job =
      ({ c with
          pending := KeyMap.modify c.pending (requestKey job) (· ++ [c.nextWaiter])
          nextWaiter := c.nextWaiter + 1 }, {}) := by
  have hcontains : KeyMap.contains c.pending (job.id, job.generation) = true := by
    rw [KeyMap.contains, show KeyMap.find? c.pending (job.id, job.generation) = _ from h]
    rfl
  simp only [compile, hcontains, if_true, requestKey]

/-- Whoever waits has been numbered. -/
theorem Tracks.lt (h : Tracks history c) {key : RequestKey} {waiters : List Waiter}
    (hfind : KeyMap.find? c.pending key = some waiters) {n : Waiter} (hn : n ∈ waiters) :
    n < c.nextWaiter := by
  obtain ⟨job, since, hcalled, -⟩ := (h.mem_iff key n).1 (by rw [hfind]; exact hn)
  rw [h.nextWaiter_eq]
  exact hcalled.lt

theorem Tracks.compile (h : Tracks history c) (job : CompileJob) :
    Tracks (history ++ [.call job]) (c.compile job).1 := by
  have hcount : c.nextWaiter + 1 = callCount (history ++ [.call job]) := by
    rw [callCount_concat, h.nextWaiter_eq]
  cases hfind : KeyMap.find? c.pending (requestKey job) with
  | some waiters =>
    -- The call joins those who wait, and its number is higher than theirs.
    rw [compile_open hfind]
    refine ⟨h.requestsOpen, h.repliesOpen, hcount, ?_, fun key n => ?_, fun key ws hws => ?_⟩
    · rw [KeyMap.keys_modify]
      exact h.nodup_keys
    · rw [unanswered_call_iff, ← h.mem_iff, KeyMap.find?_modify, ← h.nextWaiter_eq]
      split
      · next hkey =>
        subst hkey
        simp [hfind]
      · next hkey => simp [hkey]
    · rw [KeyMap.find?_modify] at hws
      split at hws
      · next hkey =>
        subst hkey
        rw [hfind] at hws
        obtain rfl := Option.some.inj hws
        refine ⟨by simp, List.pairwise_append.2 ⟨(h.ascending _ _ hfind).2, by simp, ?_⟩⟩
        simpa using fun n hn => h.lt hfind hn
      · exact h.ascending key ws hws
  | none =>
    rw [Connection.compile_new h.requestsOpen hfind]
    have hnew : requestKey job ∉ KeyMap.keys c.pending := by
      rw [KeyMap.mem_keys_iff, hfind]
      simp
    refine ⟨h.requestsOpen, h.repliesOpen, hcount, ?_, fun key n => ?_, fun key ws hws => ?_⟩
    · rw [KeyMap.keys, List.map_append, List.nodup_append]
      refine ⟨h.nodup_keys, by simp, fun key hkey key' hkey' he => hnew ?_⟩
      obtain rfl : key' = requestKey job := by simpa using hkey'
      exact he ▸ hkey
    · rw [unanswered_call_iff, ← h.mem_iff, KeyMap.find?_append, ← h.nextWaiter_eq,
        KeyMap.find?_cons]
      split
      · next hkey =>
        subst hkey
        simp [hfind]
      · next hkey => simp [hkey]
    · rw [KeyMap.find?_append, Option.or_eq_some_iff, KeyMap.find?_cons] at hws
      rcases hws with hws | ⟨-, hws⟩
      · exact h.ascending key ws hws
      · obtain ⟨-, hws⟩ := Option.ite_none_right_eq_some.1 hws
        obtain rfl := Option.some.inj hws
        simp

theorem Tracks.receive (h : Tracks history c) (message : Envelope) :
    Tracks (history ++ [.reply message]) (c.receive message).1 := by
  have hcount : c.nextWaiter = callCount (history ++ [.reply message]) := by
    rw [callCount_concat, h.nextWaiter_eq]
    rfl
  -- A message that is no answer changes nothing; an answer closes its request and no other.
  cases hreply : outcome? message with
  | none =>
    rw [receive_of_none hreply]
    refine ⟨h.requestsOpen, h.repliesOpen, hcount, h.nodup_keys, fun key n => ?_, h.ascending⟩
    have hnone : (Event.reply message).answer? key = none := by rw [Event.answer?, hreply]; rfl
    rw [unanswered_reply_iff, h.mem_iff, and_iff_left hnone]
  | some answer =>
    obtain ⟨key, outcome⟩ := answer
    rw [receive_of_some h.repliesOpen hreply]
    refine ⟨h.requestsOpen, h.repliesOpen, hcount, ?_, fun key' n => ?_, fun key' ws hws => ?_⟩
    · rw [KeyMap.keys_erase]
      exact h.nodup_keys.filter _
    · rw [unanswered_reply_iff, ← h.mem_iff, KeyMap.find?_erase, Event.answer?, hreply]
      by_cases hkey : key = key' <;> simp [hkey]
    · rw [KeyMap.find?_erase] at hws
      split at hws
      · cases hws
      · exact h.ascending key' ws hws

theorem tracks_after (history : List Event) : Tracks history (after history) := by
  induction history using List.reverseRecOn with
  | nil =>
    refine ⟨rfl, rfl, rfl, List.nodup_nil, fun key n => ?_, fun _ _ h => by cases h⟩
    refine iff_of_false (by simp [after]) ?_
    rintro ⟨job, since, hcalled, -⟩
    exact absurd hcalled.lt (by simp [callCount])
  | append_singleton rest event ih =>
    rw [after_concat]
    cases event with
    | call job => exact ih.compile job
    | reply message => exact ih.receive message

/-! ## What callers are told -/

/-- A call is told of an outcome if it is the first answer to its key since. -/
def Due (history : List Event) (n : Waiter) (result : Except EngineError CompileOutcome) : Prop :=
  ∃ job since outcome, Called history n job since ∧
    answer? (requestKey job) since = some outcome ∧ result = .ok outcome

theorem due_call_iff {job : CompileJob} {n : Waiter}
    {result : Except EngineError CompileOutcome} :
    Due (history ++ [.call job]) n result ↔ Due history n result := by
  constructor
  · rintro ⟨job', since, outcome, hcalled, hanswer, rfl⟩
    rcases called_concat_iff.1 hcalled with ⟨earlier, hearlier, rfl⟩ | ⟨-, rfl, -⟩
    · rw [answer?_concat, Event.answer?, Option.or_none] at hanswer
      exact ⟨job', earlier, outcome, hearlier, hanswer, rfl⟩
    · cases hanswer
  · rintro ⟨job', since, outcome, hcalled, hanswer, rfl⟩
    refine ⟨job', _, outcome, called_concat_iff.2 (.inl ⟨since, hcalled, rfl⟩), ?_, rfl⟩
    rw [answer?_concat, hanswer, Option.some_or]

theorem due_reply_iff {message : Envelope} {n : Waiter}
    {result : Except EngineError CompileOutcome} :
    Due (history ++ [.reply message]) n result ↔ Due history n result ∨
      ∃ key outcome, Unanswered history key n ∧ outcome? message = some (key, outcome) ∧
        result = .ok outcome := by
  constructor
  -- The answer was there before, or it is the one that has come now.
  · rintro ⟨job, since, outcome, hcalled, hanswer, rfl⟩
    rcases called_concat_iff.1 hcalled with ⟨earlier, hearlier, rfl⟩ | ⟨hevent, -⟩
    · rw [answer?_concat, Option.or_eq_some_iff] at hanswer
      rcases hanswer with hanswer | ⟨hnone, hanswer⟩
      · exact .inl ⟨job, earlier, outcome, hearlier, hanswer, rfl⟩
      · exact .inr ⟨requestKey job, outcome, ⟨job, earlier, hearlier, rfl, hnone⟩,
          reply_answer?_eq_some_iff.1 hanswer, rfl⟩
    · cases hevent
  -- Both ways the call is the same one, with one more event after it.
  · rintro (⟨job, since, outcome, hcalled, hanswer, rfl⟩ |
      ⟨key, outcome, ⟨job, since, hcalled, rfl, hnone⟩, hreply, rfl⟩)
    · refine ⟨job, _, outcome, called_concat_iff.2 (.inl ⟨since, hcalled, rfl⟩), ?_, rfl⟩
      rw [answer?_concat, hanswer, Option.some_or]
    · refine ⟨job, _, outcome, called_concat_iff.2 (.inl ⟨since, hcalled, rfl⟩), ?_, rfl⟩
      rw [answer?_concat, hnone, Option.none_or]
      exact reply_answer?_eq_some_iff.2 hreply

/-- Whoever has not been answered has been told nothing. -/
theorem Unanswered.not_due {key : RequestKey} {n : Waiter} (h : Unanswered history key n)
    (result : Except EngineError CompileOutcome) : ¬ Due history n result := by
  rintro ⟨job, since, outcome, hcalled, hanswer, -⟩
  obtain ⟨job', since', hcalled', rfl, hnone⟩ := h
  obtain ⟨rfl, rfl⟩ := hcalled.unique hcalled'
  simp [hanswer] at hnone

/-- A call tells nobody anything. -/
theorem Tracks.done_compile (h : Tracks history c) (job : CompileJob) :
    (c.compile job).2.done = [] := by
  cases hfind : KeyMap.find? c.pending (requestKey job) with
  | some waiters => rw [compile_open hfind]
  | none => rw [Connection.compile_new h.requestsOpen hfind]

/-- A reply tells those who wait for it, and nobody else. -/
theorem Tracks.mem_done_receive_iff (h : Tracks history c) (message : Envelope) (n : Waiter)
    (result : Except EngineError CompileOutcome) :
    (n, result) ∈ (c.receive message).2.done ↔
      ∃ key outcome, Unanswered history key n ∧ outcome? message = some (key, outcome) ∧
        result = .ok outcome := by
  cases hreply : outcome? message with
  | none => simp [receive_of_none hreply]
  | some answer =>
    obtain ⟨key, outcome⟩ := answer
    rw [receive_of_some h.repliesOpen hreply, List.mem_map]
    constructor
    · rintro ⟨w, hw, he⟩
      obtain ⟨rfl, rfl⟩ := Prod.mk.inj he
      exact ⟨key, outcome, (h.mem_iff key w).1 hw, rfl, rfl⟩
    · rintro ⟨key', outcome', hunanswered, he, rfl⟩
      obtain ⟨rfl, rfl⟩ := Prod.mk.inj (Option.some.inj he)
      exact ⟨n, (h.mem_iff key n).2 hunanswered, rfl⟩

/-- Nobody is told twice by one reply. -/
theorem Tracks.nodup_done_receive (h : Tracks history c) (message : Envelope) :
    ((c.receive message).2.done.map Prod.fst).Nodup := by
  cases hreply : outcome? message with
  | none => simp [receive_of_none hreply]
  | some answer =>
    obtain ⟨key, outcome⟩ := answer
    rw [receive_of_some h.repliesOpen hreply]
    have hfst : ∀ waiters : List Waiter,
        (waiters.map fun w => (w, (.ok outcome : Except EngineError CompileOutcome))).map Prod.fst =
          waiters := by
      intro waiters
      rw [List.map_map]
      exact List.map_id waiters
    rw [hfst]
    cases hfind : KeyMap.find? c.pending key with
    | none => exact List.nodup_nil
    | some waiters => exact (h.ascending key waiters hfind).2.imp Nat.ne_of_lt

/-- Callers have been told what the history says, and nobody has been told anything else. -/
theorem mem_told_iff (history : List Event) (n : Waiter)
    (result : Except EngineError CompileOutcome) :
    (n, result) ∈ told history ↔ Due history n result := by
  induction history using List.reverseRecOn with
  | nil =>
    refine iff_of_false (by simp [told, tellings]) ?_
    rintro ⟨job, since, outcome, hcalled, -⟩
    exact absurd hcalled.lt (by simp [callCount])
  | append_singleton rest event ih =>
    rw [told_concat, List.mem_append, ih]
    cases event with
    | call job =>
      rw [due_call_iff, step, (tracks_after rest).done_compile job]
      simp
    | reply message =>
      rw [due_reply_iff, step, (tracks_after rest).mem_done_receive_iff message]

theorem nodup_told (history : List Event) : ((told history).map Prod.fst).Nodup := by
  induction history using List.reverseRecOn with
  | nil => exact List.nodup_nil
  | append_singleton rest event ih =>
    rw [told_concat, List.map_append, List.nodup_append]
    cases event with
    | call job =>
      rw [step, (tracks_after rest).done_compile job]
      exact ⟨ih, List.nodup_nil, by simp⟩
    | reply message =>
      refine ⟨ih, (tracks_after rest).nodup_done_receive message, ?_⟩
      -- Who is told now has still been waiting, so that he has not been told before.
      rintro n hn _ hn' rfl
      obtain ⟨⟨_, result⟩, hold, rfl⟩ := List.mem_map.1 hn
      obtain ⟨⟨_, result'⟩, hnew, rfl⟩ := List.mem_map.1 hn'
      obtain ⟨key, outcome, hunanswered, -⟩ :=
        ((tracks_after rest).mem_done_receive_iff message _ _).1 hnew
      exact hunanswered.not_due result ((mem_told_iff rest _ _).1 hold)

/-! ## What is sent -/

/-- A request is sent for the first of the calls that wait for one answer. -/
theorem Tracks.sent_compile (h : Tracks history c) (job : CompileJob) :
    (∃ n, Unanswered history (requestKey job) n) ∧ (c.compile job).2.sent = [] ∨
      (∀ n, ¬ Unanswered history (requestKey job) n) ∧
        (c.compile job).2.sent = [(CompilerCommand.compile job).toEnvelope] := by
  cases hfind : KeyMap.find? c.pending (requestKey job) with
  | some waiters =>
    refine .inl ⟨?_, by rw [compile_open hfind]⟩
    by_contra hnone
    simp [(h.find?_eq_none_iff _).2 (not_exists.1 hnone)] at hfind
  | none =>
    refine .inr ⟨(h.find?_eq_none_iff _).1 hfind, ?_⟩
    rw [Connection.compile_new h.requestsOpen hfind]

/-- A call that has not been answered goes on waiting, whatever is not an answer to it. -/
theorem Unanswered.append {key : RequestKey} {n : Waiter} (h : Unanswered history key n)
    (later : List Event) (hlater : answer? key later = none) :
    Unanswered (history ++ later) key n := by
  obtain ⟨job, since, ⟨before, rfl, rfl⟩, hkey, hnone⟩ := h
  refine ⟨job, since ++ later, ⟨before, by simp, rfl⟩, hkey, ?_⟩
  rw [answer?, List.findSome?_append, ← answer?, hnone, ← answer?, hlater]
  rfl

/-- A request is outstanding if somebody waits for the answer to it. -/
theorem outstanding_iff (history : List Event) (key : RequestKey) :
    Outstanding history key ↔ ∃ n, Unanswered history key n := by
  constructor
  · rintro ⟨before, job, since, rfl, hkey, -, hnone⟩
    exact ⟨callCount before, job, since, ⟨before, rfl, rfl⟩, hkey, hnone⟩
  · -- The request was sent for the first who waits.
    intro hsome
    classical
    obtain ⟨job, since, ⟨before, rfl, hn⟩, rfl, hnone⟩ := Nat.find_spec hsome
    refine ⟨before, job, since, rfl, rfl, ?_, hnone⟩
    rcases (tracks_after before).sent_compile job with ⟨⟨m, hm⟩, -⟩ | ⟨-, hsent⟩
    · refine absurd (hm.append (.call job :: since) ?_) (Nat.find_min hsome ?_)
      · exact hnone
      · obtain ⟨_, _, hcalled, -⟩ := hm
        rw [hn]
        exact hcalled.lt
    · rw [hsent]
      simp

/-- A call has been told of the first answer to its key since, and of no other. -/
theorem Called.mem_told_iff {n : Waiter} {job : CompileJob} {since : List Event}
    (h : Called history n job since) (result : Except EngineError CompileOutcome) :
    (n, result) ∈ told history ↔
      ∃ outcome, answer? (requestKey job) since = some outcome ∧ result = .ok outcome := by
  rw [Client.mem_told_iff]
  constructor
  · rintro ⟨job', since', outcome, hcalled', hanswer, rfl⟩
    obtain ⟨rfl, rfl⟩ := h.unique hcalled'
    exact ⟨outcome, hanswer, rfl⟩
  · rintro ⟨outcome, hanswer, rfl⟩
    exact ⟨job, since, outcome, h, hanswer, rfl⟩

/-- What comes before an answer makes no difference to what the answer is. -/
theorem answer?_append_call {key : RequestKey} {between : List Event} (job : CompileJob)
    (since : List Event) (hnone : answer? key between = none) :
    answer? key (between ++ .call job :: since) = answer? key since := by
  rw [answer?, List.findSome?_append, ← answer?, hnone]
  rfl

/-! ## What is on its way -/

theorem inFlight_eq_ncard (hnodup : (KeyMap.keys c.pending).Nodup) :
    c.inFlight = {key | key ∈ KeyMap.keys c.pending}.ncard := by
  rw [← List.coe_toFinset, Set.ncard_coe_finset, List.toFinset_card_of_nodup hnodup, inFlight,
    KeyMap.keys, List.length_map]

theorem Tracks.inFlight_eq (h : Tracks history c) :
    c.inFlight = {key | Outstanding history key}.ncard := by
  rw [inFlight_eq_ncard h.nodup_keys]
  congr 1
  ext key
  rw [Set.mem_ofPred_eq, Set.mem_ofPred_eq, outstanding_iff, KeyMap.mem_keys_iff,
    Option.isSome_iff_ne_none, Ne, h.find?_eq_none_iff, not_forall_not]

/-- What answers no outstanding request changes nothing. -/
theorem Tracks.receive_eq_self (h : Tracks history c) {message : Envelope}
    (hnot : ∀ key outcome, outcome? message = some (key, outcome) → ¬ Outstanding history key) :
    c.receive message = (c, {}) := by
  cases hreply : outcome? message with
  | none => exact receive_of_none hreply
  | some answer =>
    obtain ⟨key, outcome⟩ := answer
    have hnone : KeyMap.find? c.pending key = none := by
      rw [h.find?_eq_none_iff, ← not_exists, ← outstanding_iff]
      exact hnot key outcome hreply
    rw [receive_of_some h.repliesOpen hreply, hnone, KeyMap.erase_eq_self hnone]
    rfl

/-! ## What callers can rely on -/

/-- What callers can rely on after any history. -/
structure Correlated (history : List Event) : Prop where
  /-- A request is sent for a call, unless an earlier call with its key has not been answered. -/
  sent : ∀ job,
    (∃ n, Unanswered history (requestKey job) n) ∧ ((after history).compile job).2.sent = [] ∨
      (∀ n, ¬ Unanswered history (requestKey job) n) ∧
        ((after history).compile job).2.sent = [(CompilerCommand.compile job).toEnvelope]
  /-- A call has been told of the first answer to its key since, and of no other. -/
  told : ∀ n job since, Called history n job since → ∀ result, (n, result) ∈ Client.told history ↔
    ∃ outcome, answer? (requestKey job) since = some outcome ∧ result = .ok outcome
  /-- What a call has been told comes from a report on its own node and generation. -/
  reported : ∀ n job since, Called history n job since →
    ∀ result, (n, result) ∈ Client.told history →
    ∃ message outcome, .reply message ∈ since ∧ Reports job message outcome ∧ result = .ok outcome
  /-- Nobody is told twice. -/
  once : ((Client.told history).map Prod.fst).Nodup
  /-- Nobody is told anything who has not called. -/
  called : ∀ n result, (n, result) ∈ Client.told history → ∃ job since, Called history n job since
  /-- Whoever has joined a request is told the same as those who waited for it before. -/
  shared : ∀ n n' job job' between since, Called history n job (between ++ .call job' :: since) →
    Called history n' job' since → requestKey job = requestKey job' →
    answer? (requestKey job) between = none →
    ∀ result, (n, result) ∈ Client.told history ↔ (n', result) ∈ Client.told history
  inFlight : (after history).inFlight = {key | Outstanding history key}.ncard
  /-- What answers no outstanding request changes nothing. -/
  unchanged : ∀ message, (∀ key outcome, outcome? message = some (key, outcome) →
    ¬ Outstanding history key) → (after history).receive message = (after history, {})

/-- Every history of calls and replies is correlated. A call is one event, which enters its request
in the table and sends it; in `Traffic` these are two steps, between which others may come. While
both channels are open, the table and the results of the calls are the same there as for the
history in which each call stands where it begins. -/
theorem correlated (history : List Event) : Correlated history where
  sent := (tracks_after history).sent_compile
  told _ _ _ hcalled result := hcalled.mem_told_iff result
  reported n job since hcalled result hin := by
    obtain ⟨outcome, hanswer, rfl⟩ := (hcalled.mem_told_iff result).1 hin
    obtain ⟨message, hmessage, hreports⟩ := exists_reply_of_answer? hanswer
    exact ⟨message, outcome, hmessage, hreports, rfl⟩
  once := nodup_told history
  called n result hin := by
    obtain ⟨job, since, -, hcalled, -⟩ := (mem_told_iff history n result).1 hin
    exact ⟨job, since, hcalled⟩
  shared n n' job job' between since hcalled hcalled' hkey hnone result := by
    rw [hcalled.mem_told_iff, hcalled'.mem_told_iff, answer?_append_call job' since hnone, hkey]
  inFlight := (tracks_after history).inFlight_eq
  unchanged _ hnot := (tracks_after history).receive_eq_self hnot

end LayeredAccess.Compiler.Client
