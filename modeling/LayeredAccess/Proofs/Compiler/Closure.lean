/-
  LayeredAccess.Proofs.Compiler.Closure

  Calls whose steps interleave, and what becomes of them when the replies end.

  A call enters its request in the table, sends it if it is the first to ask for
  it, and withdraws it if it can not be sent. Between these steps other calls
  take theirs, replies arrive, and each of the two channels may close
  (`Traffic`). A call whose steps are not interrupted is a call of the client
  (`alone_eq`). While both channels are open the steps between do not matter:
  each call then ends as if it were made at once (`result?_open_run`).

  The end of the replies clears the table once. Whoever waits then is told, but
  a request that is entered later and can still be sent stays in the table: no
  reply comes for it any more, and it is not withdrawn (`closure_run`).
-/
import LayeredAccess.Proofs.Compiler.Correlation

namespace LayeredAccess.Compiler

open Connection (requestKey)
open Client (disconnected)

/-- What a caller is told in the end. -/
abbrev Result := Except EngineError CompileOutcome

/-- A client with the calls that are made to it. Calls are numbered in their order. -/
structure Traffic where
  client : Client := {}
  /-- The job of each call. -/
  calls : List CompileJob := []
  /-- The calls that have entered a request and are about to send it. -/
  posting : KeyMap Waiter CompileJob := []
  /-- The calls that could not send their request and are about to withdraw it. -/
  refused : KeyMap Waiter CompileJob := []
  /-- What has been put into the slots that callers wait on. -/
  slots : KeyMap Waiter Result := []
  /-- The calls that have withdrawn their request. -/
  failed : List Waiter := []
  /-- The requests that were withdrawn, each with the number of the next call at that time. -/
  withdrawals : List (RequestKey × Waiter) := []

/-- A step of a call, or something that happens to a channel. -/
inductive Move where
  /-- A call begins. -/
  | enter (job : CompileJob)
  /-- A call sends its request. -/
  | post (n : Waiter)
  /-- A call that could not send its request withdraws it. -/
  | withdraw (n : Waiter)
  | reply (message : Envelope)
  | closeRequests
  | closeReplies

namespace Traffic

/-- Those who wait for a request. -/
def waiters (t : Traffic) (key : RequestKey) : List Waiter :=
  (KeyMap.find? t.client.pending key).getD []

/-- A call joins the open request of its node and generation, or opens one. -/
def enter (t : Traffic) (job : CompileJob) : Traffic :=
  let n := t.client.nextWaiter
  if KeyMap.contains t.client.pending (requestKey job) then
    { t with
      client :=
        { t.client with
          pending := KeyMap.modify t.client.pending (requestKey job) (· ++ [n])
          nextWaiter := n + 1 }
      calls := t.calls ++ [job] }
  else
    { t with
      client :=
        { t.client with
          pending := t.client.pending ++ [(requestKey job, [n])]
          nextWaiter := n + 1 }
      calls := t.calls ++ [job]
      posting := t.posting ++ [(n, job)] }

/-- Closes a request: all who wait for it are told the same. -/
def settle (t : Traffic) (key : RequestKey) (result : Result) : Traffic :=
  { t with
    client := { t.client with pending := KeyMap.erase t.client.pending key }
    slots := t.slots ++ (t.waiters key).map fun w => (w, result) }

def step (t : Traffic) : Move → Traffic
  | .enter job => t.enter job
  | .post n =>
    match KeyMap.find? t.posting n with
    | none => t
    | some job =>
      match t.client.send (.compile job) with
      | .ok _ => { t with posting := KeyMap.erase t.posting n }
      | .error _ =>
        { t with posting := KeyMap.erase t.posting n, refused := t.refused ++ [(n, job)] }
  | .withdraw n =>
    match KeyMap.find? t.refused n with
    | none => t
    | some job =>
      { t.settle (requestKey job) (.error disconnected) with
        refused := KeyMap.erase t.refused n
        failed := t.failed ++ [n]
        withdrawals := t.withdrawals ++ [(requestKey job, t.client.nextWaiter)] }
  | .reply message =>
    { t with
      client := (t.client.receive message).1
      slots := t.slots ++ (t.client.receive message).2.done }
  | .closeRequests => { t with client := t.client.closeRequests }
  | .closeReplies =>
    { t with
      client := t.client.closeReplies.1
      slots := t.slots ++ t.client.closeReplies.2.done }

def run (t : Traffic) (moves : List Move) : Traffic := moves.foldl step t

/-- A call has steps to take before it waits. -/
def Busy (t : Traffic) (n : Waiter) : Prop :=
  (KeyMap.find? t.posting n).isSome ∨ (KeyMap.find? t.refused n).isSome

instance (t : Traffic) (n : Waiter) : Decidable (t.Busy n) :=
  inferInstanceAs (Decidable (_ ∨ _))

/-- What a call ends with: the error of its own send, or what is put into its slot. -/
def result? (t : Traffic) (n : Waiter) : Option Result :=
  if n ∈ t.failed then some (.error disconnected)
  else if t.Busy n then none
  else KeyMap.find? t.slots n

/-- Between calls: each has returned, or waits. -/
def AtRest (t : Traffic) : Prop := t.posting = [] ∧ t.refused = []

/-! ## What a step does to the table -/

variable {t : Traffic} {job : CompileJob} {key key' : RequestKey} {n : Waiter} {result : Result}

theorem find?_map_const (ws : List Waiter) (result : Result) (n : Waiter) :
    KeyMap.find? (ws.map fun w => (w, result)) n = if n ∈ ws then some result else none := by
  induction ws with
  | nil => rfl
  | cons w rest ih =>
    rw [List.map_cons, KeyMap.find?_cons, ih]
    by_cases hw : w = n
    · simp [hw]
    · simp [hw, Ne.symm hw]

/-- The call waits for its request, after those who have waited for it before. -/
theorem waiters_enter (t : Traffic) (job : CompileJob) (key : RequestKey) :
    (t.enter job).waiters key =
      t.waiters key ++ if requestKey job = key then [t.client.nextWaiter] else [] := by
  rw [enter, waiters, waiters]
  split
  · next hopen => exact KeyMap.getD_modify_concat hopen key _
  · next hnew => exact KeyMap.getD_append_singleton hnew key _

/-- A call that enters a request of its own is the one to send it. -/
theorem enter_cases (t : Traffic) (job : CompileJob) :
    (KeyMap.contains t.client.pending (requestKey job) = true ∧
      KeyMap.keys (t.enter job).client.pending = KeyMap.keys t.client.pending ∧
      (t.enter job).posting = t.posting) ∨
    (requestKey job ∉ KeyMap.keys t.client.pending ∧
      KeyMap.keys (t.enter job).client.pending = KeyMap.keys t.client.pending ++ [requestKey job] ∧
      (t.enter job).posting = t.posting ++ [(t.client.nextWaiter, job)]) := by
  rw [enter]
  split
  · next hopen =>
    refine .inl ⟨hopen, ?_, rfl⟩
    exact KeyMap.keys_modify t.client.pending (requestKey job) (· ++ [t.client.nextWaiter])
  · next hnew =>
    refine .inr ⟨fun hmem => hnew ((KeyMap.mem_keys_iff _ _).1 hmem), ?_, rfl⟩
    rw [KeyMap.keys, List.map_append]
    rfl

/-- What a call leaves alone when it begins. -/
theorem enter_eq (t : Traffic) (job : CompileJob) :
    (t.enter job).client.nextWaiter = t.client.nextWaiter + 1 ∧
      (t.enter job).client.requestsOpen = t.client.requestsOpen ∧
      (t.enter job).client.repliesOpen = t.client.repliesOpen ∧
      (t.enter job).calls = t.calls ++ [job] ∧ (t.enter job).refused = t.refused ∧
      (t.enter job).slots = t.slots ∧ (t.enter job).failed = t.failed ∧
      (t.enter job).withdrawals = t.withdrawals := by
  rw [enter]
  split <;> exact ⟨rfl, rfl, rfl, rfl, rfl, rfl, rfl, rfl⟩

theorem waiters_settle : (t.settle key result).waiters key' =
    if key = key' then [] else t.waiters key' := by
  rw [settle, waiters, KeyMap.find?_erase, waiters]
  split <;> rfl

theorem slots_settle : KeyMap.find? (t.settle key result).slots n =
    (KeyMap.find? t.slots n).or (if n ∈ t.waiters key then some result else none) := by
  rw [settle, KeyMap.find?_append, find?_map_const]

/-- While replies can arrive, an answer settles its request; nothing else has an effect. -/
theorem step_reply (t : Traffic) (message : Envelope) : t.step (.reply message) = t ∨
    t.client.repliesOpen = true ∧
      ∃ key outcome, t.step (.reply message) = t.settle key (.ok outcome) := by
  have hsame : ∀ output : Client × Client.Output, output = (t.client, {}) →
      ({ t with client := output.1, slots := t.slots ++ output.2.done } : Traffic) = t := by
    rintro _ rfl
    simp
  rw [step, Client.receive]
  split
  · next hopen =>
    cases Client.outcome? message with
    | none => exact .inl (hsame _ rfl)
    | some answer => exact .inr ⟨hopen, answer.1, answer.2, rfl⟩
  · exact .inl (hsame _ rfl)

theorem run_concat (moves : List Move) (move : Move) :
    t.run (moves ++ [move]) = (t.run moves).step move := by
  rw [run, List.foldl_append]
  rfl

/-! ## The table and the slots -/

/-- Nobody is told anything while he waits, and whoever does not wait has been told. -/
structure Sound (t : Traffic) : Prop where
  nextWaiter_eq : t.client.nextWaiter = t.calls.length
  nodup_keys : (KeyMap.keys t.client.pending).Nodup
  nonempty : ∀ key, KeyMap.find? t.client.pending key ≠ some []
  /-- Whoever waits for a request has asked for it. -/
  called : ∀ key n, n ∈ t.waiters key → ∃ job, t.calls[n]? = some job ∧ requestKey job = key
  mem_waiters_iff : ∀ n job, t.calls[n]? = some job →
    (n ∈ t.waiters (requestKey job) ↔ KeyMap.find? t.slots n = none)
  told : ∀ n, KeyMap.find? t.slots n ≠ none → n < t.calls.length
  posting_called : ∀ n job, KeyMap.find? t.posting n = some job → t.calls[n]? = some job
  refused_called : ∀ n job, KeyMap.find? t.refused n = some job → t.calls[n]? = some job
  /-- A call that has failed has withdrawn its request. -/
  failed_withdrawn : ∀ n ∈ t.failed, ∃ job b, t.calls[n]? = some job ∧ n < b ∧
    (requestKey job, b) ∈ t.withdrawals
  withdrawals_le : ∀ w ∈ t.withdrawals, w.2 ≤ t.calls.length
  /-- No request is withdrawn while requests can be sent. -/
  clean : t.client.requestsOpen = true → t.refused = [] ∧ t.failed = [] ∧ t.withdrawals = []

theorem getElem?_concat_eq_some_iff {α : Type} {xs : List α} {x y : α} {n : Nat} :
    (xs ++ [x])[n]? = some y ↔ xs[n]? = some y ∨ n = xs.length ∧ y = x := by
  rcases Nat.lt_trichotomy n xs.length with hn | rfl | hn
  · rw [List.getElem?_append_left hn]
    exact (or_iff_left fun h => Nat.ne_of_lt hn h.1).symm
  · simp [eq_comm]
  · simp [List.getElem?_append_right (Nat.le_of_lt hn), List.getElem?_eq_none (Nat.le_of_lt hn),
      Nat.ne_of_gt hn, Nat.sub_ne_zero_of_lt hn]

theorem lt_of_called {calls : List CompileJob} (h : calls[n]? = some job) : n < calls.length :=
  (List.getElem?_eq_some_iff.1 h).1

theorem sound_empty : Sound {} where
  nextWaiter_eq := rfl
  nodup_keys := List.nodup_nil
  nonempty _ h := nomatch h
  called _ _ h := nomatch h
  mem_waiters_iff _ _ h := nomatch h
  told _ h := absurd rfl h
  posting_called _ _ h := nomatch h
  refused_called _ _ h := nomatch h
  failed_withdrawn _ h := nomatch h
  withdrawals_le _ h := nomatch h
  clean _ := ⟨rfl, rfl, rfl⟩

namespace Sound

/-- A call waits for the request for its own job. -/
theorem requestKey_eq (h : Sound t) {key : RequestKey} (hwaits : n ∈ t.waiters key)
    (hcalled : t.calls[n]? = some job) : requestKey job = key := by
  obtain ⟨job', hjob', hkey⟩ := h.called key n hwaits
  obtain rfl : job' = job := Option.some.inj (hjob'.symm.trans hcalled)
  exact hkey

/-- The next call is about to do nothing yet. -/
theorem find?_nextWaiter (h : Sound t) {m : KeyMap Waiter CompileJob}
    (hm : ∀ n job, KeyMap.find? m n = some job → t.calls[n]? = some job) :
    KeyMap.find? m t.client.nextWaiter = none := by
  by_contra hsome
  obtain ⟨job, hjob⟩ := Option.ne_none_iff_exists'.1 hsome
  have hlt := lt_of_called (hm _ job hjob)
  rw [h.nextWaiter_eq] at hlt
  exact Nat.lt_irrefl _ hlt

/-- No request is entered without the call that enters it. -/
theorem nonempty_enter (h : Sound t) (job : CompileJob) (key : RequestKey) :
    KeyMap.find? (t.enter job).client.pending key ≠ some [] := by
  intro hfind
  have hnobody : (t.enter job).waiters key = [] := by rw [waiters, hfind, Option.getD_some]
  have hentered : key ∈ KeyMap.keys (t.enter job).client.pending := by
    rw [KeyMap.mem_keys_iff, hfind, Option.isSome_some]
  rw [waiters_enter, List.append_eq_nil_iff] at hnobody
  obtain ⟨hbefore, hother⟩ := hnobody
  have hne : requestKey job ≠ key := fun heq => by simp [heq] at hother
  have hmem : key ∈ KeyMap.keys t.client.pending := by
    rcases t.enter_cases job with ⟨-, hkeys, -⟩ | ⟨-, hkeys, -⟩
    · rwa [hkeys] at hentered
    · rw [hkeys, List.mem_append, List.mem_singleton] at hentered
      exact hentered.resolve_right (Ne.symm hne)
  obtain ⟨ws, hws⟩ := Option.isSome_iff_exists.1 ((KeyMap.mem_keys_iff _ _).1 hmem)
  rw [waiters, hws, Option.getD_some] at hbefore
  exact h.nonempty key (hbefore ▸ hws)

/-- The calls after one has begun. -/
theorem calls_enter_iff (h : Sound t) {job' : CompileJob} : (t.enter job).calls[n]? = some job' ↔
    t.calls[n]? = some job' ∨ n = t.client.nextWaiter ∧ job' = job := by
  obtain ⟨-, -, -, hcalls, -⟩ := t.enter_eq job
  rw [hcalls, h.nextWaiter_eq]
  exact getElem?_concat_eq_some_iff

theorem called_enter (h : Sound t) (hn : n ∈ (t.enter job).waiters key) :
    ∃ job', (t.enter job).calls[n]? = some job' ∧ requestKey job' = key := by
  simp only [h.calls_enter_iff]
  rw [waiters_enter, List.mem_append] at hn
  rcases hn with hn | hn
  · obtain ⟨job', hcalled, hkey⟩ := h.called key n hn
    exact ⟨job', .inl hcalled, hkey⟩
  · split at hn
    · next hkey => exact ⟨job, .inr ⟨List.mem_singleton.1 hn, rfl⟩, hkey⟩
    · exact absurd hn List.not_mem_nil

/-- The call that begins waits and has been told nothing; the others wait as before. -/
theorem mem_waiters_enter_iff (h : Sound t) {job' : CompileJob}
    (hn : (t.enter job).calls[n]? = some job') :
    n ∈ (t.enter job).waiters (requestKey job') ↔ KeyMap.find? (t.enter job).slots n = none := by
  obtain ⟨-, -, -, -, -, hslots, -⟩ := t.enter_eq job
  rw [waiters_enter, hslots, List.mem_append]
  rcases h.calls_enter_iff.1 hn with hn | ⟨rfl, rfl⟩
  · rw [h.mem_waiters_iff n job' hn]
    refine or_iff_left fun hnew => ?_
    split at hnew
    · rw [List.mem_singleton, h.nextWaiter_eq] at hnew
      exact Nat.ne_of_lt (lt_of_called hn) hnew
    · exact absurd hnew List.not_mem_nil
  · have hempty : KeyMap.find? t.slots t.client.nextWaiter = none := by
      by_contra hsome
      exact Nat.lt_irrefl _ (h.nextWaiter_eq ▸ h.told _ hsome)
    rw [if_pos rfl]
    exact iff_of_true (.inr (List.mem_singleton_self _)) hempty

theorem posting_called_enter (h : Sound t) {job' : CompileJob}
    (hn : KeyMap.find? (t.enter job).posting n = some job') :
    (t.enter job).calls[n]? = some job' := by
  rw [h.calls_enter_iff]
  rcases t.enter_cases job with ⟨-, -, hposting⟩ | ⟨-, -, hposting⟩
  · rw [hposting] at hn
    exact .inl (h.posting_called n job' hn)
  · rw [hposting, KeyMap.find?_append, Option.or_eq_some_iff] at hn
    rcases hn with hn | ⟨-, hn⟩
    · exact .inl (h.posting_called n job' hn)
    · exact .inr (Prod.mk.inj (List.mem_singleton.1 (KeyMap.mem_of_find? hn)))

/-- A call that begins waits, whether it joins others or is about to send its request. -/
theorem enter (h : Sound t) (job : CompileJob) : Sound (t.enter job) := by
  obtain ⟨hnext, hrequests, -, hcalls, hrefused, hslots, hfailed, hwithdrawals⟩ := t.enter_eq job
  have hlength : (t.enter job).calls.length = t.calls.length + 1 := by
    rw [hcalls, List.length_append]
    rfl
  refine ⟨?nextWaiter_eq, ?nodup_keys, h.nonempty_enter job, fun _ _ => h.called_enter,
    fun _ _ => h.mem_waiters_enter_iff, fun m hm => ?told, fun _ _ => h.posting_called_enter,
    fun m j hm => ?refused_called, fun m hm => ?failed_withdrawn, fun w hw => ?withdrawals_le,
    fun hopen => ?clean⟩
  case nextWaiter_eq => rw [hnext, hlength, h.nextWaiter_eq]
  -- A key is only added if there is no request of it.
  case nodup_keys =>
    rcases t.enter_cases job with ⟨-, hkeys, -⟩ | ⟨hkey, hkeys, -⟩
    · rw [hkeys]
      exact h.nodup_keys
    · rw [hkeys, ← List.concat_eq_append]
      exact List.Nodup.concat hkey h.nodup_keys
  case told =>
    rw [hslots] at hm
    exact hlength ▸ Nat.lt_succ_of_lt (h.told m hm)
  case refused_called => exact h.calls_enter_iff.2 (.inl (h.refused_called m j (hrefused ▸ hm)))
  case failed_withdrawn =>
    obtain ⟨j, b, hj, hb, hmem⟩ := h.failed_withdrawn m (hfailed ▸ hm)
    exact ⟨j, b, h.calls_enter_iff.2 (.inl hj), hb, hwithdrawals ▸ hmem⟩
  case withdrawals_le => exact hlength ▸ Nat.le_succ_of_le (h.withdrawals_le w (hwithdrawals ▸ hw))
  case clean =>
    rw [hrefused, hfailed, hwithdrawals]
    exact h.clean (hrequests ▸ hopen)

/-- Whoever waited for a request that is settled has been told. -/
theorem settle (h : Sound t) (key : RequestKey) (result : Result) :
    Sound (t.settle key result) := by
  refine ⟨h.nextWaiter_eq, ?nodup_keys, fun key' hfind => ?nonempty, fun key' m hm => ?called,
    fun m j hm => ?mem_waiters_iff, fun m hm => ?told, h.posting_called, h.refused_called,
    h.failed_withdrawn, h.withdrawals_le, h.clean⟩
  case nodup_keys =>
    rw [Traffic.settle, KeyMap.keys_erase]
    exact h.nodup_keys.filter _
  case nonempty =>
    rw [Traffic.settle, KeyMap.find?_erase] at hfind
    split at hfind
    · cases hfind
    · exact h.nonempty key' hfind
  case called =>
    rw [waiters_settle] at hm
    split at hm
    · simp at hm
    · exact h.called key' m hm
  -- Who waited for the request has been told, and nobody else has.
  case mem_waiters_iff =>
    rw [waiters_settle, slots_settle]
    have hiff := h.mem_waiters_iff m j hm
    by_cases hkey : key = requestKey j
    · rw [if_pos hkey, hkey]
      by_cases hwaits : m ∈ t.waiters (requestKey j)
      · simp [hwaits]
      · simp [hwaits, ← hiff]
    · rw [if_neg hkey, if_neg, Option.or_none]
      · exact hiff
      · exact fun hwaits => hkey (h.requestKey_eq hwaits hm).symm
  case told =>
    rw [slots_settle, Ne, Option.or_eq_none_iff, not_and_or] at hm
    rcases hm with hm | hm
    · exact h.told m hm
    · split at hm
      · next hwaits =>
        obtain ⟨j, hj, -⟩ := h.called key m hwaits
        exact lt_of_called hj
      · exact absurd rfl hm

/-- All who wait are in the table. -/
theorem mem_flatMap_iff (h : Sound t) (n : Waiter) :
    n ∈ t.client.pending.flatMap (·.2) ↔ ∃ key, n ∈ t.waiters key := by
  rw [List.mem_flatMap]
  constructor
  · rintro ⟨⟨key, ws⟩, hmem, hn⟩
    exact ⟨key, by rwa [waiters, KeyMap.find?_of_nodup h.nodup_keys hmem, Option.getD_some]⟩
  · rintro ⟨key, hn⟩
    rw [waiters] at hn
    cases hws : KeyMap.find? t.client.pending key with
    | none =>
      rw [hws] at hn
      simp at hn
    | some ws => exact ⟨(key, ws), KeyMap.mem_of_find? hws, by simpa [hws] using hn⟩

/-- Replies end once. -/
theorem closeReplies_eq_self (hclosed : t.client.repliesOpen = false) :
    t.step .closeReplies = t := by
  rw [step, Client.closeReplies, hclosed]
  simp

/-- Where replies end, all who wait are told the same. -/
theorem slots_closeReplies (hopen : t.client.repliesOpen = true) (n : Waiter) :
    KeyMap.find? (t.step .closeReplies).slots n = (KeyMap.find? t.slots n).or
      (if n ∈ t.client.pending.flatMap (·.2) then some (.error disconnected) else none) := by
  have hdone : t.client.closeReplies.2.done =
      (t.client.pending.flatMap (·.2)).map fun w => (w, .error disconnected) := by
    rw [Client.closeReplies, if_pos hopen, List.map_flatMap]
  rw [step, hdone, KeyMap.find?_append, find?_map_const]

theorem closeReplies (h : Sound t) : Sound (t.step .closeReplies) := by
  cases hopen : t.client.repliesOpen with
  | false => rwa [closeReplies_eq_self hopen]
  | true =>
    have hslots := slots_closeReplies hopen
    have hclient : (t.step .closeReplies).client =
        { t.client with pending := [], repliesOpen := false } := by
      rw [step, Client.closeReplies, if_pos hopen]
    have hnobody : ∀ key, (t.step .closeReplies).waiters key = [] := by
      intro key
      rw [waiters, hclient]
      rfl
    refine ⟨?nextWaiter_eq, ?nodup_keys, fun key hfind => ?nonempty, fun key m hm => ?called,
      fun m j hm => ?mem_waiters_iff, fun m hm => ?told, h.posting_called, h.refused_called,
      h.failed_withdrawn, h.withdrawals_le, fun hrequests => ?clean⟩
    case nextWaiter_eq =>
      rw [hclient]
      exact h.nextWaiter_eq
    case nodup_keys =>
      rw [hclient]
      exact List.nodup_nil
    case nonempty =>
      rw [hclient] at hfind
      cases hfind
    case called =>
      rw [hnobody] at hm
      simp at hm
    -- Nobody waits any more, since whoever had not been told is told now.
    case mem_waiters_iff =>
      rw [hnobody, hslots]
      refine iff_of_false (by simp) fun hnone => ?_
      obtain ⟨hempty, hnot⟩ := Option.or_eq_none_iff.1 hnone
      rw [if_pos ((h.mem_flatMap_iff m).2 ⟨_, (h.mem_waiters_iff m j hm).2 hempty⟩)] at hnot
      cases hnot
    case told =>
      rw [hslots, Ne, Option.or_eq_none_iff, not_and_or] at hm
      rcases hm with hm | hm
      · exact h.told m hm
      · split at hm
        · next hwaits =>
          obtain ⟨key, hkey⟩ := (h.mem_flatMap_iff m).1 hwaits
          obtain ⟨j, hj, -⟩ := h.called key m hkey
          exact lt_of_called hj
        · exact absurd rfl hm
    case clean =>
      rw [hclient] at hrequests
      exact h.clean hrequests

theorem post (h : Sound t) (n : Waiter) : Sound (t.step (.post n)) := by
  rw [step]
  cases hposting : KeyMap.find? t.posting n with
  | none => exact h
  | some job =>
    have hleft : ∀ m j, KeyMap.find? (KeyMap.erase t.posting n) m = some j →
        t.calls[m]? = some j := by
      intro m j hm
      rw [KeyMap.find?_erase] at hm
      split at hm
      · cases hm
      · exact h.posting_called m j hm
    -- If the request can not be sent, the call has yet to withdraw it.
    simp only [Client.send]
    split
    · exact { h with posting_called := hleft }
    · next hsend =>
      have hclosed : ¬ t.client.requestsOpen = true := by
        intro hopen
        rw [if_pos hopen] at hsend
        cases hsend
      refine { h with
        posting_called := hleft
        refused_called := fun m j hm => ?_
        clean := fun hopen => absurd hopen hclosed }
      rw [KeyMap.find?_append, Option.or_eq_some_iff] at hm
      rcases hm with hm | ⟨-, hm⟩
      · exact h.refused_called m j hm
      · obtain ⟨rfl, rfl⟩ := Prod.mk.inj (List.mem_singleton.1 (KeyMap.mem_of_find? hm))
        exact h.posting_called m j hposting

theorem withdraw (h : Sound t) (n : Waiter) : Sound (t.step (.withdraw n)) := by
  rw [step]
  cases hrefused : KeyMap.find? t.refused n with
  | none => exact h
  | some job =>
    have hsettled := h.settle (requestKey job) (.error disconnected)
    have hcalled := h.refused_called n job hrefused
    -- A call only comes to withdraw its request when none can be sent.
    have hclosed : ¬ t.client.requestsOpen = true := by
      intro hopen
      rw [(h.clean hopen).1] at hrefused
      cases hrefused
    refine { hsettled with
      refused_called := fun m j hm => ?_
      failed_withdrawn := fun m hm => ?_
      withdrawals_le := fun w hw => ?_
      clean := fun hopen => absurd hopen hclosed }
    · rw [KeyMap.find?_erase] at hm
      split at hm
      · cases hm
      · exact h.refused_called m j hm
    · rcases List.mem_append.1 hm with hm | hm
      · obtain ⟨j, b, hj, hb, hmem⟩ := h.failed_withdrawn m hm
        exact ⟨j, b, hj, hb, List.mem_append_left _ hmem⟩
      · rw [List.mem_singleton.1 hm]
        refine ⟨job, _, hcalled, ?_, List.mem_append_right _ (List.mem_singleton_self _)⟩
        rw [h.nextWaiter_eq]
        exact lt_of_called hcalled
    · rcases List.mem_append.1 hw with hw | hw
      · exact h.withdrawals_le w hw
      · rw [List.mem_singleton.1 hw]
        exact Nat.le_of_eq h.nextWaiter_eq

/-- Every step keeps the table and the slots in accord. -/
theorem step (h : Sound t) (move : Move) : Sound (t.step move) := by
  cases move with
  | enter job => exact h.enter job
  | post n => exact h.post n
  | withdraw n => exact h.withdraw n
  | reply message =>
    rcases step_reply t message with hsame | ⟨-, key, outcome, hsettle⟩
    · rwa [hsame]
    · rw [hsettle]
      exact h.settle key _
  | closeRequests => exact { h with clean := fun hopen => nomatch hopen }
  | closeReplies => exact h.closeReplies

end Sound

theorem sound_run (moves : List Move) : Sound (run {} moves) := by
  induction moves using List.reverseRecOn with
  | nil => exact sound_empty
  | append_singleton moves move ih =>
    rw [run_concat]
    exact ih.step move

/-! ## While both channels are open -/

/-- A call that begins counts as a call, whenever it sends its request. -/
def event? : Move → Option Client.Event
  | .enter job => some (.call job)
  | .reply message => some (.reply message)
  | _ => none

/-- While requests can be sent, to begin is all that a call does to the table. -/
theorem enter_eq_compile (hopen : t.client.requestsOpen = true) (job : CompileJob) :
    (t.enter job).client = (t.client.compile job).1 ∧ (t.client.compile job).2.done = [] := by
  simp only [enter, Client.compile, Client.send, hopen, if_true, requestKey]
  split <;> exact ⟨rfl, rfl⟩

/-- While both channels are open, the table and the slots are those of a history in which every
call is one event. -/
theorem tables_open_run {moves : List Move} (hrequests : .closeRequests ∉ moves)
    (hreplies : .closeReplies ∉ moves) :
    (run {} moves).client = Client.after (moves.filterMap event?) ∧
      (run {} moves).slots = Client.told (moves.filterMap event?) := by
  induction moves using List.reverseRecOn with
  | nil => exact ⟨rfl, rfl⟩
  | append_singleton moves move ih =>
    simp only [List.mem_append, List.mem_singleton, not_or] at hrequests hreplies
    obtain ⟨hclient, hslots⟩ := ih hrequests.1 hreplies.1
    have hopen : (run {} moves).client.requestsOpen = true :=
      hclient ▸ (Client.tracks_after _).requestsOpen
    have hhistory : (moves ++ [move]).filterMap event? =
        moves.filterMap event? ++ (event? move).toList := by
      rw [List.filterMap_append]
      cases move <;> rfl
    rw [run_concat, hhistory]
    cases move with
    | enter job =>
      obtain ⟨hcompile, hdone⟩ := enter_eq_compile hopen job
      obtain ⟨-, -, -, -, -, hsame, -⟩ := (run {} moves).enter_eq job
      show _ = Client.after (_ ++ [.call job]) ∧ _ = Client.told (_ ++ [.call job])
      rw [Client.after_concat, Client.told_concat, ← hclient, ← hslots]
      exact ⟨hcompile, hsame.trans (by rw [Client.step, hdone, List.append_nil])⟩
    | reply message =>
      show _ = Client.after (_ ++ [.reply message]) ∧ _ = Client.told (_ ++ [.reply message])
      rw [Client.after_concat, Client.told_concat, ← hclient, ← hslots]
      exact ⟨rfl, rfl⟩
    | post n =>
      simp only [event?, Option.toList_none, List.append_nil, step, Client.send, hopen]
      split <;> exact ⟨hclient, hslots⟩
    -- No call comes to withdraw its request.
    | withdraw n =>
      simp only [event?, Option.toList_none, List.append_nil, step,
        ((sound_run moves).clean hopen).1, KeyMap.find?_nil]
      exact ⟨hclient, hslots⟩
    | closeRequests => exact absurd rfl hrequests.2
    | closeReplies => exact absurd rfl hreplies.2

/-- While both channels are open, a call that has sent its request, or has joined another, ends
with what it is told in the history. -/
theorem result?_open_run {moves : List Move} (hrequests : .closeRequests ∉ moves)
    (hreplies : .closeReplies ∉ moves) (n : Waiter) (result : Result) :
    (run {} moves).result? n = some result ↔
      ¬ (run {} moves).Busy n ∧ (n, result) ∈ Client.told (moves.filterMap event?) := by
  obtain ⟨hclient, hslots⟩ := tables_open_run hrequests hreplies
  have hopen : (run {} moves).client.requestsOpen = true :=
    hclient ▸ (Client.tracks_after _).requestsOpen
  have hmem : KeyMap.find? (run {} moves).slots n = some result ↔
      (n, result) ∈ Client.told (moves.filterMap event?) := by
    rw [hslots]
    exact ⟨KeyMap.mem_of_find?, KeyMap.find?_of_nodup (Client.nodup_told _)⟩
  rw [result?, ((sound_run moves).clean hopen).2.1, if_neg List.not_mem_nil]
  split
  · next hbusy => simp [hbusy]
  · next hbusy => simp [hbusy, hmem]

/-! ## After the replies have ended -/

/-- What has come of the calls since the replies ended. -/
structure Closed (t₀ t : Traffic) : Prop where
  repliesClosed : t.client.repliesOpen = false
  requestsClosed : t₀.client.requestsOpen = false → t.client.requestsOpen = false
  /-- Whoever had called was told at the end, unless he had been told before. -/
  early : ∀ n < t₀.calls.length,
    KeyMap.find? t.slots n = some ((KeyMap.find? t₀.slots n).getD (.error disconnected))
  /-- Whoever calls later is told when the request is withdrawn, and of nothing else. -/
  late : ∀ n job, t₀.calls.length ≤ n → t.calls[n]? = some job → ∀ result,
    KeyMap.find? t.slots n = some result ↔
      result = .error disconnected ∧ ∃ b, n < b ∧ (requestKey job, b) ∈ t.withdrawals
  /-- Where no request can be sent, the table has only those that are about to be withdrawn. -/
  opener : t₀.client.requestsOpen = false → ∀ key ∈ KeyMap.keys t.client.pending, ∃ n job,
    requestKey job = key ∧
      (KeyMap.find? t.posting n = some job ∨ KeyMap.find? t.refused n = some job)

theorem closed_start (h : Sound t) (hopen : t.client.repliesOpen = true) :
    Closed t (t.step .closeReplies) := by
  have hclient : (t.step .closeReplies).client =
      { t.client with pending := [], repliesOpen := false } := by
    rw [step, Client.closeReplies, if_pos hopen]
  refine ⟨by rw [hclient], fun hrequests => by rw [hclient]; exact hrequests, fun n hn => ?_,
    fun n job hn hcalled => ?_, fun _ key hkey => ?_⟩
  · have hcalled : t.calls[n]? = some t.calls[n] := List.getElem?_eq_getElem hn
    rw [Sound.slots_closeReplies hopen]
    cases hslot : KeyMap.find? t.slots n with
    | some result => rfl
    | none =>
      rw [if_pos ((h.mem_flatMap_iff n).2 ⟨_, (h.mem_waiters_iff n _ hcalled).2 hslot⟩)]
      rfl
  · exact absurd (lt_of_called hcalled) (Nat.not_lt.2 hn)
  · rw [hclient] at hkey
    cases hkey

namespace Closed

variable {t₀ : Traffic}

theorem enter (h : Closed t₀ t) (hsound : Sound t) (job : CompileJob) :
    Closed t₀ (t.enter job) := by
  obtain ⟨-, hrequests, hreplies, hcalls, hrefused, hslots, -, hwithdrawals⟩ := t.enter_eq job
  refine ⟨hreplies.trans h.repliesClosed, fun hclosed => hrequests.trans (h.requestsClosed hclosed),
    fun n hn => ?_, fun n j hn hcalled result => ?_, fun hclosed key hkey => ?_⟩
  -- Those who called before the replies ended, then those who have called since, then the requests.
  · rw [hslots]
    exact h.early n hn
  · rw [hslots, hwithdrawals]
    rw [hcalls, getElem?_concat_eq_some_iff] at hcalled
    rcases hcalled with hcalled | ⟨rfl, rfl⟩
    · exact h.late n j hn hcalled result
    · -- The new call waits, and nothing has been withdrawn since it began.
      constructor
      · intro htold
        exact absurd (hsound.told _ (by rw [htold]; simp)) (Nat.lt_irrefl _)
      · rintro ⟨-, b, hb, hmem⟩
        exact absurd (hsound.withdrawals_le _ hmem) (Nat.not_le.2 hb)
  · rw [hrefused]
    -- Who joins a request leaves its opener alone; who opens one is its opener.
    rcases t.enter_cases job with ⟨-, hkeys, hposting⟩ | ⟨-, hkeys, hposting⟩
    · rw [hposting]
      exact h.opener hclosed key (hkeys ▸ hkey)
    · rw [hkeys, List.mem_append, List.mem_singleton] at hkey
      rcases hkey with hkey | rfl
      · obtain ⟨n, j, hj, hn⟩ := h.opener hclosed key hkey
        refine ⟨n, j, hj, hn.imp_left fun hfind => ?_⟩
        rw [hposting, KeyMap.find?_append, hfind, Option.some_or]
      · refine ⟨t.client.nextWaiter, job, rfl, .inl ?_⟩
        have hnone := hsound.find?_nextWaiter hsound.posting_called
        rw [hposting, KeyMap.find?_append, hnone, Option.none_or, KeyMap.find?_cons, if_pos rfl]

theorem post (h : Closed t₀ t) (hsound : Sound t) (n : Waiter) :
    Closed t₀ (t.step (.post n)) := by
  rw [Traffic.step]
  cases hposting : KeyMap.find? t.posting n with
  | none => exact h
  | some job =>
    simp only [Client.send]
    split
    · next hsend =>
      refine { h with opener := fun hclosed => ?_ }
      rw [h.requestsClosed hclosed] at hsend
      cases hsend
    · refine { h with opener := fun hclosed key hkey => ?_ }
      obtain ⟨m, j, hj, hm⟩ := h.opener hclosed key hkey
      by_cases hnm : n = m
      · subst hnm
        -- The call that was to send the request now is to withdraw it.
        have hsame : j = job := by
          have hcalled : t.calls[n]? = some j :=
            hm.elim (hsound.posting_called n j) (hsound.refused_called n j)
          exact Option.some.inj (hcalled.symm.trans (hsound.posting_called n job hposting))
        cases hrefused : KeyMap.find? t.refused n with
        | none =>
          refine ⟨n, job, hsame ▸ hj, .inr ?_⟩
          rw [KeyMap.find?_append, hrefused, Option.none_or, KeyMap.find?_cons, if_pos rfl]
        | some j' =>
          have hsame' : j' = job := Option.some.inj
            ((hsound.refused_called n j' hrefused).symm.trans
              (hsound.posting_called n job hposting))
          refine ⟨n, j', (hsame'.trans hsame.symm) ▸ hj, .inr ?_⟩
          rw [KeyMap.find?_append, hrefused, Option.some_or]
      · refine ⟨m, j, hj, hm.imp (fun hfind => ?_) fun hfind => ?_⟩
        · rw [KeyMap.find?_erase, if_neg hnm]
          exact hfind
        · rw [KeyMap.find?_append, hfind, Option.some_or]

/-- A later call waits for its request, and goes on waiting until that one is withdrawn. -/
theorem late_withdraw (h : Closed t₀ t) (hsound : Sound t) (key : RequestKey) {m : Waiter}
    {j : CompileJob} (hm : t₀.calls.length ≤ m) (hcalled : t.calls[m]? = some j)
    (result : Result) :
    KeyMap.find? (t.settle key (.error disconnected)).slots m = some result ↔
      result = .error disconnected ∧ ∃ b, m < b ∧
        (requestKey j, b) ∈ t.withdrawals ++ [(key, t.client.nextWaiter)] := by
  have hlate := h.late m j hm hcalled
  have hbefore : m < t.client.nextWaiter := hsound.nextWaiter_eq ▸ lt_of_called hcalled
  rw [slots_settle]
  -- Who has been told already is told nothing else; whoever waits still is told by this withdrawal
  -- if he waits for its request.
  cases hslot : KeyMap.find? t.slots m with
  | some told =>
    obtain ⟨rfl, b, hb, hmem⟩ := (hlate told).1 hslot
    rw [Option.some_or, Option.some.injEq, eq_comm]
    exact iff_self_and.2 fun _ => ⟨b, hb, List.mem_append_left _ hmem⟩
  | none =>
    have hnot : ∀ b, m < b → (requestKey j, b) ∉ t.withdrawals := by
      intro b hb hmem
      have htold := (hlate _).2 ⟨rfl, b, hb, hmem⟩
      rw [hslot] at htold
      cases htold
    by_cases hkey : key = requestKey j
    · rw [hkey, if_pos ((hsound.mem_waiters_iff m j hcalled).2 hslot), Option.none_or,
        Option.some.injEq, eq_comm]
      refine iff_self_and.2 fun _ => ⟨t.client.nextWaiter, hbefore, ?_⟩
      exact List.mem_append_right _ (List.mem_singleton_self _)
    · rw [if_neg fun hin => hkey (hsound.requestKey_eq hin hcalled).symm, Option.none_or]
      refine iff_of_false (by simp) ?_
      rintro ⟨-, b, hb, hmem⟩
      rcases List.mem_append.1 hmem with hmem | hmem
      · exact hnot b hb hmem
      · exact hkey (Prod.mk.inj (List.mem_singleton.1 hmem)).1.symm

theorem withdraw (h : Closed t₀ t) (hsound : Sound t) (n : Waiter) :
    Closed t₀ (t.step (.withdraw n)) := by
  rw [Traffic.step]
  cases hrefused : KeyMap.find? t.refused n with
  | none => exact h
  | some job =>
    refine ⟨h.repliesClosed, h.requestsClosed, fun m hm => ?_, fun m j hm hcalled =>
      h.late_withdraw hsound (requestKey job) hm hcalled, fun hclosed key hkey => ?_⟩
    · show KeyMap.find? (t.settle (requestKey job) (.error disconnected)).slots m = _
      rw [slots_settle, h.early m hm, Option.some_or]
    · have hkeys : key ∈ KeyMap.keys (KeyMap.erase t.client.pending (requestKey job)) := hkey
      rw [KeyMap.keys_erase, List.mem_filter] at hkeys
      obtain ⟨hin, hne⟩ := hkeys
      obtain ⟨m, j, hj, hm⟩ := h.opener hclosed key hin
      refine ⟨m, j, hj, hm.imp_right fun hfind => ?_⟩
      show KeyMap.find? (KeyMap.erase t.refused n) m = some j
      rw [KeyMap.find?_erase, if_neg]
      · exact hfind
      -- Otherwise the request in question would be the one that is withdrawn.
      · rintro rfl
        obtain rfl : job = j := Option.some.inj (hrefused.symm.trans hfind)
        simp [hj] at hne

/-- What holds of the calls since the replies ended, each step keeps. -/
theorem step (h : Closed t₀ t) (hsound : Sound t) (move : Move) : Closed t₀ (t.step move) := by
  cases move with
  | enter job => exact h.enter hsound job
  | post n => exact h.post hsound n
  | withdraw n => exact h.withdraw hsound n
  | reply message =>
    rcases step_reply t message with hsame | ⟨hopen, -⟩
    · rwa [hsame]
    · rw [h.repliesClosed] at hopen
      cases hopen
  | closeRequests => exact { h with requestsClosed := fun _ => rfl }
  | closeReplies => rwa [Sound.closeReplies_eq_self h.repliesClosed]

end Closed

/-! ## What the end of the replies means -/

/-- What becomes of calls if the replies end: before, and after some more steps. -/
structure Ends (t₀ t : Traffic) : Prop where
  /-- Whoever was waiting then ends with an internal error. -/
  waiting : ∀ n < t₀.calls.length, KeyMap.find? t₀.slots n = none → ¬ t.Busy n →
    t.result? n = some (.error disconnected)
  /-- Whoever had been told before ends with that, if he could send his request. -/
  told : ∀ n result, KeyMap.find? t₀.slots n = some result → ¬ t.Busy n →
    t.result? n = some result ∨ t.result? n = some (.error disconnected)
  /-- Whoever calls later ends when a request for the same job is withdrawn, and else never. -/
  later : ∀ n job, t₀.calls.length ≤ n → t.calls[n]? = some job → ¬ t.Busy n → ∀ result,
    t.result? n = some result ↔
      result = .error disconnected ∧ ∃ b, n < b ∧ (requestKey job, b) ∈ t.withdrawals
  /-- So nobody who calls later ends while requests can be sent. -/
  forsaken : t.client.requestsOpen = true → ∀ n, t₀.calls.length ≤ n → t.result? n = none
  /-- Between calls the open requests are those of the later calls that have not ended. -/
  inFlight_eq : t.AtRest → t.client.inFlight =
    {key | ∃ n job, t₀.calls.length ≤ n ∧ t.calls[n]? = some job ∧ requestKey job = key ∧
      t.result? n = none}.ncard
  /-- There are none if requests had ended first. -/
  inFlight_eq_zero : t₀.client.requestsOpen = false → t.AtRest → t.client.inFlight = 0

theorem AtRest.not_busy (h : t.AtRest) (n : Waiter) : ¬ t.Busy n := by
  rw [Busy, h.1, h.2]
  simp

/-- A call that waits, or has waited, ends with what is in its slot. -/
theorem Sound.result?_eq_none_iff {t₀ : Traffic} (h : Sound t) (hclosed : Closed t₀ t)
    (hbusy : ¬ t.Busy n) (hn : t₀.calls.length ≤ n) :
    t.result? n = none ↔ KeyMap.find? t.slots n = none := by
  rw [result?]
  split
  · next hfailed =>
    obtain ⟨job, b, hcalled, hb, hmem⟩ := h.failed_withdrawn n hfailed
    have hslot := (hclosed.late n job hn hcalled _).2 ⟨rfl, b, hb, hmem⟩
    simp [hslot]
  · exact Iff.rfl

theorem Closed.mem_keys_iff {t₀ : Traffic} (hclosed : Closed t₀ t) (h : Sound t)
    (hrest : t.AtRest) (key : RequestKey) : key ∈ KeyMap.keys t.client.pending ↔
      ∃ n job, t₀.calls.length ≤ n ∧ t.calls[n]? = some job ∧ requestKey job = key ∧
        t.result? n = none := by
  constructor
  · intro hkey
    obtain ⟨ws, hws⟩ := Option.isSome_iff_exists.1 ((KeyMap.mem_keys_iff _ _).1 hkey)
    have hsome : ws ≠ [] := fun hnil => h.nonempty key (hnil ▸ hws)
    obtain ⟨n, hn⟩ := List.exists_mem_of_ne_nil ws hsome
    have hwaits : n ∈ t.waiters key := by rwa [waiters, hws, Option.getD_some]
    obtain ⟨job, hcalled, rfl⟩ := h.called key n hwaits
    have hslot := (h.mem_waiters_iff n job hcalled).1 hwaits
    have hlate : t₀.calls.length ≤ n := by
      by_contra hearly
      rw [hclosed.early n (Nat.lt_of_not_le hearly)] at hslot
      cases hslot
    exact ⟨n, job, hlate, hcalled, rfl,
      (h.result?_eq_none_iff hclosed (hrest.not_busy n) hlate).2 hslot⟩
  -- A call that has not ended waits, so that its request is open.
  · rintro ⟨n, job, hlate, hcalled, rfl, hnone⟩
    have hslot := (h.result?_eq_none_iff hclosed (hrest.not_busy n) hlate).1 hnone
    have hwaits := (h.mem_waiters_iff n job hcalled).2 hslot
    rw [KeyMap.mem_keys_iff]
    rw [waiters] at hwaits
    cases hws : KeyMap.find? t.client.pending (requestKey job) with
    | none =>
      rw [hws] at hwaits
      simp at hwaits
    | some ws => rfl

/-- What holds since the replies ended decides how the calls end. -/
theorem Closed.ends {t₀ : Traffic} (hclosed : Closed t₀ t) (h : Sound t) (h₀ : Sound t₀) :
    Ends t₀ t where
  -- Whoever was told before the replies ended keeps what he was told.
  waiting n hn hslot hbusy := by
    rw [result?, if_neg hbusy, hclosed.early n hn, hslot]
    split <;> rfl
  told n result hslot hbusy := by
    have hn : n < t₀.calls.length := h₀.told n (by rw [hslot]; simp)
    rw [result?, if_neg hbusy, hclosed.early n hn, hslot]
    split
    · exact .inr rfl
    · exact .inl rfl
  -- A later call only ends when its request is withdrawn.
  later n job hn hcalled hbusy result := by
    rw [← hclosed.late n job hn hcalled, result?, if_neg hbusy]
    split
    · next hfailed =>
      obtain ⟨job', b, hcalled', hb, hmem⟩ := h.failed_withdrawn n hfailed
      obtain rfl : job' = job := Option.some.inj (hcalled'.symm.trans hcalled)
      rw [(hclosed.late n job' hn hcalled _).2 ⟨rfl, b, hb, hmem⟩]
    · rfl
  -- While requests can be sent none is withdrawn, so that later calls wait for ever.
  forsaken hopen n hn := by
    obtain ⟨-, hfailed, hwithdrawals⟩ := h.clean hopen
    rw [result?, hfailed, if_neg List.not_mem_nil]
    split
    · rfl
    · cases hslot : KeyMap.find? t.slots n with
      | none => rfl
      | some result =>
        have hcalled := List.getElem?_eq_getElem (h.told n (by rw [hslot]; simp))
        obtain ⟨-, b, -, hmem⟩ := (hclosed.late n _ hn hcalled result).1 hslot
        rw [hwithdrawals] at hmem
        cases hmem
  -- What is in flight are the requests that are still open.
  inFlight_eq hrest := by
    rw [Client.inFlight_eq_ncard h.nodup_keys]
    congr 1
    ext key
    exact hclosed.mem_keys_iff h hrest key
  inFlight_eq_zero hrequests hrest := by
    rw [Client.inFlight, List.length_eq_zero_iff, List.eq_nil_iff_forall_not_mem]
    intro e he
    obtain ⟨n, job, -, hopener⟩ := hclosed.opener hrequests e.1 (List.mem_map_of_mem he)
    exact hrest.not_busy n (hopener.imp (fun hn => by rw [hn]; rfl) fun hn => by rw [hn]; rfl)

/-- The steps of a call that nothing interrupts. -/
def alone (t : Traffic) (job : CompileJob) : Traffic :=
  t.run [.enter job, .post t.client.nextWaiter, .withdraw t.client.nextWaiter]

/-- A call that nothing interrupts is a call of the client. -/
theorem alone_eq (h : Sound t) (job : CompileJob) :
    (t.alone job).client = (t.client.compile job).1 ∧
      (t.alone job).slots = t.slots ++ (t.client.compile job).2.done ∧
      (t.alone job).posting = t.posting ∧ (t.alone job).refused = t.refused := by
  have hposting := h.find?_nextWaiter h.posting_called
  have hrefused := h.find?_nextWaiter h.refused_called
  cases hopen : KeyMap.contains t.client.pending (requestKey job) with
  | true =>
    -- The call joins those who wait, and has nothing to send.
    have hcompile : t.client.compile job =
        ({ t.client with
            pending := KeyMap.modify t.client.pending (requestKey job) (· ++ [t.client.nextWaiter])
            nextWaiter := t.client.nextWaiter + 1 }, {}) := by
      rw [Client.compile]
      exact if_pos hopen
    simp only [alone, run, List.foldl_cons, List.foldl_nil, step, Traffic.enter, hopen, if_true,
      hposting, hrefused, hcompile, List.append_nil, and_self]
  | false =>
    have hnone : KeyMap.find? t.client.pending (requestKey job) = none := by
      simpa [KeyMap.contains] using hopen
    have hown : KeyMap.find? (t.posting ++ [(t.client.nextWaiter, job)]) t.client.nextWaiter =
        some job := by
      rw [KeyMap.find?_append, hposting, Option.none_or, KeyMap.find?_cons, if_pos rfl]
    cases hrequests : t.client.requestsOpen with
    | true =>
      simp only [alone, run, List.foldl_cons, List.foldl_nil, step, Traffic.enter, hopen,
        Bool.false_eq_true, if_false, hown, Client.send, hrequests, if_true,
        KeyMap.erase_concat_self hposting, hrefused, Connection.compile_new hrequests hnone,
        List.append_nil, and_self]
    | false =>
      have hback : KeyMap.find? (t.refused ++ [(t.client.nextWaiter, job)]) t.client.nextWaiter =
          some job := by
        rw [KeyMap.find?_append, hrefused, Option.none_or, KeyMap.find?_cons, if_pos rfl]
      have hentry : KeyMap.find? (t.client.pending ++ [(requestKey job, [t.client.nextWaiter])])
          (requestKey job) = some [t.client.nextWaiter] := by
        rw [KeyMap.find?_append, hnone, Option.none_or, KeyMap.find?_cons, if_pos rfl]
      have hcompile : t.client.compile job =
          ({ t.client with nextWaiter := t.client.nextWaiter + 1 },
            { done := [(t.client.nextWaiter, .error disconnected)] }) := by
        have hcontains : KeyMap.contains t.client.pending (job.id, job.generation) = false := hopen
        simp only [Client.compile, hcontains, Client.send, hrequests, Bool.false_eq_true, if_false]
      -- The request is entered and taken back.
      simp only [alone, run, List.foldl_cons, List.foldl_nil, step, Traffic.enter, hopen,
        Bool.false_eq_true, if_false, hown, Client.send, hrequests, hback, Traffic.settle, waiters,
        hentry, Option.getD_some, List.map_cons, List.map_nil,
        KeyMap.erase_concat_self hposting, KeyMap.erase_concat_self hrefused,
        KeyMap.erase_concat_self hnone, hcompile, and_self]

/-- When the replies end, whoever waits ends with an internal error. A call that is made later only
ends if a request for its job can not be sent any more; while requests can be sent it waits for
ever, and its request stays in the table. A call whose steps nothing interrupts is a call of the
client. -/
theorem closure_run (before after : List Move) :
    ((run {} before).client.repliesOpen = true →
      Ends (run {} before) (run {} (before ++ .closeReplies :: after))) ∧
    (∀ job : CompileJob,
      let t := run {} before
      (t.alone job).client = (t.client.compile job).1 ∧
        (t.alone job).slots = t.slots ++ (t.client.compile job).2.done ∧
        (t.alone job).posting = t.posting ∧ (t.alone job).refused = t.refused) := by
  refine ⟨fun hopen => ?_, fun job => alone_eq (sound_run before) job⟩
  have hboth : Closed (run {} before) (run {} (before ++ .closeReplies :: after)) := by
    induction after using List.reverseRecOn with
    | nil =>
      rw [run_concat]
      exact closed_start (sound_run before) hopen
    | append_singleton after move ih =>
      rw [← List.cons_append, ← List.append_assoc, run_concat]
      exact ih.step (sound_run _) move
  exact hboth.ends (sound_run _) (sound_run before)

/-- Two callers wait when the replies end, and a third one calls later: the first two have ended,
and the third one waits. -/
theorem closure_run_three :
    let job : CompileJob := { id := "a", generation := 1, dependencies := [], layers := [] }
    let before : List Move := [.enter job, .post 0, .enter job]
    let after : List Move := [.enter job, .post 2]
    (run {} before).client.repliesOpen = true ∧
      Ends (run {} before) (run {} (before ++ .closeReplies :: after)) ∧
      (run {} (before ++ .closeReplies :: after)).AtRest ∧
      (run {} (before ++ .closeReplies :: after)).result? 1 = some (.error disconnected) ∧
      (run {} (before ++ .closeReplies :: after)).result? 2 = none := by
  intro job before after
  have hopen : (run {} before).client.repliesOpen = true := by rfl
  exact ⟨hopen, (closure_run before after).1 hopen, ⟨by rfl, by rfl⟩, by rfl, by rfl⟩

/-- A call that is made when the replies have ended is sent and never ends: between calls its
request is in the table. -/
theorem forsaken_after_closure :
    let job : CompileJob := { id := "a", generation := 1, dependencies := [], layers := [] }
    let t := run {} [.closeReplies, .enter job, .post 0]
    t.client = ((({} : Client).closeReplies.1).compile job).1 ∧ t.AtRest ∧
      t.client.repliesOpen = false ∧ t.client.requestsOpen = true ∧
      t.client.inFlight = 1 ∧ t.result? 0 = none := by
  intro job t
  exact ⟨by rfl, ⟨by rfl, by rfl⟩, by rfl, by rfl, by rfl, by rfl⟩

end Traffic

end LayeredAccess.Compiler
