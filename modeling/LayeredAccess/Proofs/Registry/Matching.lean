/-
  LayeredAccess.Proofs.Registry.Matching

  A registry and a compiler elsewhere that it alone uses. Commands are on their
  way to the compiler in the order in which they were given, and answers are on
  their way back in no order at all.

  Most of what is on its way has been overtaken by what has happened in the
  registry since. `Matched` says what can be relied on: the compiler has the
  values that the registry holds, and a job or an answer that still counts is
  about the node as it is now. This is kept by every move, by the compiler when
  it carries out a command, and by the registry when it takes in an answer.
-/
import LayeredAccess.Proofs.Registry.Jobs
import LayeredAccess.Proofs.Registry.Outcome
import LayeredAccess.Proofs.Registry.Values

namespace LayeredAccess

/-- Can a command change what is cached of a node? -/
def CompilerCommand.Touches (k : String) : CompilerCommand → Prop
  | .compile job => job.id = k
  | .evict ids => k ∈ ids
  | .clear => True

/-- What is on its way between a registry and a compiler, and what the compiler has. -/
structure Traffic where
  /-- The jobs that have left the outbox, now or ever. -/
  given : List CompileJob
  /-- The commands that have left the outbox and are not yet carried out, oldest first. -/
  queue : List CompilerCommand
  cache : String → Option Json
  /-- Answers that may still be taken in, each with its node. -/
  answers : List (String × CompileOutcome)

namespace Outlook

/-- A job of a node counts: no other has been asked for since, and the node is ready for it. -/
def Live (o : Outlook) (k : String) (g : Nat) : Prop :=
  o.generations k = some g ∧ k ∉ o.due ∧ ∃ l, o.outline? k = some l ∧ l.ready = true

/-- The compiler has a value, and none of the commands on their way to it can change that. -/
def Rests (t : Traffic) (o : Outlook) (k : String) (x : Json) : Prop :=
  t.cache k = some x ∧ ∀ c ∈ t.queue ++ o.outbox, ¬ c.Touches k

/-- What is on its way matches the registry as it is now. -/
structure Matched (t : Traffic) (o : Outlook) : Prop extends Answerable t.given o where
  deferred_eq : o.deferred = true
  valued : o.Valued
  given_of_queue : ∀ job, .compile job ∈ t.queue → job ∈ t.given
  given_of_answers : ∀ a ∈ t.answers, ∃ job ∈ t.given,
    job.id = a.1 ∧ job.generation = a.2.generation
  held : ∀ k x, o.value? k = some x → o.Rests t k x
  /-- A job that counts asks for the value of the node as it is. -/
  current : ∀ job, .compile job ∈ t.queue ++ o.outbox → o.Live job.id job.generation →
    ∃ l, o.outline? job.id = some l ∧ job.dependencies = l.dependencies ∧ job.layers = l.layers
  /-- Nothing that follows a job that counts touches its node. -/
  last : (t.queue ++ o.outbox).Pairwise fun c c' => ∀ job, c = .compile job →
    o.Live job.id job.generation → ¬ c'.Touches job.id
  /-- An answer that counts brings the value of the node as it is. -/
  answered : ∀ a ∈ t.answers, o.Live a.1 a.2.generation → ∃ x,
    a.2 = .compiled a.2.generation x ∧ o.Rests t a.1 x ∧
      ∀ l, o.outline? a.1 = some l → (∀ d ∈ l.dependencies, (o.value? d).isSome) →
        x = o.expected l

variable {t : Traffic} {o o' : Outlook} {k : String} {l : Outline}

theorem Matched.le_generation_of_queue (h : Matched t o) {job : CompileJob}
    (hjob : .compile job ∈ t.queue ++ o.outbox) : job.generation ≤ o.generation := by
  refine h.le_generation job.id job.generation ⟨job, ?_, rfl, rfl⟩
  exact (List.mem_append.1 hjob).imp (h.given_of_queue job) id

theorem Matched.le_generation_of_answers (h : Matched t o) {a : String × CompileOutcome}
    (ha : a ∈ t.answers) : a.2.generation ≤ o.generation := by
  obtain ⟨job, hjob, hid, hgen⟩ := h.given_of_answers a ha
  exact h.le_generation a.1 a.2.generation ⟨job, .inl hjob, hid, hgen⟩

/-- While there are no nodes, nothing is on its way. -/
theorem matched_empty (hnone : ∀ k, o.outline? k = none) (houtbox : o.outbox = [])
    (hmode : o.deferred = true) (cache : String → Option Json) :
    Matched ⟨[], [], cache, []⟩ o := by
  have hissued : ∀ k g, ¬ o.Issued [] k g := by
    rintro k g ⟨job, hjob, -⟩
    rw [houtbox] at hjob
    exact hjob.elim List.not_mem_nil List.not_mem_nil
  refine ⟨⟨fun k g hi => absurd hi (hissued k g), fun k g hi => absurd hi (hissued k g)⟩, hmode,
    fun k l x hl => ?_, by simp, by simp, fun k x hx => ?_, ?_, ?_, by simp⟩
  · simp [hnone] at hl
  · simp [value?, hnone] at hx
  · simp [houtbox]
  · simp [houtbox]

/-! ## Changes in the registry -/

/-- What has to be seen to when the registry changes: commands may be dropped, and one may be
added, which must not touch what is relied on; no job of before comes to count again; and a node
whose job counts keeps its parts, and sees no new values. -/
structure Shifts (t : Traffic) (o o' : Outlook) (kept extra : List CompilerCommand) : Prop where
  outbox_eq : o'.outbox = kept ++ extra
  kept : kept.Sublist o.outbox
  one : extra.length ≤ 1
  untouched : ∀ c ∈ extra, ∀ k, c.Touches k →
    o'.value? k = none ∧ ∀ g ≤ o.generation, ¬ o'.Live k g
  queued : ∀ job, .compile job ∈ extra → ∃ l, o'.outline? job.id = some l ∧
    job.dependencies = l.dependencies ∧ job.layers = l.layers
  live : ∀ k, ∀ g ≤ o.generation, o'.Live k g → o.Live k g ∧ o'.outline? k = o.outline? k
  held : ∀ k x, o'.value? k = some x → o.Rests t k x
  below : ∀ k, ∀ g ≤ o.generation, o'.Live k g → ∀ l, o'.outline? k = some l →
    ∀ d ∈ l.dependencies, ∀ x, o'.value? d = some x → o.value? d = some x

variable {kept extra : List CompilerCommand}

theorem Shifts.sublist (hs : Shifts t o o' kept extra) :
    (t.queue ++ kept).Sublist (t.queue ++ o.outbox) :=
  List.Sublist.append (List.Sublist.refl _) hs.kept

theorem Shifts.mem_outbox (hs : Shifts t o o' kept extra) {c : CompilerCommand}
    (hc : c ∈ t.queue ++ o'.outbox) : c ∈ t.queue ++ o.outbox ∨ c ∈ extra := by
  rw [hs.outbox_eq, ← List.append_assoc, List.mem_append] at hc
  exact hc.imp (fun hc => hs.sublist.subset hc) id

/-- A value rests with the compiler unless it is touched by what has been added. -/
theorem Shifts.rests (hs : Shifts t o o' kept extra) {x : Json} (hrest : o.Rests t k x)
    (hextra : ∀ c ∈ extra, ¬ c.Touches k) : o'.Rests t k x :=
  ⟨hrest.1, fun c hc => (hs.mem_outbox hc).elim (hrest.2 c) (hextra c)⟩

/-- Jobs that count ask for the node as it is. -/
theorem Shifts.current (hs : Shifts t o o' kept extra) (h : Matched t o) {job : CompileJob}
    (hjob : .compile job ∈ t.queue ++ o'.outbox) (hl : o'.Live job.id job.generation) :
    ∃ l, o'.outline? job.id = some l ∧ job.dependencies = l.dependencies ∧
      job.layers = l.layers := by
  rcases hs.mem_outbox hjob with hold | hnew
  · obtain ⟨hl', hline⟩ := hs.live _ _ (h.le_generation_of_queue hold) hl
    rw [hline]
    exact h.current job hold hl'
  · exact hs.queued job hnew

/-- Nothing that follows a job that counts touches its node. -/
theorem Shifts.last (hs : Shifts t o o' kept extra) (h : Matched t o) :
    (t.queue ++ o'.outbox).Pairwise fun c c' => ∀ job, c = .compile job →
      o'.Live job.id job.generation → ¬ c'.Touches job.id := by
  rw [hs.outbox_eq, ← List.append_assoc, List.pairwise_append]
  refine ⟨?_, ?_, fun c hc c' hc' => ?_⟩
  · refine (h.last.sublist hs.sublist).imp_of_mem ?_
    intro c c' hc _ hlast job hjob hl
    have hle := h.le_generation_of_queue (hjob ▸ hs.sublist.subset hc)
    exact hlast job hjob (hs.live _ _ hle hl).1
  · match extra, hs.one with
    | [], _ => exact .nil
    | [c], _ => exact List.pairwise_singleton _ _
  · rintro job rfl hl ht
    exact (hs.untouched c' hc' _ ht).2 _ (h.le_generation_of_queue (hs.sublist.subset hc)) hl

/-- Answers that count bring the value of the node as it is. -/
theorem Shifts.answered (hs : Shifts t o o' kept extra) (h : Matched t o)
    {a : String × CompileOutcome} (ha : a ∈ t.answers) (hl : o'.Live a.1 a.2.generation) :
    ∃ x, a.2 = .compiled a.2.generation x ∧ o'.Rests t a.1 x ∧
      ∀ l, o'.outline? a.1 = some l → (∀ d ∈ l.dependencies, (o'.value? d).isSome) →
        x = o'.expected l := by
  have hle := h.le_generation_of_answers ha
  obtain ⟨hl', hline⟩ := hs.live _ _ hle hl
  obtain ⟨x, hx, hrest, hexpected⟩ := h.answered a ha hl'
  refine ⟨x, hx, hs.rests hrest fun c hc ht => (hs.untouched c hc _ ht).2 _ hle hl,
    fun l hline' hdeps => ?_⟩
  have hsame : ∀ d ∈ l.dependencies, o'.value? d = o.value? d := by
    intro d hd
    obtain ⟨y, hy⟩ := Option.isSome_iff_exists.1 (hdeps d hd)
    rw [hy, hs.below _ _ hle hl l hline' d hd y hy]
  rw [expected_congr hsame]
  exact hexpected l (hline ▸ hline') fun d hd => hsame d hd ▸ hdeps d hd

theorem Matched.of_shifts (h : Matched t o) (ha : o'.Answerable t.given)
    (hmode : o'.deferred = true) (hvalued : o'.Valued) (hs : Shifts t o o' kept extra) :
    Matched t o' := by
  refine ⟨ha, hmode, hvalued, h.given_of_queue, h.given_of_answers, fun k x hx => ?_,
    fun job => hs.current h, hs.last h, fun a => hs.answered h⟩
  refine hs.rests (hs.held k x hx) fun c hc ht => ?_
  simp [(hs.untouched c hc k ht).1] at hx

/-- Changes that bring no value and queue no job. -/
theorem Matched.of_quiet (h : Matched t o) (ha : o'.Answerable t.given)
    (hmode : o'.deferred = true) (hvalued : o'.Valued) (kept extra : List CompilerCommand)
    (houtbox : o'.outbox = kept ++ extra) (hkept : kept.Sublist o.outbox)
    (hone : extra.length ≤ 1) (hjob : ∀ job, .compile job ∉ extra)
    (hextra : ∀ c ∈ extra, ∀ k, c.Touches k → o'.value? k = none ∧ ∀ g, ¬ o'.Live k g)
    (hlive : ∀ k g, o'.Live k g → o.Live k g ∧ o'.outline? k = o.outline? k)
    (hvalue : ∀ k x, o'.value? k = some x → o.value? k = some x) : Matched t o' := by
  refine h.of_shifts ha hmode hvalued ⟨houtbox, hkept, hone, fun c hc k ht => ?_,
    fun job hin => absurd hin (hjob job), fun k g _ => hlive k g,
    fun k x hx => h.held k x (hvalue k x hx), fun _ _ _ _ _ _ d _ x => hvalue d x⟩
  exact ⟨(hextra c hc k ht).1, fun g _ => (hextra c hc k ht).2 g⟩

/-- An outlook in which a node without value has been put in its place. Its job counts for nothing
if it is due, or not ready. -/
theorem live_set {o' : Outlook} {l' : Option Outline} (hline : o'.outline? = (o.set k l').outline?)
    (hgenerations : ∀ j g, o'.generations j = some g → o.generations j = some g)
    (hdue : ∀ j, j ≠ k → j ∈ o.due → j ∈ o'.due)
    (hk : ∀ l, l' = some l → l.ready = true → k ∈ o'.due) :
    ∀ j g, o'.Live j g → o.Live j g ∧ o'.outline? j = o.outline? j := by
  rintro j g ⟨hg, hnot, l, hl, hready⟩
  rw [hline, outline?_set] at hl ⊢
  split at hl
  · next hj => exact absurd (hk l hl hready) (hj ▸ hnot)
  · next hj =>
    rw [if_neg hj]
    exact ⟨⟨hgenerations j g hg, fun hin => hnot (hdue j hj hin), l, hl, hready⟩, rfl⟩

theorem value?_of_set {o' : Outlook} {l' : Option Outline}
    (hline : o'.outline? = (o.set k l').outline?) (hnone : l'.bind (·.compiled) = none) :
    ∀ j x, o'.value? j = some x → o.value? j = some x := by
  intro j x hx
  rw [value?, hline, ← value?, value?_set] at hx
  split at hx
  · simp [hnone] at hx
  · exact hx

/-- A node without value is put in its place, or the place is left empty; a value that was there
may be evicted. -/
theorem Matched.replace {l' : Option Outline} (h : Matched t o) (ha : o'.Answerable t.given)
    (hmode : o'.deferred = true) (hvalued : o'.Valued)
    (hline : o'.outline? = (o.set k l').outline?) (hnone : l'.bind (·.compiled) = none)
    (hgenerations : ∀ j g, o'.generations j = some g → o.generations j = some g)
    (hdue : ∀ j, j ≠ k → j ∈ o.due → j ∈ o'.due)
    (hk : ∀ l, l' = some l → l.ready = true → k ∈ o'.due) (kept : List CompilerCommand)
    (hkept : kept.Sublist o.outbox) (evicts : Prop) [Decidable evicts]
    (houtbox : o'.outbox = kept ++ if evicts then [.evict [k]] else []) : Matched t o' := by
  have hlive := live_set hline hgenerations hdue hk
  -- At most an eviction is queued, which touches the node that has lost its value.
  refine h.of_quiet ha hmode hvalued kept _ houtbox hkept ?_ ?_ ?_ hlive (value?_of_set hline hnone)
  · split <;> simp
  · intro job
    split <;> simp
  · intro c hc j ht
    split at hc
    · obtain rfl : c = .evict [k] := by simpa using hc
      obtain rfl : j = k := by simpa [CompilerCommand.Touches] using ht
      refine ⟨by rw [value?, hline, ← value?, value?_set, if_pos rfl]; exact hnone, ?_⟩
      rintro g ⟨-, hnot, l, hl, hready⟩
      rw [hline, outline?_set, if_pos rfl] at hl
      exact hnot (hk l hl hready)
    · simp at hc

/-- A queued job counts, and it is the last command that touches its node. -/
theorem Matched.request (h : Matched t o) {due : List String} (hdue : o.due = k :: due)
    (hl : o.outline? k = some l) (hnone : l.compiled = none)
    (ha : ({ o.request k l with due } : Outlook).Answerable t.given)
    (hvalued : ({ o.request k l with due } : Outlook).Valued) :
    Matched t { o.request k l with due } := by
  -- Older jobs that count are of other nodes.
  have hold : ∀ j, ∀ g ≤ o.generation, ({ o.request k l with due } : Outlook).Live j g →
      j ≠ k ∧ o.Live j g := by
    rintro j g hle ⟨hg, hnot, hready⟩
    obtain ⟨hj, hg⟩ := generations_supersede hle hg
    refine ⟨hj, hg, fun hin => ?_, hready⟩
    rw [hdue] at hin
    exact hnot ((List.mem_cons.1 hin).resolve_left hj)
  have hvalue : ({ o.request k l with due } : Outlook).value? = o.value? := rfl
  refine h.of_shifts ha h.deferred_eq hvalued ⟨rfl, List.filter_sublist, by simp,
    fun c hc j ht => ?_, fun job hjob => ?_, fun j g hle hlive => ⟨(hold j g hle hlive).2, rfl⟩,
    fun j x hx => h.held j x hx, fun _ _ _ _ _ _ _ _ x hx => hx⟩
  · obtain rfl := List.mem_singleton.1 hc
    obtain rfl : k = j := ht
    refine ⟨by rw [hvalue, value?_of_outline? hl, hnone], fun g hle hlive => ?_⟩
    exact (hold _ g hle hlive).1 rfl
  · obtain rfl := CompilerCommand.compile.inj (List.mem_singleton.1 hjob)
    exact ⟨l, hl, rfl, rfl⟩

/-- Every move keeps matched what is on its way. -/
theorem kept_matched (t : Traffic) : Kept (Matched t) := by
  intro o o' hmove h
  have ha := kept_answerable t.given o o' hmove h.toAnswerable
  have hvalued := kept_valued o o' hmove h.valued
  cases hmove with
  | advance hadvance =>
    cases hadvance with
    | @learn k l hl hready hnone hk =>
      exact h.replace ha h.deferred_eq hvalued rfl hnone (fun _ _ hg => hg)
        (fun _ _ hin => List.mem_cons_of_mem _ hin) (fun _ _ _ => List.mem_cons_self) o.outbox
        (List.Sublist.refl _) False (List.append_nil _).symm
    | @request k l due hmode hdue hl hready hnone hdeps hk =>
      exact h.request hdue hl hnone ha hvalued
    | compile hmode => simp [h.deferred_eq] at hmode
  | lapse hlapse =>
    obtain @⟨k, l, hnone, hdue, hk⟩ := hlapse
    exact h.replace ha h.deferred_eq hvalued rfl hnone (fun _ _ hg => hg) (fun _ _ hin => hin)
      (fun l' hl' hready => hdue (Option.some.inj hl' ▸ hready)) o.outbox (List.Sublist.refl _) _
      rfl
  | ask k =>
    refine h.of_quiet ha h.deferred_eq hvalued o.outbox []
      (List.append_nil _).symm (List.Sublist.refl _) (by simp) (by simp) (by simp) ?_
      fun _ _ hx => hx
    rintro j g ⟨hg, hnot, hready⟩
    exact ⟨⟨hg, fun hin => hnot (List.mem_cons_of_mem _ hin), hready⟩, rfl⟩
  | @remove k hvalue =>
    exact h.replace ha h.deferred_eq hvalued rfl rfl (fun _ _ hg => (generations_of_remove hg).2)
      (fun j hj hin => List.mem_filter.2 ⟨hin, by simpa using hj⟩) (fun l hl => by simp at hl) _
      List.filter_sublist _ rfl
  | @reset due hdue =>
    -- Only nodes without dependencies are ready, and they are due.
    have hnone : ∀ j, (o.reset due).value? j = none := by
      intro j
      show ((o.outline? j).map _).bind _ = none
      cases o.outline? j <;> rfl
    have hdead : ∀ j g, ¬ (o.reset due).Live j g := by
      rintro j g ⟨-, hnot, l', hl', hready⟩
      obtain ⟨l, hl, rfl⟩ := Option.map_eq_some_iff.1 hl'
      exact hnot (hdue j l hl (of_decide_eq_true hready))
    refine h.of_quiet ha h.deferred_eq hvalued [] [.clear] (if_pos h.deferred_eq)
      (List.nil_sublist _) (by simp) (by simp) (fun c _ j _ => ⟨hnone j, hdead j⟩)
      (fun j g hl => absurd hl (hdead j g)) fun j x hx => ?_
    simp [hnone] at hx

/-- After a node has been given a new generation, none of its jobs of before counts. -/
theorem live_supersede {j : String} {g : Nat} (hle : g ≤ o.generation)
    (hl : (o.supersede k).Live j g) : j ≠ k ∧ o.Live j g := by
  obtain ⟨hg, hrest⟩ := hl
  obtain ⟨hj, hg⟩ := generations_supersede hle hg
  exact ⟨hj, hg, hrest⟩

theorem Matched.supersede (h : Matched t o) (k : String) : Matched t (o.supersede k) :=
  h.of_shifts (h.toAnswerable.supersede k) h.deferred_eq h.valued
    ⟨(List.append_nil _).symm, List.Sublist.refl _, by simp, by simp, by simp,
      fun _ _ hle hl => ⟨(live_supersede hle hl).2, rfl⟩, fun j x hx => h.held j x hx,
      fun _ _ _ _ _ _ _ _ _ hx => hx⟩

/-- A value that the compiler has may arrive at a ready node that nobody uses. -/
theorem Matched.arrive {x : Json} (h : Matched t o) (hl : o.outline? k = some l)
    (hready : l.ready = true) (hunused : o.Unused k) (hrests : o.Rests t k x)
    (hx : (∀ d ∈ l.dependencies, (o.value? d).isSome) → x = o.expected l) :
    Matched t (o.arrive k l x) := by
  have hvalue : ∀ j y, (o.arrive k l x).value? j = some y → j ≠ k → o.value? j = some y := by
    intro j y hy hj
    change ((o.supersede k).set k _).value? j = some y at hy
    rw [value?_set, if_neg hj] at hy
    exact hy
  -- The arrival supersedes all jobs of the node.
  have hlive : ∀ j, ∀ g ≤ o.generation, (o.arrive k l x).Live j g → j ≠ k ∧ o.Live j g := by
    rintro j g hle ⟨hg, hnot, l', hl', hready'⟩
    change (if j = k then some _ else o.outline? j) = some l' at hl'
    obtain ⟨hj, hg⟩ := generations_supersede hle hg
    rw [if_neg hj] at hl'
    exact ⟨hj, hg, hnot, l', hl', hready'⟩
  refine h.of_shifts (h.toAnswerable.arrive k l x) h.deferred_eq
    (h.valued.arrive (hunused.not_mem_self hl hready) hunused hx)
    ⟨(List.append_nil _).symm, List.Sublist.refl _, by simp, by simp, by simp,
      fun j g hle hj => ⟨(hlive j g hle hj).2, if_neg (hlive j g hle hj).1⟩, fun j y hy => ?_,
      fun j g hle hj l' hl' d hd y hy => hvalue d y hy fun hdk => ?_⟩
  · by_cases hj : j = k
    · subst hj
      change ((o.supersede j).set j _).value? j = some y at hy
      rw [value?_set, if_pos rfl] at hy
      obtain rfl : x = y := Option.some.inj hy
      exact hrests
    · exact h.held j y (hvalue j y hy hj)
  · -- Who depends on the node is not ready, so that no job of his counts.
    obtain ⟨hjk, -, -, l'', hl'', hready'⟩ := hlive j g hle hj
    change (if j = k then some _ else o.outline? j) = some l' at hl'
    rw [if_neg hjk] at hl'
    obtain rfl : l'' = l' := Option.some.inj (hl''.symm.trans hl')
    have hnot := (hunused j l'' hl' (hdk ▸ hd)).1
    simp [hready'] at hnot

/-! ## Carrying out commands -/

/-- Answers may be dropped. -/
theorem Matched.forget (h : Matched t o) {answers : List (String × CompileOutcome)}
    (hsub : ∀ a ∈ answers, a ∈ t.answers) : Matched { t with answers } o :=
  ⟨h.toAnswerable, h.deferred_eq, h.valued, h.given_of_queue,
    fun a ha => h.given_of_answers a (hsub a ha), h.held, h.current, h.last,
    fun a ha => h.answered a (hsub a ha)⟩

/-- The compiler has done with the first command, which can only have changed what it touches. -/
theorem Matched.carryOut (h : Matched t o) {c : CompilerCommand} {rest : List CompilerCommand}
    (hqueue : t.queue = c :: rest) (cache : String → Option Json)
    (hcache : ∀ k, ¬ c.Touches k → cache k = t.cache k) :
    Matched { t with queue := rest, cache } o := by
  have hmem : ∀ c' ∈ rest ++ o.outbox, c' ∈ t.queue ++ o.outbox := by
    intro c' hc'
    rw [hqueue, List.cons_append]
    exact List.mem_cons_of_mem _ hc'
  have hfirst : c ∈ t.queue ++ o.outbox := by
    rw [hqueue, List.cons_append]
    exact List.mem_cons_self
  -- A value that rests in the cache is touched by no command, and so not by this one.
  have hrests : ∀ k x, o.Rests t k x → o.Rests { t with queue := rest, cache } k x := by
    rintro k x ⟨hx, hquiet⟩
    exact ⟨(hcache k (hquiet c hfirst)).trans hx, fun c' hc' => hquiet c' (hmem c' hc')⟩
  have hlast := h.last
  rw [hqueue, List.cons_append] at hlast
  refine ⟨h.toAnswerable, h.deferred_eq, h.valued, fun job hjob => ?_, h.given_of_answers,
    fun k x hx => hrests k x (h.held k x hx), fun job hjob => h.current job (hmem _ hjob),
    (List.pairwise_cons.1 hlast).2, fun a ha hl => ?_⟩
  · exact h.given_of_queue job (hqueue ▸ List.mem_cons_of_mem _ hjob)
  · obtain ⟨x, hx, hrest, hexpected⟩ := h.answered a ha hl
    exact ⟨x, hx, hrests _ x hrest, hexpected⟩

/-- A message that is no job is handled. -/
theorem Matched.handle (h : Matched t o) {c : CompilerCommand} {rest : List CompilerCommand}
    (hqueue : t.queue = c :: rest) (hjob : ∀ job, c ≠ .compile job) {s : Compiler}
    (hcache : s.get? = t.cache) :
    Matched { t with queue := rest, cache := (s.handle c.toEnvelope).2.get? } o := by
  refine h.carryOut hqueue _ fun k hk => ?_
  rw [← hcache]
  cases c with
  | compile job => exact absurd rfl (hjob job)
  | evict ids =>
    have hk' : k ∉ ids := hk
    rw [Compiler.handle_evict, Compiler.get?_evict, if_neg hk']
  | clear => exact absurd trivial hk

/-- A job that counts finds the values of its dependencies, and gives the value of its node. -/
theorem Matched.exists_compile_eq (h : Matched t o) {job : CompileJob} {c : Compiler}
    (hcache : c.get? = t.cache)
    (hready : ∀ k l, o.outline? k = some l → l.ready = true →
      ∀ d ∈ l.dependencies, (o.value? d).isSome)
    (hjob : .compile job ∈ t.queue ++ o.outbox) (hl : o.Live job.id job.generation) :
    ∃ l c', o.outline? job.id = some l ∧ c.compile job = (.ok (o.expected l), c') ∧
      c'.get? job.id = some (o.expected l) := by
  -- The job counts, so it asks for the node as it is.
  obtain ⟨l, hline, hdeps, hlayers⟩ := h.current job hjob hl
  obtain ⟨-, -, l', hline', hready'⟩ := hl
  obtain rfl : l = l' := Option.some.inj (hline.symm.trans hline')
  have hvalues := hready job.id l hline hready'
  -- The compiler has the values of the dependencies.
  have hget : ∀ d ∈ l.dependencies, c.get? d = o.value? d := by
    intro d hd
    obtain ⟨y, hy⟩ := Option.isSome_iff_exists.1 (hvalues d hd)
    rw [hcache, hy, (h.held d y hy).1]
  have hmerged : c.merged job = o.expected l := by
    have hsame : l.dependencies.filterMap c.get? = l.dependencies.filterMap o.value? :=
      List.filterMap_congr hget
    rw [Compiler.merged, hdeps, hlayers, hsame, expected]
  have hsome : ∀ d ∈ job.dependencies, (c.get? d).isSome := by
    intro d hd
    rw [hdeps] at hd
    rw [hget d hd]
    exact hvalues d hd
  obtain ⟨c', hcompile, hget'⟩ := Compiler.compile_ok hsome
  refine ⟨l, c', hline, hmerged ▸ hcompile, ?_⟩
  rw [hget', if_pos rfl, hmerged]

/-- A job is compiled and answered. -/
theorem Matched.compile (h : Matched t o) {job : CompileJob} {rest : List CompilerCommand}
    (hqueue : t.queue = .compile job :: rest) {c : Compiler} (hcache : c.get? = t.cache)
    (hready : ∀ k l, o.outline? k = some l → l.ready = true →
      ∀ d ∈ l.dependencies, (o.value? d).isSome) :
    Matched { t with
      queue := rest
      cache := (c.compile job).2.get?
      answers := t.answers ++ [(job.id, .ofResult job.generation (c.compile job).1)] } o := by
  have hdone := h.carryOut hqueue (c.compile job).2.get? fun k hk => by
    rw [c.get?_compile job fun he => hk he.symm, hcache]
  have hfirst : .compile job ∈ t.queue ++ o.outbox := by
    rw [hqueue, List.cons_append]
    exact List.mem_cons_self
  have hgiven : job ∈ t.given := h.given_of_queue job (hqueue ▸ List.mem_cons_self)
  refine ⟨hdone.toAnswerable, hdone.deferred_eq, hdone.valued, hdone.given_of_queue, fun a ha => ?_,
    hdone.held, hdone.current, hdone.last, fun a ha hl => ?_⟩
  -- Every answer is an old one, or the one to this job.
  · rcases List.mem_append.1 ha with ha | ha
    · exact hdone.given_of_answers a ha
    · obtain rfl := List.mem_singleton.1 ha
      exact ⟨job, hgiven, rfl, (CompileOutcome.generation_ofResult _ _).symm⟩
  · rcases List.mem_append.1 ha with ha | ha
    · exact hdone.answered a ha hl
    · obtain rfl := List.mem_singleton.1 ha
      simp only [CompileOutcome.generation_ofResult] at hl ⊢
      obtain ⟨l, c', hline, hcompile, hget⟩ := h.exists_compile_eq hcache hready hfirst hl
      rw [hcompile]
      refine ⟨o.expected l, rfl, ⟨hget, fun c' hc' => ?_⟩, fun l' hl' _ => ?_⟩
      · -- What follows the job does not touch what it has left in the cache.
        have hlast := h.last
        rw [hqueue, List.cons_append] at hlast
        exact (List.pairwise_cons.1 hlast).1 c' hc' job rfl hl
      · rw [Option.some.inj (hline.symm.trans hl')]

/-- The first message is handled, whatever it is, and its reply is an answer if it is one to a
job. -/
theorem Matched.serve (h : Matched t o) {c : CompilerCommand} {rest : List CompilerCommand}
    (hqueue : t.queue = c :: rest) {s : Compiler} (hcache : s.get? = t.cache)
    (hready : ∀ k l, o.outline? k = some l → l.ready = true →
      ∀ d ∈ l.dependencies, (o.value? d).isSome) :
    Matched { t with
      queue := rest
      cache := (s.handle c.toEnvelope).2.get?
      answers := t.answers ++
        (s.handle c.toEnvelope).1.toOption.join.toList.filterMap Compiler.answer? } o := by
  cases c with
  | compile job =>
    -- A generation that does not fit into a word cannot be answered.
    by_cases hword : job.generation < wordLimit
    · rw [Compiler.handle_compile hword]
      have hanswer : Compiler.answer? (Compiler.reply job (s.compile job).1) =
          some (job.id, .ofResult job.generation (s.compile job).1) := by
        rw [Compiler.answer?, Compiler.outcome?_reply hword]
        rfl
      have hanswers : (some (Compiler.reply job (s.compile job).1)).toList.filterMap
          Compiler.answer? = [(job.id, .ofResult job.generation (s.compile job).1)] := by
        rw [Option.toList_some, List.filterMap_cons, hanswer, List.filterMap_nil]
      have hmatched := h.compile hqueue hcache hready
      rw [← hanswers] at hmatched
      exact hmatched
    · obtain ⟨e, he⟩ := Compiler.handle_compile_error (Nat.le_of_not_lt hword) s
      have hmatched := h.carryOut hqueue s.get? fun k _ => by rw [hcache]
      rw [he]
      exact hmatched.forget (by simp [Except.toOption])
  | evict ids =>
    have hmatched := h.handle hqueue (by simp) hcache
    refine hmatched.forget fun a ha => ?_
    rw [Compiler.handle_evict] at ha
    simpa [Except.toOption, Compiler.answer?, Compiler.Client.outcome?] using ha
  | clear =>
    have hmatched := h.handle hqueue (by simp) hcache
    exact hmatched.forget fun a ha => by
      simpa [Except.toOption, Compiler.handle, CompilerCommand.toEnvelope] using ha

/-- The outbox is taken and its commands are put at the end of the queue. -/
theorem Matched.takeOutbox (h : Matched t o) :
    Matched { t with
      given := t.given ++ o.outbox.filterMap Registry.job?
      queue := t.queue ++ o.outbox } { o with outbox := [] } := by
  have hqueue : (t.queue ++ o.outbox) ++ [] = t.queue ++ o.outbox := List.append_nil _
  refine ⟨h.toAnswerable.takeOutbox, h.deferred_eq, h.valued, fun job hin => ?given_of_queue,
    fun a ha => ?given_of_answers, ?held, ?current, ?last, ?answered⟩
  case given_of_queue =>
    refine List.mem_append.2 ?_
    exact (List.mem_append.1 hin).imp (h.given_of_queue job) (Registry.mem_filterMap_job? job).2
  case given_of_answers =>
    obtain ⟨job, hin, hid⟩ := h.given_of_answers a ha
    exact ⟨job, List.mem_append_left _ hin, hid⟩
  case held =>
    intro k x hx
    refine ⟨(h.held k x hx).1, fun c hc => (h.held k x hx).2 c ?_⟩
    rwa [hqueue] at hc
  case current =>
    intro job hin
    rw [hqueue] at hin
    exact h.current job hin
  case last =>
    rw [hqueue]
    exact h.last
  case answered =>
    intro a ha hl
    obtain ⟨x, hx, ⟨hcache, hquiet⟩, hexpected⟩ := h.answered a ha hl
    refine ⟨x, hx, ⟨hcache, fun c hc => hquiet c ?_⟩, hexpected⟩
    rwa [hqueue] at hc

end Outlook

/-! ## Taking in answers -/

namespace Registry

variable {ν : Type} [Node ν] [NodeKind ν] [LawfulNode ν]
variable {verifier : Option Verifier} {r : Registry ν} {t : Traffic}

/-- In a coherent registry nobody can build on a node without value. -/
theorem Coherent.unused (h : Coherent verifier r) {k : String} (hnone : r.value? k = none)
    (due : List String) : (r.outlook due).Unused k := by
  intro j l hl hk
  obtain ⟨w, hw, rfl⟩ := Option.map_eq_some_iff.1 hl
  have hnot : ¬ w.Ready := by
    intro hready
    have hsome := h.value?_of_isDependable ((h.ready_iff hw).1 hready k hk)
    simp [hnone] at hsome
  exact ⟨decide_eq_false hnot, (h.fits j w hw).compiled_eq_none hnot⟩

/-- In a coherent registry a ready node finds the values of its dependencies. -/
theorem Coherent.values_of_ready (h : Coherent verifier r) {k : String} {l : Outline}
    {due : List String} (hl : (r.outlook due).outline? k = some l) (hready : l.ready = true) :
    ∀ d ∈ l.dependencies, ((r.outlook due).value? d).isSome := by
  obtain ⟨v, hv, rfl⟩ := Option.map_eq_some_iff.1 hl
  intro d hd
  rw [value?_outlook]
  exact h.value?_of_isDependable ((h.ready_iff hv).1 (of_decide_eq_true hready) d hd)

omit [LawfulNode ν] in
/-- The node of an answer that is not stale holds no value. -/
theorem value?_of_answer (hm : (r.outlook []).Matched t) {a : String × CompileOutcome}
    (ha : a ∈ t.answers) (hcurrent : KeyMap.find? r.generations a.1 = some a.2.generation) :
    r.value? a.1 = none := by
  rw [← value?_outlook []]
  exact hm.value?_eq_none (hm.given_of_answers a ha) hcurrent

/-- The value of an answer that is not stale may arrive at its node if that is ready. -/
theorem Coherent.matched_arrive (h : Coherent verifier r) (hm : (r.outlook []).Matched t)
    {a : String × CompileOutcome} (ha : a ∈ t.answers) {x : Json} {v : NodeView}
    (hcurrent : KeyMap.find? r.generations a.1 = some a.2.generation)
    (heq : a.2 = .compiled a.2.generation x) (hv : r.view? a.1 = some v) (hready : v.Ready) :
    ((r.outlook []).arrive a.1 v.outline x).Matched t := by
  have hline : (r.outlook []).outline? a.1 = some v.outline := outline?_outlook hv
  have hready' : v.outline.ready = true := decide_eq_true hready
  have hlive : (r.outlook []).Live a.1 a.2.generation :=
    ⟨hcurrent, List.not_mem_nil, v.outline, hline, hready'⟩
  obtain ⟨y, hy, hrests, hexpected⟩ := hm.answered a ha hlive
  obtain rfl : x = y := (CompileOutcome.compiled.inj (heq.symm.trans hy)).2
  exact hm.arrive hline hready' (h.unused (value?_of_answer hm ha hcurrent) []) hrests
    (hexpected v.outline hline)

/-- Taking in one of the answers, whichever it is. -/
theorem Coherent.matched_applyOutcome {width : Nat} {height : String → Nat}
    (h : Coherent verifier r) (hg : Graded width height r) (hm : (r.outlook []).Matched t)
    {a : String × CompileOutcome} (ha : a ∈ t.answers) :
    Coherent verifier (r.applyOutcome a.1 a.2) ∧ Graded width height (r.applyOutcome a.1 a.2) ∧
      ((r.applyOutcome a.1 a.2).outlook []).Matched t := by
  obtain ⟨hcoherent, hgraded, hanswered⟩ :=
    h.applyOutcome_spec hg a.1 a.2 (value?_of_answer hm ha)
  refine ⟨hcoherent, hgraded, ?_⟩
  clear hcoherent hgraded
  generalize r.applyOutcome a.1 a.2 = r' at hanswered ⊢
  cases hanswered with
  | stale hstale => exact hm
  | dropped hcurrent hnot houtlook =>
    rw [houtlook]
    exact hm.supersede a.1
  | taken hcurrent heq hv hready hkept =>
    exact hkept _ (fun o o' hadvance => Outlook.kept_matched t o o' (.advance hadvance))
      (h.matched_arrive hm ha hcurrent heq hv hready)

end Registry

end LayeredAccess
