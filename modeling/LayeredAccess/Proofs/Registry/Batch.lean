/-
  LayeredAccess.Proofs.Registry.Batch

  The jobs that are taken from an outbox together, and what becomes of their
  results, whatever these say.

  No two of the jobs are of one node. A result that comes in makes other nodes
  ready, but these are asked for again at once, so that their old jobs go on not
  to count (`live_iff_of_advance`). Whether the value of a job is taken in is
  therefore settled when the jobs are taken, by whether its node is ready then.
  The jobs that are queued meanwhile are all of nodes that are ready (`Pumped`).
-/
import LayeredAccess.Proofs.Registry.CascadePhases
import LayeredAccess.Proofs.Registry.Driving
import LayeredAccess.Proofs.Registry.Outbox
import LayeredAccess.Proofs.Registry.Session

namespace LayeredAccess

namespace Outlook

variable {given : List CompileJob} {o o' : Outlook} {k : String}

/-! ## Whatever is answered -/

/-- The outbox is in order, and no job that is out brings a value to a node that holds one. -/
structure Lined (given : List CompileJob) (o : Outlook) : Prop extends Answerable given o where
  deferred_eq : o.deferred = true
  queued : Queued given o

theorem lined_empty (hnone : ∀ k, o.outline? k = none) (houtbox : o.outbox = [])
    (hmode : o.deferred = true) : Lined [] o :=
  ⟨(matched_empty hnone houtbox hmode fun _ => none).toAnswerable, hmode, queued_of_nil houtbox _⟩

/-- No move changes where compiling is done. -/
theorem deferred_of_move (h : Move o o') : o'.deferred = o.deferred := by
  cases h with
  | advance ha => cases ha <;> rfl
  | lapse hl => cases hl; rfl
  | ask | remove | reset => rfl

/-- Generations are only ever given anew. -/
theorem Advance.generation_le {reach : String → Prop} (h : Advance reach o o') :
    o.generation ≤ o'.generation := by
  cases h with
  | learn => exact Nat.le_refl _
  | request | compile => exact Nat.le_succ _

theorem kept_lined (given : List CompileJob) : Kept (Lined given) := fun o o' hmove h =>
  ⟨kept_answerable given o o' hmove h.toAnswerable, (deferred_of_move hmove).trans h.deferred_eq,
    h.queued.of_move h.toAnswerable h.deferred_eq hmove⟩

/-- Taking the outbox gives all of its jobs away. -/
theorem Lined.takeOutbox (h : Lined given o) :
    Lined (given ++ o.outbox.filterMap Registry.job?) { o with outbox := [] } :=
  ⟨h.toAnswerable.takeOutbox, h.deferred_eq, queued_of_nil rfl _⟩

section Answers

variable {g : Nat} (hgiven : ∃ job ∈ given, job.id = k ∧ job.generation = g)
  (hcurrent : o.generations k = some g)
include hgiven hcurrent

theorem Lined.supersede (h : Lined given o) : Lined given (o.supersede k) :=
  ⟨h.toAnswerable.supersede k, h.deferred_eq,
    h.queued.supersede (h.queued.ne_of_given hgiven hcurrent)⟩

theorem Lined.arrive (h : Lined given o) (l : Outline) (x : Json) : Lined given (o.arrive k l x) :=
  ⟨h.toAnswerable.arrive k l x, h.deferred_eq,
    h.queued.arrive (h.queued.ne_of_given hgiven hcurrent) l x⟩

end Answers

/-! ## Jobs that count -/

/-- The jobs of a node that stays as it is count as before. -/
theorem live_congr {j : String} {g : Nat} (hgenerations : o'.generations j = o.generations j)
    (hdue : j ∈ o'.due ↔ j ∈ o.due) (hline : o'.outline? j = o.outline? j) :
    o'.Live j g ↔ o.Live j g := by
  simp only [Live, hgenerations, hdue, hline]

/-- While values come, the jobs of before that count go on to count, and the others go on not to. -/
theorem live_iff_of_advance {reach : String → Prop} (h : Advance reach o o')
    (hmode : o.deferred = true) {j : String} {g : Nat} (hle : g ≤ o.generation) :
    o'.Live j g ↔ o.Live j g := by
  cases h with
  | @learn k l hl hready hnone hk =>
    by_cases hj : j = k
    · -- The node was not ready before, and is due now.
      subst hj
      constructor
      · rintro ⟨-, hnot, -⟩
        exact absurd List.mem_cons_self hnot
      · rintro ⟨-, -, l', hl', hready'⟩
        obtain rfl := Option.some.inj (hl.symm.trans hl')
        simp [hready] at hready'
    · refine live_congr rfl ?_ (if_neg hj)
      exact List.mem_cons.trans (or_iff_right hj)
  | @request k l due _ hdue hl hready hnone hdeps hk =>
    by_cases hj : j = k
    · -- The node was due before, and has a new generation now.
      subst hj
      constructor
      · rintro ⟨hg, -⟩
        exact absurd rfl (generations_supersede hle hg).1
      · rintro ⟨-, hnot, -⟩
        exact absurd (hdue ▸ List.mem_cons_self) hnot
    · refine live_congr (if_neg hj) ?_ rfl
      rw [hdue, List.mem_cons, or_iff_right hj]
  | compile hinline => simp [hmode] at hinline

theorem live_supersede_iff {j : String} (hj : j ≠ k) (g : Nat) :
    (o.supersede k).Live j g ↔ o.Live j g :=
  live_congr (if_neg hj) Iff.rfl rfl

theorem live_arrive_iff {j : String} (hj : j ≠ k) (l : Outline) (x : Json) (g : Nat) :
    (o.arrive k l x).Live j g ↔ o.Live j g :=
  live_congr (if_neg hj) Iff.rfl (if_neg hj)

/-! ## While results come in -/

/-- The outbox is in order, and has but jobs of nodes that are ready, below a height. -/
structure Pumped (given : List CompileJob) (height : String → Nat) (bound : Nat) (o : Outlook) :
    Prop extends Lined given o where
  low : o.Low height bound
  ready : ∀ job, .compile job ∈ o.outbox → ∃ l, o.outline? job.id = some l ∧ l.ready = true

variable {height : String → Nat} {bound : Nat}

/-- An empty outbox has no jobs. -/
theorem Lined.pumped (h : Lined given o) (houtbox : o.outbox = []) (hdue : o.due = []) :
    Pumped given height bound o :=
  ⟨h, ⟨by simp [houtbox], by simp [hdue]⟩, by simp [houtbox]⟩

/-- What is queued while values come is for nodes that are ready. -/
theorem Pumped.advance (h : Pumped given height bound o) (hk : height k ≤ bound)
    (ha : Advance (fun j => height j < height k) o o') : Pumped given height bound o' := by
  refine ⟨kept_lined given o o' (.advance ha) h.toLined, h.low.advance hk ha, fun job hjob => ?_⟩
  cases ha with
  | @learn j l hl =>
    show ∃ l', (if job.id = j then _ else o.outline? job.id) = some l' ∧ l'.ready = true
    split
    · exact ⟨_, rfl, rfl⟩
    · exact h.ready job hjob
  | @request j l due _ _ hl hready =>
    rcases compile_mem_request.1 hjob with ⟨hold, -⟩ | rfl
    · exact h.ready job hold
    · exact ⟨l, hl, hready⟩
  | compile hinline => simp [h.deferred_eq] at hinline

section Answers

variable {g : Nat} (hgiven : ∃ job ∈ given, job.id = k ∧ job.generation = g)
  (hcurrent : o.generations k = some g)
include hgiven hcurrent

theorem Pumped.supersede (h : Pumped given height bound o) :
    Pumped given height bound (o.supersede k) :=
  ⟨h.toLined.supersede hgiven hcurrent, ⟨h.low.outbox_lt, h.low.due_lt⟩, h.ready⟩

theorem Pumped.arrive (h : Pumped given height bound o) (l : Outline) (x : Json) :
    Pumped given height bound (o.arrive k l x) := by
  refine ⟨h.toLined.arrive hgiven hcurrent l x, ⟨h.low.outbox_lt, h.low.due_lt⟩, fun job hjob => ?_⟩
  have hne : job.id ≠ k := h.queued.ne_of_given hgiven hcurrent job hjob
  have hline : (o.arrive k l x).outline? job.id = o.outline? job.id := if_neg hne
  rw [hline]
  exact h.ready job hjob

end Answers

/-- When nothing is due, all that has been queued counts. -/
theorem Pumped.live (h : Pumped given height bound o) (hdue : o.due = []) {job : CompileJob}
    (hjob : .compile job ∈ o.outbox) : o.Live job.id job.generation :=
  ⟨h.queued.latest job hjob, by simp [hdue], h.ready job hjob⟩

end Outlook

/-! ## Registries -/

namespace Registry

variable {ν : Type} [Node ν]

/-- Is a result taken in that comes now? A value is if its job is the last request for its node and
all dependencies are dependable; that some are missing is said if the job is the last request. -/
def takes (r : Registry ν) (key : String) : CompileOutcome → Bool
  | .compiled generation _ => r.awaits key generation
  | .failed generation _ => decide (KeyMap.find? r.generations key = some generation)

theorem takes_of_awaits {r : Registry ν} {key : String} {outcome : CompileOutcome}
    (h : r.awaits key outcome.generation = true) : r.takes key outcome = true := by
  cases outcome with
  | compiled generation value => exact h
  | failed generation missing =>
    exact decide_eq_true (awaits_eq_true_iff.1 h).1

/-- Nothing is taken in of a job that has been superseded. -/
theorem takes_eq_false_of_stale {r : Registry ν} {key : String} {outcome : CompileOutcome}
    (h : KeyMap.find? r.generations key ≠ some outcome.generation) :
    r.takes key outcome = false := by
  cases outcome with
  | compiled generation value =>
    rw [takes, awaits, Bool.and_eq_false_iff]
    exact .inl (decide_eq_false h)
  | failed generation missing => exact decide_eq_false h

variable [NodeKind ν] {verifier : Option Verifier} {r : Registry ν}

/-- A value is waited for if and only if its job counts. -/
theorem Coherent.awaits_iff (h : Coherent verifier r) (key : String) (generation : Nat) :
    r.awaits key generation = true ↔ (r.outlook []).Live key generation := by
  rw [awaits_eq_true_iff, h.any_isDependable_iff]
  refine and_congr_right fun _ => ⟨?_, ?_⟩
  · rintro ⟨v, hv, hready⟩
    exact ⟨List.not_mem_nil, v.outline, outline?_outlook hv, decide_eq_true hready⟩
  · rintro ⟨-, l, hl, hready⟩
    obtain ⟨v, hv, rfl⟩ := Option.map_eq_some_iff.1 hl
    exact ⟨v, hv, of_decide_eq_true hready⟩

variable [LawfulNode ν] {width : Nat} {height : String → Nat} {bound : Nat}
  {given : List CompileJob}

/-- While the results of some jobs come in. -/
structure Receiving (verifier : Option Verifier) (width : Nat) (height : String → Nat)
    (bound : Nat) (given : List CompileJob) (r : Registry ν) : Prop where
  coherent : Coherent verifier r
  graded : Graded width height r
  pumped : (r.outlook []).Pumped given height bound

/-- A result comes in. It decides nothing about the jobs of other nodes. -/
theorem Receiving.applyOutcome (h : Receiving verifier width height bound given r)
    {key : String} {outcome : CompileOutcome}
    (hgiven : ∃ job ∈ given, job.id = key ∧ job.generation = outcome.generation)
    (hle : height key ≤ bound) :
    Receiving verifier width height bound given (r.applyOutcome key outcome) ∧
      ∀ j g, j ≠ key → g ≤ r.generation →
        ((r.applyOutcome key outcome).awaits j g = r.awaits j g) := by
  have hfree : KeyMap.find? r.generations key = some outcome.generation → r.value? key = none := by
    intro hcurrent
    rw [← value?_outlook []]
    exact h.pumped.value?_eq_none hgiven hcurrent
  -- Along the cascade the jobs of other nodes go on to count as before, and numbers only grow.
  obtain ⟨hcoherent, hgraded, hpumped, hlive, -⟩ := h.coherent.applyOutcome_kept h.graded hfree
    (X := fun o => o.Pumped given height bound ∧
      (∀ j g, j ≠ key → g ≤ r.generation → (o.Live j g ↔ (r.outlook []).Live j g)) ∧
      r.generation ≤ o.generation)
    ⟨h.pumped, fun _ _ _ _ => Iff.rfl, Nat.le_refl _⟩
    (fun o o' hadvance ⟨hpumped, hlive, hgeneration⟩ => ⟨hpumped.advance hle hadvance,
      fun j g hj hg => (Outlook.live_iff_of_advance hadvance hpumped.deferred_eq
        (hg.trans hgeneration)).trans (hlive j g hj hg),
      hgeneration.trans hadvance.generation_le⟩)
    (fun hcurrent => ⟨h.pumped.supersede hgiven hcurrent,
      fun _ g hj _ => Outlook.live_supersede_iff hj g, Nat.le_succ _⟩)
    fun hcurrent l x => ⟨h.pumped.arrive hgiven hcurrent l x,
      fun _ g hj _ => Outlook.live_arrive_iff hj l x g, Nat.le_succ _⟩
  refine ⟨⟨hcoherent, hgraded, hpumped⟩, fun j g hj hg => ?_⟩
  rw [Bool.eq_iff_iff, hcoherent.awaits_iff, h.coherent.awaits_iff]
  exact hlive j g hj hg

end Registry

end LayeredAccess
