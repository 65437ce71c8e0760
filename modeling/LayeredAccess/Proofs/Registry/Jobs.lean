/-
  LayeredAccess.Proofs.Registry.Jobs

  Jobs that are out, be it in the outbox or with a compiler elsewhere. The
  generation of such a job is either superseded, or its node is registered and
  holds no value: no value is ever taken in by a node that holds one.
-/
import LayeredAccess.Proofs.Registry.ValueState
import LayeredAccess.Registry.Drive

namespace LayeredAccess

/-- The jobs of some commands. -/
theorem Registry.mem_filterMap_job? {commands : List CompilerCommand} (job : CompileJob) :
    job ∈ commands.filterMap job? ↔ .compile job ∈ commands := by
  rw [List.mem_filterMap]
  constructor
  · rintro ⟨command, hcommand, heq⟩
    cases command with
    | compile job' =>
      obtain rfl : job' = job := Option.some.inj heq
      exact hcommand
    | evict ids => simp [job?] at heq
    | clear => simp [job?] at heq
  · exact fun hjob => ⟨_, hjob, rfl⟩

namespace Registry

variable {ν : Type} [Node ν] [NodeKind ν] {verifier : Option Verifier} {r : Registry ν}

/-- Taking the outbox leaves nodes and cache as they are. -/
theorem unmoved_takeOutbox (r : Registry ν) : Unmoved r r.takeOutbox.2 :=
  ⟨⟨rfl, rfl, rfl, rfl, fun hs => ⟨hs, rfl⟩⟩, fun _ => rfl, fun _ => rfl⟩

theorem Coherent.takeOutbox (h : Coherent verifier r) : Coherent verifier r.takeOutbox.2 :=
  ⟨h.toSteady.of_unmoved (unmoved_takeOutbox r), h.recorded_eq⟩

end Registry

namespace Outlook

/-- A job of a node is out, be it waiting in the outbox or given away already. -/
def Issued (given : List CompileJob) (o : Outlook) (k : String) (g : Nat) : Prop :=
  ∃ job, (job ∈ given ∨ .compile job ∈ o.outbox) ∧ job.id = k ∧ job.generation = g

/-- A job that is out is superseded, or its node is registered and holds no value. -/
structure Answerable (given : List CompileJob) (o : Outlook) : Prop where
  le_generation : ∀ k g, o.Issued given k g → g ≤ o.generation
  uncompiled : ∀ k g, o.Issued given k g → o.generations k = some g →
    ∃ l, o.outline? k = some l ∧ l.compiled = none

variable {given : List CompileJob} {o o' : Outlook}

theorem Issued.mono {k : String} {g : Nat} (h : o'.Issued given k g)
    (houtbox : ∀ job, .compile job ∈ o'.outbox → .compile job ∈ o.outbox) :
    o.Issued given k g := by
  obtain ⟨job, hjob, hid⟩ := h
  exact ⟨job, hjob.imp id (houtbox job), hid⟩

/-- As long as a job of a node that has been given away counts, the node holds no value. -/
theorem Answerable.value?_eq_none (h : o.Answerable given) {k : String} {g : Nat}
    (hgiven : ∃ job ∈ given, job.id = k ∧ job.generation = g)
    (hcurrent : o.generations k = some g) : o.value? k = none := by
  obtain ⟨job, hjob, hid⟩ := hgiven
  obtain ⟨l, hl, hnone⟩ := h.uncompiled k g ⟨job, .inl hjob, hid⟩ hcurrent
  rw [value?, hl, Option.bind_some, hnone]

/-- What queues no job, gives no generation and brings no value keeps jobs answerable. -/
theorem Answerable.of_quiet (h : o.Answerable given)
    (houtbox : ∀ job, .compile job ∈ o'.outbox → .compile job ∈ o.outbox)
    (hgeneration : o'.generation = o.generation)
    (hgenerations : ∀ k g, o'.generations k = some g → o.generations k = some g)
    (hline : ∀ k l, o'.generations k ≠ none → o.outline? k = some l → l.compiled = none →
      ∃ l', o'.outline? k = some l' ∧ l'.compiled = none) : o'.Answerable given := by
  refine ⟨fun k g hi => ?_, fun k g hi hg => ?_⟩
  · rw [hgeneration]
    exact h.le_generation k g (hi.mono houtbox)
  · obtain ⟨l, hl, hnone⟩ := h.uncompiled k g (hi.mono houtbox) (hgenerations k g hg)
    exact hline k l (by simp [hg]) hl hnone

/-- A new generation is greater than those of all jobs that are out. -/
theorem Answerable.supersede (h : o.Answerable given) (k : String) :
    (o.supersede k).Answerable given := by
  refine ⟨fun j g hi => Nat.le_succ_of_le (h.le_generation j g hi), fun j g hi hg => ?_⟩
  exact h.uncompiled j g hi (generations_supersede (h.le_generation j g hi) hg).2

/-- The node whose value arrives has no job out that counts. -/
theorem Answerable.arrive (h : o.Answerable given) (k : String) (l : Outline) (x : Json) :
    (o.arrive k l x).Answerable given := by
  refine ⟨(h.supersede k).le_generation, fun j g hi hg => ?_⟩
  have hj : j ≠ k := (generations_supersede (h.le_generation j g hi) hg).1
  obtain ⟨l', hl', hnone⟩ := (h.supersede k).uncompiled j g hi hg
  exact ⟨l', (if_neg hj).trans hl', hnone⟩

/-- A queued job is the only one of its node that counts. -/
theorem Answerable.request (h : o.Answerable given) {k : String} {l : Outline}
    (hl : o.outline? k = some l) (hnone : l.compiled = none) :
    (o.request k l).Answerable given := by
  -- Every job that is out has been so before, or is the one just queued.
  have hcases : ∀ j g, (o.request k l).Issued given j g →
      o.Issued given j g ∨ (j = k ∧ g = o.generation + 1) := by
    rintro j g ⟨job, hjob, hid, hgen⟩
    rcases hjob with hjob | hjob
    · exact .inl ⟨job, .inl hjob, hid, hgen⟩
    · rcases compile_mem_request.1 hjob with ⟨hold, -⟩ | rfl
      · exact .inl ⟨job, .inr hold, hid, hgen⟩
      · exact .inr ⟨hid.symm, hgen.symm⟩
  refine ⟨fun j g hi => ?_, fun j g hi hg => ?_⟩
  · show g ≤ o.generation + 1
    rcases hcases j g hi with hold | ⟨-, rfl⟩
    · exact Nat.le_succ_of_le (h.le_generation j g hold)
    · exact Nat.le_refl _
  · change (if j = k then some (o.generation + 1) else o.generations j) = some g at hg
    split at hg
    · next hj => exact ⟨l, hj ▸ hl, hnone⟩
    · next hj =>
      rcases hcases j g hi with hold | ⟨hjk, -⟩
      · exact h.uncompiled j g hold hg
      · exact absurd hjk hj

theorem Answerable.of_due (h : o.Answerable given) (due : List String) :
    ({ o with due } : Outlook).Answerable given := ⟨h.le_generation, h.uncompiled⟩

/-- Taking the outbox moves its jobs to those that have been given away. -/
theorem Answerable.takeOutbox (h : o.Answerable given) :
    ({ o with outbox := [] } : Outlook).Answerable
      (given ++ o.outbox.filterMap Registry.job?) := by
  have hissued : ∀ k g, ({ o with outbox := [] } : Outlook).Issued
      (given ++ o.outbox.filterMap Registry.job?) k g → o.Issued given k g := by
    rintro k g ⟨job, hjob, hid⟩
    refine ⟨job, ?_, hid⟩
    rcases hjob with hjob | hjob
    · exact (List.mem_append.1 hjob).imp id (Registry.mem_filterMap_job? job).1
    · exact absurd hjob List.not_mem_nil
  exact ⟨fun k g hi => h.le_generation k g (hissued k g hi),
    fun k g hi => h.uncompiled k g (hissued k g hi)⟩

/-- Every move keeps jobs answerable. -/
theorem kept_answerable (given : List CompileJob) : Kept (Answerable given) := by
  intro o o' hmove h
  -- Only a request and an arrival touch generations. The other moves leave the outlook quiet.
  cases hmove with
  | advance ha =>
    cases ha with
    | @learn k l hl hready hnone hk =>
      refine h.of_quiet (fun _ hjob => hjob) rfl (fun _ _ hg => hg) fun j l' _ hl' hnone' => ?_
      show ∃ l'', (if j = k then _ else o.outline? j) = some l'' ∧ l''.compiled = none
      split
      · exact ⟨_, rfl, hnone⟩
      · exact ⟨l', hl', hnone'⟩
    | request hmode hdue hl hready hnone hdeps hk => exact (h.request hl hnone).of_due _
    | compile hmode hdue hl hready hnone hdeps hunused hk => exact (h.arrive _ _ _).of_due _
  | lapse hl =>
    obtain @⟨k, l, hnone, hdue, hk⟩ := hl
    refine h.of_quiet (fun _ hjob => compile_mem_lapse.1 hjob) rfl (fun _ _ hg => hg)
      fun j l' _ hl' hnone' => ?_
    show ∃ l'', (if j = k then _ else o.outline? j) = some l'' ∧ l''.compiled = none
    split
    · exact ⟨_, rfl, hnone⟩
    · exact ⟨l', hl', hnone'⟩
  | ask k => exact h.of_due _
  | @remove k hvalue =>
    refine h.of_quiet (fun _ hjob => (compile_mem_remove.1 hjob).1) rfl
      (fun _ _ hg => (generations_of_remove hg).2) fun j l' hg hl' hnone' => ?_
    have hj : j ≠ k := fun hj => hg (if_pos hj)
    exact ⟨l', (if_neg hj).trans hl', hnone'⟩
  | reset hdue =>
    refine h.of_quiet (fun _ hjob => (compile_mem_reset.1 hjob).1) rfl (fun _ _ hg => hg)
      fun j l' _ hl' hnone' => ?_
    refine ⟨{ l' with compiled := none, ready := decide (l'.dependencies = []) }, ?_, rfl⟩
    show (o.outline? j).map _ = _
    rw [hl', Option.map_some]

end Outlook

end LayeredAccess
