/-
  LayeredAccess.Proofs.Registry.Driving

  Driving a registry with a compiler elsewhere that answers every job. Each
  round sends what is in the outbox and takes in all answers; a value that
  arrives only makes nodes ready that lie further up, so that the jobs of a
  round lie higher up than those of the round before, and there are no more
  rounds than nodes.

  In the end no node waits, since nothing is on its way any more.
-/
import LayeredAccess.Proofs.Compiler.Connection
import LayeredAccess.Proofs.Registry.Definitions
import LayeredAccess.Proofs.Registry.PendingJobs

namespace LayeredAccess

/-! ## Rounds -/

namespace Outlook

/-- There are only jobs in the outbox, and they lie below a height, as does all that is due. -/
structure Low (height : String → Nat) (bound : Nat) (o : Outlook) : Prop where
  outbox_lt : ∀ c ∈ o.outbox, ∃ job, c = .compile job ∧ height job.id < bound
  due_lt : ∀ k ∈ o.due, height k < bound

/-- What is set off at a height only leads to jobs below it. -/
theorem Low.advance {height : String → Nat} {bound : Nat} {k : String} {o o' : Outlook}
    (h : o.Low height bound) (hk : height k ≤ bound)
    (ha : Advance (fun j => height j < height k) o o') : o'.Low height bound := by
  cases ha with
  | learn hl hready hnone hreach =>
    refine ⟨h.outbox_lt, fun j hj => ?_⟩
    rcases List.mem_cons.1 hj with rfl | hj
    · omega
    · exact h.due_lt j hj
  | request hmode hdue hl hready hnone hdeps hreach =>
    refine ⟨fun c hc => ?_, fun j hj => h.due_lt j (hdue ▸ List.mem_cons_of_mem _ hj)⟩
    rcases List.mem_append.1 hc with hc | hc
    · exact h.outbox_lt c (List.mem_filter.1 hc).1
    · exact ⟨_, List.mem_singleton.1 hc, Nat.lt_of_lt_of_le hreach hk⟩
  | compile hmode hdue hl hready hnone hdeps hunused hreach =>
    exact ⟨h.outbox_lt, fun j hj => h.due_lt j (hdue ▸ List.mem_cons_of_mem _ hj)⟩

end Outlook

namespace Registry

variable {ν : Type} [Node ν] [NodeKind ν]

/-- What holds of a registry while it is driven, with the height below which its jobs lie. -/
structure Driven (verifier : Option Verifier) (width : Nat) (height : String → Nat) (bound : Nat)
    (t : Traffic) (r : Registry ν) : Prop where
  coherent : Coherent verifier r
  graded : Graded width height r
  tended : (r.outlook []).Tended t
  low : (r.outlook []).Low height bound

variable [LawfulNode ν] {verifier : Option Verifier} {width bound : Nat} {height : String → Nat}
  {r : Registry ν}

/-- Answers are taken in one after the other. -/
theorem Driven.applyAll {answers : List (String × CompileOutcome)}
    (hbound : ∀ a ∈ answers, height a.1 ≤ bound) :
    ∀ {t : Traffic} {r : Registry ν} (count : Nat), Driven verifier width height bound t r →
      t.answers = answers → ∃ count' r',
        r.applyAll count (answers.map fun a => (a.1, .ok a.2)) = (.ok count', r') ∧
        Driven verifier width height bound { t with answers := [] } r' := by
  -- Each answer leads from a driven state to a driven state, with one answer less.
  induction answers with
  | nil =>
    intro t r count h ha
    refine ⟨count, r, rfl, ?_⟩
    rw [← ha]
    exact h
  | cons a rest ih =>
    intro t r count h ha
    obtain ⟨hfirst, hrest⟩ := List.forall_mem_cons.1 hbound
    obtain ⟨hcoherent, hgraded, htended, hlow⟩ :=
      h.coherent.tended_applyOutcome h.graded h.tended ha h.low
        (fun o o' hadvance ho => ho.advance hfirst hadvance)
        (fun o ho => ⟨ho.outbox_lt, ho.due_lt⟩) fun o l x ho => ⟨ho.outbox_lt, ho.due_lt⟩
    obtain ⟨count', r', happly, hend⟩ :=
      ih hrest (count + 1) ⟨hcoherent, hgraded, htended, hlow⟩ rfl
    exact ⟨count', r', happly, hend⟩

/-- The traffic of a service when nothing is on its way. -/
def idle (given : List CompileJob) (s : Compiler) : Traffic := ⟨given, [], s.get?, []⟩

variable {σ : Type} {remote : RemoteCompiler σ} {reaches : σ → Compiler → Prop}

omit [NodeKind ν] [LawfulNode ν] in
/-- What is done in a round once all commands have been sent. -/
theorem driveRound_of_sent {s s₁ s₂ : σ}
    {outcomes : List (String × Except EngineError CompileOutcome)}
    (hsend : remote.sendAll s (r.outbox.filter fun c => (job? c).isNone) = (.ok (), s₁))
    (hcompile : remote.compileAll s₁ (r.outbox.filterMap job?) = (outcomes, s₂)) (count : Nat) :
    r.driveRound remote s count = ((r.takeOutbox.2.applyAll count outcomes).1,
      (r.takeOutbox.2.applyAll count outcomes).2, s₂) := by
  change remote.sendAll s (r.takeOutbox.1.filter fun c => (job? c).isNone) = _ at hsend
  change remote.compileAll s₁ (r.takeOutbox.1.filterMap job?) = _ at hcompile
  simp only [driveRound, hsend, hcompile]

/-- A round takes all commands from the outbox, and leaves jobs further up there. -/
theorem driveRound_eq (hremote : remote.Serves reaches) {given : List CompileJob} {s : σ}
    {c : Compiler} (hs : reaches s c) (h : Coherent verifier r) (hg : Graded width height r)
    (ht : (r.outlook []).Tended (idle given c))
    (hjobs : ∀ job, .compile job ∈ r.outbox → height job.id ≤ bound)
    (hword : r.generation < wordLimit) (count : Nat) :
    ∃ count' r' s' c' given', r.driveRound remote s count = (.ok count', r', s') ∧
      reaches s' c' ∧ Driven verifier width height bound (idle given' c') r' := by
  have hcoherent := h.takeOutbox
  -- Evictions and clears go ahead of the jobs.
  have hreordered := ht.takeOutbox.reorder rfl
  obtain ⟨s₁, hsend, hs₁⟩ := hremote.sendAll_eq (ne_compile_of_mem_filter r.outbox) hs
  have ht₁ := Outlook.Tended.handleAll (ne_compile_of_mem_filter r.outbox) hreordered rfl rfl
  generalize (c.handleAll _).2 = c₁ at hs₁ ht₁
  -- The jobs are all answered.
  have hjob : ∀ job ∈ r.outbox.filterMap job?, .compile job ∈ r.outbox :=
    fun job => (mem_filterMap_job? job).1
  have hwords : ∀ job ∈ r.outbox.filterMap job?, job.generation < wordLimit := fun job hin =>
    Nat.lt_of_le_of_lt (ht.le_generation_of_queue (List.mem_append_right _ (hjob job hin))) hword
  have hready : ∀ k l, (r.takeOutbox.2.outlook []).outline? k = some l → l.ready = true →
      ∀ d ∈ l.dependencies, ((r.takeOutbox.2.outlook []).value? d).isSome :=
    fun k l hl hready => hcoherent.values_of_ready hl hready
  obtain ⟨s₂, hcompile, hs₂⟩ := hremote.compileAll_eq hwords hs₁
  have ht₂ := Outlook.Tended.answerAll hready ht₁ rfl rfl
  -- What the answers lead to lies further up than their nodes.
  have hbound : ∀ a ∈ (c₁.answerAll (r.outbox.filterMap job?)).1, height a.1 ≤ bound := by
    intro a ha
    obtain ⟨job, hin, hid, -⟩ := Compiler.exists_of_mem_answerAll ha
    exact hid ▸ hjobs job (hjob job hin)
  have hdriven : Driven verifier width height bound
      ⟨given ++ r.outbox.filterMap job?, [], (c₁.answerAll (r.outbox.filterMap job?)).2.get?,
        (c₁.answerAll (r.outbox.filterMap job?)).1⟩ r.takeOutbox.2 :=
    ⟨hcoherent, hg.of_unmoved (unmoved_takeOutbox r), ht₂,
      ⟨by simp [takeOutbox, outlook], by simp [outlook]⟩⟩
  obtain ⟨count', r', happly, hend⟩ := Driven.applyAll hbound count hdriven rfl
  refine ⟨count', r', s₂, _, _, ?_, hs₂, hend⟩
  rw [driveRound_of_sent hsend hcompile, happly]

omit [NodeKind ν] [LawfulNode ν] in
/-- With nothing in the outbox there is nothing to do. -/
theorem driveRounds_of_isEmpty (remote : RemoteCompiler σ) (h : r.outbox = []) (s : σ)
    (rounds count : Nat) : driveRounds remote rounds r s count = (.ok count, r, s) := by
  cases rounds with
  | zero => rfl
  | succ rounds => rw [driveRounds, if_pos (by rw [h]; rfl)]

variable [BareNode ν]

/-- There are no more rounds than the height below which the jobs lie. -/
theorem Driven.driveRounds (hremote : remote.Serves reaches) (rounds : Nat) :
    ∀ {bound : Nat} {given : List CompileJob} {s : σ} {c : Compiler} {r : Registry ν}
      (count : Nat), reaches s c → Driven verifier width height bound (idle given c) r →
      bound ≤ rounds → (Registry.driveRounds remote rounds r s count).2.1.generation < wordLimit →
      ∃ count' r' s' c' given',
        Registry.driveRounds remote rounds r s count = (.ok count', r', s') ∧
        reaches s' c' ∧ r'.outbox = [] ∧ Coherent verifier r' ∧
        (r'.outlook []).Tended (idle given' c') := by
  -- The bound on the heights of the jobs goes down with the rounds.
  induction rounds with
  | zero =>
    intro bound given s c r count hs h hle _
    refine ⟨count, r, s, c, given, rfl, hs, ?_, h.coherent, h.tended⟩
    -- No job lies below zero.
    refine List.eq_nil_iff_forall_not_mem.2 fun command hin => ?_
    obtain ⟨job, -, hlt⟩ := h.low.outbox_lt command hin
    omega
  | succ rounds ih =>
    intro bound given s c r count hs h hle hword
    cases houtbox : r.outbox with
    | nil =>
      exact ⟨count, r, s, c, given, driveRounds_of_isEmpty _ houtbox s _ count, hs, houtbox,
        h.coherent, h.tended⟩
    | cons command rest =>
      -- The jobs of this round lie below the bound, and so the next ones below one less.
      have hjobs : ∀ job, .compile job ∈ r.outbox → height job.id ≤ bound - 1 := by
        intro job hjob
        obtain ⟨job', he, hlt⟩ := h.low.outbox_lt _ hjob
        obtain rfl := CompilerCommand.compile.inj he
        omega
      have hfirst : r.generation < wordLimit :=
        Nat.lt_of_le_of_lt (onward_driveRounds remote _ r s count).generation_le hword
      obtain ⟨count', r', s', c', given', hround, hs', hdriven⟩ :=
        driveRound_eq hremote hs h.coherent h.graded h.tended hjobs hfirst count
      have hrounds : Registry.driveRounds remote (rounds + 1) r s count =
          Registry.driveRounds remote rounds r' s' count' := by
        rw [Registry.driveRounds, if_neg (by simp [houtbox]), hround]
      rw [hrounds] at hword ⊢
      exact ih count' hs' hdriven (by omega) hword

/-- Driving comes to an end with nothing in the outbox, and no node is forgotten. -/
theorem Coherent.drive_eq (hremote : remote.Serves reaches) {given : List CompileJob} {s : σ}
    {c : Compiler} (hs : reaches s c) (h : Coherent verifier r)
    (ht : (r.outlook []).Tended (idle given c))
    (hword : (r.drive remote s).2.1.generation < wordLimit) :
    ∃ count r' s' c' given', r.drive remote s = (.ok count, r', s') ∧ reaches s' c' ∧
      r'.outbox = [] ∧ Coherent verifier r' ∧ (r'.outlook []).Tended (idle given' c') := by
  cases houtbox : r.outbox with
  | nil =>
    exact ⟨0, r, s, c, given, driveRounds_of_isEmpty _ houtbox s _ 0, hs, houtbox, h, ht⟩
  | cons command rest =>
    -- The first round brings the jobs below the number of nodes.
    obtain ⟨height, hg⟩ := h.wired.exists_graded
    have hfirst : r.generation < wordLimit :=
      Nat.lt_of_le_of_lt (onward_drive remote r s).generation_le hword
    obtain ⟨count', r', s', c', given', hround, hs', hdriven⟩ :=
      driveRound_eq hremote hs h hg ht (fun job _ => hg.height_le job.id) hfirst 0
    have hdrive : r.drive remote s =
        Registry.driveRounds remote (r.size + 1) r' s' count' := by
      rw [drive, Registry.driveRounds, if_neg (by simp [houtbox]), hround]
    rw [hdrive] at hword ⊢
    exact hdriven.driveRounds hremote (r.size + 1) count' hs' (Nat.le_succ _) hword

end Registry

end LayeredAccess
