/-
  LayeredAccess.Proofs.Registry.Outcome

  Taking in values that were compiled elsewhere. Of an outcome that is not
  stale either nothing is left but a new generation, or its value arrives at a
  node that is ready for it.
-/
import LayeredAccess.Proofs.Registry.Changing

namespace LayeredAccess.Registry

variable {ν : Type} [Node ν] [NodeKind ν] [LawfulNode ν]
variable {verifier : Option Verifier} {r r' : Registry ν}

/-- What becomes of an outcome: it is stale, or it is dropped and its request superseded, or its
value arrives at a ready node. -/
inductive Answered (height : String → Nat) (r : Registry ν) (k : String)
    (outcome : CompileOutcome) : Registry ν → Prop
  | stale : KeyMap.find? r.generations k ≠ some outcome.generation → Answered height r k outcome r
  | dropped {r' : Registry ν} : KeyMap.find? r.generations k = some outcome.generation →
      (∀ x v, outcome = .compiled outcome.generation x → r.view? k = some v → ¬ v.Ready) →
      (∀ due, r'.outlook due = (r.outlook due).supersede k) → Answered height r k outcome r'
  | taken {r' : Registry ν} {x : Json} {v : NodeView} :
      KeyMap.find? r.generations k = some outcome.generation →
      outcome = .compiled outcome.generation x → r.view? k = some v → v.Ready →
      (∀ X : Outlook → Prop,
        (∀ o o', Outlook.Advance (fun j => height j < height k) o o' → X o → X o') →
        X ((r.outlook []).arrive k v.outline x) → X (r'.outlook [])) →
      Answered height r k outcome r'

/-- A value that comes to a ready node without value, and all that follows. -/
theorem Coherent.settle_arrival {width : Nat} {height : String → Nat} {r₁ : Registry ν}
    (h : Coherent verifier r) (hg : Graded width height r) {k : String} {v : NodeView} {x : Json}
    (hv : r.view? k = some v) (hready : v.Ready) (hnone : v.compiled = none)
    (hd : Delivered r r₁ k x) :
    let r' := r₁.settle [.tell k (.own (.compiled x) .registry)]
    Coherent verifier r' ∧ Graded width height r' ∧
      ∀ X : Outlook → Prop,
        (∀ o o', Outlook.Advance (fun j => height j < height k) o o' → X o → X o') →
        X ((r.outlook []).arrive k v.outline x) → X (r'.outlook []) := by
  intro r'
  have hstart : Rising verifier width height (height k) r [] :=
    h.rising hg (List.nodup_nil : ([] : List String).Nodup) (by simp)
  obtain ⟨n, r₂, more, hleads, -, hweight, hrising, hdue, houtlook⟩ :=
    hstart.arrive hv hready hnone (by simp [dueOf]) (Nat.le_refl _) hd
  rw [List.append_nil] at hrising
  obtain ⟨r₃, hrun, hend, hkept⟩ := hrising.run_eq (Nat.le_refl _)
  have hreserve : r₁.reserve = r.reserve := hd.toFrame.reserve_eq h.wired.sorted
  -- The bound of a single task leaves room for the arrival and for all that follows it.
  have hle : n + Agenda.total (Task.weight width height) more ≤
      r₁.cascadeBound [.tell k (.own (.compiled x) .registry)] := by
    have hcompile := hg.weight_le (.perform k .compile)
    simp only [Task.weight] at hcompile
    rw [cascadeBound_eq, hreserve, List.length_singleton, Nat.mul_add r.reserve]
    omega
  have hsettle : r' = r₃ := by
    refine settle_eq ?_ hle
    rw [hleads, List.append_nil, hrun]
  rw [hsettle]
  refine ⟨hend.coherent, hend.graded, fun X hX hx => hkept X hX ?_⟩
  rw [hdue, houtlook]
  exact hx

omit [LawfulNode ν] in
/-- A new generation leaves nodes and cache as they are. -/
theorem unmoved_bumpGeneration (r : Registry ν) (k : String) :
    Unmoved r (r.bumpGeneration k).2 :=
  ⟨⟨rfl, rfl, rfl, rfl, fun hs => ⟨hs, rfl⟩⟩, fun _ => rfl, fun _ => rfl⟩

omit [LawfulNode ν] in
theorem outlook_bumpGeneration (r : Registry ν) (k : String) (due : List String) :
    (r.bumpGeneration k).2.outlook due = (r.outlook due).supersede k := by
  refine outlook_ext (o := (r.outlook due).supersede k) (fun _ => rfl) rfl rfl (fun j => ?_) rfl
  show KeyMap.find? (KeyMap.insert r.generations k (r.generation + 1)) j =
    if j = k then some (r.generation + 1) else KeyMap.find? r.generations j
  simp only [KeyMap.find?_insert, eq_comm]

omit [LawfulNode ν] in
/-- A value is taken in if its node is registered and ready. -/
theorem Coherent.any_isDependable_iff (h : Coherent verifier r) (k : String) :
    (r.get? k).any (fun n => (Node.dependencies n).all r.isDependable) = true ↔
      ∃ v, r.view? k = some v ∧ v.Ready := by
  cases hn : r.get? k with
  | none => simp [view?, hn]
  | some n =>
    have hv := view?_of_get? hn
    rw [Option.any_some, List.all_eq_true, hv]
    simp only [Option.some.injEq, exists_eq_left']
    exact (h.ready_iff hv).symm

omit [NodeKind ν] [LawfulNode ν] in
/-- A value that is taken in comes into the cache, and its node is told. -/
theorem delivered_publish (r : Registry ν) (k : String) (x : Json) :
    Delivered r
      (({ (r.bumpGeneration k).2 with
        compiler := (r.bumpGeneration k).2.compiler.publish k x } :
          Registry ν).completeCompile k x).1 k x := by
  refine ⟨⟨rfl, rfl, rfl, rfl, fun hs => ⟨hs, rfl⟩⟩, rfl, fun j => ?_, rfl, rfl, rfl⟩
  show (r.compiler.publish k x).get? j = _
  simp only [Compiler.get?_publish, eq_comm]
  rfl

/-- Taking in an outcome. A value only arrives at a node that holds none. -/
theorem Coherent.applyOutcome_spec {width : Nat} {height : String → Nat}
    (h : Coherent verifier r) (hg : Graded width height r) (k : String) (outcome : CompileOutcome)
    (hfree : KeyMap.find? r.generations k = some outcome.generation → r.value? k = none) :
    Coherent verifier (r.applyOutcome k outcome) ∧ Graded width height (r.applyOutcome k outcome) ∧
      Answered height r k outcome (r.applyOutcome k outcome) := by
  have hbumped := unmoved_bumpGeneration r k
  unfold applyOutcome
  split
  · next hcurrent =>
    cases outcome with
    | failed g missing =>
      have ha : Alike (r.bumpGeneration k).2 ((r.bumpGeneration k).2.publishError "Compile Error" k
          (.missingDependency k missing)) := Silent.alike ⟨_, rfl⟩
      refine ⟨(h.of_unmoved hbumped).of_unmoved ha.toUnmoved,
        (hg.of_unmoved hbumped).of_unmoved ha.toUnmoved, .dropped hcurrent ?_ fun due => ?_⟩
      · simp
      · exact (ha.outlook_eq due).trans (outlook_bumpGeneration r k due)
    | compiled g x =>
      -- Taking in a value takes a node that is ready.
      have hguard : ((r.bumpGeneration k).2.get? k).any (fun n =>
          (Node.dependencies n).all (r.bumpGeneration k).2.isDependable) = true ↔
          ∃ v, r.view? k = some v ∧ v.Ready := h.any_isDependable_iff k
      dsimp only
      split
      · next hready =>
        obtain ⟨v, hv, hready⟩ := hguard.1 hready
        have hnone : v.compiled = none := by
          have hvalue := hfree hcurrent
          rw [value?, hv] at hvalue
          exact hvalue
        obtain ⟨hcoherent, hgraded, hkept⟩ :=
          h.settle_arrival hg hv hready hnone (delivered_publish r k x)
        exact ⟨hcoherent, hgraded, .taken hcurrent rfl hv hready hkept⟩
      · next hnot =>
        refine ⟨h.of_unmoved hbumped, hg.of_unmoved hbumped,
          .dropped hcurrent ?_ (outlook_bumpGeneration r k)⟩
        intro y w _ hw hready
        exact hnot (hguard.2 ⟨w, hw, hready⟩)
  · next hstale => exact ⟨h, hg, .stale hstale⟩

/-- What cascades above a node keep, and a new generation of it and a value that comes to it, is
kept when an outcome is taken in, whatever it brings. -/
theorem Coherent.applyOutcome_kept {width : Nat} {height : String → Nat}
    (h : Coherent verifier r) (hg : Graded width height r) {k : String} {outcome : CompileOutcome}
    (hfree : KeyMap.find? r.generations k = some outcome.generation → r.value? k = none)
    {X : Outlook → Prop} (hx : X (r.outlook []))
    (hX : ∀ o o', Outlook.Advance (fun j => height j < height k) o o' → X o → X o')
    (hsupersede : KeyMap.find? r.generations k = some outcome.generation →
      X ((r.outlook []).supersede k))
    (harrive : KeyMap.find? r.generations k = some outcome.generation →
      ∀ l x, X ((r.outlook []).arrive k l x)) :
    Coherent verifier (r.applyOutcome k outcome) ∧ Graded width height (r.applyOutcome k outcome) ∧
      X ((r.applyOutcome k outcome).outlook []) := by
  obtain ⟨hcoherent, hgraded, hanswered⟩ := h.applyOutcome_spec hg k outcome hfree
  refine ⟨hcoherent, hgraded, ?_⟩
  clear hcoherent hgraded
  generalize r.applyOutcome k outcome = r' at hanswered ⊢
  cases hanswered with
  | stale => exact hx
  | dropped hcurrent _ houtlook => exact houtlook [] ▸ hsupersede hcurrent
  | taken hcurrent _ _ _ hkept => exact hkept X hX (harrive hcurrent _ _)

end LayeredAccess.Registry
