/-
  LayeredAccess.Proofs.Registry.Removing

  Removing a node, and dropping all values at once.
-/
import LayeredAccess.Proofs.Registry.Changing

namespace LayeredAccess.Registry

variable {ν : Type} [Node ν] [NodeKind ν] [LawfulNode ν]
variable {verifier : Option Verifier} {r r' : Registry ν}

/-! ## Removing -/

/-- Taking out a node that holds no value any more. -/
theorem Coherent.sound_uninstall {k : String} {v : NodeView} (h : Coherent verifier r)
    (hv : r.view? k = some v) (hnone : v.compiled = none) :
    Coherent verifier (r.uninstall k v.inputs.dependencies) ∧
      ∀ due, (r.uninstall k v.inputs.dependencies).outlook (due.filter (· ≠ k)) =
        (r.outlook due).remove k := by
  obtain ⟨hw, hview, hcompiled, hconfig, hverifier, hgeneration, hgenerations, houtbox⟩ :=
    uninstall_spec h.wired hv
  generalize r.uninstall k v.inputs.dependencies = r' at *
  -- A node without value was not dependable, so nobody misses it.
  have hdependable : ∀ j, r'.isDependable j = r.isDependable j := by
    intro j
    by_cases hj : j = k
    · have hgone : r'.view? k = none := (hview k).trans (if_pos rfl)
      rw [hj, isDependable_eq_false hgone, isDependable_of_view? hv,
        (h.fits k v hv).dependable_eq_false hnone]
    · exact isDependable_congr ((hview j).trans (if_neg hj))
  have hmode : r'.isDeferred = r.isDeferred := by rw [isDeferred, hconfig, isDeferred]
  refine ⟨⟨⟨hw, hverifier.trans h.verifier_eq, fun j w hw => ?_, fun j => ?_⟩,
    fun j w hw d hd => ?_⟩, fun due => ?_⟩
  · rw [hview] at hw
    split at hw
    · simp at hw
    · exact h.fits j w hw
  · rw [hcompiled, value?, hview, h.compiled?_eq, value?]
    split <;> rfl
  · rw [hdependable]
    rw [hview] at hw
    split at hw
    · simp at hw
    · exact h.recorded_eq j w hw d hd
  · refine outlook_ext (o := (r.outlook due).remove k) (fun j => ?_) hmode hgeneration
      (fun j => ?_) houtbox
    · rw [hview]
      show _ = if j = k then none else (r.view? j).map NodeView.outline
      split <;> rfl
    · rw [hgenerations, KeyMap.find?_erase]
      show _ = if j = k then none else KeyMap.find? r.generations j
      simp only [eq_comm]

omit [LawfulNode ν] in
/-- A node that is to be removed, and its channel, are told of it. -/
theorem Coherent.falling_dispatch {k : String} {v : NodeView} {width : Nat} {height : String → Nat}
    (h : Coherent verifier r) (hg : Graded width height r) (hv : r.view? k = some v) :
    Falling verifier width height (height k) (· = k) r (r.dispatch k .deleted .registry) := by
  refine ⟨h.toSteady, hg, fun n w hw d hd hr => ?_, fun n w hw d hd hr => ?_, fun j hj => ?_,
    fun t ht => ?_⟩
  · rw [h.recorded_eq n w hw d hd] at hr
    exact .inl (Option.some.inj hr)
  · rw [h.recorded_eq n w hw d hd] at hr
    exact .inl (Option.some.inj hr)
  -- The node listens to its own channel, so its farewell is among the tasks.
  · subst hj
    have hlisten : Listener.owner j ∈ r.listenersOf j :=
      (h.wired.mem_listenersOf j _).2 ⟨rfl, by rw [hv]; rfl⟩
    exact .inl (List.mem_map.2 ⟨_, hlisten, rfl⟩)
  · obtain ⟨l, hl, rfl⟩ := List.mem_map.1 ht
    have hlistens := (h.wired.mem_listenersOf k l).1 hl
    cases l with
    | owner j =>
      obtain ⟨rfl, hj⟩ := hlistens
      exact ⟨hj, .inr ⟨rfl, rfl, rfl, Nat.le_refl _⟩⟩
    | dependent j =>
      obtain ⟨w, hw, hmem⟩ := hlistens
      exact ⟨.inr rfl, hg.height_lt j w hw k hmem, ⟨w, hw, hmem⟩, .inr rfl⟩

/-- When node and channel have been told, the node is still there but holds no value any more. -/
theorem Coherent.exists_deleted {k : String} {v : NodeView} (h : Coherent verifier r)
    (hv : r.view? k = some v) :
    ∃ r' v', r.settle (r.dispatch k .deleted .registry) = r' ∧ Coherent verifier r' ∧
      r'.view? k = some v' ∧ v'.compiled = none ∧
      ∀ X, Outlook.Kept X → X (r.outlook [k]) → X (r'.outlook [k]) := by
  obtain ⟨height, hg⟩ := h.wired.exists_graded
  obtain ⟨r', hrun, hend, hkept⟩ :=
    (h.falling_dispatch hg hv).run_eq (hg.total_le_cascadeBound _)
  -- Nodes lapse, but none is taken out.
  have hsome : ((r'.outlook [k]).outline? k).isSome = true := by
    refine hkept (fun o => (o.outline? k).isSome = true) [k] (by simp) ?_ ?_
    · rintro o o' ⟨-, -, -⟩ ho
      show (if k = _ then _ else o.outline? k).isSome = true
      split
      · rfl
      · exact ho
    · rw [outline?_outlook hv]
      rfl
  obtain ⟨v', hv'⟩ : ∃ v', r'.view? k = some v' := by
    have hsome' : ((r'.view? k).map NodeView.outline).isSome = true := hsome
    rw [Option.isSome_map] at hsome'
    exact Option.isSome_iff_exists.1 hsome'
  have hnone : v'.compiled = none := by
    have hvalue := (hend.ended k rfl).resolve_left (by simp)
    rw [value?, hv'] at hvalue
    exact hvalue
  exact ⟨r', v', settle_eq hrun (Nat.le_refl _), hend.coherent, hv', hnone, fun X hX hr =>
    hkept X [k] (by simp) (fun o o' hl => hX o o' (.lapse hl)) hr⟩

theorem Coherent.sound_delete (h : Coherent verifier r) (k : String) :
    Sound verifier r (r.delete k).2 := by
  unfold delete
  split
  · exact h.sound_refuse _ _ _
  · next n hn =>
    split
    · exact h.sound_refuse _ _ _
    · have ha := (silent_publishSignal r k .deleted true).alike
      have h₁ := h.of_unmoved ha.toUnmoved
      dsimp only
      generalize r.publishSignal k .deleted true = r₁ at ha h₁ ⊢
      have hv₁ : r₁.view? k = some (Node.view n) := (ha.view?_eq k).trans (view?_of_get? hn)
      obtain ⟨r₂, v₂, hsettle, h₂, hv₂, hnone, hkept⟩ := h₁.exists_deleted hv₁
      rw [hsettle]
      obtain ⟨m, hm, rfl⟩ := exists_get? hv₂
      rw [hm]
      obtain ⟨hcoherent, houtlook⟩ := h₂.sound_uninstall hv₂ hnone
      refine ⟨hcoherent, fun X hX hr => ?_⟩
      -- While it is told of its deletion the node counts as due, and then it is taken out.
      have hask : X (r₁.outlook [k]) := hX _ _ (.ask k) (ha.evolves X hX hr)
      have hremoved := houtlook [k]
      simp only [ne_eq, List.filter_cons_of_neg, decide_not, decide_true, Bool.not_true,
        Bool.false_eq_true, not_false_eq_true, List.filter_nil] at hremoved
      show X ((r₂.uninstall k (Node.dependencies m)).outlook [])
      change (r₂.uninstall k (Node.dependencies m)).outlook [] = _ at hremoved
      rw [hremoved]
      refine hX _ _ (.remove ?_) (hkept X hX hask)
      rw [value?_outlook, value?, hv₂]
      exact hnone

/-! ## Clearing the cache -/

omit [LawfulNode ν] in
theorem isCompilable_iff (n : ν) : Node.isCompilable n = true ↔ (Node.view n).Ready :=
  Readiness.covers_iff (Node.readiness n) (Node.dependencies n)

theorem view?_resetAll (r : Registry ν) (k : String) :
    r.resetAll.view? k = (r.view? k).map NodeView.forgotten := by
  show (KeyMap.find? (KeyMap.mapValues Node.reset r.nodes) k).map Node.view = _
  rw [KeyMap.find?_mapValues, view?, Option.map_map, Option.map_map]
  exact congrArg (Option.map · (r.get? k)) (funext LawfulNode.view_reset)

/-- With all values dropped and all readiness forgotten a registry is coherent. -/
theorem Coherent.resetAll (h : Coherent verifier r) : Coherent verifier r.resetAll := by
  -- Without values nothing is dependable, which is what the nodes record.
  have hvalue : ∀ k, r.resetAll.value? k = none := by
    intro k
    rw [value?, view?_resetAll]
    cases r.view? k <;> rfl
  have hf : Frame r r.resetAll := by
    refine ⟨rfl, rfl, rfl, rfl, fun hs => ⟨?_, List.length_map _⟩⟩
    exact List.pairwise_map.2 hs
  have hs : Steady verifier r.resetAll := by
    refine ⟨h.wired.of_frame hf fun k => ?_, h.verifier_eq, fun k v hv => ?_, fun k => ?_⟩
    · rw [links?, view?_resetAll, Option.map_map]
      rfl
    · rw [view?_resetAll] at hv
      obtain ⟨w, hw, rfl⟩ := Option.map_eq_some_iff.1 hv
      refine ⟨rfl, rfl, fun hc => by simp [NodeView.forgotten] at hc, fun d hd => ?_⟩
      show ((w.recorded d).map fun _ => false).isSome = true
      rw [Option.isSome_map]
      exact (h.fits k w hw).known d hd
    · rw [hvalue]
      rfl
  refine ⟨hs, fun k v hv d hd => ?_⟩
  have hnot : r.resetAll.isDependable d = false := by
    cases hdep : r.resetAll.isDependable d with
    | false => rfl
    | true =>
      have := hs.value?_of_isDependable hdep
      simp [hvalue] at this
  rw [view?_resetAll] at hv
  obtain ⟨w, hw, rfl⟩ := Option.map_eq_some_iff.1 hv
  show (w.recorded d).map (fun _ => false) = _
  obtain ⟨ready, hready⟩ := Option.isSome_iff_exists.1 ((h.fits k w hw).known d hd)
  rw [hready, hnot]
  rfl

omit [LawfulNode ν] in
/-- The nodes that can be compiled, each once. -/
theorem Wired.compilable_spec (h : Wired r) :
    let roots := (r.nodes.filter fun e => Node.isCompilable e.2).map fun e => Node.key e.2
    roots.Nodup ∧ ∀ k, k ∈ roots ↔ ∃ v, r.view? k = some v ∧ v.Ready := by
  intro roots
  have hfind : ∀ e ∈ r.nodes, r.view? e.1 = some (Node.view e.2) := by
    intro e he
    rw [view?, get?, KeyMap.find?_of_mem h.sorted he, Option.map_some]
  -- Nodes are kept under their own keys, so the roots are keys of the table.
  have hkey : ∀ e ∈ r.nodes, Node.key e.2 = e.1 := fun e he => h.key_eq e.1 _ (hfind e he)
  have hroots : roots = (r.nodes.filter fun e => Node.isCompilable e.2).map (·.1) :=
    List.map_congr_left fun e he => hkey e (List.mem_filter.1 he).1
  rw [hroots]
  constructor
  · exact (KeyMap.nodup_keys h.sorted).sublist (List.Sublist.map _ List.filter_sublist)
  · intro k
    simp only [List.mem_map, List.mem_filter]
    constructor
    · rintro ⟨e, ⟨he, hcompilable⟩, rfl⟩
      exact ⟨_, hfind e he, (isCompilable_iff e.2).1 hcompilable⟩
    · rintro ⟨v, hv, hready⟩
      obtain ⟨n, hn, rfl⟩ := exists_get? hv
      exact ⟨(k, n), ⟨KeyMap.mem_of_find? hn, (isCompilable_iff n).2 hready⟩, rfl⟩

/-- A reset outlook shows what a reset registry looks like. -/
theorem outlook_resetAll (r : Registry ν) (due due' : List String) :
    r.resetAll.outlook due' = (r.outlook due).reset due' := by
  refine outlook_ext (o := (r.outlook due).reset due') (fun k => ?_) rfl rfl (fun _ => rfl) rfl
  show (r.resetAll.view? k).map NodeView.outline = ((r.view? k).map NodeView.outline).map _
  rw [view?_resetAll]
  cases hv : r.view? k with
  | none => rfl
  | some v =>
    have hready : v.forgotten.Ready ↔ v.inputs.dependencies = [] := by
      constructor
      · intro hready
        refine List.eq_nil_iff_forall_not_mem.2 fun d hd => ?_
        have hd' : (v.recorded d).map (fun _ => false) = some true := hready d hd
        cases hrec : v.recorded d <;> simp [hrec] at hd'
      · intro hnil d hd
        rw [show v.forgotten.inputs.dependencies = [] from hnil] at hd
        simp at hd
    simp only [Option.map_some, NodeView.outline, hready]
    rfl

/-- With all values dropped, the nodes that can be compiled are compiled. -/
theorem Coherent.rising_roots (h : Coherent verifier r) : ∃ height,
    Rising verifier r.resetAll.listenerCount height (r.resetAll.size + 1) r.resetAll
      (((r.resetAll.nodes.filter fun e => Node.isCompilable e.2).map fun e => Node.key e.2).map
        (.perform · .compile)) := by
  have h₁ := h.resetAll
  obtain ⟨hnodup, hmem⟩ := h₁.wired.compilable_spec
  obtain ⟨height, hg⟩ := h₁.wired.exists_graded
  refine ⟨height, h₁.rising hg hnodup fun k hk => ?_⟩
  obtain ⟨v, hv, hready⟩ := (hmem k).1 hk
  refine ⟨Nat.lt_succ_of_le (hg.height_le k), v, hv, hready, ?_⟩
  rw [view?_resetAll] at hv
  obtain ⟨w, -, rfl⟩ := Option.map_eq_some_iff.1 hv
  rfl

theorem Coherent.sound_clearCache (h : Coherent verifier r) : Sound verifier r r.clearCache := by
  obtain ⟨-, hmem⟩ := h.resetAll.wired.compilable_spec
  obtain ⟨height, hrising⟩ := h.rising_roots
  unfold clearCache
  dsimp only at hmem ⊢
  generalize hroots : (r.resetAll.nodes.filter fun e => Node.isCompilable e.2).map
    (fun e => Node.key e.2) = roots at hmem hrising ⊢
  obtain ⟨hcoherent, -, hkept⟩ := hrising.settle
  refine ⟨hcoherent, fun X hX hr => hkept X (fun o o' ha => hX o o' (.advance ha)) ?_⟩
  rw [dueOf_map_compile, outlook_resetAll r []]
  refine hX _ _ (.reset fun k l hl hnil => (hmem k).2 ?_) hr
  obtain ⟨v, hv, rfl⟩ := Option.map_eq_some_iff.1 hl
  refine ⟨v.forgotten, by rw [view?_resetAll, hv]; rfl, fun d hd => ?_⟩
  rw [show v.forgotten.inputs.dependencies = [] from hnil] at hd
  simp at hd

end LayeredAccess.Registry
