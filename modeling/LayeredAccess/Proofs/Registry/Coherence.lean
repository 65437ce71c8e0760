/-
  LayeredAccess.Proofs.Registry.Coherence

  How cascades start in a coherent registry, and that they end within the
  bound that is set for them.

  A cascade that starts when a node is told something falls first and rises
  then; either part is over after few steps, whatever the dependencies are.
-/
import LayeredAccess.Proofs.Registry.Falling
import LayeredAccess.Proofs.Registry.Rising

namespace LayeredAccess.Registry

variable {ν : Type} [Node ν] [NodeKind ν]

/-- What is kept by every move holds afterwards if it holds before. -/
def Evolves (r r' : Registry ν) : Prop :=
  ∀ X, Outlook.Kept X → X (r.outlook []) → X (r'.outlook [])

variable {verifier : Option Verifier} {width : Nat} {height : String → Nat} {bound : Nat}
  {r r' r'' : Registry ν} {tasks : List Task}

theorem Evolves.trans (h : Evolves r r') (h' : Evolves r' r'') : Evolves r r'' :=
  fun X hX hr => h' X hX (h X hX hr)

theorem Alike.evolves (h : Alike r r') : Evolves r r' := fun X _ hr => by
  rw [h.outlook_eq]
  exact hr

/-! ## Starting -/

section Starts

variable [LawfulNode ν]

theorem Coherent.of_unmoved (h : Coherent verifier r) (ha : Unmoved r r') :
    Coherent verifier r' := by
  refine ⟨h.toSteady.of_unmoved ha, fun k v hv d hd => ?_⟩
  rw [ha.isDependable_eq]
  exact h.recorded_eq k v ((ha.view?_eq k).symm.trans hv) d hd

omit [LawfulNode ν] in
/-- In a coherent registry nobody is out of date, and nodes that are ready and hold no value may
be compiled. -/
theorem Coherent.rising (h : Coherent verifier r) (hg : Graded width height r) {ks : List String}
    (hnodup : ks.Nodup) (hks : ∀ k ∈ ks, height k < bound ∧
      ∃ v, r.view? k = some v ∧ v.Ready ∧ v.compiled = none) :
    Rising verifier width height bound r (ks.map (.perform · .compile)) := by
  have hheard : (ks.map fun k => Task.perform k .compile).flatMap r.heard = [] := by
    rw [List.flatMap_map]
    simp [heard]
  have hdue : dueOf (ks.map fun k => Task.perform k .compile) = ks := dueOf_map_compile ks
  refine ⟨h.toSteady, hg, fun n v hv d hd hr => ?_, fun n d => ?_, by simp [hheard],
    fun k hk => (hks k (hdue ▸ hk)).2, hdue.symm ▸ hnodup, fun t ht => ?_⟩
  · rw [h.recorded_eq n v hv d hd] at hr
    exact Option.some.inj hr
  · rw [hheard]
    refine ⟨fun hin => by simp at hin, ?_⟩
    rintro ⟨v, hv, hd, hr, hdep⟩
    rw [h.recorded_eq n v hv d hd, hdep] at hr
    simp at hr
  · obtain ⟨k, hk, rfl⟩ := List.mem_map.1 ht
    exact (hks k hk).1

/-- In a coherent registry a node may turn into one that is not dependable, if its dependents are
told of the loss. -/
theorem Coherent.falling {k : String} {loss : List Effect} (h : Coherent verifier r)
    (hs : Steady verifier r') (hg : Graded width height r')
    (hother : ∀ j, j ≠ k → r'.view? j = r.view? j) (hnot : r'.isDependable k = false)
    (hrec : ∀ v', r'.view? k = some v' → ∀ d ∈ v'.inputs.dependencies,
      v'.recorded d = some (r.isDependable d))
    (hloss : (∃ wide, loss = [.broadcast .invalidated wide]) ∨
      (loss = [] ∧ r.isDependable k = false)) :
    Falling verifier width height (height k) (fun _ => False) r' (loss.map (.perform k)) := by
  have hsame : ∀ j, j ≠ k → r'.isDependable j = r.isDependable j :=
    fun j hj => isDependable_congr (hother j hj)
  -- What a node has recorded is how its dependencies fared before.
  have hrecorded : ∀ n v, r'.view? n = some v → ∀ d ∈ v.inputs.dependencies,
      v.recorded d = some (r.isDependable d) := by
    intro n v hv d hd
    by_cases hn : n = k
    · exact hrec v (hn ▸ hv) d hd
    · exact h.recorded_eq n v ((hother n hn).symm.trans hv) d hd
  refine ⟨hs, hg, fun n v hv d hd hr => ?_, fun n v hv d hd hr => .inl ?_, fun _ hf => hf.elim,
    fun t ht => ?_⟩
  · have hdep : r.isDependable d = true :=
      Option.some.inj ((hrecorded n v hv d hd).symm.trans hr)
    by_cases hdk : d = k
    · rcases hloss with ⟨wide, rfl⟩ | ⟨-, hplain⟩
      · exact .inr (.inr ⟨wide, by simp [hdk]⟩)
      · simp [hdk, hplain] at hdep
    · exact .inl ((hsame d hdk).trans hdep)
  · have hdep : r.isDependable d = false :=
      Option.some.inj ((hrecorded n v hv d hd).symm.trans hr)
    by_cases hdk : d = k
    · exact hdk ▸ hnot
    · exact (hsame d hdk).trans hdep
  · rcases hloss with ⟨wide, rfl⟩ | ⟨rfl, -⟩
    · obtain rfl : t = .perform k (.broadcast .invalidated wide) := by simpa using ht
      exact ⟨rfl, hnot, Nat.le_refl _⟩
    · simp at ht

end Starts

/-! ## Ending within the bound -/

/-- A bound on what a single task can lead to. -/
def reserve (r : Registry ν) : Nat := Nat.pow (r.listenerCount + 16) (r.size + 1)

theorem Graded.weight_le (h : Graded width height r) (t : Task) :
    t.weight width height ≤ r.reserve := by
  rw [reserve, h.width_eq]
  exact Task.weight_le width height t (Nat.lt_succ_of_le (h.height_le t.node))

omit [Node ν] [NodeKind ν] in
theorem cascadeBound_eq (r : Registry ν) (tasks : List Task) :
    r.cascadeBound tasks = (tasks.length + 1) * (r.reserve * (r.listenerCount + 16)) := rfl

/-- Tasks that are settled end within the bound if none leads to more than its weight. -/
theorem Graded.total_le_cascadeBound (h : Graded width height r) (tasks : List Task) :
    Agenda.total (Task.weight width height) tasks ≤ r.cascadeBound tasks := by
  have htotal := Agenda.total_le_mul (Task.weight width height) r.reserve tasks
    fun t _ => h.weight_le t
  have hmul := Nat.mul_le_mul_left tasks.length
    (Nat.le_mul_of_pos_right r.reserve (show 0 < r.listenerCount + 16 by omega))
  rw [cascadeBound_eq, Nat.add_mul]
  omega

omit [Node ν] [NodeKind ν] in
theorem one_le_reserve (r : Registry ν) : 1 ≤ r.reserve := Nat.one_le_pow _ _ (by omega)

omit [Node ν] [NodeKind ν] in
theorem Frame.reserve_eq (h : Frame r r') (hs : KeyMap.Sorted r.nodes) :
    r'.reserve = r.reserve := by
  rw [reserve, listenerCount, h.listeners_eq, (h.sorted hs).2]
  rfl

omit [NodeKind ν] in
/-- A run that comes to an end within the bound is what settles the tasks. -/
theorem settle_eq {steps : Nat} (hrun : Agenda.run step steps r tasks = (r', []))
    (hsteps : steps ≤ r.cascadeBound tasks) : r.settle tasks = r' := by
  rw [settle, Agenda.run_of_le hsteps r tasks (by rw [hrun]), hrun]

omit [NodeKind ν] in
/-- Telling a node, and then all that follows. -/
theorem deliver_eq {k : String} {s : Signal} {steps : Nat}
    (htell : r.tell k (.own s .registry) = (r', tasks))
    (hrun : Agenda.run step steps r' tasks = (r'', [])) (hsteps : steps ≤ 2 * r.reserve) :
    r.deliver k s = r'' := by
  have hleads := Agenda.leads_of_step (show step r (.tell k (.own s .registry)) = _ from htell)
  have hwhole : Agenda.run step (1 + steps) r [.tell k (.own s .registry)] = (r'', []) := by
    rw [hleads, List.append_nil, hrun]
  refine settle_eq hwhole ?_
  · rw [cascadeBound_eq, List.length_singleton, Nat.mul_add r.reserve]
    have := r.one_le_reserve
    omega

variable [LawfulNode ν]

/-- Rising tasks are settled in a coherent registry. -/
theorem Rising.settle (h : Rising verifier width height bound r tasks) :
    Coherent verifier (r.settle tasks) ∧ Graded width height (r.settle tasks) ∧
      ∀ X : Outlook → Prop,
        (∀ o o', Outlook.Advance (fun k => height k < bound) o o' → X o → X o') →
        X (r.outlook (dueOf tasks)) → X ((r.settle tasks).outlook []) := by
  obtain ⟨r', hrun, hend, hkept⟩ := h.run_eq (h.graded.total_le_cascadeBound tasks)
  rw [settle_eq hrun (Nat.le_refl _)]
  exact ⟨hend.coherent, hend.graded, hkept⟩

end LayeredAccess.Registry
