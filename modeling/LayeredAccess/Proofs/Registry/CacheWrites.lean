/-
  LayeredAccess.Proofs.Registry.CacheWrites

  What an operation writes to the cache. It writes only about registered nodes,
  so it leaves alone what is cached of every other key, unless it clears the
  cache (`compiled?_operate`); and when a node goes, what is cached of it goes
  too. None of this asks whether the cache is coherent.
-/
import LayeredAccess.Proofs.Registry.CascadePhases
import LayeredAccess.Proofs.Registry.Sparing

namespace LayeredAccess

/-- Does an operation drop all that is cached? -/
def Operation.clears {ν : Type} [Node ν] [NodeKind ν] : Operation ν → Bool
  | .clearCache => true
  | _ => false

namespace Registry

variable {ν : Type} {r r' : Registry ν} {k : String}

/-! ## Registered keys -/

theorem contains_of_get? {n : ν} (hn : r.get? k = some n) : r.contains k = true := by
  rw [contains, hn]
  rfl

theorem ne_of_contains {j : String} {n : ν} (hk : r.contains k = false) (hn : r.get? j = some n) :
    k ≠ j := by
  rintro rfl
  simp [contains, hn] at hk

theorem contains_setNode (r : Registry ν) (key : String) (n : ν) (k : String) :
    (r.setNode key n).contains k = (decide (k = key) || r.contains k) := by
  show (KeyMap.find? (KeyMap.insert r.nodes key n) k).isSome = _
  rw [KeyMap.find?_insert]
  by_cases hk : key = k
  · simp [hk]
  · simp [hk, Ne.symm hk, contains, get?]

theorem contains_uninstall (r : Registry ν) (key : String) (ds : List String) (k : String) :
    (r.uninstall key ds).contains k = (r.contains k && decide (k ≠ key)) := by
  obtain ⟨ls, huninstall⟩ := exists_uninstall r key ds
  rw [huninstall]
  show (KeyMap.find? (KeyMap.erase r.nodes key) k).isSome = _
  rw [KeyMap.find?_erase]
  by_cases hk : key = k
  · simp [hk]
  · simp [hk, Ne.symm hk, contains, get?]

theorem compiled?_uninstall (r : Registry ν) (key : String) (ds : List String) (k : String) :
    (r.uninstall key ds).compiled? k = if k = key then none else r.compiled? k := by
  obtain ⟨ls, huninstall⟩ := exists_uninstall r key ds
  rw [huninstall, compiled?_evict]
  rfl

variable [Node ν]

theorem contains_of_isDependable (h : r.isDependable k = true) : r.contains k = true := by
  obtain ⟨n, hn, -⟩ := (Option.any_eq_true _ _).1 h
  exact contains_of_get? hn

theorem contains_install (r : Registry ν) (n : ν) (k : String) :
    (r.install n).contains k = (decide (k = Node.key n) || r.contains k) := by
  obtain ⟨ls, hinstall⟩ := exists_install r n
  rw [hinstall]
  exact contains_setNode r (Node.key n) _ k

theorem contains_relink (r : Registry ν) (key : String) (previous : List String) (n : ν)
    (k : String) :
    (r.relink key previous n).contains k = (decide (k = key) || r.contains k) := by
  obtain ⟨ls, hrelink⟩ := exists_relink r key previous n
  rw [hrelink]
  exact contains_setNode r key _ k

theorem contains_patched (r : Registry ν) (key : String) (n : ν) (patch : Node.Patch ν)
    (k : String) : (r.patched key n patch).contains k = (decide (k = key) || r.contains k) := by
  let after := (Node.applyPatch n patch).2
  show (if (Node.applyPatch n patch).1.dependenciesChanged then
    (r.setNode key after).relink key (Node.dependencies n) after
    else r.setNode key after).contains k = _
  split
  · rw [contains_relink, contains_setNode, ← Bool.or_assoc, Bool.or_self]
  · exact contains_setNode r key after k

variable [NodeKind ν]

theorem Linked.contains_eq (h : Linked r r') (k : String) : r'.contains k = r.contains k := by
  have hlinks := congrArg Option.isSome (h.links?_eq k)
  rwa [links?, links?, Option.isSome_map, Option.isSome_map, view?, view?, Option.isSome_map,
    Option.isSome_map] at hlinks

/-! ## Cascades -/

/-- A step writes about registered nodes only. -/
theorem compiled?_step (hk : r.contains k = false) (t : Task) :
    (r.step t).1.compiled? k = r.compiled? k := by
  have hstep := steps_step r t
  generalize (r.step t).1 = r₁, (r.step t).2 = more at hstep ⊢
  cases hstep with
  | absent | valueless | validated | unregistered | announced | rejected | lacking | queued => rfl
  | told hn => exact (spared_reshape r _ _ (ne_of_contains hk hn)).compiled?_eq
  | broadcast => exact (silent_publishSignal r _ _ _).alike.compiled?_eq k
  | uncached hn => exact Compiler.get?_compile r.compiler _ (ne_of_contains hk hn)
  | @compiled key _ value hn =>
    refine ((silent_publishSignal _ key (.compiled value) false).alike.compiled?_eq k).trans ?_
    exact Compiler.get?_compile r.compiler _ (ne_of_contains hk hn)

/-- A cascade leaves alone what is cached of keys that are not registered. -/
theorem compiled?_settle [LinkedNode ν] (hk : r.contains k = false) (tasks : List Task) :
    (r.settle tasks).compiled? k = r.compiled? k := by
  have hrun := Agenda.run_invariant
    (P := fun s : Registry ν => s.contains k = false ∧ s.compiled? k = r.compiled? k)
    (fun s t h => ⟨((linked_step s t).contains_eq k).trans h.1, (compiled?_step h.1 t).trans h.2⟩)
    (r.cascadeBound tasks) r tasks ⟨hk, rfl⟩
  exact hrun.2

/-! ## Operations -/

/-- Before the first node is told, an operation has removed no node, and has changed nothing that
is cached, unless it clears the cache. -/
structure Prepares (r : Registry ν) (operation : Operation ν) (r' : Registry ν) : Prop where
  contains : ∀ k, r.contains k = true → r'.contains k = true
  compiled?_eq : operation.clears = false → ∀ k, r'.compiled? k = r.compiled? k

theorem Prepares.of_alike {operation : Operation ν} {r₁ : Registry ν} (h : Prepares r operation r₁)
    (ha : Alike r₁ r') : Prepares r operation r' := by
  refine ⟨fun k hk => ?_, fun hclears k => (ha.compiled?_eq k).trans (h.compiled?_eq hclears k)⟩
  have hview := congrArg Option.isSome (ha.view?_eq k)
  rw [view?, view?, Option.isSome_map, Option.isSome_map] at hview
  exact hview.trans (h.contains k hk)

variable [LawfulNode ν]

theorem prepares_opening (r : Registry ν) (operation : Operation ν) :
    Prepares r operation (r.opening operation.toCall).1 := by
  have hopens := opens_opening r operation.toCall
  generalize (r.opening operation.toCall).1 = r', (r.opening operation.toCall).2 = tasks at hopens
  generalize hcall : operation.toCall = c at hopens
  -- No opening takes a node out.
  have hself : Prepares r operation r := ⟨fun _ hk => hk, fun _ _ => rfl⟩
  have hstays {k : String} (b : Bool) (hk : r.contains k = true) : (b || r.contains k) = true := by
    rw [hk, Bool.or_true]
  cases hopens with
  | refused label e => exact ⟨fun _ hk => hk, fun _ _ => rfl⟩
  | @entered n =>
    obtain ⟨ls, hinstall⟩ := exists_install r n
    have hplaced : Prepares r operation (r.install n) :=
      ⟨fun k hk => (contains_install r n k).trans (hstays _ hk), fun _ _ => by rw [hinstall]; rfl⟩
    exact hplaced.of_alike (silent_publishSignal _ _ _ _).alike
  | @adopted key patch n =>
    exact ⟨fun k hk => (contains_setNode r key _ k).trans (hstays _ hk), fun _ _ => rfl⟩
  | @patched key patch n =>
    obtain ⟨nodes, listeners, graph, hpatched, -⟩ := exists_patched r key n patch
    exact ⟨fun k hk => (contains_patched r key n patch k).trans (hstays _ hk),
      fun _ _ => by rw [hpatched]; rfl⟩
  | deleted | customized => exact hself.of_alike (silent_publishSignal r _ _ _).alike
  | cleared =>
    refine ⟨fun k hk => ?_, fun hclears => ?_⟩
    · exact ((linked_resetAll r).contains_eq k).trans hk
    · cases operation <;> simp [Operation.toCall, Operation.clears] at hcall hclears
  | stale | failed | unmet | arrived | fetched | collected | shared =>
    cases operation <;> simp [Operation.toCall] at hcall

/-- An operation ends with a cascade, or takes out a node in the end. -/
theorem operate_cases (r : Registry ν) (operation : Operation ν) :
    ∃ r' tasks, Prepares r operation r' ∧ (r.operate operation = r'.settle tasks ∨
      ∃ key ds, r.contains key = true ∧
        r.operate operation = (r'.settle tasks).uninstall key ds) := by
  refine ⟨_, (r.opening operation.toCall).2, prepares_opening r operation, ?_⟩
  rw [operate_eq_call, call_eq_closing]
  generalize (r.opening operation.toCall).1.settle (r.opening operation.toCall).2 = settled
  cases operation with
  | add | update | customize | clearCache => exact .inl rfl
  | delete key =>
    cases hmay : r.deletable key with
    | false => exact .inl (if_neg (by simp [hmay]))
    | true =>
      obtain ⟨n, hn, -⟩ := deletable_iff.1 hmay
      have hclosing : r.closing settled (Operation.delete key).toCall = _ := if_pos hmay
      cases hm : settled.get? key with
      | none => exact .inl (by rw [hclosing, hm])
      | some m => exact .inr ⟨key, Node.dependencies m, contains_of_get? hn, by rw [hclosing, hm]⟩

variable [LinkedNode ν]

/-- Unless it clears the cache, an operation leaves alone what is cached of keys that are not
registered before or after it. -/
theorem compiled?_operate {operation : Operation ν} (hclears : operation.clears = false)
    (hk : r.contains k = false) (hk' : (r.operate operation).contains k = false) :
    (r.operate operation).compiled? k = r.compiled? k := by
  obtain ⟨r', tasks, hprepares, hcases⟩ := operate_cases r operation
  -- The cascade leaves the key alone since it is not registered when the cascade begins.
  have hsettled (h : (r'.settle tasks).contains k = false) :
      (r'.settle tasks).compiled? k = r.compiled? k := by
    rw [(linked_settle r' tasks).contains_eq] at h
    rw [compiled?_settle h, hprepares.compiled?_eq hclears]
  rcases hcases with heq | ⟨key, ds, hkey, heq⟩
  · rw [heq] at hk' ⊢
    exact hsettled hk'
  · have hne : k ≠ key := by
      rintro rfl
      simp [hk] at hkey
    rw [heq, contains_uninstall] at hk'
    rw [heq, compiled?_uninstall, if_neg hne]
    exact hsettled (by simpa [hne] using hk')

/-- What is cached of a node goes when the node goes. -/
theorem compiled?_operate_of_removed {operation : Operation ν} (hk : r.contains k = true)
    (hk' : (r.operate operation).contains k = false) :
    (r.operate operation).compiled? k = none := by
  obtain ⟨r', tasks, hprepares, hcases⟩ := operate_cases r operation
  have hsettled : (r'.settle tasks).contains k = true := by
    rw [(linked_settle r' tasks).contains_eq, hprepares.contains k hk]
  rcases hcases with heq | ⟨key, ds, -, heq⟩
  · rw [heq, hsettled] at hk'
    simp at hk'
  · rw [heq, contains_uninstall, hsettled] at hk'
    rw [heq, compiled?_uninstall, if_pos (by simpa using hk')]

/-- After a clear nothing is cached but values of registered nodes. -/
theorem compiled?_clearCache (hk : r.contains k = false) : r.clearCache.compiled? k = none := by
  have hreset : r.resetAll.contains k = false := ((linked_resetAll r).contains_eq k).trans hk
  exact compiled?_settle hreset _
end Registry

end LayeredAccess
