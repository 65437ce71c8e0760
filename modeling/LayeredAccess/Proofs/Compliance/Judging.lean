/-
  LayeredAccess.Proofs.Compliance.Judging

  A check as a list of turns: a reference at a path, with the value that it is to
  judge. The turns are known before the check begins, and each is taken in the
  sandbox that the turns before it have left. There is nothing to report only if
  at every turn a rule accepts the value.
-/
import LayeredAccess.Compliance.Engine
import LayeredAccess.Proofs.KeyMap
import LayeredAccess.Proofs.Sandbox

namespace LayeredAccess

/-- The value at a path within a value. -/
def Json.at? (v : Json) (path : List String) : Option Json := path.foldlM Json.member? v

namespace Compliance

/-! ## Leaves -/

/-- The leaves of a member are leaves of the object. -/
theorem mem_memberLeaves {path : Path} {members : List (String × Json)} {k : String} {v : Json}
    {leaf : Path × Json} (hk : (k, v) ∈ members) (hleaf : leaf ∈ leaves (path ++ [k]) v) :
    leaf ∈ memberLeaves path members := by
  induction members with
  | nil => simp at hk
  | cons m rest ih =>
    rw [memberLeaves, List.mem_append]
    rcases List.mem_cons.1 hk with rfl | hk
    · exact .inl hleaf
    · exact .inr (ih hk)

/-- What is no object within a value is one of its leaves. -/
theorem mem_leaves {path rest : Path} {v w : Json} (h : v.at? rest = some w)
    (hw : w.asObject? = none) : (path ++ rest, w) ∈ leaves path v := by
  -- Along the path to the leaf: each segment leads into a member of an object.
  induction rest generalizing path v with
  | nil =>
    obtain rfl : v = w := Option.some.inj h
    rw [List.append_nil]
    cases v with
    | obj members => simp [Json.asObject?] at hw
    | _ => simp [leaves]
  | cons k rest ih =>
    obtain ⟨v', hmember, hrest⟩ := Option.bind_eq_some_iff.1 h
    cases v with
    | obj members =>
      have hleaf : (path ++ [k] ++ rest, w) ∈ leaves (path ++ [k]) v' := ih hrest
      rw [List.append_assoc, List.singleton_append] at hleaf
      rw [leaves]
      exact mem_memberLeaves (KeyMap.mem_of_find? hmember) hleaf
    | _ => simp [Json.member?] at hmember

/-- Below the root of a resource, what is no object is judged at its path. -/
theorem mem_leavesBelow {resource : String} {rest : Path} {v w : Json} (hrest : rest ≠ [])
    (h : v.at? rest = some w) (hw : w.asObject? = none) :
    (resource :: rest, w) ∈ leavesBelow resource v := by
  have hleaf : ([resource] ++ rest, w) ∈ leaves [resource] v := mem_leaves h hw
  cases v with
  | obj members =>
    rw [leaves] at hleaf
    exact hleaf
  | _ =>
    obtain ⟨k, rest, rfl⟩ := List.exists_cons_of_ne_nil hrest
    simp [Json.at?, Json.member?] at h

/-! ## Actions one after the other -/

section Sequences

variable {σ α β : Type}

/-- The results of doing something for each item of a list. -/
def resultsOf (f : α → StateM σ β) : σ → List α → List β
  | _, [] => []
  | s, a :: rest => ((f a).run s).1 :: resultsOf f ((f a).run s).2 rest

/-- The state after something has been done for each item of a list. -/
def stateAfter (f : α → StateM σ β) (s : σ) (items : List α) : σ :=
  items.foldl (fun s a => ((f a).run s).2) s

theorem run_mapM (f : α → StateM σ β) (s : σ) (items : List α) :
    (items.mapM f).run s = (resultsOf f s items, stateAfter f s items) := by
  induction items generalizing s with
  | nil => rfl
  | cons a rest ih =>
    rw [List.mapM_cons]
    show (fun x : List β × σ => (((f a).run s).1 :: x.1, x.2))
      ((rest.mapM f).run ((f a).run s).2) = _
    rw [ih]
    rfl

theorem resultsOf_append (f : α → StateM σ β) (s : σ) (items items' : List α) :
    resultsOf f s (items ++ items') =
      resultsOf f s items ++ resultsOf f (stateAfter f s items) items' := by
  induction items generalizing s with
  | nil => rfl
  | cons a rest ih => exact congrArg (_ :: ·) (ih _)

theorem stateAfter_append (f : α → StateM σ β) (s : σ) (items items' : List α) :
    stateAfter f s (items ++ items') = stateAfter f (stateAfter f s items) items' :=
  List.foldl_append

/-- What holds of all results holds of each, in the state in which its item is come to. -/
theorem forall_of_resultsOf {P : β → Prop} {f : α → StateM σ β} {s : σ}
    {items before after : List α} {a : α} (h : ∀ x ∈ resultsOf f s items, P x)
    (hitems : items = before ++ a :: after) :
    P ((f a).run (stateAfter f s before)).1 := by
  refine h _ ?_
  rw [hitems, resultsOf_append]
  exact List.mem_append_right _ List.mem_cons_self

/-- What each action keeps is kept by all. -/
theorem stateAfter_keeps {P : σ → Prop} {f : α → StateM σ β}
    (hf : ∀ a s, P s → P ((f a).run s).2) (items : List α) {s : σ} (hs : P s) :
    P (stateAfter f s items) := by
  induction items generalizing s with
  | nil => exact hs
  | cons a rest ih => exact ih (hf a s hs)

end Sequences

/-! ## Turns -/

/-- A reference at a path, with the value that it is to judge. -/
structure Turn where
  path : Path
  value : Json
  reference : RuleRef

namespace Rulebook

variable {σ : Type}

/-- The turns at an entry. -/
def turnsAt (b : Rulebook) (path : Path) (value : Json) : List Turn :=
  (b.referencesAt path).map fun r => ⟨path, value, r⟩

/-- The turns at the leaves of a value. -/
def turnsBelow (b : Rulebook) (found : List (Path × Json)) : List Turn :=
  found.flatMap fun leaf => b.turnsAt leaf.1 leaf.2

/-- The turns of a check, in their order. -/
def turns (b : Rulebook) (resource : String) (value : Json) : List Turn :=
  b.turnsAt [resource] value ++ b.turnsBelow (leavesBelow resource value)

/-- Takes a turn: the violation, if it is one. -/
def take (b : Rulebook) (t : Turn) : StateM (Sandbox σ) (Option Violation) :=
  b.check t.path t.value t.reference

/-- What is found at a leaf. -/
def leafResult (b : Rulebook) (leaf : Path × Json) :
    StateM (Sandbox σ) (Option EntryViolations) := do
  let violations ← b.entryViolations leaf.1 leaf.2
  return if violations.isEmpty then none else some { path := leaf.1, violations }

theorem run_entryViolations (b : Rulebook) (path : Path) (value : Json) (s : Sandbox σ) :
    (b.entryViolations path value).run s =
      ((resultsOf b.take s (b.turnsAt path value)).filterMap id,
        stateAfter b.take s (b.turnsAt path value)) := by
  -- Taking the turns goes through the same sandboxes as checking the references does.
  have hmap : ∀ (refs : List RuleRef) (s : Sandbox σ),
      (resultsOf (b.check path value) s refs, stateAfter (b.check path value) s refs) =
        (resultsOf b.take s (refs.map fun r => ⟨path, value, r⟩),
          stateAfter b.take s (refs.map fun r => ⟨path, value, r⟩)) := by
    intro refs
    induction refs with
    | nil => exact fun s => rfl
    | cons r rest ih =>
      intro s
      have hrest := ih ((b.check path value r).run s).2
      rw [Prod.mk.injEq] at hrest ⊢
      exact ⟨congrArg (_ :: ·) hrest.1, hrest.2⟩
  show (fun x : List (Option Violation) × Sandbox σ => (x.1.filterMap id, x.2))
    (((b.referencesAt path).mapM (b.check path value)).run s) = _
  rw [run_mapM, hmap]
  rfl

/-- If nothing is found at a leaf, no turn there is a violation. -/
theorem run_leafResult (b : Rulebook) (leaf : Path × Json) (s : Sandbox σ) :
    ((b.leafResult leaf).run s).2 = stateAfter b.take s (b.turnsAt leaf.1 leaf.2) ∧
    (((b.leafResult leaf).run s).1 = none →
      ∀ x ∈ resultsOf b.take s (b.turnsAt leaf.1 leaf.2), x = none) := by
  have hrun : (b.leafResult leaf).run s = (fun x : List Violation × Sandbox σ =>
      (if x.1.isEmpty then none else some { path := leaf.1, violations := x.1 }, x.2))
        ((b.entryViolations leaf.1 leaf.2).run s) := rfl
  rw [hrun, run_entryViolations]
  refine ⟨rfl, fun hnone => ?_⟩
  dsimp only at hnone
  split at hnone
  · next hempty => exact List.filterMap_eq_nil_iff.1 (List.isEmpty_iff.1 hempty)
  · simp at hnone

theorem run_leafViolations (b : Rulebook) (found : List (Path × Json)) (s : Sandbox σ) :
    stateAfter b.leafResult s found = stateAfter b.take s (b.turnsBelow found) ∧
    ((resultsOf b.leafResult s found).filterMap id = [] →
      ∀ x ∈ resultsOf b.take s (b.turnsBelow found), x = none) := by
  induction found generalizing s with
  | nil => exact ⟨rfl, fun _ x hx => absurd hx List.not_mem_nil⟩
  | cons leaf rest ih =>
    obtain ⟨hstate, hnone⟩ := b.run_leafResult leaf s
    obtain ⟨hrest, hnoneRest⟩ := ih ((b.leafResult leaf).run s).2
    rw [turnsBelow, List.flatMap_cons, ← turnsBelow, stateAfter_append, resultsOf_append, ← hstate]
    refine ⟨hrest, fun hempty x hx => ?_⟩
    have hall := List.filterMap_eq_nil_iff.1 hempty
    rcases List.mem_append.1 hx with hx | hx
    · exact hnone (hall _ List.mem_cons_self) x hx
    · refine hnoneRest (List.filterMap_eq_nil_iff.2 fun y hy => ?_) x hx
      exact hall y (List.mem_cons_of_mem _ hy)

/-- The root is checked first, and then the leaves one after the other. -/
theorem report_run_eq (b : Rulebook) (resource : String) (value : Json) (s : Sandbox σ) :
    (b.report resource value).run s =
      let root := (b.entryViolations [resource] value).run s
      ({ root := root.1
         entries := (resultsOf b.leafResult root.2 (leavesBelow resource value)).filterMap id },
        stateAfter b.leafResult root.2 (leavesBelow resource value)) := by
  have hrun : (b.report resource value).run s =
      (fun x : List Violation × Sandbox σ =>
        (fun y : List (Option EntryViolations) × Sandbox σ =>
          (({ root := x.1, entries := y.1.filterMap id } : Report), y.2))
        (((leavesBelow resource value).mapM b.leafResult).run x.2))
      ((b.entryViolations [resource] value).run s) := rfl
  rw [hrun]
  dsimp only
  rw [run_mapM]

/-- If there is nothing to report, no turn of the check is a violation. -/
theorem run_report (b : Rulebook) (resource : String) (value : Json) (s : Sandbox σ) :
    ((b.report resource value).run s).2 = stateAfter b.take s (b.turns resource value) ∧
    (((b.report resource value).run s).1.isEmpty = true →
      ∀ x ∈ resultsOf b.take s (b.turns resource value), x = none) := by
  rw [report_run_eq, run_entryViolations]
  dsimp only
  rw [turns, stateAfter_append, resultsOf_append]
  obtain ⟨hstate, hnone⟩ := b.run_leafViolations (leavesBelow resource value)
    (stateAfter b.take s (b.turnsAt [resource] value))
  -- The turns of the root come before those of the leaves.
  refine ⟨hstate, fun hempty x hx => ?_⟩
  obtain ⟨hroot, hentries⟩ := Bool.and_eq_true_iff.1 hempty
  rcases List.mem_append.1 hx with hx | hx
  · exact List.filterMap_eq_nil_iff.1 (List.isEmpty_iff.1 hroot) x hx
  · exact hnone (List.isEmpty_iff.1 hentries) x hx

/-- A turn goes by the rule that its reference means, and by what the rule says. -/
theorem run_take (b : Rulebook) (t : Turn) (s : Sandbox σ) :
    (b.resolve t.path t.reference = none ∧ ((b.take t).run s).1 ≠ none ∧
      ((b.take t).run s).2 = s) ∨
    ∃ home rule, b.resolve t.path t.reference = some (home, rule) ∧
      (((b.take t).run s).1 = none ↔
        ((rule.run t.value t.reference.args).run s).1 = .ok true) ∧
      ((b.take t).run s).2 = ((rule.run t.value t.reference.args).run s).2 := by
  rw [take, check]
  -- Without a rule there is a violation at once, and no script is asked.
  cases hresolve : b.resolve t.path t.reference with
  | none =>
    refine .inl ⟨rfl, ?_, rfl⟩
    exact Option.some_ne_none _
  | some found =>
    obtain ⟨home, rule⟩ := found
    refine .inr ⟨home, rule, rfl, ?_⟩
    dsimp only
    rw [StateT.run_bind]
    rcases (rule.run t.value t.reference.args).run s with ⟨_ | _ | _, s'⟩
    · exact ⟨iff_of_false (Option.some_ne_none _) (by simp), rfl⟩
    · exact ⟨iff_of_false (Option.some_ne_none _) (by simp), rfl⟩
    · exact ⟨iff_of_true rfl rfl, rfl⟩

/-- A turn that is no violation finds a rule that accepts the value. -/
theorem accepted_of_take {b : Rulebook} {t : Turn} {s : Sandbox σ}
    (h : ((b.take t).run s).1 = none) :
    ∃ home rule, b.resolve t.path t.reference = some (home, rule) ∧
      ((rule.run t.value t.reference.args).run s).1 = .ok true := by
  rcases b.run_take t s with ⟨-, hviolation, -⟩ | ⟨home, rule, hresolve, hiff, -⟩
  · exact absurd h hviolation
  · exact ⟨home, rule, hresolve, hiff.1 h⟩

theorem interpreter_run (r : Rule) (value : Json) (args : List Json) (s : Sandbox σ) :
    ((r.run value args).run s).2.interpreter = s.interpreter := by
  rw [Rule.run]
  cases r.executable with
  | native body => rfl
  | script handle => exact s.interpreter_evaluate handle value args

theorem interpreter_take (b : Rulebook) (t : Turn) (s : Sandbox σ) :
    ((b.take t).run s).2.interpreter = s.interpreter := by
  rcases b.run_take t s with ⟨-, -, hstate⟩ | ⟨home, rule, -, -, hstate⟩
  · rw [hstate]
  · rw [hstate]
    exact interpreter_run _ _ _ _

/-- A check leaves the interpreter alone. -/
theorem interpreter_report (b : Rulebook) (resource : String) (value : Json) (s : Sandbox σ) :
    ((b.report resource value).run s).2.interpreter = s.interpreter := by
  rw [(b.run_report resource value s).1]
  exact stateAfter_keeps (P := fun s' => s'.interpreter = s.interpreter)
    (fun t s' hs => (b.interpreter_take t s').trans hs) _ rfl

end Rulebook

end Compliance

end LayeredAccess
