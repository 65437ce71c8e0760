/-
  LayeredAccess.Proofs.Compliance.Reporting

  What a report says. The leaves of a value are a map in key order, in which just
  that is found which is no object and is reached through objects only. Every
  reference at the root and at a leaf has one turn, in the order of its list, and
  every turn has its verdict, whatever the verdicts before it are.

  A report holds the violations of the root, and of each leaf at which there are
  any, in the order of the leaves' paths (`Discloses`). As no leaf is below another
  one, this is the order in which a walk that takes the members of each object in
  key order comes to them.
-/
import LayeredAccess.Proofs.Compliance.Enforcement
import LayeredAccess.Proofs.Json.Ordered
import Mathlib.Data.List.Basic

namespace LayeredAccess

namespace Compliance

/-! ## Leaves in order -/

/-- Where two paths part, the one with the smaller segment comes first. -/
theorem path_lt {path rest rest' : Path} {k k' : String} (h : k < k') :
    path ++ [k] ++ rest < path ++ [k'] ++ rest' := by
  simp only [List.append_assoc, List.singleton_append]
  exact List.append_left_lt (List.cons_lt_cons_iff.2 (.inl h))

mutual

/-- A leaf of a value is no object, and is at its path. -/
theorem exists_of_mem_leaves (path : Path) : (v : Json) → v.Ordered → ∀ leaf ∈ leaves path v,
    ∃ rest, leaf.1 = path ++ rest ∧ v.at? rest = some leaf.2 ∧ leaf.2.asObject? = none
  | .obj members, hv, leaf, hleaf => by
    rw [leaves] at hleaf
    obtain ⟨hsorted, hmembers⟩ := (Json.ordered_obj_iff members).1 hv
    obtain ⟨k, v, rest, hk, hpath, hat, hobject⟩ :=
      exists_of_mem_memberLeaves path members hmembers leaf hleaf
    -- In a sorted object the member is the one that is found under its key.
    refine ⟨k :: rest, by rw [hpath, List.append_assoc, List.singleton_append], ?_, hobject⟩
    rw [Json.at?, List.foldlM_cons, Json.member?, KeyMap.find?_of_mem hsorted hk]
    exact hat
  | .null, _, leaf, hleaf | .bool b, _, leaf, hleaf | .int n, _, leaf, hleaf
  | .double x, _, leaf, hleaf | .str s, _, leaf, hleaf | .arr items, _, leaf, hleaf => by
    obtain rfl := List.mem_singleton.1 (by simpa only [leaves] using hleaf)
    exact ⟨[], (List.append_nil path).symm, rfl, rfl⟩

theorem exists_of_mem_memberLeaves (path : Path) : (members : List (String × Json)) →
    (∀ m ∈ members, m.2.Ordered) → ∀ leaf ∈ memberLeaves path members,
      ∃ k v rest, (k, v) ∈ members ∧ leaf.1 = path ++ [k] ++ rest ∧ v.at? rest = some leaf.2 ∧
        leaf.2.asObject? = none
  | [], _, leaf, hleaf => by simp [memberLeaves] at hleaf
  | (k, v) :: members, hmembers, leaf, hleaf => by
    rw [memberLeaves] at hleaf
    rcases List.mem_append.1 hleaf with hleaf | hleaf
    · obtain ⟨rest, hrest⟩ := exists_of_mem_leaves (path ++ [k]) v
        (hmembers (k, v) List.mem_cons_self) leaf hleaf
      exact ⟨k, v, rest, List.mem_cons_self, hrest⟩
    · obtain ⟨k', v', rest, hk, hrest⟩ := exists_of_mem_memberLeaves path members
        (fun m hm => hmembers m (List.mem_cons_of_mem _ hm)) leaf hleaf
      exact ⟨k', v', rest, List.mem_cons_of_mem _ hk, hrest⟩

end

mutual

/-- The leaves of a value are come to in the order of their paths. -/
theorem sorted_leaves (path : Path) : (v : Json) → v.Ordered → KeyMap.Sorted (leaves path v)
  | .obj members, hv => by
    obtain ⟨hsorted, hmembers⟩ := (Json.ordered_obj_iff members).1 hv
    rw [leaves]
    exact sorted_memberLeaves path members hsorted hmembers
  | .null, _ | .bool _, _ | .int _, _ | .double _, _ | .str _, _ | .arr _, _ => by
    simp [leaves, KeyMap.Sorted]

theorem sorted_memberLeaves (path : Path) : (members : List (String × Json)) →
    KeyMap.Sorted members → (∀ m ∈ members, m.2.Ordered) →
      KeyMap.Sorted (memberLeaves path members)
  | [], _, _ => by simp [memberLeaves, KeyMap.Sorted]
  | (k, v) :: members, hsorted, hmembers => by
    obtain ⟨hhead, htail⟩ := List.pairwise_cons.1 hsorted
    have hv : v.Ordered := hmembers (k, v) List.mem_cons_self
    have hrest : ∀ m ∈ members, m.2.Ordered := fun m hm => hmembers m (List.mem_cons_of_mem _ hm)
    rw [memberLeaves]
    refine List.pairwise_append.2 ⟨sorted_leaves (path ++ [k]) v hv,
      sorted_memberLeaves path members htail hrest, fun leaf hleaf leaf' hleaf' => ?_⟩
    -- A leaf of this member stands before those of the members with larger keys.
    obtain ⟨rest, hpath, -⟩ := exists_of_mem_leaves (path ++ [k]) v hv leaf hleaf
    obtain ⟨k', v', rest', hk', hpath', -⟩ :=
      exists_of_mem_memberLeaves path members hrest leaf' hleaf'
    rw [hpath, hpath']
    exact path_lt (hhead (k', v') hk')

end

variable {resource : String} {v : Json}

theorem sorted_leavesBelow (resource : String) (hv : v.Ordered) :
    KeyMap.Sorted (leavesBelow resource v) := by
  cases v with
  | obj members =>
    obtain ⟨hsorted, hmembers⟩ := (Json.ordered_obj_iff members).1 hv
    exact sorted_memberLeaves [resource] members hsorted hmembers
  | _ => exact .nil

/-- Below the root of a resource there is a leaf for everything that is no object. -/
theorem mem_leavesBelow_iff (hv : v.Ordered) {path : Path} {w : Json} :
    (path, w) ∈ leavesBelow resource v ↔ ∃ rest, rest ≠ [] ∧ path = resource :: rest ∧
      v.at? rest = some w ∧ w.asObject? = none := by
  constructor
  · intro hleaf
    cases v with
    | obj members =>
      obtain ⟨hsorted, hmembers⟩ := (Json.ordered_obj_iff members).1 hv
      obtain ⟨k, v, rest, hk, hpath, hat, hobject⟩ :=
        exists_of_mem_memberLeaves [resource] members hmembers _ hleaf
      refine ⟨k :: rest, List.cons_ne_nil _ _, hpath, ?_, hobject⟩
      rw [Json.at?, List.foldlM_cons, Json.member?, KeyMap.find?_of_mem hsorted hk]
      exact hat
    | _ => simp [leavesBelow] at hleaf
  · rintro ⟨rest, hrest, rfl, hat, hobject⟩
    exact mem_leavesBelow hrest hat hobject

theorem mem_keys_leavesBelow_iff (hv : v.Ordered) {path : Path} :
    path ∈ KeyMap.keys (leavesBelow resource v) ↔ ∃ rest w, rest ≠ [] ∧ path = resource :: rest ∧
      v.at? rest = some w ∧ w.asObject? = none := by
  simp only [KeyMap.keys, List.mem_map]
  constructor
  · rintro ⟨⟨path, w⟩, hleaf, rfl⟩
    obtain ⟨rest, hrest⟩ := (mem_leavesBelow_iff hv).1 hleaf
    exact ⟨rest, w, hrest⟩
  · rintro ⟨rest, w, hrest⟩
    exact ⟨(path, w), (mem_leavesBelow_iff hv).2 ⟨rest, hrest⟩, rfl⟩

/-- Below the root the leaves are what is judged. -/
theorem find?_leavesBelow (hv : v.Ordered) {path : Path} (hroot : path.head? = some resource) :
    KeyMap.find? (leavesBelow resource v) path =
      if path = [resource] then none else judged? resource v path := by
  obtain ⟨rest, rfl⟩ : ∃ rest, path = resource :: rest := by
    cases path with
    | nil => simp at hroot
    | cons root rest => exact ⟨rest, by rw [Option.some.inj hroot]⟩
  refine Option.ext fun w => ?_
  -- The leaves are sorted by their paths, so that each path is found if it is there.
  have hmem : KeyMap.find? (leavesBelow resource v) (resource :: rest) = some w ↔
      (resource :: rest, w) ∈ leavesBelow resource v :=
    ⟨KeyMap.mem_of_find?, KeyMap.find?_of_mem (sorted_leavesBelow resource hv)⟩
  rw [hmem, mem_leavesBelow_iff hv, judged?]
  split
  · next hnil =>
    refine iff_of_false ?_ (by simp)
    rintro ⟨rest', hrest', heq, -⟩
    exact hrest' ((List.tail_eq_of_cons_eq heq).symm.trans (List.tail_eq_of_cons_eq hnil))
  · next hrest =>
    rw [Option.filter_eq_some_iff]
    have hrest' : rest ≠ [] := fun h => hrest (h ▸ rfl)
    constructor
    · rintro ⟨rest', -, heq, hat, hobject⟩
      obtain rfl : rest = rest' := List.tail_eq_of_cons_eq heq
      exact ⟨hat, by simp [hobject]⟩
    · rintro ⟨hat, hobject⟩
      exact ⟨rest, hrest', rfl, hat, by simpa using hobject⟩

/-! ## A stack of values -/

/-- Puts the members of an object on a stack, the last of them first. -/
def pushMembers (path : Path) (members : List (String × Json)) (pending : List (Path × Json)) :
    List (Path × Json) :=
  members.reverse.foldl (fun stack m => (path ++ [m.1], m.2) :: stack) pending

theorem pushMembers_eq (path : Path) (members : List (String × Json))
    (pending : List (Path × Json)) :
    pushMembers path members pending = members.map (fun m => (path ++ [m.1], m.2)) ++ pending := by
  rw [pushMembers, List.foldl_reverse]
  induction members with
  | nil => rfl
  | cons m rest ih => rw [List.foldr_cons, ih, List.map_cons, List.cons_append]

theorem sizeOf_values_append_le (members : List (String × Json)) (rest : List Json) :
    sizeOf (members.map (·.2) ++ rest) ≤ sizeOf members + sizeOf rest := by
  induction members with
  | nil => simp
  | cons m members ih =>
    obtain ⟨k, v⟩ := m
    simp only [List.map_cons, List.cons_append, List.cons.sizeOf_spec, Prod.mk.sizeOf_spec]
    omega

/-- Gathers the leaves of the values on a stack. -/
def gather : List (Path × Json) → List (Path × Json)
  | [] => []
  | (path, .obj members) :: pending => gather (pushMembers path members pending)
  | leaf :: pending => leaf :: gather pending
termination_by pending => sizeOf (pending.map (·.2))
decreasing_by
  · rw [pushMembers_eq, List.map_append, List.map_map, List.map_cons]
    have hmembers := sizeOf_values_append_le members (pending.map (·.2))
    simp only [Function.comp_def, List.cons.sizeOf_spec, Json.obj.sizeOf_spec]
    omega
  · simp only [List.map_cons, List.cons.sizeOf_spec]
    omega

/-- It does not matter whether the leaves are found by recursion or with a stack. -/
theorem gather_eq (pending : List (Path × Json)) :
    gather pending = pending.flatMap fun e => leaves e.1 e.2 := by
  have hmembers : ∀ (path : Path) (members : List (String × Json)),
      memberLeaves path members = members.flatMap fun m => leaves (path ++ [m.1]) m.2 := by
    intro path members
    induction members with
    | nil => rfl
    | cons m rest ih => rw [memberLeaves, ih, List.flatMap_cons]
  -- By the recursion that works with the stack: an object makes room for its members.
  induction pending using gather.induct with
  | case1 => rw [gather, List.flatMap_nil]
  | case2 path members pending ih =>
    rw [gather, ih, pushMembers_eq, List.flatMap_append, List.flatMap_map, List.flatMap_cons,
      leaves, hmembers]
  | case3 leaf pending hleaf ih =>
    obtain ⟨path, v⟩ := leaf
    rw [gather, List.flatMap_cons, ← ih]
    · cases v with
      | obj members => exact absurd rfl (hleaf path members)
      | _ => rw [leaves, List.singleton_append]
    · exact hleaf

theorem gather_eq_leavesBelow (resource : String) (members : List (String × Json)) :
    gather (pushMembers [resource] members []) = leavesBelow resource (.obj members) := by
  have hroot : gather [([resource], .obj members)] =
      gather (pushMembers [resource] members []) := by rw [gather]
  rw [← hroot, gather_eq, List.flatMap_singleton, leaves, leavesBelow]

/-! ## Verdicts -/

section Verdicts

variable {σ : Type}

/-- What can become of a turn in a sandbox. -/
inductive Verdict (b : Rulebook) (t : Turn) (s : Sandbox σ) : Option Violation → Prop
  /-- There is no rule that the reference means. -/
  | unresolved : b.resolve t.path t.reference = none →
      Verdict b t s (some ⟨t.path, [], t.reference.toString, t.value, .unresolved⟩)
  /-- The rule accepts the value. -/
  | accepted {home : Path} {rule : Rule} :
      b.resolve t.path t.reference = some (home, rule) →
      ((rule.run t.value t.reference.args).run s).1 = .ok true → Verdict b t s none
  /-- The rule refuses the value. -/
  | failed {home : Path} {rule : Rule} :
      b.resolve t.path t.reference = some (home, rule) →
      ((rule.run t.value t.reference.args).run s).1 = .ok false → Verdict b t s
        (some ⟨t.path, home, t.reference.toString, t.value, .failed rule.failureText⟩)
  /-- The rule does not come to a result. -/
  | errored {home : Path} {rule : Rule} {text : String} :
      b.resolve t.path t.reference = some (home, rule) →
      ((rule.run t.value t.reference.args).run s).1 = .error text → Verdict b t s
        (some ⟨t.path, home, t.reference.toString, t.value, .errored text⟩)

/-- The violations at a path, of several turns with their verdicts. -/
def violationsIn (path : Path) (verdicts : List (Turn × Option Violation)) : List Violation :=
  verdicts.filterMap fun o => if o.1.path = path then o.2 else none

theorem violationsIn_append (path : Path) (verdicts verdicts' : List (Turn × Option Violation)) :
    violationsIn path (verdicts ++ verdicts') =
      violationsIn path verdicts ++ violationsIn path verdicts' :=
  List.filterMap_append

namespace Rulebook

theorem verdict_take (b : Rulebook) (t : Turn) (s : Sandbox σ) :
    Verdict b t s ((b.take t).run s).1 := by
  rw [take, check]
  cases hresolve : b.resolve t.path t.reference with
  | none => exact .unresolved hresolve
  | some found =>
    obtain ⟨home, rule⟩ := found
    dsimp only
    rw [StateT.run_bind]
    cases hrun : (rule.run t.value t.reference.args).run s with
    | mk result s' =>
      rcases result with text | accepted | _
      · exact .errored hresolve (by rw [hrun])
      · exact .failed hresolve (by rw [hrun])
      · exact .accepted hresolve (by rw [hrun])

/-- Turns with their verdicts. Each is taken in the sandbox that the turns before it have left. -/
def verdicts (b : Rulebook) : Sandbox σ → List Turn → List (Turn × Option Violation)
  | _, [] => []
  | s, t :: rest => (t, ((b.take t).run s).1) :: verdicts b ((b.take t).run s).2 rest

variable (b : Rulebook) (s : Sandbox σ)

theorem verdicts_append (ts ts' : List Turn) :
    b.verdicts s (ts ++ ts') = b.verdicts s ts ++ b.verdicts (stateAfter b.take s ts) ts' := by
  induction ts generalizing s with
  | nil => rfl
  | cons t rest ih => exact congrArg (_ :: ·) (ih _)

theorem mem_of_mem_verdicts {ts : List Turn} {o : Turn × Option Violation}
    (h : o ∈ b.verdicts s ts) : o.1 ∈ ts := by
  induction ts generalizing s with
  | nil => simp [verdicts] at h
  | cons t rest ih =>
    rcases List.mem_cons.1 h with rfl | h
    · exact List.mem_cons_self
    · exact List.mem_cons_of_mem _ (ih _ h)

/-- Where no turn is at a path, there is no violation at it. -/
theorem violationsIn_verdicts_eq_nil {path : Path} {ts : List Turn} (h : ∀ t ∈ ts, t.path ≠ path) :
    violationsIn path (b.verdicts s ts) = [] :=
  List.filterMap_eq_nil_iff.2 fun _ ho => if_neg (h _ (b.mem_of_mem_verdicts s ho))

/-- The violations at an entry are those of its turns. -/
theorem run_entryViolations_eq (path : Path) (value : Json) :
    (b.entryViolations path value).run s =
      (violationsIn path (b.verdicts s (b.turnsAt path value)),
        stateAfter b.take s (b.turnsAt path value)) := by
  have hresults : ∀ (ts : List Turn) (s : Sandbox σ), (∀ t ∈ ts, t.path = path) →
      violationsIn path (b.verdicts s ts) = (resultsOf b.take s ts).filterMap id := by
    intro ts
    induction ts with
    | nil => exact fun _ _ => rfl
    | cons t rest ih =>
      -- The next turn is taken in the sandbox that this one leaves.
      intro s hpath
      have hrest := ih ((b.take t).run s).2 fun t ht => hpath t (List.mem_cons_of_mem _ ht)
      rw [violationsIn] at hrest ⊢
      simp only [verdicts, resultsOf, List.filterMap_cons, hpath t List.mem_cons_self, if_true,
        hrest, id]
  rw [run_entryViolations, hresults]
  intro t ht
  obtain ⟨r, -, rfl⟩ := List.mem_map.1 ht
  rfl

/-- What is reported of a leaf. -/
def reported? (verdicts : List (Turn × Option Violation)) (leaf : Path × Json) :
    Option EntryViolations :=
  let violations := violationsIn leaf.1 verdicts
  if violations.isEmpty then none else some { path := leaf.1, violations }

theorem reported?_eq_some_iff {verdicts : List (Turn × Option Violation)} {leaf : Path × Json}
    {entry : EntryViolations} : reported? verdicts leaf = some entry ↔
      entry.path = leaf.1 ∧ entry.violations ≠ [] ∧
        entry.violations = violationsIn entry.path verdicts := by
  obtain ⟨path, violations⟩ := entry
  rw [reported?]
  constructor
  · intro h
    split at h
    · simp at h
    · next hne =>
      obtain ⟨rfl, rfl⟩ := EntryViolations.mk.inj (Option.some.inj h)
      exact ⟨rfl, fun hnil => hne (List.isEmpty_iff.2 hnil), rfl⟩
  · rintro ⟨hpath, hne, heq⟩
    dsimp only at hpath hne heq
    subst hpath heq
    exact if_neg fun hempty => hne (List.isEmpty_iff.1 hempty)

theorem mem_filterMap_reported?_iff {verdicts : List (Turn × Option Violation)}
    {found : List (Path × Json)} {entry : EntryViolations} :
    entry ∈ found.filterMap (reported? verdicts) ↔ entry.path ∈ KeyMap.keys found ∧
      entry.violations ≠ [] ∧ entry.violations = violationsIn entry.path verdicts := by
  simp only [List.mem_filterMap, reported?_eq_some_iff, KeyMap.keys, List.mem_map]
  constructor
  · rintro ⟨leaf, hleaf, hpath, hentry⟩
    exact ⟨⟨leaf, hleaf, hpath.symm⟩, hentry⟩
  · rintro ⟨⟨leaf, hleaf, hpath⟩, hentry⟩
    exact ⟨leaf, hleaf, hpath.symm, hentry⟩

theorem path_eq_of_mem_turnsAt {path : Path} {value : Json} {t : Turn}
    (h : t ∈ b.turnsAt path value) : t.path = path := by
  obtain ⟨r, -, rfl⟩ := List.mem_map.1 h
  rfl

theorem path_mem_of_mem_turnsBelow {found : List (Path × Json)} {t : Turn}
    (h : t ∈ b.turnsBelow found) : t.path ∈ KeyMap.keys found := by
  obtain ⟨leaf, hleaf, ht⟩ := List.mem_flatMap.1 h
  exact List.mem_map.2 ⟨leaf, hleaf, (b.path_eq_of_mem_turnsAt ht).symm⟩

theorem run_leafResult_eq (leaf : Path × Json) :
    (b.leafResult leaf).run s = (reported? (b.verdicts s (b.turnsAt leaf.1 leaf.2)) leaf,
      stateAfter b.take s (b.turnsAt leaf.1 leaf.2)) := by
  have hrun : (b.leafResult leaf).run s = (fun x : List Violation × Sandbox σ =>
      ((if x.1.isEmpty then none else some { path := leaf.1, violations := x.1 } :
        Option EntryViolations), x.2)) ((b.entryViolations leaf.1 leaf.2).run s) := rfl
  rw [hrun, run_entryViolations_eq]
  rfl

/-- What is found at the leaves, if no two of them are at one path. -/
theorem filterMap_resultsOf_leafResult {found : List (Path × Json)}
    (hfound : (KeyMap.keys found).Nodup) :
    (resultsOf b.leafResult s found).filterMap id =
      found.filterMap (reported? (b.verdicts s (b.turnsBelow found))) := by
  induction found generalizing s with
  | nil => rfl
  | cons leaf rest ih =>
    obtain ⟨hhead, htail⟩ := List.nodup_cons.1 hfound
    -- The turns at this leaf say nothing about the others, nor theirs about it.
    have hown : violationsIn leaf.1 (b.verdicts (stateAfter b.take s (b.turnsAt leaf.1 leaf.2))
        (b.turnsBelow rest)) = [] := by
      refine b.violationsIn_verdicts_eq_nil _ fun t ht hpath => hhead ?_
      have hmem := b.path_mem_of_mem_turnsBelow ht
      rwa [hpath] at hmem
    have hothers : ∀ leaf' ∈ rest,
        violationsIn leaf'.1 (b.verdicts s (b.turnsAt leaf.1 leaf.2)) = [] := by
      refine fun leaf' hleaf' => b.violationsIn_verdicts_eq_nil _ fun t ht hpath => hhead ?_
      exact List.mem_map.2 ⟨leaf', hleaf', hpath.symm.trans (b.path_eq_of_mem_turnsAt ht)⟩
    rw [turnsBelow, List.flatMap_cons, ← turnsBelow, verdicts_append, resultsOf, run_leafResult_eq,
      List.filterMap_cons, List.filterMap_cons, ih _ htail]
    generalize b.verdicts s (b.turnsAt leaf.1 leaf.2) = own at hothers ⊢
    generalize b.verdicts (stateAfter b.take s (b.turnsAt leaf.1 leaf.2)) (b.turnsBelow rest) =
      others at hown ⊢
    have hrest : rest.filterMap (reported? others) = rest.filterMap (reported? (own ++ others)) :=
      List.filterMap_congr fun leaf' hleaf' => by
        rw [reported?, reported?, violationsIn_append, hothers leaf' hleaf', List.nil_append]
    rw [hrest]
    simp only [reported?, violationsIn_append, hown, List.append_nil, id]

theorem filter_turnsAt (path home : Path) (value : Json) :
    (b.turnsAt home value).filter (fun t => t.path = path) =
      if home = path then b.turnsAt home value else [] := by
  split
  · next hpath =>
    exact List.filter_eq_self.2 fun t ht =>
      decide_eq_true ((b.path_eq_of_mem_turnsAt ht).trans hpath)
  · next hpath =>
    refine List.filter_eq_nil_iff.2 fun t ht heq => hpath ?_
    exact (b.path_eq_of_mem_turnsAt ht).symm.trans (of_decide_eq_true heq)

/-- The turns at a path, if no two leaves are at one path. -/
theorem filter_turnsBelow {found : List (Path × Json)} (hfound : (KeyMap.keys found).Nodup)
    (path : Path) : (b.turnsBelow found).filter (fun t => t.path = path) =
      (KeyMap.find? found path).toList.flatMap (b.turnsAt path) := by
  induction found with
  | nil => rfl
  | cons leaf rest ih =>
    obtain ⟨hhead, htail⟩ := List.nodup_cons.1 hfound
    rw [turnsBelow, List.flatMap_cons, ← turnsBelow, List.filter_append, ih htail, filter_turnsAt,
      show leaf = (leaf.1, leaf.2) from rfl, KeyMap.find?_cons]
    split
    · next hpath =>
      -- This is the only leaf at the path, so the others have no turns there.
      have hnone : KeyMap.find? rest path = none := by
        rwa [← Option.not_isSome_iff_eq_none, ← KeyMap.mem_keys_iff, ← hpath]
      rw [hnone, hpath]
      simp
    · rfl

/-- The violations at a path that a check finds. -/
def violationsAt (resource : String) (value : Json) (path : Path) : List Violation :=
  violationsIn path (b.verdicts s (b.turns resource value))

variable {value : Json}

theorem ne_root_of_mem_turnsBelow (hvalue : value.Ordered) {resource : String} {t : Turn}
    (h : t ∈ b.turnsBelow (leavesBelow resource value)) : t.path ≠ [resource] := by
  obtain ⟨rest, w, hrest, hpath, -⟩ :=
    (mem_keys_leavesBelow_iff hvalue).1 (b.path_mem_of_mem_turnsBelow h)
  intro hroot
  exact hrest (List.tail_eq_of_cons_eq (hpath.symm.trans hroot))

/-- There are violations only at the root and at leaves. -/
theorem mem_keys_of_violationsAt_ne_nil {resource : String} {path : Path}
    (h : b.violationsAt s resource value path ≠ []) (hroot : path ≠ [resource]) :
    path ∈ KeyMap.keys (leavesBelow resource value) := by
  by_contra hpath
  refine h (b.violationsIn_verdicts_eq_nil s fun t ht heq => ?_)
  rcases List.mem_append.1 ht with ht | ht
  · exact hroot (heq.symm.trans (b.path_eq_of_mem_turnsAt ht))
  · exact hpath (heq ▸ b.path_mem_of_mem_turnsBelow ht)

/-- Each reference at a path has one turn there, if the path leads to something that is judged. -/
theorem filter_turns (hvalue : value.Ordered) {resource : String} {path : Path}
    (hroot : path.head? = some resource) :
    (b.turns resource value).filter (fun t => t.path = path) =
      (judged? resource value path).toList.flatMap (b.turnsAt path) := by
  have hbelow := b.filter_turnsBelow (KeyMap.nodup_keys (sorted_leavesBelow resource hvalue)) path
  rw [turns, List.filter_append, hbelow, filter_turnsAt, find?_leavesBelow hvalue hroot]
  by_cases hpath : path = [resource]
  · subst hpath
    simp [judged?]
  · rw [if_neg hpath, if_neg (Ne.symm hpath), List.nil_append]

/-- A report has the violations of the root, and those of each leaf that has any. -/
theorem run_report_eq (hvalue : value.Ordered) (resource : String) :
    ((b.report resource value).run s).1 =
      { root := b.violationsAt s resource value [resource]
        entries := (leavesBelow resource value).filterMap
          (reported? (b.verdicts s (b.turns resource value))) } := by
  have hnodup := KeyMap.nodup_keys (sorted_leavesBelow resource hvalue)
  rw [report_run_eq, run_entryViolations_eq]
  dsimp only
  rw [b.filterMap_resultsOf_leafResult _ hnodup, violationsAt, turns, verdicts_append,
    violationsIn_append]
  -- No turn below the root is at the root, nor the other way round.
  have hbelow : violationsIn [resource] (b.verdicts
      (stateAfter b.take s (b.turnsAt [resource] value))
        (b.turnsBelow (leavesBelow resource value))) = [] :=
    b.violationsIn_verdicts_eq_nil _ fun t ht => b.ne_root_of_mem_turnsBelow hvalue ht
  rw [hbelow, List.append_nil]
  refine congrArg _ (List.filterMap_congr fun leaf hleaf => ?_)
  have hroot : violationsIn leaf.1 (b.verdicts s (b.turnsAt [resource] value)) = [] := by
    refine b.violationsIn_verdicts_eq_nil _ fun t ht hpath => ?_
    obtain ⟨rest, hrest, hleaf, -⟩ := (mem_leavesBelow_iff hvalue).1 hleaf
    have heq := (b.path_eq_of_mem_turnsAt ht).symm.trans (hpath.trans hleaf)
    exact hrest (List.tail_eq_of_cons_eq heq).symm
  rw [reported?, reported?, violationsIn_append, hroot, List.nil_append]

end Rulebook

end Verdicts

/-- There is nothing to report just if there is no violation, if no entry is without any. -/
theorem Report.isEmpty_iff_size_eq_zero {r : Report}
    (h : ∀ entry ∈ r.entries, entry.violations ≠ []) : r.isEmpty = true ↔ r.size = 0 := by
  rw [Report.isEmpty, Bool.and_eq_true_iff, List.isEmpty_iff, List.isEmpty_iff, Report.size,
    Nat.add_eq_zero_iff, List.length_eq_zero_iff, List.length_eq_zero_iff, List.flatMap_eq_nil_iff]
  refine and_congr_right fun _ => ⟨fun hnil => by simp [hnil], fun hall => ?_⟩
  exact List.eq_nil_iff_forall_not_mem.2 fun entry hmem => h entry hmem (hall entry hmem)

end Compliance

open Compliance

namespace ComplianceEngine

variable {σ : Type}

/-- The violations at a path that a check of a value finds. -/
def violationsAt (e : ComplianceEngine σ) (resource : String) (value : Json) (path : Path) :
    List Violation :=
  e.book.violationsAt e.sandbox resource value path

/-- The report of a value says all there is to say, in order. -/
structure Discloses (e : ComplianceEngine σ) (resource : String) (value : Json) : Prop where
  /-- The walk over the value with a stack is the recursive one. -/
  gather_eq : ∀ members, value = .obj members →
    gather (pushMembers [resource] members []) = leavesBelow resource value
  /-- Each reference at a path has one turn to judge what is there, in the order of the list. -/
  turns_at : ∀ path, path.head? = some resource →
    (e.book.turns resource value).filter (fun t => t.path = path) =
      (judged? resource value path).toList.flatMap fun w =>
        (e.book.referencesAt path).map fun r => ⟨path, w, r⟩
  /-- Every turn has its verdict, whatever the sandbox in which it is taken. -/
  verdict : ∀ (t : Turn) (s : Sandbox σ), Verdict e.book t s ((e.book.take t).run s).1
  /-- At the root stand the violations by the value as a whole. -/
  root_eq : (e.report resource value).1.root = e.violationsAt resource value [resource]
  /-- The entries are in the order of their paths, each path once. -/
  ascending : (e.report resource value).1.entries.Pairwise (·.path < ·.path)
  /-- There is an entry for each leaf below the root at which there is a violation. -/
  mem_iff : ∀ path, path ∈ (e.report resource value).1.entries.map (·.path) ↔
    ∃ rest w, rest ≠ [] ∧ path = resource :: rest ∧ value.at? rest = some w ∧
      w.asObject? = none ∧ e.violationsAt resource value path ≠ []
  /-- An entry has the violations at its path. -/
  violations_eq : ∀ entry ∈ (e.report resource value).1.entries,
    entry.violations = e.violationsAt resource value entry.path
  isEmpty_iff : (e.report resource value).1.isEmpty = true ↔ (e.report resource value).1.size = 0
  /-- What is reported of a path below the root are the violations there, if there are any. -/
  violationsAt?_iff : ∀ path violations,
    (e.report resource value).1.violationsAt? path = some violations ↔
      path ≠ [resource] ∧ violations ≠ [] ∧ violations = e.violationsAt resource value path
  /-- A value passes the check of a loaded schema just if there is nothing to report. -/
  verify_iff : e.book.hasSchema resource = true →
    ((e.verify resource value).1 = .ok () ↔ (e.report resource value).1.isEmpty = true)

/-- A value passes the check of a loaded schema if there is nothing to report. -/
theorem verify_eq_ok_iff (e : ComplianceEngine σ) {resource : String} (value : Json)
    (hschema : e.book.hasSchema resource = true) :
    (e.verify resource value).1 = .ok () ↔ (e.report resource value).1.isEmpty = true := by
  rw [verify, if_pos hschema]
  rcases e.report resource value with ⟨report, e'⟩
  cases hempty : report.isEmpty <;> simp [hempty]

/-- Whatever is in an engine, it reports all that a value breaks, in order. -/
theorem discloses_report (e : ComplianceEngine σ) (resource : String) {value : Json}
    (hvalue : value.Ordered) : Discloses e resource value := by
  have hreport : (e.report resource value).1 = _ :=
    e.book.run_report_eq e.sandbox hvalue resource
  -- Everything about the entries follows from what it takes to be one.
  have hentry : ∀ entry, entry ∈ (e.report resource value).1.entries ↔
      entry.path ∈ KeyMap.keys (leavesBelow resource value) ∧ entry.violations ≠ [] ∧
        entry.violations = e.violationsAt resource value entry.path := by
    rw [hreport]
    exact fun entry => Rulebook.mem_filterMap_reported?_iff
  refine
    { gather_eq := fun members hobject => hobject ▸ gather_eq_leavesBelow resource members
      turns_at := fun path hroot => e.book.filter_turns hvalue hroot
      verdict := fun t s => e.book.verdict_take t s
      root_eq := congrArg Report.root hreport
      ascending := ?_
      mem_iff := fun path => ?_
      violations_eq := fun entry hmem => ((hentry entry).1 hmem).2.2
      isEmpty_iff := Report.isEmpty_iff_size_eq_zero fun entry hmem => ((hentry entry).1 hmem).2.1
      violationsAt?_iff := fun path violations => ?_
      verify_iff := fun hschema => e.verify_eq_ok_iff value hschema }
  · rw [hreport]
    refine (sorted_leavesBelow resource hvalue).filterMap _ ?_
    intro leaf leaf' hlt entry h entry' h'
    rw [(Rulebook.reported?_eq_some_iff.1 h).1, (Rulebook.reported?_eq_some_iff.1 h').1]
    exact hlt
  · rw [List.mem_map]
    constructor
    · rintro ⟨entry, hmem, rfl⟩
      obtain ⟨hkey, hne, heq⟩ := (hentry entry).1 hmem
      obtain ⟨rest, w, hrest, hpath, hat, hobject⟩ := (mem_keys_leavesBelow_iff hvalue).1 hkey
      exact ⟨rest, w, hrest, hpath, hat, hobject, heq ▸ hne⟩
    · rintro ⟨rest, w, hrest, hpath, hat, hobject, hne⟩
      have hkey := (mem_keys_leavesBelow_iff hvalue).2 ⟨rest, w, hrest, hpath, hat, hobject⟩
      exact ⟨⟨path, e.violationsAt resource value path⟩, (hentry _).2 ⟨hkey, hne, rfl⟩, rfl⟩
  · constructor
    · intro h
      obtain ⟨entry, hfind, rfl⟩ := Option.map_eq_some_iff.1 h
      obtain rfl : entry.path = path := by simpa using List.find?_some hfind
      obtain ⟨hkey, hne, heq⟩ := (hentry entry).1 (List.mem_of_find?_eq_some hfind)
      obtain ⟨rest, w, hrest, hpath, -⟩ := (mem_keys_leavesBelow_iff hvalue).1 hkey
      exact ⟨fun hroot => hrest (List.tail_eq_of_cons_eq (hpath.symm.trans hroot)), hne, heq⟩
    · rintro ⟨hroot, hne, rfl⟩
      have hkey := e.book.mem_keys_of_violationsAt_ne_nil e.sandbox hne hroot
      have hmem := (hentry ⟨path, e.violationsAt resource value path⟩).2 ⟨hkey, hne, rfl⟩
      -- Whichever entry of the path is found first, it has the violations there.
      have hfound : ((e.report resource value).1.entries.find? (·.path == path)).isSome :=
        List.find?_isSome.2 ⟨_, hmem, beq_self_eq_true path⟩
      obtain ⟨entry, hfind⟩ := Option.isSome_iff_exists.1 hfound
      obtain rfl : entry.path = path := by simpa using List.find?_some hfind
      rw [← ((hentry entry).1 (List.mem_of_find?_eq_some hfind)).2.2, Report.violationsAt?, hfind]
      rfl

/-- An engine in which one entry has a rule, which accepts only the number one. -/
def single : ComplianceEngine Unit :=
  ((Catalogue.start {} Catalogue.onlyOne).run [.load Catalogue.single]).engine

theorem discloses_report_single :
    (Json.obj [("a", .int 2)]).Ordered ∧ Discloses single "s" (.obj [("a", .int 2)]) ∧
    (single.report "s" (.obj [("a", .int 2)])).1.violationsAt? ["s", "a"] =
      some [⟨["s", "a"], ["s", "a"], "one", .int 2,
        .failed "Value does not comply with \"one\""⟩] :=
  ⟨by decide, discloses_report single "s" (by decide), rfl⟩

end ComplianceEngine

end LayeredAccess
