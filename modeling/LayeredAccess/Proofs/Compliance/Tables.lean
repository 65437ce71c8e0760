/-
  LayeredAccess.Proofs.Compliance.Tables

  The tables of a rulebook, root by root. Everything that a schema says is filed
  under paths that start with its name, and of two things at one path the later
  one stays. So entering a schema makes the book hold what the schema says under
  its root, dropping one makes it hold nothing there, and neither touches any
  other root.
-/
import LayeredAccess.Proofs.Compliance.Listing
import LayeredAccess.Proofs.KeyMap

namespace LayeredAccess.Compliance

/-! ## Roots -/

namespace Schema

mutual

/-- The paths of blocks lead through the entry at which they are found. -/
theorem prefix_of_mem_blocksAt (path : Path) : (s : Schema) → ∀ b ∈ s.blocksAt path, path <+: b.1
  | { comply, children, .. }, b, hb => by
    rw [blocksAt] at hb
    rcases List.mem_append.1 hb with hb | hb
    · obtain ⟨c, -, rfl⟩ := List.mem_map.1 hb
      exact List.prefix_refl path
    · exact prefix_of_mem_blocksBelow path children b hb

theorem prefix_of_mem_blocksBelow (path : Path) : (ss : List Schema) →
    ∀ b ∈ blocksBelow path ss, path <+: b.1
  | [], b, hb => by simp [blocksBelow] at hb
  | s :: rest, b, hb => by
    rw [blocksBelow] at hb
    rcases List.mem_append.1 hb with hb | hb
    · exact (List.prefix_append path [s.name]).trans
        (prefix_of_mem_blocksAt (path ++ [s.name]) s b hb)
    · exact prefix_of_mem_blocksBelow path rest b hb

end

theorem head?_of_mem_blocks {s : Schema} {b : Path × Comply} (hb : b ∈ s.blocks) :
    b.1.head? = some s.name := by
  obtain ⟨rest, hrest⟩ := prefix_of_mem_blocksAt [s.name] s b hb
  rw [← hrest]
  rfl

/-- Everything that a schema says is filed under its name. -/
theorem head?_of_mem_contents (s : Schema) :
    (∀ e ∈ s.contents.references, e.1.head? = some s.name) ∧
    ∀ e ∈ s.contents.rules, e.1.head? = some s.name := by
  constructor
  · intro e he
    obtain ⟨b, hb, rfl⟩ := List.mem_map.1 he
    exact head?_of_mem_blocks hb
  · intro e he
    obtain ⟨b, hb, he⟩ := List.mem_flatMap.1 he
    obtain ⟨d, -, rfl⟩ := List.mem_map.1 he
    rw [List.head?_append, head?_of_mem_blocks hb, Option.some_or]

end Schema

namespace Rulebook

/-! ## One root -/

/-- Under a root a book holds what a schema says, or nothing. -/
structure Holds (b : Rulebook) (root : String) (s : Option Schema) : Prop where
  references_eq : ∀ path, path.head? = some root → KeyMap.find? b.references path =
    s.bind fun s => KeyMap.find? s.contents.references.reverse path
  rules_eq : ∀ path, path.head? = some root → (KeyMap.find? b.rules path).map Rule.anonymous =
    s.bind fun s => KeyMap.find? s.contents.rules.reverse path
  schemas_eq : KeyMap.find? b.schemas root = s.map fun _ => ()

/-- Two books agree but for what is under one root. -/
structure AgreesBut (root : String) (b b' : Rulebook) : Prop where
  references_eq : ∀ path, path.head? ≠ some root →
    KeyMap.find? b'.references path = KeyMap.find? b.references path
  rules_eq : ∀ path, path.head? ≠ some root →
    KeyMap.find? b'.rules path = KeyMap.find? b.rules path
  schemas_eq : ∀ name, name ≠ root → KeyMap.find? b'.schemas name = KeyMap.find? b.schemas name

variable {b b' : Rulebook} {root name : String} {s : Schema} {c : Contents} {o : Option Schema}

theorem Holds.of_agreesBut (h : b.Holds root o) (ha : AgreesBut name b b') (hroot : root ≠ name) :
    b'.Holds root o := by
  have hpath : ∀ path : Path, path.head? = some root → path.head? ≠ some name := by
    intro path hp hn
    exact hroot (Option.some.inj (hp.symm.trans hn))
  refine ⟨fun path hp => ?_, fun path hp => ?_, (ha.schemas_eq root hroot).trans h.schemas_eq⟩
  · rw [ha.references_eq path (hpath path hp)]
    exact h.references_eq path hp
  · rw [ha.rules_eq path (hpath path hp)]
    exact h.rules_eq path hp

/-- What is found after entries have been made in the place of those of a root. -/
theorem find?_overwrite {α : Type} (table : KeyMap Path α) (entries : List (Path × α))
    (path : Path) : KeyMap.find? (overwrite root table entries) path =
      (KeyMap.find? entries.reverse path).or
        (if path.head? = some root then none else KeyMap.find? table path) := by
  have hfresh : path ∈ entries.map (·.1) ↔ (KeyMap.find? entries.reverse path).isSome := by
    rw [← KeyMap.mem_keys_iff, KeyMap.keys, List.map_reverse, List.mem_reverse]
  refine (KeyMap.find?_filter
    (fun p => !(p.head? = some root && !(entries.map (·.1)).contains p)) _ path).trans ?_
  rw [KeyMap.find?_foldl_insert, List.contains_eq_mem]
  -- A path that is entered is not dropped again; of the others, those of the root are.
  cases hentered : KeyMap.find? entries.reverse path with
  | some x =>
    rw [hentered] at hfresh
    simp [hfresh]
  | none =>
    rw [hentered] at hfresh
    by_cases hroot : path.head? = some root <;> simp [hfresh, hroot]

theorem sorted_overwrite {α : Type} (name : String) {table : KeyMap Path α}
    (entries : List (Path × α)) (h : KeyMap.Sorted table) :
    KeyMap.Sorted (overwrite name table entries) :=
  (KeyMap.sorted_foldl_insert entries h).filter _

/-- A loaded schema says nothing under other roots. -/
theorem find?_contents_eq_none (hc : c.anonymous = s.contents) {path : Path}
    (hpath : path.head? ≠ some s.name) :
    KeyMap.find? c.references.reverse path = none ∧ KeyMap.find? c.rules.reverse path = none := by
  obtain ⟨hreferences, hrules⟩ := s.head?_of_mem_contents
  rw [← hc] at hreferences hrules
  refine ⟨KeyMap.find?_eq_none fun e he heq => ?_, KeyMap.find?_eq_none fun e he heq => ?_⟩
  · exact hpath (heq ▸ hreferences e (List.mem_reverse.1 he))
  · have hmem : (e.1, e.2.anonymous) ∈ c.anonymous.rules :=
      List.mem_map.2 ⟨e, List.mem_reverse.1 he, rfl⟩
    have hhead : e.1.head? = some s.name := hrules (e.1, e.2.anonymous) hmem
    exact hpath (heq ▸ hhead)

/-- Entering a schema files what it says, and nothing else, under its name. -/
theorem holds_enter (b : Rulebook) (hc : c.anonymous = s.contents) :
    (b.enter s.name c).Holds s.name (some s) := by
  refine ⟨fun path hp => ?_, fun path hp => ?_, ?_⟩
  · refine (find?_overwrite b.references c.references path).trans ?_
    rw [if_pos hp, Option.or_none, Option.bind_some, ← hc]
    rfl
  · refine (congrArg _ (find?_overwrite b.rules c.rules path)).trans ?_
    rw [if_pos hp, Option.or_none, Option.bind_some, ← hc, ← KeyMap.find?_mapValues]
    exact congrArg (KeyMap.find? · path) List.map_reverse
  · exact (KeyMap.find?_insert _ _ _ _).trans (if_pos rfl)

theorem agreesBut_enter (b : Rulebook) (hc : c.anonymous = s.contents) :
    AgreesBut s.name b (b.enter s.name c) := by
  refine ⟨fun path hp => ?_, fun path hp => ?_, fun name hn => ?_⟩
  · refine (find?_overwrite b.references c.references path).trans ?_
    rw [(find?_contents_eq_none hc hp).1, if_neg hp, Option.none_or]
  · refine (find?_overwrite b.rules c.rules path).trans ?_
    rw [(find?_contents_eq_none hc hp).2, if_neg hp, Option.none_or]
  · exact (KeyMap.find?_insert _ _ _ _).trans (if_neg (Ne.symm hn))

/-- Nothing is left of a schema that is dropped. -/
theorem holds_drop (b : Rulebook) (name : String) : (b.drop name).Holds name none := by
  refine ⟨fun path hp => ?_, fun path hp => ?_, ?_⟩
  · exact (find?_outside name b.references path).trans (if_pos hp)
  · exact (congrArg _ ((find?_outside name b.rules path).trans (if_pos hp))).trans rfl
  · exact (KeyMap.find?_erase _ _ _).trans (if_pos rfl)

theorem agreesBut_drop (b : Rulebook) (name : String) : AgreesBut name b (b.drop name) := by
  refine ⟨fun path hp => ?_, fun path hp => ?_, fun other hn => ?_⟩
  · exact (find?_outside name b.references path).trans (if_neg hp)
  · exact (find?_outside name b.rules path).trans (if_neg hp)
  · exact (KeyMap.find?_erase _ _ _).trans (if_neg (Ne.symm hn))

/-! ## All roots -/

/-- Two books have the same tables, but for the numbers of scripts. -/
structure Agrees (b b' : Rulebook) : Prop where
  references_eq : b.references = b'.references
  rules_eq : KeyMap.mapValues Rule.anonymous b.rules = KeyMap.mapValues Rule.anonymous b'.rules
  schemas_eq : b.schemas = b'.schemas

/-- Under every root a book holds what the version of that name says. -/
structure Mirrors (b : Rulebook) (versions : KeyMap String Schema) : Prop where
  holds : ∀ root, b.Holds root (KeyMap.find? versions root)
  references_nil : KeyMap.find? b.references [] = none
  rules_nil : KeyMap.find? b.rules [] = none
  sorted_references : KeyMap.Sorted b.references
  sorted_rules : KeyMap.Sorted b.rules
  sorted_schemas : KeyMap.Sorted b.schemas

variable {versions versions' : KeyMap String Schema}

theorem mirrors_nativeOnly (b : Rulebook) : b.nativeOnly.Mirrors [] :=
  ⟨fun _ => ⟨fun _ _ => rfl, fun _ _ => rfl, rfl⟩, rfl, rfl, .nil, .nil, .nil⟩

/-- A book whose tables do not change. -/
theorem Mirrors.of_same (h : b.Mirrors versions) (hreferences : b'.references = b.references)
    (hrules : b'.rules = b.rules) (hschemas : b'.schemas = b.schemas) : b'.Mirrors versions := by
  obtain ⟨builtins, rules, references, schemas⟩ := b'
  subst hreferences hrules hschemas
  exact ⟨fun root => ⟨(h.holds root).references_eq, (h.holds root).rules_eq,
    (h.holds root).schemas_eq⟩, h.references_nil, h.rules_nil, h.sorted_references, h.sorted_rules,
    h.sorted_schemas⟩

theorem Mirrors.enter (h : b.Mirrors versions) (hc : c.anonymous = s.contents) :
    (b.enter s.name c).Mirrors (KeyMap.insert versions s.name s) := by
  have hother := agreesBut_enter b hc
  refine ⟨fun root => ?_, (hother.references_eq [] (by simp)).trans h.references_nil,
    (hother.rules_eq [] (by simp)).trans h.rules_nil,
    sorted_overwrite _ _ h.sorted_references, sorted_overwrite _ _ h.sorted_rules,
    KeyMap.sorted_insert _ _ h.sorted_schemas⟩
  rw [KeyMap.find?_insert]
  split
  · next hroot => exact hroot ▸ holds_enter b hc
  · next hroot => exact (h.holds root).of_agreesBut hother (Ne.symm hroot)

theorem Mirrors.drop (h : b.Mirrors versions) (name : String) :
    (b.drop name).Mirrors (KeyMap.erase versions name) := by
  have hother := agreesBut_drop b name
  refine ⟨fun root => ?_, (hother.references_eq [] (by simp)).trans h.references_nil,
    (hother.rules_eq [] (by simp)).trans h.rules_nil, h.sorted_references.filter _,
    h.sorted_rules.filter _, KeyMap.sorted_erase _ h.sorted_schemas⟩
  rw [KeyMap.find?_erase]
  split
  · next hroot => exact hroot ▸ holds_drop b name
  · next hroot => exact (h.holds root).of_agreesBut hother (Ne.symm hroot)

/-- The versions fix the tables. -/
theorem Mirrors.agrees (h : b.Mirrors versions) (h' : b'.Mirrors versions')
    (hsame : ∀ name, KeyMap.find? versions name = KeyMap.find? versions' name) : b.Agrees b' := by
  refine ⟨?_, ?_, ?_⟩
  · refine KeyMap.ext_of_find? h.sorted_references h'.sorted_references fun path => ?_
    cases path with
    | nil => rw [h.references_nil, h'.references_nil]
    | cons root rest =>
      rw [(h.holds root).references_eq _ rfl, (h'.holds root).references_eq _ rfl, hsame]
  · refine KeyMap.ext_of_find? (KeyMap.sorted_mapValues _ h.sorted_rules)
      (KeyMap.sorted_mapValues _ h'.sorted_rules) fun path => ?_
    rw [KeyMap.find?_mapValues, KeyMap.find?_mapValues]
    cases path with
    | nil => rw [h.rules_nil, h'.rules_nil]
    | cons root rest =>
      rw [(h.holds root).rules_eq _ rfl, (h'.holds root).rules_eq _ rfl, hsame]
  · refine KeyMap.ext_of_find? h.sorted_schemas h'.sorted_schemas fun name => ?_
    rw [(h.holds name).schemas_eq, (h'.holds name).schemas_eq, hsame]

end Rulebook

end LayeredAccess.Compliance
