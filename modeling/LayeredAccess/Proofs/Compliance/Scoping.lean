/-
  LayeredAccess.Proofs.Compliance.Scoping

  The scopes of rules. A name means the rule of the nearest entry that defines
  it, among an entry and those around it: the longest path on the way for which
  a loaded schema has a definition. Of several definitions of a name at one path
  the last counts.

  A definition that is added to a schema takes over just those paths that lead
  through its entry and at which the name was not yet defined further inside
  (`Catalogue.Scoped`).
-/
import LayeredAccess.Proofs.Compliance.Enforcement
import Mathlib.Data.List.Induction

namespace LayeredAccess

namespace Compliance

/-! ## The nearest entry -/

namespace Rulebook

variable {b b' : Rulebook} {name : String}

/-- The last segment of a path is looked at first. -/
theorem innermost_concat (outer path : Path) (segment : String) :
    b.innermost name outer (path ++ [segment]) =
      if b.defines (outer ++ (path ++ [segment])) name then some (outer ++ (path ++ [segment]))
      else b.innermost name outer path := by
  induction path generalizing outer with
  | nil => simp [innermost]
  | cons first rest ih =>
    rw [List.cons_append, innermost, ih, innermost]
    simp only [List.append_assoc, List.singleton_append]
    split <;> rfl

theorem findRule_concat (path : Path) (segment : String) :
    b.findRule (path ++ [segment]) name =
      if b.defines (path ++ [segment]) name then some (path ++ [segment])
      else b.findRule path name :=
  innermost_concat [] path segment

/-- The look-up on one key, the name behind a path: while there is a path, the key is looked up,
and then the segment in front of the name is taken out. -/
def search (b : Rulebook) (key : Path) : Option Path :=
  if 1 < key.length then
    if KeyMap.contains b.rules key then some key.dropLast
    else search b (key.dropLast.dropLast ++ key.getLast?.toList)
  else none
termination_by key.length
decreasing_by
  cases key.getLast? <;> simp <;> omega

theorem search_eq (path : Path) : b.search (path ++ [name]) = b.findRule path name := by
  -- Each round takes a segment from the end of the path, and so does the induction.
  induction path using List.reverseRecOn with
  | nil => simp [search]
  | append_singleton path segment ih =>
    rw [search, if_pos (by simp), findRule_concat, defines, List.dropLast_concat,
      List.dropLast_concat, List.getLast?_concat, Option.toList_some, ih]

/-- No entry is found just if none on the way defines the name. -/
theorem findRule_eq_none_iff (path : Path) : b.findRule path name = none ↔
    ∀ home, home ≠ [] → home <+: path → b.defines home name = false := by
  induction path using List.reverseRecOn with
  | nil => exact iff_of_true rfl fun home hne hhome => absurd (List.prefix_nil.1 hhome) hne
  | append_singleton path segment ih =>
    rw [findRule_concat]
    split
    · next hdefines =>
      refine iff_of_false (by simp) fun h => ?_
      simp [h (path ++ [segment]) (by simp) (List.prefix_refl _)] at hdefines
    · next hdefines =>
      rw [ih]
      refine forall_congr' fun home => forall_congr' fun _ => ?_
      rw [List.prefix_concat_iff]
      grind

/-- An entry that is found is the longest on the way that defines the name. -/
theorem findRule_spec {path home : Path} (h : b.findRule path name = some home) :
    home ≠ [] ∧ home <+: path ∧ b.defines home name = true ∧
      ∀ other, other ≠ [] → other <+: path → b.defines other name = true →
        other.length ≤ home.length := by
  induction path using List.reverseRecOn with
  | nil => simp at h
  | append_singleton path segment ih =>
    rw [findRule_concat] at h
    split at h
    · next hdefines =>
      obtain rfl := Option.some.inj h
      exact ⟨by simp, List.prefix_refl _, hdefines, fun other _ hother _ => hother.length_le⟩
    · next hdefines =>
      obtain ⟨hne, hhome, hdefined, hlongest⟩ := ih h
      refine ⟨hne, hhome.trans (List.prefix_append _ _), hdefined, fun other hne hother ho => ?_⟩
      rcases List.prefix_concat_iff.1 hother with rfl | hother
      · exact absurd ho hdefines
      · exact hlongest other hne hother ho

theorem findRule_eq_some_iff {path home : Path} : b.findRule path name = some home ↔
    home ≠ [] ∧ home <+: path ∧ b.defines home name = true ∧
      ∀ other, other ≠ [] → other <+: path → b.defines other name = true →
        other.length ≤ home.length := by
  refine ⟨findRule_spec, fun ⟨hne, hhome, hdefined, hlongest⟩ => ?_⟩
  cases hfound : b.findRule path name with
  | none => simp [(findRule_eq_none_iff path).1 hfound home hne hhome] at hdefined
  | some home' =>
    obtain ⟨hne', hhome', hdefined', hlongest'⟩ := findRule_spec hfound
    -- Both are longest on the way to one path.
    have hleads := List.prefix_of_prefix_length_le hhome' hhome
      (hlongest home' hne' hhome' hdefined')
    rw [hleads.eq_of_length_le (hlongest' home hne hhome hdefined)]

/-- Where the same entries define a name, the same one is found. -/
theorem findRule_congr {path : Path}
    (h : ∀ home, home ≠ [] → home <+: path → b.defines home name = b'.defines home name) :
    b.findRule path name = b'.findRule path name := by
  induction path using List.reverseRecOn with
  | nil => rfl
  | append_singleton path segment ih =>
    rw [findRule_concat, findRule_concat, h _ (by simp) (List.prefix_refl _),
      ih fun home hne hhome => h home hne (hhome.trans (List.prefix_append _ _))]

/-- The second book is the first but for the name that one entry defines. -/
structure DefinesAlso (b b' : Rulebook) (entry : Path) (name : String) : Prop where
  ne_nil : entry ≠ []
  defines_entry : b'.defines entry name = true
  defines_eq : ∀ home, home ≠ [] → home ≠ entry → b'.defines home name = b.defines home name

variable {entry path home : Path}

/-- Where the entry is not on the way, the same is found. -/
theorem DefinesAlso.findRule_eq (h : DefinesAlso b b' entry name) (hpath : ¬entry <+: path) :
    b'.findRule path name = b.findRule path name :=
  findRule_congr fun home hne hhome => h.defines_eq home hne fun heq => hpath (heq ▸ hhome)

/-- What is defined further inside hides the entry. -/
theorem DefinesAlso.findRule_eq_some (h : DefinesAlso b b' entry name)
    (hfound : b.findRule path name = some home) (hinside : entry <+: home) (hother : home ≠ entry) :
    b'.findRule path name = some home := by
  obtain ⟨hne, hhome, hdefined, hlongest⟩ := findRule_spec hfound
  refine findRule_eq_some_iff.2 ⟨hne, hhome, (h.defines_eq home hne hother).trans hdefined,
    fun other hne' hpath hdefines => ?_⟩
  by_cases hentry : other = entry
  · exact hentry ▸ hinside.length_le
  · exact hlongest other hne' hpath ((h.defines_eq other hne' hentry).symm.trans hdefines)

/-- The entry hides what is defined further outside. -/
theorem DefinesAlso.findRule_eq_entry (h : DefinesAlso b b' entry name) (hentry : entry <+: path)
    (houtside : ∀ home, b.findRule path name = some home → ¬(entry <+: home ∧ home ≠ entry)) :
    b'.findRule path name = some entry := by
  refine findRule_eq_some_iff.2 ⟨h.ne_nil, hentry, h.defines_entry, fun other hne hpath ho => ?_⟩
  by_contra hlonger
  have hother : other ≠ entry := fun heq => hlonger (heq ▸ Nat.le_refl _)
  -- A longer path on the way was already there, and so something inside the entry was found.
  have hdefined := (h.defines_eq other hne hother).symm.trans ho
  cases hfound : b.findRule path name with
  | none => simp [(findRule_eq_none_iff path).1 hfound other hne hpath] at hdefined
  | some home =>
    obtain ⟨-, hhome, -, hlongest⟩ := findRule_spec hfound
    have hlength := hlongest other hne hpath hdefined
    have hinside : entry <+: home := List.prefix_of_prefix_length_le hentry hhome (by omega)
    exact houtside home hfound ⟨hinside, fun heq => by subst heq; omega⟩

end Rulebook

/-! ## Definitions -/

/-- The definitions in several blocks, each with the path of its entry. -/
def definitionsIn (blocks : List (Path × Comply)) : List (Path × RuleDefinition) :=
  blocks.flatMap fun b => b.2.define.map fun d => (b.1, d)

theorem definitionsIn_append (blocks blocks' : List (Path × Comply)) :
    definitionsIn (blocks ++ blocks') = definitionsIn blocks ++ definitionsIn blocks' :=
  List.flatMap_append

/-- The last definition of a name at a path. -/
def lastDefinition? (definitions : List (Path × RuleDefinition)) (home : Path) (name : String) :
    Option RuleDefinition :=
  (definitions.reverse.find? fun x => x.1 = home ∧ x.2.name = name).map (·.2)

namespace Schema

/-- The definitions of a schema, in the order of the walk. -/
def definitions (s : Schema) : List (Path × RuleDefinition) := definitionsIn s.blocks

/-- What a schema says last about a name at a path is its last definition there. -/
theorem find?_contents_rules (s : Schema) (home : Path) (name : String) :
    KeyMap.find? s.contents.rules.reverse (home ++ [name]) =
      (lastDefinition? s.definitions home name).map fun d => .scripted d ⟨0, d.body⟩ := by
  have hrules : s.contents.rules = s.definitions.map fun x =>
      (x.1 ++ [x.2.name], Rule.scripted x.2 ⟨0, x.2.body⟩) := by
    rw [definitions, definitionsIn, List.map_flatMap]
    simp only [List.map_map]
    rfl
  rw [hrules, ← List.map_reverse, lastDefinition?]
  -- From the end of the definitions, since the last one counts.
  induction s.definitions.reverse with
  | nil => rfl
  | cons x rest ih =>
    rw [List.map_cons, KeyMap.find?_cons, List.find?_cons, ih]
    by_cases hx : x.1 = home ∧ x.2.name = name
    · obtain ⟨rfl, rfl⟩ := hx
      simp
    · -- A key is a path and a name in one way only.
      have hkey : x.1 ++ [x.2.name] ≠ home ++ [name] := fun h =>
        hx ⟨List.append_inj_left' h rfl, by simpa using List.append_inj_right' h rfl⟩
      rw [if_neg hkey, decide_eq_false hx]

/-! ## One more definition -/

/-- The second schema is the first with one more definition at an entry. -/
inductive Adds (d : RuleDefinition) : Path → Schema → Schema → Prop
  /-- The definition is put in among those of the entry. -/
  | among {s : Schema} {c : Comply} {before after : List RuleDefinition} :
      s.comply = some c → c.define = before ++ after →
      Adds d [s.name] s { s with comply := some { c with define := before ++ d :: after } }
  /-- The entry had no block of rules. -/
  | alone {s : Schema} : s.comply = none →
      Adds d [s.name] s { s with comply := some { define := [d] } }
  /-- The entry is below one of the children. -/
  | within {s child child' : Schema} {before after : List Schema} {entry : Path} :
      s.children = before ++ child :: after → Adds d entry child child' →
      Adds d (s.name :: entry) s { s with children := before ++ child' :: after }

variable {d : RuleDefinition} {entry : Path} {s s' : Schema}

theorem Adds.name_eq (h : Adds d entry s s') : s'.name = s.name := by
  cases h <;> rfl

theorem Adds.head?_eq (h : Adds d entry s s') : entry.head? = some s.name := by
  cases h <;> rfl

theorem blocksAt_eq (path : Path) (s : Schema) :
    s.blocksAt path = s.comply.toList.map (fun c => (path, c)) ++ blocksBelow path s.children := by
  cases s
  rw [blocksAt]

theorem blocksBelow_append (path : Path) (ss ss' : List Schema) :
    blocksBelow path (ss ++ ss') = blocksBelow path ss ++ blocksBelow path ss' := by
  induction ss with
  | nil => simp [blocksBelow]
  | cons s rest ih => rw [List.cons_append, blocksBelow, blocksBelow, ih, List.append_assoc]

/-- Of the definitions in both schemas none is lost or moved. -/
theorem Adds.exists_definitionsIn (h : Adds d entry s s') (outer : Path) : ∃ before after,
    definitionsIn (s.blocksAt (outer ++ [s.name])) = before ++ after ∧
    definitionsIn (s'.blocksAt (outer ++ [s.name])) = before ++ (outer ++ entry, d) :: after := by
  -- By induction on where the definition is put in. What stands in front of it and behind it grows
  -- by the entries around it, on the way back up to the root.
  induction h generalizing outer with
  | @among s c before after hcomply hdefine =>
    refine ⟨before.map fun d => (outer ++ [s.name], d),
      after.map (fun d => (outer ++ [s.name], d)) ++
        definitionsIn (blocksBelow (outer ++ [s.name]) s.children), ?_, ?_⟩
    · rw [blocksAt_eq, definitionsIn_append, hcomply]
      simp [definitionsIn, hdefine]
    · rw [blocksAt_eq, definitionsIn_append]
      simp [definitionsIn]
  | @alone s hcomply =>
    refine ⟨[], definitionsIn (blocksBelow (outer ++ [s.name]) s.children), ?_, ?_⟩
    · rw [blocksAt_eq, definitionsIn_append, hcomply]
      rfl
    · rw [blocksAt_eq, definitionsIn_append]
      rfl
  | @within s child child' before after entry hchildren hadds ih =>
    obtain ⟨front, back, hold, hnew⟩ := ih (outer ++ [s.name])
    -- What stands before the child and after it is the same in both schemas.
    have hblocks : ∀ child : Schema,
        definitionsIn (blocksBelow (outer ++ [s.name]) (before ++ child :: after)) =
          definitionsIn (blocksBelow (outer ++ [s.name]) before) ++
            (definitionsIn (child.blocksAt (outer ++ [s.name] ++ [child.name])) ++
              definitionsIn (blocksBelow (outer ++ [s.name]) after)) := by
      intro child
      rw [blocksBelow_append, blocksBelow, definitionsIn_append, definitionsIn_append]
    refine ⟨definitionsIn (s.comply.toList.map fun c => (outer ++ [s.name], c)) ++
      (definitionsIn (blocksBelow (outer ++ [s.name]) before) ++ front),
      back ++ definitionsIn (blocksBelow (outer ++ [s.name]) after), ?_, ?_⟩
    · rw [blocksAt_eq, definitionsIn_append, hchildren, hblocks, hold]
      simp only [List.append_assoc]
    · rw [blocksAt_eq, definitionsIn_append, hblocks, hadds.name_eq, hnew]
      simp only [List.append_assoc, List.cons_append, List.nil_append]

theorem Adds.exists_definitions (h : Adds d entry s s') : ∃ before after,
    s.definitions = before ++ after ∧ s'.definitions = before ++ (entry, d) :: after := by
  rw [definitions, definitions, blocks, blocks, h.name_eq]
  exact h.exists_definitionsIn []

/-- Other names and other entries keep their last definitions. -/
theorem Adds.lastDefinition?_eq (h : Adds d entry s s') {home : Path} {name : String}
    (hother : ¬(entry = home ∧ d.name = name)) :
    lastDefinition? s'.definitions home name = lastDefinition? s.definitions home name := by
  obtain ⟨before, after, hold, hnew⟩ := h.exists_definitions
  rw [lastDefinition?, lastDefinition?, hold, hnew, List.reverse_append, List.reverse_append,
    List.reverse_cons, List.append_assoc, List.find?_append, List.find?_append, List.find?_append,
    List.find?_singleton, decide_eq_false hother, if_neg Bool.false_ne_true, Option.none_or]

/-- The name that is added is defined at the entry. -/
theorem Adds.isSome_lastDefinition? (h : Adds d entry s s') :
    (lastDefinition? s'.definitions entry d.name).isSome := by
  obtain ⟨before, after, -, hnew⟩ := h.exists_definitions
  rw [lastDefinition?, Option.isSome_map, List.find?_isSome, hnew]
  exact ⟨(entry, d), by simp, by simp⟩

end Schema

end Compliance

open Compliance

namespace Catalogue

variable {σ : Type}

/-! ## Loaded schemas -/

/-- The last definition of a name at an entry of a loaded schema. -/
def definition? (c : Catalogue σ) (home : Path) (name : String) : Option RuleDefinition :=
  (home.head?.bind (KeyMap.find? c.versions)).bind fun s => lastDefinition? s.definitions home name

/-- The entry found for a name, among an entry and those around it. -/
def findRule (c : Catalogue σ) (path : Path) (name : String) : Option Path :=
  c.engine.book.findRule path name

/-- What a reference means at a path, but for the number of the script. -/
def meaning (c : Catalogue σ) (path : Path) (r : RuleRef) : Option (Path × Rule) :=
  (c.engine.book.resolve path r).map fun found => (found.1, found.2.anonymous)

/-- The longest path on the way at which a loaded schema defines a name. -/
structure Nearest (c : Catalogue σ) (path : Path) (name : String) (home : Path) : Prop where
  ne_nil : home ≠ []
  leads : home <+: path
  defined : (c.definition? home name).isSome = true
  longest : ∀ other, other ≠ [] → other <+: path → (c.definition? other name).isSome = true →
    other.length ≤ home.length

/-- An entry is on the way, and nothing is found that is strictly inside it. -/
def Exposed (c : Catalogue σ) (path : Path) (name : String) (entry : Path) : Prop :=
  entry <+: path ∧ ∀ home, c.findRule path name = some home → ¬(entry <+: home ∧ home ≠ entry)

/-- Names are looked up from the inside to the outside. -/
structure Scoped (c : Catalogue σ) : Prop where
  /-- The look-up on one key comes to an end, and finds the same. -/
  search_eq : ∀ path name, c.engine.book.search (path ++ [name]) = c.findRule path name
  /-- The longest path on the way that defines the name is found. -/
  findRule_iff : ∀ path name home, c.findRule path name = some home ↔ c.Nearest path name home
  /-- Nothing is found just if no path on the way defines the name. -/
  findRule_none_iff : ∀ path name, c.findRule path name = none ↔
    ∀ home, home ≠ [] → home <+: path → c.definition? home name = none
  /-- A name without a dot means the rule of the nearest definition, the last one there. -/
  meaning_iff : ∀ path r, r.isQualified = false → ∀ home rule,
    c.meaning path r = some (home, rule) ↔ c.Nearest path r.name home ∧
      ∃ d, c.definition? home r.name = some d ∧ rule = .scripted d ⟨0, d.body⟩
  /-- When a schema is loaded again with one more definition, the name is found elsewhere only
  where the entry is exposed. -/
  reload_findRule : ∀ s s' d entry, KeyMap.find? c.versions s.name = some s → s.Adds d entry s' →
    ∀ path, (c.step (.load s')).findRule path d.name ≠ c.findRule path d.name →
      c.Exposed path d.name entry
  /-- Only there, too, can the name mean another rule. -/
  reload_meaning : ∀ s s' d entry, KeyMap.find? c.versions s.name = some s → s.Adds d entry s' →
    ∀ path r, r.isQualified = false → r.name = d.name →
      (c.step (.load s')).meaning path r ≠ c.meaning path r → c.Exposed path d.name entry
  /-- And there the name is found at the entry. -/
  reload_exposed : ∀ s s' d entry, KeyMap.find? c.versions s.name = some s → s.Adds d entry s' →
    (c.engine.load s').1 = .ok () → ∀ path, c.Exposed path d.name entry →
      (c.step (.load s')).findRule path d.name = some entry

variable {c : Catalogue σ} {s s' : Schema} {d : RuleDefinition} {entry home path : Path}
  {name : String}

theorem Invariant.rule?_eq (h : Invariant c) (hne : home ≠ []) (name : String) :
    (c.engine.book.rule? home name).map Rule.anonymous =
      (c.definition? home name).map fun d => .scripted d ⟨0, d.body⟩ := by
  obtain ⟨root, rest, rfl⟩ := List.exists_cons_of_ne_nil hne
  rw [Rulebook.rule?, (h.mirrors.holds root).rules_eq _ rfl, definition?, List.head?_cons,
    Option.bind_some, Option.map_bind]
  exact congrArg _ (funext fun s => s.find?_contents_rules (root :: rest) name)

theorem Invariant.defines_eq (h : Invariant c) (hne : home ≠ []) (name : String) :
    c.engine.book.defines home name = (c.definition? home name).isSome := by
  have hrule := congrArg Option.isSome (h.rule?_eq hne name)
  rwa [Option.isSome_map, Option.isSome_map] at hrule

theorem Invariant.findRule_iff (h : Invariant c) :
    c.findRule path name = some home ↔ c.Nearest path name home := by
  rw [findRule, Rulebook.findRule_eq_some_iff]
  constructor
  · rintro ⟨hne, hhome, hdefined, hlongest⟩
    refine ⟨hne, hhome, h.defines_eq hne name ▸ hdefined, fun other hne' hother ho => ?_⟩
    exact hlongest other hne' hother (h.defines_eq hne' name ▸ ho)
  · rintro ⟨hne, hhome, hdefined, hlongest⟩
    refine ⟨hne, hhome, h.defines_eq hne name ▸ hdefined, fun other hne' hother ho => ?_⟩
    exact hlongest other hne' hother (h.defines_eq hne' name ▸ ho)

theorem Invariant.meaning_eq (h : Invariant c) {r : RuleRef} (hr : r.isQualified = false) :
    c.meaning path r = (c.findRule path r.name).bind fun home =>
      (c.definition? home r.name).map fun d => (home, .scripted d ⟨0, d.body⟩) := by
  have hresolve : c.engine.book.resolve path r = (c.findRule path r.name).bind fun home =>
      (c.engine.book.rule? home r.name).bind fun rule => some (home, rule) := by
    rw [Rulebook.resolve, if_neg (by simp [hr])]
    rfl
  rw [meaning, hresolve]
  cases hfound : c.findRule path r.name with
  | none => rfl
  | some home =>
    have hrule := h.rule?_eq (Rulebook.findRule_spec hfound).1 r.name
    rw [Option.bind_some, Option.bind_some]
    cases hdefinition : c.definition? home r.name with
    | none =>
      -- Not the case for an entry that has been found; but the two sides agree without that.
      rw [hdefinition, Option.map_none, Option.map_eq_none_iff] at hrule
      rw [hrule]
      rfl
    | some d =>
      rw [hdefinition] at hrule
      obtain ⟨rule, hfind, hanonymous⟩ := Option.map_eq_some_iff.1 hrule
      rw [hfind]
      exact congrArg (fun rule => some (home, rule)) hanonymous

/-- A schema that is loaded again with one more definition defines that, too, and nothing else. -/
theorem definition?_load (hs : KeyMap.find? c.versions s.name = some s) (hadds : s.Adds d entry s')
    (hload : (c.engine.load s').1 = .ok ()) :
    ((c.step (.load s')).definition? entry d.name).isSome = true ∧
    ∀ home name, ¬(entry = home ∧ d.name = name) →
      (c.step (.load s')).definition? home name = c.definition? home name := by
  rw [step_load hload]
  refine ⟨?_, fun home name hother => ?_⟩
  · rw [definition?, hadds.head?_eq, Option.bind_some, KeyMap.find?_insert, if_pos hadds.name_eq]
    exact hadds.isSome_lastDefinition?
  · rw [definition?, definition?]
    cases home.head? with
    | none => rfl
    | some root =>
      rw [Option.bind_some, Option.bind_some, KeyMap.find?_insert]
      split
      · next hroot =>
        rw [← hroot, hadds.name_eq, hs, Option.bind_some, Option.bind_some]
        exact hadds.lastDefinition?_eq hother
      · rfl

theorem Invariant.definesAlso_load (h : Invariant c) (hs : KeyMap.find? c.versions s.name = some s)
    (hadds : s.Adds d entry s') (hload : (c.engine.load s').1 = .ok ()) :
    Rulebook.DefinesAlso c.engine.book (c.step (.load s')).engine.book entry d.name := by
  have hafter := h.load s'
  obtain ⟨hentry, hothers⟩ := definition?_load hs hadds hload
  have hne : entry ≠ [] := fun hnil => by simpa [hnil] using hadds.head?_eq
  refine ⟨hne, (hafter.defines_eq hne d.name).trans hentry, fun home hne' hother => ?_⟩
  rw [hafter.defines_eq hne', h.defines_eq hne', hothers home d.name fun heq => hother heq.1.symm]

/-- A schema that can not be loaded again changes nothing. -/
theorem Invariant.book_step_of_error (h : Invariant c) (hload : (c.engine.load s').1 ≠ .ok ()) :
    (c.step (.load s')).engine.book = c.engine.book := by
  cases hresult : (c.engine.load s').1 with
  | ok u => exact absurd hresult hload
  | error e => exact h.current.refused s' e hresult

theorem Invariant.exposed_of_findRule_ne (h : Invariant c)
    (hs : KeyMap.find? c.versions s.name = some s) (hadds : s.Adds d entry s')
    (hchange : (c.step (.load s')).findRule path d.name ≠ c.findRule path d.name) :
    c.Exposed path d.name entry := by
  by_cases hload : (c.engine.load s').1 = .ok ()
  · have halso := h.definesAlso_load hs hadds hload
    refine ⟨by_contra fun hpath => hchange (halso.findRule_eq hpath), ?_⟩
    rintro home hfound ⟨hinside, hother⟩
    exact hchange ((halso.findRule_eq_some hfound hinside hother).trans hfound.symm)
  · refine absurd ?_ hchange
    rw [findRule, findRule, h.book_step_of_error hload]

theorem Invariant.exposed_of_meaning_ne (h : Invariant c)
    (hs : KeyMap.find? c.versions s.name = some s) (hadds : s.Adds d entry s') {r : RuleRef}
    (hr : r.isQualified = false) (hname : r.name = d.name)
    (hchange : (c.step (.load s')).meaning path r ≠ c.meaning path r) :
    c.Exposed path d.name entry := by
  by_contra hexposed
  refine hchange ?_
  by_cases hload : (c.engine.load s').1 = .ok ()
  · -- The same entry is found, and it is not the one that has the new definition.
    have hsame : (c.step (.load s')).findRule path d.name = c.findRule path d.name :=
      by_contra fun hne => hexposed (h.exposed_of_findRule_ne hs hadds hne)
    rw [(h.load s').meaning_eq hr, h.meaning_eq hr, hname, hsame]
    cases hfound : c.findRule path d.name with
    | none => rfl
    | some home =>
      have hother : ¬(entry = home ∧ d.name = d.name) := by
        rintro ⟨rfl, -⟩
        refine hexposed ⟨(Rulebook.findRule_spec hfound).2.1, fun home hhome => ?_⟩
        obtain rfl := Option.some.inj (hfound.symm.trans hhome)
        exact fun hstrict => hstrict.2 rfl
      rw [Option.bind_some, Option.bind_some,
        (definition?_load hs hadds hload).2 home d.name hother]
  · rw [meaning, meaning, h.book_step_of_error hload]

theorem Invariant.scoped (h : Invariant c) : Scoped c where
  search_eq path name := Rulebook.search_eq path
  findRule_iff path name home := h.findRule_iff
  -- No rule is found if no path from here up to the root defines one.
  findRule_none_iff path name := by
    rw [findRule, Rulebook.findRule_eq_none_iff]
    refine forall_congr' fun home => forall_congr' fun hne => forall_congr' fun _ => ?_
    rw [h.defines_eq hne, Option.isSome_eq_false_iff, Option.isNone_iff_eq_none]
  meaning_iff path r hr home rule := by
    rw [h.meaning_eq hr, Option.bind_eq_some_iff, ← h.findRule_iff]
    simp only [Option.map_eq_some_iff, Prod.mk.injEq]
    constructor
    · rintro ⟨home, hfound, d, hdefinition, rfl, rfl⟩
      exact ⟨hfound, d, hdefinition, rfl⟩
    · rintro ⟨hfound, d, hdefinition, rfl⟩
      exact ⟨home, hfound, d, hdefinition, rfl, rfl⟩
  reload_findRule s s' d entry hs hadds path hchange := h.exposed_of_findRule_ne hs hadds hchange
  reload_meaning s s' d entry hs hadds path r hr hname hchange :=
    h.exposed_of_meaning_ne hs hadds hr hname hchange
  reload_exposed s s' d entry hs hadds hload path hexposed :=
    (h.definesAlso_load hs hadds hload).findRule_eq_entry hexposed.1 hexposed.2

/-- Whatever has been done with an engine, it looks names up from the inside to the outside. The
numbers of scripts and workers do not wrap: this is about fewer than `2 ^ 64` of them. -/
theorem scoped_run (native : Rulebook) (sandbox : Sandbox σ)
    (ops : List ComplianceEngine.Operation) : Scoped ((start native sandbox).run ops) :=
  ((invariant_start native sandbox).run ops).scoped

/-- An entry that defines a name which is then defined around it, too. -/
example :
    let around : Schema :=
      { single with comply := some { define := [{ name := "one", body := "true" }] } }
    let c := (start {} onlyOne).run [.load single]
    let c' := c.step (.load around)
    c.findRule ["s", "a"] "one" = some ["s", "a"] ∧ c.findRule ["s", "b"] "one" = none ∧
      c'.findRule ["s", "a"] "one" = some ["s", "a"] ∧ c'.findRule ["s", "b"] "one" = some ["s"] :=
  ⟨rfl, rfl, rfl, rfl⟩

end Catalogue

end LayeredAccess
