/-
  LayeredAccess.Proofs.Compliance.Separation

  Schemas do not interfere. A name without a dot is looked up on the way from an
  entry to its root, so it can not leave the root. A name with a dot is looked up
  among the native rules first and may otherwise lead anywhere; what it means can
  only depend on other schemas if it is no native rule and starts with another
  root.

  So where all references under a root are confined to it, reports on the root
  depend on nothing that is filed under other roots (`separate`).
-/
import LayeredAccess.Proofs.Compliance.Scoping
import LayeredAccess.Proofs.Compliance.Verdicts
import LayeredAccess.Sandbox.Scripts
import Mathlib.Data.List.Basic

namespace LayeredAccess

open Sandbox (Judge)

namespace Compliance

/-! ## Roots -/

/-- A reference that can not lead to a rule of another root. -/
inductive RuleRef.Confined (builtins : KeyMap Path Rule) (root : String) (r : RuleRef) : Prop where
  | bare (h : r.isQualified = false)
  | builtin (h : (KeyMap.find? builtins (r.name.splitOn ".")).isSome)
  | own (h : (r.name.splitOn ".").head? = some root)

/-- All references of a schema are confined to it. -/
def Schema.Confined (builtins : KeyMap Path Rule) (s : Schema) : Prop :=
  ∀ block ∈ s.blocks, ∀ r ∈ block.2.rules, r.Confined builtins s.name

mutual

theorem prefix_of_mem_leaves (path : Path) : (v : Json) → ∀ leaf ∈ leaves path v, path <+: leaf.1
  | .obj members, leaf, hleaf => by
    rw [leaves] at hleaf
    exact prefix_of_mem_memberLeaves path members leaf hleaf
  | .null, leaf, hleaf | .bool _, leaf, hleaf | .int _, leaf, hleaf | .double _, leaf, hleaf
  | .str _, leaf, hleaf | .arr _, leaf, hleaf => by
    obtain rfl := List.mem_singleton.1 (by simpa only [leaves] using hleaf)
    exact List.prefix_refl path

theorem prefix_of_mem_memberLeaves (path : Path) : (members : List (String × Json)) →
    ∀ leaf ∈ memberLeaves path members, path <+: leaf.1
  | [], leaf, hleaf => by simp [memberLeaves] at hleaf
  | (k, v) :: rest, leaf, hleaf => by
    rw [memberLeaves] at hleaf
    rcases List.mem_append.1 hleaf with hleaf | hleaf
    · exact (List.prefix_append path [k]).trans (prefix_of_mem_leaves (path ++ [k]) v leaf hleaf)
    · exact prefix_of_mem_memberLeaves path rest leaf hleaf

end

/-- Whatever is judged below a resource is at a path from it. -/
theorem head?_of_mem_leavesBelow {resource : String} {value : Json} {leaf : Path × Json}
    (h : leaf ∈ leavesBelow resource value) : leaf.1.head? = some resource := by
  cases value with
  | obj members =>
    obtain ⟨rest, hrest⟩ := prefix_of_mem_memberLeaves [resource] members leaf h
    rw [← hrest]
    rfl
  | _ => exact absurd h List.not_mem_nil

namespace Rulebook

/-- All references under a root are confined to it. -/
def Confined (b : Rulebook) (root : String) : Prop :=
  ∀ path refs, path.head? = some root → KeyMap.find? b.references path = some refs →
    ∀ r ∈ refs, r.Confined b.builtins root

/-- Two books have the same native rules, and under one root the same references and the same rules,
but for the numbers of scripts. -/
structure AgreesUnder (root : String) (b b' : Rulebook) : Prop where
  builtins_eq : b.builtins = b'.builtins
  references_eq : ∀ path, path.head? = some root →
    KeyMap.find? b.references path = KeyMap.find? b'.references path
  rules_eq : ∀ path, path.head? = some root →
    (KeyMap.find? b.rules path).map Rule.anonymous = (KeyMap.find? b'.rules path).map Rule.anonymous

variable {b b' b'' : Rulebook} {root name : String}

theorem AgreesUnder.refl (root : String) (b : Rulebook) : AgreesUnder root b b :=
  ⟨rfl, fun _ _ => rfl, fun _ _ => rfl⟩

theorem AgreesUnder.trans (h : AgreesUnder root b b') (h' : AgreesUnder root b' b'') :
    AgreesUnder root b b'' :=
  ⟨h.builtins_eq.trans h'.builtins_eq,
    fun path hpath => (h.references_eq path hpath).trans (h'.references_eq path hpath),
    fun path hpath => (h.rules_eq path hpath).trans (h'.rules_eq path hpath)⟩

/-- A change under another root. -/
theorem AgreesBut.agreesUnder (h : AgreesBut name b b') (hbuiltins : b.builtins = b'.builtins)
    (hroot : name ≠ root) : AgreesUnder root b b' := by
  have hother : ∀ path : Path, path.head? = some root → path.head? ≠ some name := by
    intro path hpath hname
    exact hroot (Option.some.inj (hname.symm.trans hpath))
  refine ⟨hbuiltins, fun path hpath => ?_, fun path hpath => ?_⟩
  · exact (h.references_eq path (hother path hpath)).symm
  · rw [h.rules_eq path (hother path hpath)]

/-! ## What references mean -/

theorem AgreesUnder.defines_eq (h : AgreesUnder root b b') {home : Path}
    (hhome : home.head? = some root) (name : String) :
    b.defines home name = b'.defines home name := by
  have hkey : (home ++ [name]).head? = some root := by
    rw [List.head?_append, hhome, Option.some_or]
  have hrules := congrArg Option.isSome (h.rules_eq _ hkey)
  rwa [Option.isSome_map, Option.isSome_map] at hrules

/-- A path on the way to another one has the same root. -/
theorem head?_eq_of_isPrefix {home path : Path} (hne : home ≠ []) (h : home <+: path) :
    home.head? = path.head? := by
  obtain ⟨rest, rfl⟩ := h
  cases home with
  | nil => exact absurd rfl hne
  | cons segment home => rfl

theorem AgreesUnder.findRule_eq (h : AgreesUnder root b b') {path : Path}
    (hpath : path.head? = some root) (name : String) :
    b.findRule path name = b'.findRule path name :=
  findRule_congr fun _ hne hhome =>
    h.defines_eq ((head?_eq_of_isPrefix hne hhome).trans hpath) name

/-- The rules that a reference means, without the number of a script. -/
def meaning (b : Rulebook) (path : Path) (r : RuleRef) : Option (Path × Rule) :=
  (b.resolve path r).map fun found => (found.1, found.2.anonymous)

/-- Under a root that two books agree on, a confined reference means the same. -/
theorem AgreesUnder.meaning_eq (h : AgreesUnder root b b') {path : Path}
    (hpath : path.head? = some root) {r : RuleRef} (hr : r.Confined b.builtins root) :
    b.meaning path r = b'.meaning path r := by
  rw [meaning, meaning, resolve, resolve]
  by_cases hqualified : r.isQualified = true
  · rw [if_pos hqualified, if_pos hqualified]
    dsimp only
    rw [← h.builtins_eq]
    cases hbuiltin : KeyMap.find? b.builtins (r.name.splitOn ".") with
    | some rule => rfl
    | none =>
      -- It is no native rule, so it starts with the root.
      have hown : (r.name.splitOn ".").head? = some root := by
        cases hr with
        | bare hbare => simp [hbare] at hqualified
        | builtin hsome => simp [hbuiltin] at hsome
        | own hown => exact hown
      have hrules := congrArg (Option.map (Prod.mk (r.name.splitOn ".").dropLast))
        (h.rules_eq _ hown)
      simpa only [Option.orElse_none, Option.map_map, Function.comp_def] using hrules
  · rw [if_neg hqualified, if_neg hqualified, h.findRule_eq hpath]
    cases hfound : b'.findRule path r.name with
    | none => rfl
    | some home =>
      obtain ⟨hne, hhome, -⟩ := findRule_spec hfound
      have hkey : (home ++ [r.name]).head? = some root := by
        rw [List.head?_append, head?_eq_of_isPrefix hne hhome, hpath, Option.some_or]
      have hrules := h.rules_eq _ hkey
      simp only [rule?, Option.bind_eq_bind, Option.bind_some]
      cases hrule : KeyMap.find? b.rules (home ++ [r.name]) with
      | none =>
        rw [hrule, Option.map_none, eq_comm, Option.map_eq_none_iff] at hrules
        rw [hrules]
      | some rule =>
        rw [hrule, Option.map_some, eq_comm, Option.map_eq_some_iff] at hrules
        obtain ⟨rule', hrule', hsame⟩ := hrules
        rw [hrule']
        exact congrArg (fun rule => some (home, rule)) hsame.symm

/-- A reference that leads to another root is not confined: what is defined there has an
influence. -/
example :
    let r : RuleRef := { name := "t.u" }
    let b : Rulebook := { references := [(["s"], [r])] }
    (b.meaning ["s"] r).isNone ∧
      ((b.enter "t" { rules := [(["t", "u"], .native "t" "u" [] Builtin.int)] }).meaning
        ["s"] r).isSome := by
  cbv

/-! ## What reports say -/

variable {judge : Judge}

/-- What is to become of a turn depends on what its reference means. -/
theorem foretold?_congr {t : Turn}
    (h : b.meaning t.path t.reference = b'.meaning t.path t.reference) :
    b.foretold? judge t = b'.foretold? judge t := by
  rw [meaning, meaning] at h
  rw [foretold?, foretold?]
  cases hb : b.resolve t.path t.reference with
  | none =>
    cases hb' : b'.resolve t.path t.reference with
    | none => rfl
    | some found' => simp [hb, hb'] at h
  | some found =>
    cases hb' : b'.resolve t.path t.reference with
    | none => simp [hb, hb'] at h
    | some found' =>
      obtain ⟨home, rule⟩ := found
      obtain ⟨home', rule'⟩ := found'
      simp only [hb, hb', Option.map_some, Option.some.injEq, Prod.mk.injEq] at h
      obtain ⟨rfl, hrule⟩ := h
      -- The rules differ in the numbers of their scripts at most, which nothing depends on.
      have hverdict : rule.verdict judge = rule'.verdict judge := by
        rw [← Rule.verdict_anonymous judge rule, hrule, Rule.verdict_anonymous]
      have htext : rule.failureText = rule'.failureText := by
        show rule.anonymous.failureText = rule'.anonymous.failureText
        rw [hrule]
      simp only [hverdict, htext]

/-- Under a root that two books agree on, the same is foretold. -/
theorem AgreesUnder.foretoldAt_eq (h : AgreesUnder root b b') (hconfined : b.Confined root)
    {path : Path} (hpath : path.head? = some root) (value : Json) :
    b.foretoldAt judge path value = b'.foretoldAt judge path value := by
  have hreferences : b.referencesAt path = b'.referencesAt path := by
    rw [referencesAt, referencesAt, h.references_eq path hpath]
  rw [foretoldAt, foretoldAt, turnsAt, turnsAt, ← hreferences, List.filterMap_map,
    List.filterMap_map]
  apply List.filterMap_congr
  intro r hr
  apply foretold?_congr
  apply h.meaning_eq hpath
  rw [referencesAt] at hr
  cases hrefs : KeyMap.find? b.references path with
  | none => simp [hrefs] at hr
  | some refs =>
    rw [hrefs] at hr
    exact hconfined path refs hpath hrefs r hr

theorem AgreesUnder.foretold_eq (h : AgreesUnder root b b') (hconfined : b.Confined root)
    (value : Json) : b.foretold judge root value = b'.foretold judge root value := by
  have hleaf : ∀ leaf ∈ leavesBelow root value,
      b.foretoldLeaf judge leaf = b'.foretoldLeaf judge leaf := by
    intro leaf hmem
    rw [foretoldLeaf, foretoldLeaf,
      h.foretoldAt_eq hconfined (head?_of_mem_leavesBelow hmem) leaf.2]
  rw [foretold, foretold, h.foretoldAt_eq hconfined rfl value, List.filterMap_congr hleaf]

/-! ## What schemas say -/

/-- A schema whose references are confined to it is entered as such. -/
theorem confined_enter {s : Schema} {c : Contents} (hs : s.Confined b.builtins)
    (hc : c.anonymous = s.contents) : (b.enter s.name c).Confined s.name := by
  intro path refs hpath hrefs r hr
  rw [(holds_enter b hc).references_eq path hpath, Option.bind_some] at hrefs
  obtain ⟨block, hblock, heq⟩ :=
    List.mem_map.1 (List.mem_reverse.1 (KeyMap.mem_of_find? hrefs))
  obtain rfl : block.2.rules = refs := congrArg Prod.snd heq
  exact hs block hblock r hr

/-- Books that hold the same under a root agree on it. -/
theorem Holds.agreesUnder {o : Option Schema} (h : b.Holds root o) (h' : b'.Holds root o)
    (hbuiltins : b.builtins = b'.builtins) : AgreesUnder root b b' := by
  refine ⟨hbuiltins, fun path hpath => ?_, fun path hpath => ?_⟩
  · rw [h.references_eq path hpath, h'.references_eq path hpath]
  · rw [h.rules_eq path hpath, h'.rules_eq path hpath]

end Rulebook

end Compliance

open Compliance

namespace ComplianceEngine

open Rulebook (AgreesUnder)

variable {σ : Type} {judge : Judge} {e : ComplianceEngine σ} {root : String}

/-- Something that enters or drops no schema of a name, and no native rules. -/
def Operation.Spares (root : String) : Operation → Prop
  | .load s => s.name ≠ root
  | .unload name => name ≠ root
  | .register _ => False
  | .report _ _ | .verify _ _ | .reportOn _ _ => True

theorem Operation.Spares.agreesUnder {op : Operation} (h : op.Spares root)
    (e : ComplianceEngine σ) : AgreesUnder root e.book (e.operate op).book := by
  -- Only a schema that is loaded or dropped changes the rulebook, and it is of another root.
  cases op with
  | load s =>
    rcases e.load_spec s with ⟨c, hc, -, hbook⟩ | ⟨error, -, hbook⟩
    · show AgreesUnder root e.book (e.load s).2.book
      rw [hbook]
      exact (Rulebook.agreesBut_enter e.book hc).agreesUnder rfl h
    · show AgreesUnder root e.book (e.load s).2.book
      rw [hbook]
      exact .refl root e.book
  | unload name => exact (Rulebook.agreesBut_drop e.book name).agreesUnder rfl h
  | register m => exact h.elim
  | report resource value => exact .refl root e.book
  | verify resource value =>
    show AgreesUnder root e.book (e.verify resource value).2.book
    rw [e.book_verify]
    exact .refl root e.book
  | reportOn s value =>
    show AgreesUnder root e.book (e.reportOn s value).2.book
    rw [e.book_reportOn]
    exact .refl root e.book

/-- Whatever is done under other roots, in whatever order. -/
theorem agreesUnder_foldl_operate (e : ComplianceEngine σ) {ops : List Operation}
    (hops : ∀ op ∈ ops, op.Spares root) :
    AgreesUnder root e.book (ops.foldl operate e).book := by
  induction ops generalizing e with
  | nil => exact .refl root e.book
  | cons op rest ih =>
    have hop := hops op List.mem_cons_self
    exact (hop.agreesUnder e).trans (ih _ fun op' hop' => hops op' (List.mem_cons_of_mem _ hop'))

/-- Engines that agree on what is filed under a root report the same on it. -/
theorem Impartial.report_congr {τ : Type} {e' : ComplianceEngine τ} (h : e.Impartial judge)
    (h' : e'.Impartial judge) (hagrees : AgreesUnder root e.book e'.book)
    (hconfined : e.book.Confined root) (value : Json) :
    (e.report root value).1 = (e'.report root value).1 := by
  rw [h.report_fst, h'.report_fst]
  exact hagrees.foretold_eq hconfined value

/-- A schema that is not entered is checked as if it were. -/
theorem Impartial.reportOn_fst (h : e.Impartial judge) {s : Schema}
    (hs : s.Confined e.book.builtins) (value : Json) :
    (e.reportOn s value).1 =
      (e.load s).1.map fun _ => ((e.load s).2.report s.name value).1 := by
  let scratch : ComplianceEngine σ := { e with book := e.book.nativeOnly }
  have hscratch : (scratch.load s).2.Impartial judge :=
    (h.of_handles_subset e.book.handles_nativeOnly_subset).load s
  have hloaded := h.load s
  have hfound := (Loading.finds_contents s).anonymous_eq e.sandbox
  have hreportOn : (e.reportOn s value).1 =
      (scratch.load s).1.map fun _ => ((scratch.load s).2.report s.name value).1 := by
    rw [ComplianceEngine.reportOn]
    rcases scratch.load s with ⟨_ | _, _⟩ <;> rfl
  rw [hreportOn]
  -- Both schemas are loaded in the same sandbox, so the same is found, or the same is wrong.
  rw [load_eq] at hscratch hloaded
  rw [load_eq, load_eq]
  rcases hload : Loading.outcome (Loading.contents s) e.sandbox with ⟨error | c, sandbox⟩
  · rfl
  · rw [hload] at hscratch hloaded hfound
    have hc := hfound c rfl
    have hagrees : AgreesUnder s.name (scratch.book.enter s.name c) (e.book.enter s.name c) :=
      (Rulebook.holds_enter scratch.book hc).agreesUnder (Rulebook.holds_enter e.book hc) rfl
    have hconfined : (scratch.book.enter s.name c).Confined s.name :=
      Rulebook.confined_enter hs hc
    exact congrArg Except.ok (hscratch.report_congr hloaded hagrees hconfined value)

/-- Schemas in an engine do not interfere. -/
structure Separate (judge : Judge) (e : ComplianceEngine σ) : Prop where
  /-- Engines that agree on what is filed under a root report the same on it, if no reference leads
  out of the root. -/
  report_eq : ∀ (τ : Type) (e' : ComplianceEngine τ) (root : String), e'.Impartial judge →
    AgreesUnder root e.book e'.book → e.book.Confined root →
      ∀ value, (e.report root value).1 = (e'.report root value).1
  /-- What is done under other roots has no influence on reports. -/
  run_eq : ∀ (root : String) (ops : List Operation), e.book.Confined root →
    (∀ op ∈ ops, op.Spares root) →
      ∀ value, ((ops.foldl operate e).report root value).1 = (e.report root value).1
  /-- A check against a schema that is not entered leaves the tables alone. -/
  reportOn_book : ∀ (s : Schema) (value : Json), (e.reportOn s value).2.book = e.book
  /-- Its report is that of a check after the schema has been entered. -/
  reportOn_eq : ∀ (s : Schema) (value : Json), s.Confined e.book.builtins →
    (e.reportOn s value).1 =
      (e.load s).1.map fun _ => ((e.load s).2.report s.name value).1

/-- Whatever is in an engine, its schemas do not interfere, if the results of scripts depend on
their sources, the value and the arguments only. -/
theorem separate (h : e.Impartial judge) : Separate judge e where
  report_eq _ _ _ h' hagrees hconfined value := h.report_congr h' hagrees hconfined value
  run_eq root ops hconfined hops value := by
    have h' := h.operateAll fun m hm => (hops _ hm).elim
    exact (h.report_congr h' (agreesUnder_foldl_operate e hops) hconfined value).symm
  reportOn_book s value := e.book_reportOn s value
  reportOn_eq s value hs := h.reportOn_fst hs value

/-- A schema whose references have no dot. -/
theorem confined_single (builtins : KeyMap Path Rule) : Catalogue.single.Confined builtins := by
  intro block hblock r hr
  obtain rfl := List.mem_singleton.1 hblock
  obtain rfl := List.mem_singleton.1 hr
  exact .bare (by decide)

theorem separate_single :
    let start : ComplianceEngine Scripts := { sandbox := Scripts.sandbox {} }
    let e := start.operate (.load Catalogue.single)
    let other : Schema := { Catalogue.single with name := "t" }
    let value : Json := .obj [("a", .int 2)]
    e.Impartial (Programs.verdict Script.language {}) ∧
      Separate (Programs.verdict Script.language {}) e ∧
      (e.report "s" value).1.size = 1 ∧
      ((e.operate (.load other)).report "s" value).1 = (e.report "s" value).1 ∧
      (e.reportOn Catalogue.single value).1 =
        (e.load Catalogue.single).1.map fun _ =>
          ((e.load Catalogue.single).2.report "s" value).1 := by
  intro start e other value
  have himpartial : e.Impartial (Programs.verdict Script.language {}) :=
    (impartial_default Script.language {}).load _
  have hseparate := separate himpartial
  have hconfined : e.book.Confined "s" := by
    show (start.load Catalogue.single).2.book.Confined "s"
    rcases start.load_spec Catalogue.single with ⟨c, hc, -, hbook⟩ | ⟨error, -, hbook⟩
    · rw [hbook]
      exact Rulebook.confined_enter (confined_single _) hc
    · rw [hbook]
      intro path refs _ hrefs
      simp [start, Builtin.modules, Rulebook.register] at hrefs
  refine ⟨himpartial, hseparate, by decide +kernel, ?_, ?_⟩
  · apply hseparate.run_eq "s" [.load other] hconfined
    intro op hop
    obtain rfl := List.mem_singleton.1 hop
    show "t" ≠ "s"
    decide
  · exact hseparate.reportOn_eq Catalogue.single value (confined_single _)

end ComplianceEngine

end LayeredAccess
