/-
  LayeredAccess.Proofs.Compliance.Verdicts

  Checks with scripts whose results depend on their sources, the value and the
  arguments only. What a check reports is then known before it begins: it depends
  on the rulebook and the value alone (`report_fst`), although every rule is run
  in the sandbox that the rules before it have left.

  The scripts that an engine has at hand are those of its rules. Whatever is done
  with an engine, it brings along the scripts of the rules that it enters, so the
  results of scripts are such in every engine that has come of the default one
  (`impartial_default`, `operateAll`).
-/
import LayeredAccess.Proofs.Compliance.Catalogue
import LayeredAccess.Proofs.Sandbox.Impartial

namespace LayeredAccess

open Sandbox (Judge Leads)

namespace Compliance

/-! ## Scripts at hand -/

/-- A module without scripts. -/
def RuleModule.IsNative (m : RuleModule) : Prop :=
  ∀ r ∈ m.rules, ∀ handle, r.executable ≠ .script handle

/-- The rules that are always there are no scripts. -/
theorem Builtin.isNative_of_mem {m : RuleModule} (h : m ∈ Builtin.modules) : m.IsNative := by
  have hmodule : ∀ name rules, (Builtin.module name rules).IsNative := by
    intro name rules r hr handle
    obtain ⟨_, -, rfl⟩ := List.mem_map.1 hr
    simp [Rule.native]
  simp only [Builtin.modules, List.mem_cons, List.not_mem_nil, or_false] at h
  rcases h with rfl | rfl | rfl
  · exact hmodule _ _
  · exact hmodule _ _
  · exact hmodule _ _

namespace Rulebook

/-- The scripts of the rules in a book. -/
def handles (b : Rulebook) : Set ScriptHandle :=
  {handle | ∃ path rule, (KeyMap.find? b.builtins path = some rule ∨
    KeyMap.find? b.rules path = some rule) ∧ rule.executable = .script handle}

/-- The scripts of the rules of a schema. -/
def Contents.handles (c : Contents) : Set ScriptHandle :=
  {handle | ∃ e ∈ c.rules, e.2.executable = .script handle}

variable {b b' : Rulebook}

theorem handles_subset (hbuiltins : b'.builtins = b.builtins)
    (hrules : ∀ path rule, KeyMap.find? b'.rules path = some rule →
      KeyMap.find? b.rules path = some rule) : b'.handles ⊆ b.handles := by
  rintro handle ⟨path, rule, hrule, hhandle⟩
  rw [hbuiltins] at hrule
  exact ⟨path, rule, hrule.imp_right (hrules path rule), hhandle⟩

theorem handles_nativeOnly_subset (b : Rulebook) : b.nativeOnly.handles ⊆ b.handles :=
  handles_subset rfl fun path rule h => by simp [nativeOnly] at h

theorem handles_drop_subset (b : Rulebook) (name : String) : (b.drop name).handles ⊆ b.handles := by
  refine handles_subset rfl fun path rule h => ?_
  rw [drop, find?_outside] at h
  split at h
  · simp at h
  · exact h

theorem handles_enter_subset (b : Rulebook) (name : String) (c : Contents) :
    (b.enter name c).handles ⊆ b.handles ∪ c.handles := by
  rintro handle ⟨path, rule, hrule | hrule, hhandle⟩
  · exact .inl ⟨path, rule, .inl hrule, hhandle⟩
  · rw [enter, find?_overwrite, Option.or_eq_some_iff] at hrule
    rcases hrule with hnew | ⟨-, hold⟩
    · exact .inr ⟨_, List.mem_reverse.1 (KeyMap.mem_of_find? hnew), hhandle⟩
    · split at hold
      · simp at hold
      · exact .inl ⟨path, rule, .inr hold, hhandle⟩

/-- Native rules bring no scripts along. -/
theorem handles_register_subset (b : Rulebook) {m : RuleModule} (hm : m.IsNative) :
    (b.register m).handles ⊆ b.handles := by
  rintro handle ⟨path, rule, hrule | hrule, hhandle⟩
  · have hentries : (b.register m).builtins =
        (m.rules.map fun r => ([m.name, r.name], r)).foldl
          (fun rs e => KeyMap.insert rs e.1 e.2) b.builtins := by
      rw [List.foldl_map]
      rfl
    rw [hentries, KeyMap.find?_foldl_insert, Option.or_eq_some_iff] at hrule
    rcases hrule with hnew | ⟨-, hold⟩
    · obtain ⟨r, hr, heq⟩ := List.mem_map.1 (List.mem_reverse.1 (KeyMap.mem_of_find? hnew))
      obtain rfl : r = rule := congrArg Prod.snd heq
      exact absurd hhandle (hm r hr handle)
    · exact ⟨path, rule, .inl hold, hhandle⟩
  · exact ⟨path, rule, .inr hrule, hhandle⟩

/-- A rule that a reference means is one of the book. -/
theorem mem_of_resolve {path home : Path} {r : RuleRef} {rule : Rule}
    (h : b.resolve path r = some (home, rule)) :
    ∃ key, KeyMap.find? b.builtins key = some rule ∨ KeyMap.find? b.rules key = some rule := by
  rw [resolve] at h
  split at h
  · obtain ⟨found, hfound, heq⟩ := Option.map_eq_some_iff.1 h
    obtain rfl : found = rule := congrArg Prod.snd heq
    rw [Option.orElse_eq_or, Option.or_eq_some_iff] at hfound
    exact ⟨_, hfound.imp_right And.right⟩
  · obtain ⟨home', -, hhome⟩ := Option.bind_eq_some_iff.1 h
    obtain ⟨found, hfound, heq⟩ := Option.bind_eq_some_iff.1 hhome
    obtain rfl : found = rule := congrArg Prod.snd (Option.some.inj heq)
    exact ⟨_, .inr hfound⟩

end Rulebook

namespace Loading

variable {σ : Type} {act act' : Loading σ Rulebook.Contents}

/-- Work that asks a sandbox only to compile, and has at hand all scripts that it finds. -/
def Gathers (act : Loading σ Rulebook.Contents) : Prop :=
  ∀ (s : Sandbox σ) (known : Set ScriptHandle), ∃ known', known ⊆ known' ∧
    Leads s known (outcome act s).2 known' ∧
      ∀ c, (outcome act s).1 = .ok c → c.handles ⊆ known'

theorem gathers_nothing : Gathers (pure {} : Loading σ Rulebook.Contents) := by
  intro s known
  refine ⟨known, subset_rfl, .refl, fun c hc => ?_⟩
  obtain rfl := Except.ok.inj hc
  rintro handle ⟨e, he, -⟩
  exact absurd he List.not_mem_nil

theorem gathers_refusal (e : EngineError) : Gathers (throw e : Loading σ Rulebook.Contents) :=
  fun _ known => ⟨known, subset_rfl, .refl, fun c hc => by simp at hc⟩

theorem Gathers.append (h : Gathers act) (h' : Gathers act') :
    Gathers (do return (← act) ++ (← act')) := by
  intro s known
  obtain ⟨first, hknown, hleads, hfirst⟩ := h s known
  simp only [outcome_bind, outcome_pure]
  -- A part that fails leaves the scripts that it has compiled, but finds nothing.
  rcases hact : outcome act s with ⟨e | c, s'⟩
  · rw [hact] at hleads
    exact ⟨first, hknown, hleads, fun c hc => by simp at hc⟩
  · rw [hact] at hleads hfirst
    obtain ⟨second, hknown', hleads', hsecond⟩ := h' s' first
    dsimp only
    rcases hact' : outcome act' s' with ⟨e | c', s''⟩
    · rw [hact'] at hleads'
      exact ⟨second, hknown.trans hknown', hleads.trans hleads', fun c hc => by simp at hc⟩
    · rw [hact'] at hleads' hsecond
      refine ⟨second, hknown.trans hknown', hleads.trans hleads', fun found hfound => ?_⟩
      obtain rfl := Except.ok.inj hfound
      rintro handle ⟨e, he, hhandle⟩
      rw [Rulebook.Contents.rules_append] at he
      rcases List.mem_append.1 he with he | he
      · exact hknown' (hfirst c rfl ⟨e, he, hhandle⟩)
      · exact hsecond c' rfl ⟨e, he, hhandle⟩

/-- The scripts of a block come to hand one after the other. -/
theorem compileAll_leads (schema : String) (path : Path) (ds : List RuleDefinition) (s : Sandbox σ)
    (known : Set ScriptHandle) : ∃ known', known ⊆ known' ∧
      Leads s known (outcome (compileAll schema path ds) s).2 known' ∧
      ∀ rules, (outcome (compileAll schema path ds) s).1 = .ok rules →
        ∀ e ∈ rules, ∀ handle, e.2.executable = .script handle → handle ∈ known' := by
  -- By induction on the definitions; every script that is compiled is known from then on.
  induction ds generalizing s known with
  | nil =>
    refine ⟨known, subset_rfl, .refl, fun rules h => ?_⟩
    obtain rfl := Except.ok.inj h
    intro e he
    exact absurd he List.not_mem_nil
  | cons d rest ih =>
    have hcompile : Leads s known (s.compile d.body).2
        (known ∪ {handle | (s.compile d.body).1 = .ok handle}) := .compile d.body .refl
    rw [outcome_compileAll_cons]
    rcases hd : s.compile d.body with ⟨e | handle, s'⟩
    · rw [hd] at hcompile
      exact ⟨_, Set.subset_union_left, hcompile, fun rules h => by simp at h⟩
    · rw [hd] at hcompile
      obtain ⟨known', hknown, hleads, hrest⟩ := ih s' _
      dsimp only
      rcases hfound : outcome (compileAll schema path rest) s' with ⟨e | others, s''⟩
      · rw [hfound] at hleads
        exact ⟨known', Set.subset_union_left.trans hknown, hcompile.trans hleads,
          fun rules h => by simp at h⟩
      · rw [hfound] at hleads hrest
        refine ⟨known', Set.subset_union_left.trans hknown, hcompile.trans hleads,
          fun rules h => ?_⟩
        obtain rfl := Except.ok.inj h
        intro e he handle' hhandle'
        rcases List.mem_cons.1 he with rfl | he
        · obtain rfl : handle = handle' := Executable.script.inj hhandle'
          exact hknown (.inr rfl)
        · exact hrest others rfl e he handle' hhandle'

theorem gathers_block (schema : String) (path : Path) (comply : Option Comply) :
    Gathers (block schema path comply : Loading σ Rulebook.Contents) := by
  cases comply with
  | none => exact gathers_nothing
  | some c =>
    intro s known
    obtain ⟨known', hknown, hleads, hrules⟩ := compileAll_leads schema path c.define s known
    rw [block, outcome_bind]
    rcases hfound : outcome (compileAll schema path c.define) s with ⟨e | rules, s'⟩
    · rw [hfound] at hleads
      exact ⟨known', hknown, hleads, fun c hc => by simp at hc⟩
    · rw [hfound] at hleads hrules
      refine ⟨known', hknown, hleads, fun found hc => ?_⟩
      obtain rfl := Except.ok.inj hc
      rintro handle ⟨e, he, hhandle⟩
      exact hrules rules rfl e he handle hhandle

mutual

theorem gathers_visit (schema : String) (path : Path) : (s : Schema) →
    Gathers (visit schema path s : Loading σ Rulebook.Contents)
  | { name, comply, children, .. } => by
    rw [visit]
    split
    · exact gathers_refusal _
    · exact (gathers_block schema path comply).append (gathers_visitAll schema path children)

theorem gathers_visitAll (schema : String) (path : Path) : (ss : List Schema) →
    Gathers (visitAll schema path ss : Loading σ Rulebook.Contents)
  | [] => by
    rw [visitAll]
    exact gathers_nothing
  | s :: rest => by
    rw [visitAll]
    exact (gathers_visit schema (path ++ [s.name]) s).append (gathers_visitAll schema path rest)

end

theorem gathers_contents (s : Schema) : Gathers (contents s : Loading σ Rulebook.Contents) :=
  gathers_visit s.name [s.name] s

end Loading

/-! ## Rules -/

section Rules

variable {σ : Type} {judge : Judge} {s : Sandbox σ} {known : Set ScriptHandle}

/-- What a rule says of a value, if it is clear what scripts say. -/
def Rule.verdict (judge : Judge) (r : Rule) (value : Json) (args : List Json) :
    Except String Bool :=
  match r.executable with
  | .native body => (body value args).mapError RuleFault.message
  | .script handle => (judge handle.source value args).mapError SandboxError.message

/-- The number of a script makes no difference. -/
theorem Rule.verdict_anonymous (judge : Judge) (r : Rule) :
    r.anonymous.verdict judge = r.verdict judge := by
  funext value args
  rw [verdict, verdict, anonymous]
  cases r.executable <;> rfl

theorem Rule.run_of_impartial {r : Rule} (h : s.Impartial judge known)
    (hknown : ∀ handle, r.executable = .script handle → handle ∈ known) (value : Json)
    (args : List Json) : ((r.run value args).run s).1 = r.verdict judge value args ∧
      Sandbox.Impartial judge ((r.run value args).run s).2 known := by
  rw [Rule.run, Rule.verdict]
  cases hr : r.executable with
  | native body => exact ⟨rfl, h⟩
  | script handle =>
    have hhandle := hknown handle hr
    dsimp only
    constructor
    · rw [← h.evaluate_fst hhandle value args]
      rfl
    · exact h.of_leads (.evaluate value args .refl hhandle)

/-! ## Checks -/

/-- Where every action has the result that is foretold for its item, so have all of them. -/
theorem resultsOf_eq_map {α β τ : Type} {P : τ → Prop} {f : α → StateM τ β} {g : α → β}
    (hf : ∀ a s, P s → ((f a).run s).1 = g a ∧ P ((f a).run s).2) (items : List α) {s : τ}
    (hs : P s) : resultsOf f s items = items.map g := by
  induction items generalizing s with
  | nil => rfl
  | cons a rest ih =>
    obtain ⟨hresult, hkept⟩ := hf a s hs
    rw [resultsOf, List.map_cons, hresult, ih hkept]

namespace Rulebook

/-- What is to become of a turn. -/
def foretold? (judge : Judge) (b : Rulebook) (t : Turn) : Option Violation :=
  let violation (home : Path) (reason : ViolationReason) : Violation :=
    ⟨t.path, home, t.reference.toString, t.value, reason⟩
  match b.resolve t.path t.reference with
  | none => some (violation [] .unresolved)
  | some (home, rule) =>
    match rule.verdict judge t.value t.reference.args with
    | .ok true => none
    | .ok false => some (violation home (.failed rule.failureText))
    | .error text => some (violation home (.errored text))

/-- The violations that are to be found at an entry. -/
def foretoldAt (judge : Judge) (b : Rulebook) (path : Path) (value : Json) : List Violation :=
  (b.turnsAt path value).filterMap (b.foretold? judge)

/-- What is to be reported of a leaf. -/
def foretoldLeaf (judge : Judge) (b : Rulebook) (leaf : Path × Json) : Option EntryViolations :=
  let violations := b.foretoldAt judge leaf.1 leaf.2
  if violations.isEmpty then none else some { path := leaf.1, violations }

/-- What is to be reported of a value. -/
def foretold (judge : Judge) (b : Rulebook) (resource : String) (value : Json) : Report where
  root := b.foretoldAt judge [resource] value
  entries := (leavesBelow resource value).filterMap (b.foretoldLeaf judge)

variable {b : Rulebook} (hb : b.handles ⊆ known)

include hb

theorem take_of_impartial (t : Turn) (h : s.Impartial judge known) :
    ((b.take t).run s).1 = b.foretold? judge t ∧
      Sandbox.Impartial judge ((b.take t).run s).2 known := by
  rw [take, check, foretold?]
  cases hresolve : b.resolve t.path t.reference with
  | none => exact ⟨rfl, h⟩
  | some found =>
    obtain ⟨home, rule⟩ := found
    obtain ⟨key, hrule⟩ := mem_of_resolve hresolve
    obtain ⟨hresult, hafter⟩ := Rule.run_of_impartial h
      (fun handle hhandle => hb ⟨key, rule, hrule, hhandle⟩) t.value t.reference.args
    dsimp only
    rw [StateT.run_bind, ← hresult]
    rcases hrun : (rule.run t.value t.reference.args).run s with ⟨_ | _ | _, s'⟩
    all_goals
      rw [hrun] at hafter
      exact ⟨rfl, hafter⟩

theorem entryViolations_of_impartial (path : Path) (value : Json) (h : s.Impartial judge known) :
    ((b.entryViolations path value).run s).1 = b.foretoldAt judge path value ∧
      Sandbox.Impartial judge ((b.entryViolations path value).run s).2 known := by
  have htake (t : Turn) (s : Sandbox σ) (hs : s.Impartial judge known) :=
    take_of_impartial hb t hs
  rw [run_entryViolations]
  constructor
  · dsimp only
    rw [resultsOf_eq_map htake _ h, List.filterMap_map]
    rfl
  · exact stateAfter_keeps (fun t s hs => (htake t s hs).2) _ h

theorem leafResult_of_impartial (leaf : Path × Json) (h : s.Impartial judge known) :
    ((b.leafResult leaf).run s).1 = b.foretoldLeaf judge leaf ∧
      Sandbox.Impartial judge ((b.leafResult leaf).run s).2 known := by
  obtain ⟨hresult, hafter⟩ := b.entryViolations_of_impartial hb leaf.1 leaf.2 h
  rw [foretoldLeaf, ← hresult]
  exact ⟨rfl, hafter⟩

/-- A report says what is foretold. -/
theorem report_of_impartial (resource : String) (value : Json) (h : s.Impartial judge known) :
    ((b.report resource value).run s).1 = b.foretold judge resource value ∧
      Sandbox.Impartial judge ((b.report resource value).run s).2 known := by
  have hleaf (leaf : Path × Json) (s : Sandbox σ) (hs : s.Impartial judge known) :=
    leafResult_of_impartial hb leaf hs
  obtain ⟨hroot, hafter⟩ := b.entryViolations_of_impartial hb [resource] value h
  rw [report_run_eq, foretold, ← hroot]
  -- The root comes first, then the leaves one after the other.
  constructor
  · dsimp only
    rw [resultsOf_eq_map hleaf _ hafter, List.filterMap_map]
    rfl
  · exact stateAfter_keeps (fun leaf s hs => (hleaf leaf s hs).2) _ hafter

end Rulebook

end Rules

end Compliance

open Compliance

/-! ## Engines -/

namespace ComplianceEngine

open Rulebook

variable {σ : Type} {judge : Judge} {e : ComplianceEngine σ}

/-- The results of the scripts in an engine depend on their sources, the value and the arguments
only, whatever is done with the engine. -/
def Impartial (judge : Judge) (e : ComplianceEngine σ) : Prop :=
  e.sandbox.Impartial judge e.book.handles

/-- What an engine reports of a value depends on its rulebook only. -/
theorem Impartial.report_fst (h : e.Impartial judge) (resource : String) (value : Json) :
    (e.report resource value).1 = e.book.foretold judge resource value :=
  (e.book.report_of_impartial subset_rfl resource value h).1

theorem Impartial.report (h : e.Impartial judge) (resource : String) (value : Json) :
    (e.report resource value).2.Impartial judge :=
  (e.book.report_of_impartial subset_rfl resource value h).2

/-- An engine with fewer rules. -/
theorem Impartial.of_handles_subset (h : e.Impartial judge) {book : Rulebook}
    (hbook : book.handles ⊆ e.book.handles) :
    ({ e with book } : ComplianceEngine σ).Impartial judge :=
  Sandbox.Impartial.mono h hbook

theorem Impartial.load (h : e.Impartial judge) (s : Schema) : (e.load s).2.Impartial judge := by
  obtain ⟨known, hknown, hleads, hfound⟩ := Loading.gathers_contents s e.sandbox e.book.handles
  rw [load_eq]
  rcases hload : Loading.outcome (Loading.contents s) e.sandbox with ⟨error | c, sandbox⟩
  · rw [hload] at hleads
    exact (Sandbox.Impartial.of_leads h hleads).mono hknown
  · rw [hload] at hleads hfound
    apply (Sandbox.Impartial.of_leads h hleads).mono
    exact (e.book.handles_enter_subset s.name c).trans
      (Set.union_subset hknown (hfound c rfl))

theorem Impartial.verify (h : e.Impartial judge) (resource : String) (value : Json) :
    (e.verify resource value).2.Impartial judge := by
  rw [ComplianceEngine.verify]
  split
  · exact h.report resource value
  · exact h

/-- The scripts of a schema that is not entered come to hand beside those of the engine. -/
theorem Impartial.reportOn (h : e.Impartial judge) (s : Schema) (value : Json) :
    (e.reportOn s value).2.Impartial judge := by
  obtain ⟨known, hknown, hleads, hfound⟩ := Loading.gathers_contents s e.sandbox e.book.handles
  have hbook := e.book_reportOn s value
  rw [Impartial, hbook, ComplianceEngine.reportOn, load_eq]
  rcases hload : Loading.outcome (Loading.contents s) e.sandbox with ⟨error | c, sandbox⟩
  · rw [hload] at hleads
    exact (Sandbox.Impartial.of_leads h hleads).mono hknown
  · rw [hload] at hleads hfound
    have hhandles : (e.book.nativeOnly.enter s.name c).handles ⊆ known :=
      (handles_enter_subset _ _ _).trans (Set.union_subset
        ((handles_nativeOnly_subset _).trans hknown) (hfound c rfl))
    have hafter := Sandbox.Impartial.of_leads h hleads
    exact (report_of_impartial hhandles s.name value hafter).2.mono hknown

/-- Whatever is done with an engine, if scripts are entered with schemas only. -/
theorem Impartial.operate (h : e.Impartial judge) {op : Operation}
    (hop : ∀ m, op = .register m → m.IsNative) : (e.operate op).Impartial judge := by
  cases op with
  | load s => exact h.load s
  | unload name => exact h.of_handles_subset (e.book.handles_drop_subset name)
  | register m => exact h.of_handles_subset (e.book.handles_register_subset (hop m rfl))
  | report resource value => exact h.report resource value
  | verify resource value => exact h.verify resource value
  | reportOn s value => exact h.reportOn s value

theorem Impartial.operateAll (h : e.Impartial judge) {ops : List Operation}
    (hops : ∀ m, .register m ∈ ops → m.IsNative) :
    (ops.foldl ComplianceEngine.operate e).Impartial judge := by
  induction ops generalizing e with
  | nil => exact h
  | cons op rest ih =>
    refine ih (h.operate ?_) fun m hm => hops m (List.mem_cons_of_mem _ hm)
    rintro m rfl
    exact hops m List.mem_cons_self

/-- An engine of scripts in which there is nothing yet. -/
theorem impartial_fresh (lang : Script.Language) (config : SandboxConfig) :
    (fresh {} (Programs.sandbox lang config)).Impartial (Programs.verdict lang config) := by
  apply (Programs.impartial_start lang config).mono
  rintro handle ⟨path, rule, hrule | hrule, -⟩
  · simp [fresh, nativeOnly] at hrule
  · simp [fresh, nativeOnly] at hrule

/-- An engine of scripts with the rules that are always there. -/
theorem impartial_default (lang : Script.Language) (config : SandboxConfig) :
    ({ sandbox := Programs.sandbox lang config } : ComplianceEngine (Programs lang)).Impartial
      (Programs.verdict lang config) := by
  show ((Builtin.modules.map Operation.register).foldl ComplianceEngine.operate
    (fresh {} (Programs.sandbox lang config))).Impartial (Programs.verdict lang config)
  apply (impartial_fresh lang config).operateAll
  intro m hm
  obtain ⟨m', hm', heq⟩ := List.mem_map.1 hm
  exact Operation.register.inj heq ▸ Builtin.isNative_of_mem hm'

end ComplianceEngine

end LayeredAccess
