/-
  LayeredAccess.Proofs.Compliance.Catalogue

  An engine with a catalogue of the schemas in it: the version of each that was
  loaded last, as long as it has not been unloaded. The engine keeps no schema,
  only what each says, in tables; and what it keeps is always what a new engine
  would keep into which just the catalogue is loaded, in whatever order.
-/
import LayeredAccess.Proofs.Compliance.Judging
import LayeredAccess.Proofs.Compliance.Tables

namespace LayeredAccess

open Compliance

/-- Can a schema be loaded, as far as that depends on the schema alone? -/
def Compliance.Schema.isLoadable (isScript : String → Bool) (s : Schema) : Bool :=
  s.isNamed && s.blocks.all fun b => b.2.define.all fun d => isScript d.body

namespace ComplianceEngine

variable {σ τ : Type}

/-! ## Single operations -/

theorem load_eq (e : ComplianceEngine σ) (s : Schema) :
    e.load s = match Loading.outcome (Loading.contents s) e.sandbox with
      | (.ok c, sandbox) => (.ok (), { e with book := e.book.enter s.name c, sandbox })
      | (.error error, sandbox) => (.error error, { e with sandbox }) := by
  rw [load, inSandbox, Loading.outcome]
  rcases (Loading.contents s).run.run e.sandbox with ⟨_ | c, sandbox⟩ <;> rfl

/-- A schema is entered as a whole, or not at all. -/
theorem load_spec (e : ComplianceEngine σ) (s : Schema) :
    (∃ c, c.anonymous = s.contents ∧ (e.load s).1 = .ok () ∧
      (e.load s).2.book = e.book.enter s.name c) ∨
    ∃ error, (e.load s).1 = .error error ∧ (e.load s).2.book = e.book := by
  have hfinds := (Loading.finds_contents s).anonymous_eq e.sandbox
  rw [load_eq]
  generalize Loading.outcome (Loading.contents s) e.sandbox = loaded at hfinds ⊢
  rcases loaded with ⟨error | c, sandbox⟩
  · exact .inr ⟨error, rfl, rfl⟩
  · exact .inl ⟨c, hfinds c rfl, rfl, rfl⟩

@[simp] theorem interpreter_load (e : ComplianceEngine σ) (s : Schema) :
    (e.load s).2.sandbox.interpreter = e.sandbox.interpreter := by
  rw [load_eq, ← (Loading.finds_contents s).interpreter_eq e.sandbox]
  rcases Loading.outcome (Loading.contents s) e.sandbox with ⟨error | c, sandbox⟩ <;> rfl

/-- If it is clear what a script is, it is clear which schemas can be loaded. -/
theorem isOk_load {isScript : String → Bool} {e : ComplianceEngine σ}
    (h : e.sandbox.interpreter.Decides isScript) (s : Schema) :
    (e.load s).1.isOk = s.isLoadable isScript := by
  rw [load_eq, Schema.isLoadable, ← (Loading.finds_contents s).isOk_eq e.sandbox isScript h]
  rcases Loading.outcome (Loading.contents s) e.sandbox with ⟨error | c, sandbox⟩ <;> rfl

theorem report_eq (e : ComplianceEngine σ) (resource : String) (value : Json) :
    e.report resource value = (((e.book.report resource value).run e.sandbox).1,
      { e with sandbox := ((e.book.report resource value).run e.sandbox).2 }) := rfl

@[simp] theorem interpreter_report (e : ComplianceEngine σ) (resource : String) (value : Json) :
    (e.report resource value).2.sandbox.interpreter = e.sandbox.interpreter :=
  e.book.interpreter_report resource value e.sandbox

/-- A check leaves the rulebook alone. -/
theorem book_verify (e : ComplianceEngine σ) (resource : String) (value : Json) :
    (e.verify resource value).2.book = e.book := by
  rw [verify]
  split <;> rfl

/-- So does a check against a schema that is not entered. -/
theorem book_reportOn (e : ComplianceEngine σ) (s : Schema) (value : Json) :
    (e.reportOn s value).2.book = e.book := by
  simp only [reportOn]
  split <;> rfl

/-! ## Runs -/

/-- Something that is done with an engine. -/
inductive Operation where
  | load (s : Schema)
  | unload (name : String)
  | register (m : RuleModule)
  | report (resource : String) (value : Json)
  | verify (resource : String) (value : Json)
  | reportOn (s : Schema) (value : Json)

def operate (e : ComplianceEngine σ) : Operation → ComplianceEngine σ
  | .load s => (e.load s).2
  | .unload name => (e.unload name).2
  | .register m => e.register m
  | .report resource value => (e.report resource value).2
  | .verify resource value => (e.verify resource value).2
  | .reportOn s value => (e.reportOn s value).2

/-- An engine in which no schema has been loaded. -/
def fresh (native : Rulebook) (sandbox : Sandbox σ) : ComplianceEngine σ :=
  { book := native.nativeOnly, sandbox }

/-- Loads schemas one after the other, up to the first that can not be loaded. -/
def loadAll (e : ComplianceEngine σ) : List Schema → Except EngineError Unit × ComplianceEngine σ
  | [] => (.ok (), e)
  | s :: rest =>
    match e.load s with
    | (.ok (), e) => e.loadAll rest
    | (.error error, e) => (.error error, e)

/-- Schemas that can be loaded are loaded one after the other. -/
theorem loadAll_eq_ok {isScript : String → Bool} {e : ComplianceEngine σ}
    (h : e.sandbox.interpreter.Decides isScript) {order : List Schema}
    (hall : ∀ s ∈ order, s.isLoadable isScript) : (e.loadAll order).1 = .ok () := by
  induction order generalizing e with
  | nil => rfl
  | cons s rest ih =>
    have hok := (isOk_load h s).trans (hall s List.mem_cons_self)
    have hinterpreter := e.interpreter_load s
    rw [loadAll]
    rcases hload : e.load s with ⟨error | _, e'⟩
    · simp [hload, Except.isOk, Except.toBool] at hok
    · rw [hload] at hinterpreter
      rw [← hinterpreter] at h
      exact ih h fun s' hs' => hall s' (List.mem_cons_of_mem _ hs')

theorem interpreter_operate (e : ComplianceEngine σ) (op : Operation) :
    (e.operate op).sandbox.interpreter = e.sandbox.interpreter := by
  cases op with
  | load s => exact e.interpreter_load s
  | unload | register => rfl
  | report resource value => exact e.interpreter_report resource value
  | verify resource value =>
    show (e.verify resource value).2.sandbox.interpreter = _
    unfold verify
    split
    · exact e.interpreter_report resource value
    · rfl
  | reportOn s value =>
    have hload := interpreter_load { e with book := e.book.nativeOnly } s
    simp only [operate, reportOn]
    split
    · exact (interpreter_report _ _ _).trans hload
    · exact hload

end ComplianceEngine

/-- An engine, with the last good version of each schema in it. -/
structure Catalogue (σ : Type) where
  engine : ComplianceEngine σ
  versions : KeyMap String Schema := []

namespace Catalogue

open ComplianceEngine (Operation)

variable {σ τ : Type}

def step (c : Catalogue σ) (op : Operation) : Catalogue σ where
  engine := c.engine.operate op
  versions := match op with
    | .load s =>
      if (c.engine.load s).1.isOk then KeyMap.insert c.versions s.name s else c.versions
    | .unload name => KeyMap.erase c.versions name
    | _ => c.versions

def run (c : Catalogue σ) (ops : List Operation) : Catalogue σ := ops.foldl step c

/-- The catalogue of an engine in which no schema has been loaded. -/
def start (native : Rulebook) (sandbox : Sandbox σ) : Catalogue σ where
  engine := .fresh native sandbox

/-- The tables of the engine say what the schemas of the catalogue say. -/
structure Invariant (c : Catalogue σ) : Prop where
  mirrors : c.engine.book.Mirrors c.versions
  sorted : KeyMap.Sorted c.versions
  name_eq : ∀ name s, KeyMap.find? c.versions name = some s → s.name = name
  loadable : ∀ isScript, c.engine.sandbox.interpreter.Decides isScript →
    ∀ name s, KeyMap.find? c.versions name = some s → s.isLoadable isScript

variable {c : Catalogue σ}

theorem invariant_start (native : Rulebook) (sandbox : Sandbox σ) :
    Invariant (start native sandbox) :=
  ⟨Rulebook.mirrors_nativeOnly native, .nil, fun _ _ h => by simp [start] at h,
    fun _ _ _ _ h => by simp [start] at h⟩

/-- What leaves tables, versions and interpreter alone. -/
theorem Invariant.of_same {engine : ComplianceEngine σ} (h : Invariant c)
    (hreferences : engine.book.references = c.engine.book.references)
    (hrules : engine.book.rules = c.engine.book.rules)
    (hschemas : engine.book.schemas = c.engine.book.schemas)
    (hinterpreter : engine.sandbox.interpreter = c.engine.sandbox.interpreter) :
    Invariant { c with engine } :=
  ⟨h.mirrors.of_same hreferences hrules hschemas, h.sorted, h.name_eq,
    fun isScript hscript => h.loadable isScript (hinterpreter ▸ hscript)⟩

theorem step_load {s : Schema} (h : (c.engine.load s).1 = .ok ()) : c.step (.load s) =
    { engine := (c.engine.load s).2, versions := KeyMap.insert c.versions s.name s } := by
  simp only [step, h]
  rfl

theorem Invariant.load (h : Invariant c) (s : Schema) : Invariant (c.step (.load s)) := by
  have hinterpreter := c.engine.interpreter_load s
  -- If the schema is taken over it is filed under its name; if not, the rulebook is as before.
  rcases c.engine.load_spec s with ⟨found, hfound, hok, hbook⟩ | ⟨error, herror, hbook⟩
  · rw [step_load hok]
    refine ⟨?_, KeyMap.sorted_insert _ _ h.sorted, fun name s' hs' => ?_,
      fun isScript hscript name s' hs' => ?_⟩
    · rw [hbook]
      exact h.mirrors.enter hfound
    · rw [KeyMap.find?_insert] at hs'
      split at hs'
      · next hname => exact Option.some.inj hs' ▸ hname
      · exact h.name_eq name s' hs'
    · rw [hinterpreter] at hscript
      rw [KeyMap.find?_insert] at hs'
      split at hs'
      · rw [← Option.some.inj hs', ← ComplianceEngine.isOk_load hscript, hok]
        rfl
      · exact h.loadable isScript hscript name s' hs'
  · have hstep : c.step (.load s) = { c with engine := (c.engine.load s).2 } := by
      simp only [step, herror]
      rfl
    rw [hstep]
    exact h.of_same (by rw [hbook]) (by rw [hbook]) (by rw [hbook]) hinterpreter

theorem Invariant.unload (h : Invariant c) (name : String) :
    Invariant (c.step (.unload name)) := by
  have hold : ∀ other s, KeyMap.find? (c.step (.unload name)).versions other = some s →
      KeyMap.find? c.versions other = some s := by
    intro other s hs
    change KeyMap.find? (KeyMap.erase c.versions name) other = some s at hs
    rw [KeyMap.find?_erase] at hs
    split at hs
    · simp at hs
    · exact hs
  exact ⟨h.mirrors.drop name, KeyMap.sorted_erase name h.sorted,
    fun other s hs => h.name_eq other s (hold other s hs),
    fun isScript hscript other s hs => h.loadable isScript hscript other s (hold other s hs)⟩

theorem Invariant.step (h : Invariant c) (op : Operation) : Invariant (c.step op) := by
  have hinterpreter := c.engine.interpreter_operate op
  cases op with
  | load s => exact h.load s
  | unload name => exact h.unload name
  | register | report => exact h.of_same rfl rfl rfl hinterpreter
  | verify resource value =>
    have hbook := c.engine.book_verify resource value
    exact h.of_same (congrArg _ hbook) (congrArg _ hbook) (congrArg _ hbook) hinterpreter
  | reportOn s value =>
    have hbook := c.engine.book_reportOn s value
    exact h.of_same (congrArg _ hbook) (congrArg _ hbook) (congrArg _ hbook) hinterpreter

theorem Invariant.run (h : Invariant c) (ops : List Operation) : Invariant (c.run ops) := by
  induction ops generalizing c with
  | nil => exact h
  | cons op rest ih => exact ih (h.step op)

/-! ## Loading a catalogue anew -/

/-- What comes of loading several schemas, if all can be loaded. -/
theorem Invariant.loadAll (h : Invariant c) {order : List Schema} {engine : ComplianceEngine σ}
    (hload : c.engine.loadAll order = (.ok (), engine)) :
    Invariant ⟨engine, (order.map fun s => (s.name, s)).foldl
      (fun versions e => KeyMap.insert versions e.1 e.2) c.versions⟩ := by
  induction order generalizing c with
  | nil =>
    obtain rfl : c.engine = engine := congrArg Prod.snd hload
    exact h
  | cons s rest ih =>
    rw [ComplianceEngine.loadAll] at hload
    have hstep := h.load s
    rcases hfirst : c.engine.load s with ⟨error | _, engine'⟩
    · simp [hfirst] at hload
    · rw [step_load (by rw [hfirst]), hfirst] at hstep
      rw [hfirst] at hload
      exact ih hstep hload

/-- The schemas of a catalogue, in whatever order, under their names. -/
theorem Invariant.find?_order (h : Invariant c) {order : List Schema}
    (horder : order.Perm (KeyMap.values c.versions)) (name : String) :
    KeyMap.find? ((order.map fun s => (s.name, s)).foldl
        (fun versions e => KeyMap.insert versions e.1 e.2) []) name =
      KeyMap.find? c.versions name := by
  have hversions : (KeyMap.values c.versions).map (fun s => (s.name, s)) = c.versions := by
    have hsame : ∀ e ∈ c.versions, (e.2.name, e.2) = e := fun e he =>
      Prod.ext (h.name_eq e.1 e.2 (KeyMap.find?_of_mem h.sorted he)) rfl
    rw [KeyMap.values, List.map_map]
    exact (List.map_congr_left hsame).trans (List.map_id' _)
  -- No name comes twice, so the order in which the schemas are entered does not matter.
  have hperm : List.Perm (order.map fun s => (s.name, s)).reverse c.versions :=
    (List.reverse_perm _).trans ((horder.map _).trans (.of_eq hversions))
  rw [KeyMap.find?_foldl_insert, KeyMap.find?_nil, Option.or_none]
  exact KeyMap.find?_perm hperm (KeyMap.nodup_keys h.sorted) name

/-- An engine holds what the schemas of its catalogue say, and nothing else. -/
structure Current (c : Catalogue σ) : Prop where
  /-- The catalogue, loaded into a new engine in whatever order, gives the same tables. -/
  agrees : ∀ {τ : Type} (native : Rulebook) (sandbox : Sandbox τ) (order : List Schema),
    order.Perm (KeyMap.values c.versions) → ∀ engine,
      (ComplianceEngine.fresh native sandbox).loadAll order = (.ok (), engine) →
        engine.book.Agrees c.engine.book
  /-- All of it can be loaded, if it is clear what a script is. -/
  loads : ∀ isScript, c.engine.sandbox.interpreter.Decides isScript →
    ∀ {τ : Type} (native : Rulebook) (sandbox : Sandbox τ), sandbox.interpreter.Decides isScript →
      ∀ order : List Schema, order.Perm (KeyMap.values c.versions) →
        ((ComplianceEngine.fresh native sandbox).loadAll order).1 = .ok ()
  /-- A schema that can not be loaded changes nothing. -/
  refused : ∀ s error, (c.engine.load s).1 = .error error →
    (c.engine.load s).2.book = c.engine.book
  /-- A schema that is loaded takes the place of all that was there under its name. -/
  loaded : ∀ s, (c.engine.load s).1 = .ok () →
    (c.engine.load s).2.book.Holds s.name (some s) ∧
      Rulebook.AgreesBut s.name c.engine.book (c.engine.load s).2.book
  /-- Nothing is left of a schema that is unloaded. -/
  unloaded : ∀ name, (c.engine.unload name).2.book.Holds name none ∧
    Rulebook.AgreesBut name c.engine.book (c.engine.unload name).2.book

theorem Invariant.current (h : Invariant c) : Current c := by
  refine ⟨fun native sandbox order horder engine hload => ?_,
    fun isScript hscript _ native sandbox hscript' order horder => ?_, fun s error herror => ?_,
    fun s hok => ?_, fun name => ⟨Rulebook.holds_drop _ name, Rulebook.agreesBut_drop _ name⟩⟩
  · have hfresh := ((invariant_start native sandbox).loadAll hload).mirrors
    exact hfresh.agrees h.mirrors (h.find?_order horder)
  · refine ComplianceEngine.loadAll_eq_ok hscript' fun s hs => ?_
    obtain ⟨e, he, rfl⟩ := List.mem_map.1 (horder.subset hs)
    exact h.loadable isScript hscript e.1 e.2 (KeyMap.find?_of_mem h.sorted he)
  · rcases c.engine.load_spec s with ⟨found, hfound, hok, hbook⟩ | ⟨error', -, hbook⟩
    · simp [hok] at herror
    · exact hbook
  · rcases c.engine.load_spec s with ⟨found, hfound, -, hbook⟩ | ⟨error, herror, -⟩
    · rw [hbook]
      exact ⟨Rulebook.holds_enter _ hfound, Rulebook.agreesBut_enter _ hfound⟩
    · simp [hok] at herror

/-- Whatever has been done with an engine, it holds what the last good versions say of the schemas
that have been loaded and not been unloaded, and nothing else. The numbers of scripts and workers do
not wrap: this is about fewer than `2 ^ 64` of them. -/
theorem current_run (native : Rulebook) (sandbox : Sandbox σ) (ops : List Operation) :
    Current ((start native sandbox).run ops) :=
  ((invariant_start native sandbox).run ops).current

theorem interpreter_run (c : Catalogue σ) (ops : List Operation) :
    (c.run ops).engine.sandbox.interpreter = c.engine.sandbox.interpreter := by
  induction ops generalizing c with
  | nil => rfl
  | cons op rest ih => exact (ih (c.step op)).trans (c.engine.interpreter_operate op)

/-- Scripts can always be loaded anew, whatever they are written in. -/
theorem exists_loadAll_programs (lang : Script.Language) (native native' : Rulebook)
    (config config' : SandboxConfig) (ops : List Operation) {order : List Schema}
    (horder : order.Perm
      (KeyMap.values ((start native (Programs.sandbox lang config)).run ops).versions)) :
    ∃ engine, (ComplianceEngine.fresh native' (Programs.sandbox lang config')).loadAll order =
        (.ok (), engine) ∧
      engine.book.Agrees ((start native (Programs.sandbox lang config)).run ops).engine.book := by
  have hcurrent := ((invariant_start native (Programs.sandbox lang config)).run ops).current
  have hload := hcurrent.loads lang.isScript
    ((interpreter_run _ ops).symm ▸ Programs.decides lang) native' (Programs.sandbox lang config')
    (Programs.decides lang) order horder
  refine ⟨_, Prod.ext hload rfl, ?_⟩
  exact hcurrent.agrees native' (Programs.sandbox lang config') order horder _ (Prod.ext hload rfl)

end Catalogue

end LayeredAccess
