/-
  LayeredAccess.Proofs.Sandbox.Impartial

  Sandboxes in which the result of a script depends on nothing but its source,
  the value and the arguments: not on the number of the script, on what has been
  compiled or run before, or on the worker that is asked.

  This is a property of all that a sandbox can come to (`Leads`). Sandboxes of
  scripts have it: a number stands for one source, and what a worker has kept
  under it is what the source gives (`Programs.Sound`).
-/
import LayeredAccess.Proofs.Sandbox
import Mathlib.Data.Set.Basic

namespace LayeredAccess

namespace Sandbox

variable {σ : Type} {s s' s'' : Sandbox σ} {known known' known'' more : Set ScriptHandle}
  {handle : ScriptHandle}

/-! ## Whatever is asked -/

/-- What a sandbox can come to, with the scripts that are then at hand: scripts at hand are run, and
sources are compiled, whose scripts are at hand from then on. -/
inductive Leads (s : Sandbox σ) (known : Set ScriptHandle) :
    Sandbox σ → Set ScriptHandle → Prop where
  | refl : Leads s known s known
  | evaluate {s' : Sandbox σ} {known' : Set ScriptHandle} {handle : ScriptHandle} (value : Json)
    (args : List Json) : Leads s known s' known' → handle ∈ known' →
      Leads s known (s'.evaluate handle value args).2 known'
  | compile {s' : Sandbox σ} {known' : Set ScriptHandle} (source : String) :
    Leads s known s' known' →
      Leads s known (s'.compile source).2
        (known' ∪ {handle | (s'.compile source).1 = .ok handle})

theorem Leads.trans (h : Leads s known s' known') (h' : Leads s' known' s'' known'') :
    Leads s known s'' known'' := by
  induction h' with
  | refl => exact h
  | evaluate value args _ hhandle ih => exact .evaluate value args ih hhandle
  | compile source _ ih => exact .compile source ih

/-- With more scripts at hand a sandbox can come to the same. -/
theorem Leads.mono (h : Leads s known s' known') (hmore : known ⊆ more) :
    ∃ more', known' ⊆ more' ∧ Leads s more s' more' := by
  induction h with
  | refl => exact ⟨more, hmore, .refl⟩
  | evaluate value args _ hhandle ih =>
    obtain ⟨more', hsubset, hleads⟩ := ih
    exact ⟨more', hsubset, .evaluate value args hleads (hsubset hhandle)⟩
  | compile source _ ih =>
    obtain ⟨more', hsubset, hleads⟩ := ih
    exact ⟨_, Set.union_subset_union_left _ hsubset, .compile source hleads⟩

/-- The results of scripts, by their sources. -/
abbrev Judge := String → Json → List Json → Except SandboxError Bool

/-- Whatever is asked of a sandbox, the results of scripts depend on their sources, the value and
the arguments only. -/
def Impartial (judge : Judge) (s : Sandbox σ) (known : Set ScriptHandle) : Prop :=
  ∀ s' known', Leads s known s' known' → ∀ handle ∈ known', ∀ value args,
    (s'.evaluate handle value args).1 = judge handle.source value args

variable {judge : Judge}

theorem Impartial.evaluate_fst (h : Impartial judge s known) (hhandle : handle ∈ known)
    (value : Json) (args : List Json) :
    (s.evaluate handle value args).1 = judge handle.source value args :=
  h s known .refl handle hhandle value args

theorem Impartial.of_leads (h : Impartial judge s known) (hleads : Leads s known s' known') :
    Impartial judge s' known' := by
  intro s'' known'' hleads'
  exact h s'' known'' (hleads.trans hleads')

theorem Impartial.mono (h : Impartial judge s more) (hmore : known ⊆ more) :
    Impartial judge s known := by
  intro s' known' hleads handle hhandle value args
  obtain ⟨more', hsubset, hleads'⟩ := hleads.mono hmore
  exact h s' more' hleads' handle (hsubset hhandle) value args

/-! ## Requests -/

/-- What the caller is told of a reply. -/
def told {α : Type} (budget : Nat) : Reply α → Except SandboxError α
  | .answer result => result
  | .late => .error (.timeout budget)
  | .stopped => .error .workerGone

/-- Whoever is to be asked, has the state of the worker at work or that of a new one. -/
theorem acquire_eq (s : Sandbox σ) : ∃ worker nextWorker state,
    (state = s.state ∨ state = s.interpreter.start s.state) ∧
      s.acquire.2 = { s with worker, nextWorker, state } := by
  unfold acquire
  split
  · exact ⟨s.worker, s.nextWorker, s.state, .inl rfl, rfl⟩
  · exact ⟨_, _, _, .inr rfl, rfl⟩

theorem abandon_eq (s : Sandbox σ) (serial : Nat) :
    ∃ worker, s.abandon serial = { s with worker } := by
  unfold abandon
  split
  · exact ⟨none, rfl⟩
  · exact ⟨s.worker, rfl⟩

/-- A worker is asked, and apart from workers a sandbox keeps only the state that it leaves. -/
theorem request_eq {α : Type} (s : Sandbox σ) (budget : Nat) (job : σ → Reply α × σ) :
    ∃ worker nextWorker state, (state = s.state ∨ state = s.interpreter.start s.state) ∧
      s.request budget job =
        (told budget (job state).1, { s with worker, nextWorker, state := (job state).2 }) := by
  obtain ⟨worker, nextWorker, state, hstate, hacquire⟩ := s.acquire_eq
  simp only [request, hacquire]
  rcases hjob : (job state).1 with result | _ | _
  · exact ⟨worker, nextWorker, state, hstate, by simp only [hjob, told]⟩
  -- The worker is given up.
  all_goals
    obtain ⟨worker', habandon⟩ := abandon_eq
      { s with worker, nextWorker, state := (job state).2 } s.acquire.1
    exact ⟨worker', nextWorker, state, hstate, by simp only [hjob, told, habandon]⟩

/-- A script is compiled under the next number. -/
theorem compile_eq (s : Sandbox σ) (source : String) :
    let new : ScriptHandle := ⟨s.nextScript, source⟩
    ∃ worker nextWorker state, (state = s.state ∨ state = s.interpreter.start s.state) ∧
      s.compile source =
        ((told s.config.compileBudget (s.interpreter.compile new state).1).map fun _ => new,
          { s with
            nextScript := s.nextScript + 1, worker, nextWorker
            state := (s.interpreter.compile new state).2 }) := by
  intro new
  obtain ⟨worker, nextWorker, state, hstate, hrequest⟩ :=
    { s with nextScript := s.nextScript + 1 }.request_eq s.config.compileBudget
      (s.interpreter.compile new)
  refine ⟨worker, nextWorker, state, hstate, ?_⟩
  show (fun r : Except SandboxError Unit × Sandbox σ => (r.1.map fun _ => new, r.2))
    ({ s with nextScript := s.nextScript + 1 }.request s.config.compileBudget
      (s.interpreter.compile new)) = _
  rw [hrequest]

end Sandbox

/-! ## Sandboxes of scripts -/

namespace Programs

open Sandbox (Leads)

variable {lang : Script.Language} {config : SandboxConfig} {s s' : Sandbox (Programs lang)}
  {known known' : Set ScriptHandle} {handle : ScriptHandle}

/-- What a worker says of a script that it has never seen. -/
def verdict (lang : Script.Language) (config : SandboxConfig) : Sandbox.Judge :=
  fun source value args =>
    Sandbox.told config.evalBudget (fresh lang ⟨0, source⟩ value args)

/-- What has been kept under the numbers of scripts is what their sources give. -/
def Kept (known : Set ScriptHandle) (state : Programs lang) : Prop :=
  ∀ handle ∈ known, ∀ e, KeyMap.find? state handle.id = some e →
    read lang handle.source = .answer (.ok e)

/-- Numbers stand for one source each, and workers have kept what the sources give. -/
structure Sound (config : SandboxConfig) (s : Sandbox (Programs lang)) (known : Set ScriptHandle) :
    Prop where
  interpreter_eq : s.interpreter = interpreter lang
  config_eq : s.config = config
  id_lt : ∀ handle ∈ known, handle.id < s.nextScript
  source_eq : ∀ handle ∈ known, ∀ handle' ∈ known, handle.id = handle'.id →
    handle.source = handle'.source
  kept : Kept known s.state

theorem sound_start (config : SandboxConfig) : Sound config (sandbox lang config) ∅ :=
  ⟨rfl, rfl, fun _ h => h.elim, fun _ h => h.elim, fun _ h => h.elim⟩

variable {state : Programs lang}

/-- A new worker has kept nothing. -/
theorem Sound.kept_of_start (h : Sound config s known)
    (hstate : state = s.state ∨ state = s.interpreter.start s.state) : Kept known state := by
  rcases hstate with rfl | rfl
  · exact h.kept
  · intro handle _ e he
    rw [h.interpreter_eq] at he
    simp [interpreter] at he

/-- Other workers, who have not kept anything wrong. -/
theorem Sound.work (h : Sound config s known) (hkept : Kept known state) {next : Nat}
    (hnext : s.nextScript ≤ next) (worker : Option Nat) (nextWorker : Nat) :
    Sound config { s with worker, nextWorker, nextScript := next, state } known where
  interpreter_eq := h.interpreter_eq
  config_eq := h.config_eq
  id_lt handle hhandle := Nat.lt_of_lt_of_le (h.id_lt handle hhandle) hnext
  source_eq := h.source_eq
  kept := hkept

/-- A script that is kept under the next number is at hand from then on. -/
theorem Sound.keep (h : Sound config s known) (hkept : Kept known state) {source : String}
    {e : lang.Program} (hread : read lang source = .answer (.ok e)) (worker : Option Nat)
    (nextWorker : Nat) :
    Sound config
      { s with
        worker, nextWorker, nextScript := s.nextScript + 1
        state := KeyMap.insert state s.nextScript e }
      (known ∪ {⟨s.nextScript, source⟩}) where
  interpreter_eq := h.interpreter_eq
  config_eq := h.config_eq
  id_lt := by
    rintro handle (hhandle | rfl)
    · exact Nat.lt_succ_of_lt (h.id_lt handle hhandle)
    · exact Nat.lt_succ_self _
  source_eq := by
    rintro handle (hhandle | rfl) handle' (hhandle' | rfl) hid
    · exact h.source_eq handle hhandle handle' hhandle' hid
    · exact absurd hid (Nat.ne_of_lt (h.id_lt handle hhandle))
    · exact absurd hid.symm (Nat.ne_of_lt (h.id_lt handle' hhandle'))
    · rfl
  kept := by
    -- The new script is kept under its own number, and leaves those of the others alone.
    rintro handle (hhandle | rfl) e' he'
    · rw [KeyMap.find?_insert, if_neg (Nat.ne_of_gt (h.id_lt handle hhandle))] at he'
      exact hkept handle hhandle e' he'
    · rw [KeyMap.find?_insert, if_pos rfl] at he'
      rw [hread, Option.some.inj he']

/-- What a worker has kept is what it would find anew. -/
theorem evaluate_fst (h : Kept known state) (hhandle : handle ∈ known) (value : Json)
    (args : List Json) :
    (evaluate handle value args state).1 = fresh lang ⟨0, handle.source⟩ value args := by
  simp only [fresh, evaluate, KeyMap.find?_nil]
  cases hfind : KeyMap.find? state handle.id with
  | none => rcases read lang handle.source with (_ | _) | _ | _ <;> rfl
  | some e => rw [h handle hhandle e hfind]

/-- A run keeps at most the script that it has read. -/
theorem evaluate_snd (handle : ScriptHandle) (value : Json) (args : List Json)
    (state : Programs lang) :
    (evaluate handle value args state).2 = state ∨ ∃ e,
      read lang handle.source = .answer (.ok e) ∧
        (evaluate handle value args state).2 = KeyMap.insert state handle.id e := by
  simp only [evaluate]
  cases KeyMap.find? state handle.id with
  | some e => exact .inl rfl
  | none =>
    rcases hread : read lang handle.source with (_ | e) | _ | _
    · exact .inl rfl
    · exact .inr ⟨e, rfl, rfl⟩
    · exact .inl rfl
    · exact .inl rfl

/-- A compilation keeps the script that it has read, or fails. -/
theorem compile_cases (handle : ScriptHandle) (state : Programs lang) :
    (∃ e, read lang handle.source = .answer (.ok e) ∧
      compile handle state = (.answer (.ok ()), KeyMap.insert state handle.id e)) ∨
    (∀ budget, Sandbox.told budget (compile handle state).1 ≠ .ok ()) ∧
      (compile handle state).2 = state := by
  simp only [compile]
  rcases hread : read lang handle.source with (_ | e) | _ | _
  · exact .inr ⟨fun budget => by simp [Sandbox.told], rfl⟩
  · exact .inl ⟨e, rfl, rfl⟩
  · exact .inr ⟨fun budget => by simp [Sandbox.told], rfl⟩
  · exact .inr ⟨fun budget => by simp [Sandbox.told], rfl⟩

theorem Sound.evaluate (h : Sound config s known) (hhandle : handle ∈ known) (value : Json)
    (args : List Json) :
    (s.evaluate handle value args).1 = verdict lang config handle.source value args ∧
      Sound config (s.evaluate handle value args).2 known := by
  obtain ⟨worker, nextWorker, state, hstate, hrequest⟩ :=
    s.request_eq s.config.evalBudget (Programs.evaluate handle value args)
  have hkept := h.kept_of_start hstate
  have hevaluate : s.evaluate handle value args =
      s.request s.config.evalBudget (Programs.evaluate handle value args) := by
    rw [Sandbox.evaluate, h.interpreter_eq]
    rfl
  rw [hevaluate, hrequest]
  constructor
  · show Sandbox.told s.config.evalBudget (Programs.evaluate handle value args state).1 = _
    rw [evaluate_fst hkept hhandle, h.config_eq]
    rfl
  · refine h.work ?_ (Nat.le_refl _) worker nextWorker
    -- Evaluating keeps at most what the source gives.
    rcases evaluate_snd handle value args state with hsame | ⟨e, hread, hinsert⟩
    · rw [hsame]
      exact hkept
    · intro handle' hhandle' e' he'
      rw [hinsert, KeyMap.find?_insert] at he'
      split at he'
      · next hid =>
        rw [← h.source_eq handle hhandle handle' hhandle' hid, hread, Option.some.inj he']
      · exact hkept handle' hhandle' e' he'

/-- A script that has been compiled has a number of its own, and what has been kept under it is what
its source gives. -/
theorem Sound.compile (h : Sound config s known) (source : String) :
    Sound config (s.compile source).2
      (known ∪ {handle | (s.compile source).1 = .ok handle}) := by
  obtain ⟨worker, nextWorker, state, hstate, hcompile⟩ := s.compile_eq source
  have hkept := h.kept_of_start hstate
  have hjob : s.interpreter.compile = Programs.compile := by
    rw [h.interpreter_eq]
    rfl
  rw [hjob] at hcompile
  -- The handle is new if the script is accepted; otherwise there is none.
  rcases compile_cases ⟨s.nextScript, source⟩ state with ⟨e, hread, haccepted⟩ | ⟨hrefused, hsame⟩
  · have hnew : {handle | (s.compile source).1 = .ok handle} = {⟨s.nextScript, source⟩} := by
      ext handle
      rw [hcompile, haccepted]
      exact ⟨fun h => (Except.ok.inj h).symm, fun h => congrArg _ h.symm⟩
    rw [hnew, hcompile, haccepted]
    exact h.keep hkept hread worker nextWorker
  · have hnone : {handle | (s.compile source).1 = .ok handle} = ∅ := by
      apply Set.eq_empty_of_forall_notMem
      intro handle hhandle
      change (s.compile source).1 = .ok handle at hhandle
      rw [hcompile] at hhandle
      cases htold : Sandbox.told s.config.compileBudget
        (Programs.compile ⟨s.nextScript, source⟩ state).1 with
      | error error => simp [htold, Except.map] at hhandle
      | ok => exact hrefused _ htold
    rw [hnone, Set.union_empty, hcompile, hsame]
    exact h.work hkept (Nat.le_succ _) worker nextWorker

theorem Sound.of_leads (h : Sound config s known) (hleads : Leads s known s' known') :
    Sound config s' known' := by
  induction hleads with
  | refl => exact h
  | evaluate value args _ hhandle ih => exact (ih.evaluate hhandle value args).2
  | compile source _ ih => exact ih.compile source

/-- What has become of a sandbox of scripts makes no difference for their results. -/
theorem Sound.impartial (h : Sound config s known) :
    Sandbox.Impartial (verdict lang config) s known := by
  intro s' known' hleads handle hhandle value args
  exact ((h.of_leads hleads).evaluate hhandle value args).1

theorem impartial_start (lang : Script.Language) (config : SandboxConfig) :
    Sandbox.Impartial (verdict lang config) (sandbox lang config) ∅ :=
  (sound_start config).impartial

end Programs

end LayeredAccess
