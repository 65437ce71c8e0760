/-
  LayeredAccess.Proofs.Sandbox

  What requests leave alone: workers come and go, and their state changes, but a
  sandbox keeps its interpreter. Whether a source is accepted may depend on the
  state of a worker, or on the time that it has; the interpreter of scripts goes
  by the source alone.
-/
import LayeredAccess.Sandbox.Programs

namespace LayeredAccess

/-- Does a worker accept what it was given? -/
def Reply.isAccepted {α : Type} : Reply α → Bool
  | .answer (.ok _) => true
  | .answer (.error _) | .late | .stopped => false

/-- Which sources an interpreter accepts does not depend on anything else. -/
def Interpreter.Decides {σ : Type} (i : Interpreter σ) (isScript : String → Bool) : Prop :=
  ∀ handle state, (i.compile handle state).1.isAccepted = isScript handle.source

namespace Sandbox

variable {σ : Type}

theorem interpreter_acquire (s : Sandbox σ) : s.acquire.2.interpreter = s.interpreter := by
  unfold acquire
  split
  · rfl
  · rfl

theorem config_acquire (s : Sandbox σ) : s.acquire.2.config = s.config := by
  unfold acquire
  split
  · rfl
  · rfl

theorem interpreter_abandon (s : Sandbox σ) (serial : Nat) :
    (s.abandon serial).interpreter = s.interpreter := by
  unfold abandon
  split
  · rfl
  · rfl

theorem interpreter_request {α : Type} (s : Sandbox σ) (budget : Nat) (job : σ → Reply α × σ) :
    (s.request budget job).2.interpreter = s.interpreter := by
  have hacquire := s.interpreter_acquire
  simp only [request]
  split
  · exact hacquire
  · exact (interpreter_abandon _ _).trans hacquire
  · exact (interpreter_abandon _ _).trans hacquire

@[simp] theorem interpreter_compile (s : Sandbox σ) (source : String) :
    (s.compile source).2.interpreter = s.interpreter := interpreter_request _ _ _

@[simp] theorem interpreter_evaluate (s : Sandbox σ) (handle : ScriptHandle) (value : Json)
    (args : List Json) : (s.evaluate handle value args).2.interpreter = s.interpreter :=
  interpreter_request _ _ _

/-- A request succeeds if the worker accepts it. -/
theorem isOk_request {α : Type} (s : Sandbox σ) (budget : Nat) (job : σ → Reply α × σ) :
    (s.request budget job).1.isOk = (job s.acquire.2.state).1.isAccepted := by
  simp only [request]
  rcases (job s.acquire.2.state).1 with (_ | _) | _ | _ <;> rfl

/-- How a compilation ends: a new script number is used up, and a worker is asked. -/
theorem compile_fst (s : Sandbox σ) (source : String) :
    (s.compile source).1 = ({ s with nextScript := s.nextScript + 1 }.request s.config.compileBudget
      (s.interpreter.compile ⟨s.nextScript, source⟩)).1.map fun _ => ⟨s.nextScript, source⟩ := rfl

/-- The handle of a source holds the source. -/
theorem source_of_compile {s : Sandbox σ} {source : String} {handle : ScriptHandle}
    (h : (s.compile source).1 = .ok handle) : handle.source = source := by
  rw [compile_fst] at h
  generalize Sandbox.request _ _ _ = reply at h
  rcases reply with ⟨_ | _, s'⟩
  · simp [Except.map] at h
  · exact (Except.ok.inj h).symm ▸ rfl

theorem isOk_compile {s : Sandbox σ} {isScript : String → Bool}
    (h : s.interpreter.Decides isScript) (source : String) :
    (s.compile source).1.isOk = isScript source := by
  have haccepted := isOk_request { s with nextScript := s.nextScript + 1 } s.config.compileBudget
    (s.interpreter.compile ⟨s.nextScript, source⟩)
  rw [h] at haccepted
  rw [compile_fst, ← haccepted]
  generalize Sandbox.request _ _ _ = reply
  rcases reply with ⟨_ | _, s'⟩ <;> rfl

end Sandbox

/-- Is a source a script? -/
def Script.Language.isScript (lang : Script.Language) (source : String) : Bool :=
  match lang.compile source with
  | .result _ => true
  | .failure _ | .endless | .crash => false

theorem Programs.decides (lang : Script.Language) : (interpreter lang).Decides lang.isScript := by
  intro handle known
  show (Programs.compile handle known).1.isAccepted = lang.isScript handle.source
  rw [Programs.compile, read, Script.Language.isScript]
  rcases lang.compile handle.source with _ | _ | _ | _ <;> rfl

end LayeredAccess
