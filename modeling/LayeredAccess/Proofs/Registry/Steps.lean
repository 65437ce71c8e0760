/-
  LayeredAccess.Proofs.Registry.Steps

  What one step of a cascade can do, case by case and with all that is known in
  each case (`steps_step`). What holds of every step is shown along these
  cases; no other proof has to open the definitions of the steps.
-/
import LayeredAccess.Registry.Operations

namespace LayeredAccess.Registry

variable {ν : Type} [Node ν]

/-- The job that a node is given next. -/
def nextJob (r : Registry ν) (key : String) (n : ν) : CompileJob where
  id := key
  generation := r.generation + 1
  dependencies := Node.dependencies n
  layers := Node.layers n

/-- Does the value of a node comply with its schema? -/
def verdict (r : Registry ν) (n : ν) (value : Json) : Except EngineError Unit :=
  match r.verifier, Node.resource n with
  | some verify, some resource => verify resource value
  | _, _ => .ok ()

/-- A node takes another shape; if it loses its value, its cached value goes too. -/
def reshape (r : Registry ν) (key : String) (before after : ν) : Registry ν :=
  if Node.isCompiled before && !Node.isCompiled after then (r.setNode key after).evict key
  else r.setNode key after

@[simp] theorem nodes_reshape (r : Registry ν) (key : String) (before after : ν) :
    (r.reshape key before after).nodes = KeyMap.insert r.nodes key after := by
  unfold reshape
  split <;> rfl

@[simp] theorem graph_reshape (r : Registry ν) (key : String) (before after : ν) :
    (r.reshape key before after).graph = r.graph := by
  unfold reshape
  split <;> rfl

@[simp] theorem generation_reshape (r : Registry ν) (key : String) (before after : ν) :
    (r.reshape key before after).generation = r.generation := by
  unfold reshape
  split <;> rfl

@[simp] theorem published_reshape (r : Registry ν) (key : String) (before after : ν) :
    (r.reshape key before after).published = r.published := by
  unfold reshape
  split <;> rfl

/-- What a step does: the registry after it, and the tasks that it leaves. -/
inductive Steps (r : Registry ν) : Task → Registry ν → List Task → Prop
  /-- There is nobody to be told. -/
  | absent {key : String} {notice : Notice} (hn : r.get? key = none) :
    Steps r (.tell key notice) r []
  | told {key : String} {notice : Notice} {n : ν} (hn : r.get? key = some n) :
    Steps r (.tell key notice) (r.reshape key n (answer n notice).2)
      ((answer n notice).1.map (.perform key))
  | broadcast {key : String} {signal : Signal} {wide : Bool} :
    Steps r (.perform key (.broadcast signal wide)) (r.publishSignal key signal wide)
      ((r.publishSignal key signal wide).dispatch key signal (.node key))
  /-- There is no value to be verified or announced. -/
  | valueless {key : String} {effect : Effect} (he : effect = .validate ∨ effect = .announce)
    (hvalue : (r.get? key).bind Node.compiled = none) : Steps r (.perform key effect) r []
  | announced {key : String} {value : Json} (hvalue : (r.get? key).bind Node.compiled = some value)
    (payload : Json) : Steps r (.perform key .announce)
      (r.publish { kind := Action.directoryPublish, payload := some payload }) []
  | validated {key : String} {n : ν} {value : Json} (hn : r.get? key = some n)
    (hvalue : Node.compiled n = some value) (hverdict : r.verdict n value = .ok ()) :
    Steps r (.perform key .validate) r [.tell key (.own .validated .registry)]
  | rejected {key : String} {n : ν} {value : Json} {e : EngineError} (hn : r.get? key = some n)
    (hvalue : Node.compiled n = some value) (hverdict : r.verdict n value = .error e) :
    Steps r (.perform key .validate) (r.publishError "Validate Error" key e) []
  /-- There is no node to be compiled. -/
  | unregistered {key : String} (hn : r.get? key = none) : Steps r (.perform key .compile) r []
  /-- Some dependencies are not dependable. -/
  | lacking {key : String} {n : ν} (hn : r.get? key = some n)
    (hmissing : (Node.dependencies n).filter (fun d => !r.isDependable d) ≠ []) :
    Steps r (.perform key .compile)
      (r.publishError "Compile Error" key
        (.missingDependency key ((Node.dependencies n).filter fun d => !r.isDependable d))) []
  | queued {key : String} {n : ν} (hn : r.get? key = some n)
    (hdeps : ∀ d ∈ Node.dependencies n, r.isDependable d = true)
    (hmode : r.config.compileMode = .deferred) :
    Steps r (.perform key .compile) ((r.bumpGeneration key).2.queueJob (r.nextJob key n)) []
  /-- All dependencies are dependable, but some have no cached value. -/
  | uncached {key : String} {n : ν} {missing : List String} (hn : r.get? key = some n)
    (hdeps : ∀ d ∈ Node.dependencies n, r.isDependable d = true)
    (hmode : r.config.compileMode = .inline)
    (hresult : (r.compiler.compile (r.nextJob key n)).1 = .error missing) :
    Steps r (.perform key .compile)
      (({ (r.bumpGeneration key).2 with
        compiler := (r.compiler.compile (r.nextJob key n)).2 } : Registry ν).publishError
          "Compile Error" key (.missingDependency key missing)) []
  | compiled {key : String} {n : ν} {value : Json} (hn : r.get? key = some n)
    (hdeps : ∀ d ∈ Node.dependencies n, r.isDependable d = true)
    (hmode : r.config.compileMode = .inline)
    (hresult : (r.compiler.compile (r.nextJob key n)).1 = .ok value) :
    Steps r (.perform key .compile)
      (({ (r.bumpGeneration key).2 with
        compiler := (r.compiler.compile (r.nextJob key n)).2 } : Registry ν).publishSignal key
          (.compiled value) false)
      [.tell key (.own (.compiled value) .registry)]

variable {r : Registry ν}

theorem steps_tell (r : Registry ν) (key : String) (notice : Notice) :
    Steps r (.tell key notice) (r.tell key notice).1 (r.tell key notice).2 := by
  unfold tell
  split
  · next hn => exact .absent hn
  · next n hn => exact .told hn

theorem steps_announce (r : Registry ν) (key : String) :
    Steps r (.perform key .announce) (r.announce key) [] := by
  unfold announce
  split
  · next hvalue => exact .valueless (.inr rfl) hvalue
  · next value hvalue => exact .announced hvalue _

theorem steps_validate (r : Registry ν) (key : String) :
    Steps r (.perform key .validate) (r.validate key).1 (r.validate key).2 := by
  cases hn : r.get? key with
  | none =>
    simp only [validate, hn]
    exact .valueless (.inl rfl) (by rw [hn, Option.bind_none])
  | some n =>
    cases hvalue : Node.compiled n with
    | none =>
      simp only [validate, hn, hvalue]
      exact .valueless (.inl rfl) (by rw [hn, Option.bind_some, hvalue])
    | some value =>
      simp only [validate, hn, hvalue]
      split
      · next hverdict => exact .validated hn hvalue hverdict
      · next e hverdict => exact .rejected hn hvalue hverdict

theorem steps_requestCompile (r : Registry ν) (key : String) :
    Steps r (.perform key .compile) (r.requestCompile key).1 (r.requestCompile key).2 := by
  cases hn : r.get? key with
  | none =>
    simp only [requestCompile, hn]
    exact .unregistered hn
  | some n =>
    cases hmissing : (Node.dependencies n).filter fun d => !r.isDependable d with
    | cons d ds =>
      simp only [requestCompile, hn, hmissing]
      rw [← hmissing]
      exact .lacking hn (by rw [hmissing]; exact List.cons_ne_nil d ds)
    | nil =>
      have hdeps : ∀ d ∈ Node.dependencies n, r.isDependable d = true := by
        simpa [List.filter_eq_nil_iff] using hmissing
      -- The mode is looked up when the generation has been raised already.
      have hbumped : (r.bumpGeneration key).2.config.compileMode = r.config.compileMode := rfl
      simp only [requestCompile, hn, hmissing, hbumped]
      cases hmode : r.config.compileMode with
      | deferred => exact .queued hn hdeps hmode
      | inline =>
        dsimp only
        split
        · next value hresult => exact .compiled hn hdeps hmode hresult
        · next missing hresult => exact .uncached hn hdeps hmode hresult

/-- Every step is one of those listed. -/
theorem steps_step (r : Registry ν) (t : Task) : Steps r t (r.step t).1 (r.step t).2 := by
  cases t with
  | tell key notice => exact steps_tell r key notice
  | perform key effect =>
    cases effect with
    | broadcast signal wide => exact .broadcast
    | compile => exact steps_requestCompile r key
    | validate => exact steps_validate r key
    | announce => exact steps_announce r key

/-- A task that a step leaves, and what it comes from. -/
inductive Ensues (r : Registry ν) : Task → Task → Prop
  | told {key : String} {notice : Notice} {n : ν} {e : Effect} (hn : r.get? key = some n)
    (he : e ∈ (answer n notice).1) : Ensues r (.tell key notice) (.perform key e)
  | broadcast {key : String} {signal : Signal} {wide : Bool} {u : Task}
    (hu : u ∈ (r.publishSignal key signal wide).dispatch key signal (.node key)) :
    Ensues r (.perform key (.broadcast signal wide)) u
  | validated {key : String} :
    Ensues r (.perform key .validate) (.tell key (.own .validated .registry))
  | compiled {key : String} {value : Json} :
    Ensues r (.perform key .compile) (.tell key (.own (.compiled value) .registry))

/-- Most steps leave nothing. -/
theorem ensues_of_mem_step {t u : Task} (hu : u ∈ (r.step t).2) : Ensues r t u := by
  have hstep := steps_step r t
  generalize (r.step t).1 = r₁, (r.step t).2 = more at hstep hu
  cases hstep with
  | absent | valueless | announced | rejected | unregistered | lacking | queued | uncached =>
    simp at hu
  | told hn =>
    obtain ⟨e, he, rfl⟩ := List.mem_map.1 hu
    exact .told hn he
  | broadcast => exact .broadcast hu
  | validated =>
    obtain rfl := List.mem_singleton.1 hu
    exact .validated
  | compiled =>
    obtain rfl := List.mem_singleton.1 hu
    exact .compiled

end LayeredAccess.Registry
