/-
  LayeredAccess.Proofs.Compliance.Listing

  What a schema says can be listed without running anything: the blocks of rules
  of its entries, in the order of the walk. Loading a schema finds just these
  references and rules; only the numbers of the scripts depend on what has been
  compiled before.
-/
import LayeredAccess.Compliance.Loading
import LayeredAccess.Proofs.Sandbox

namespace LayeredAccess.Compliance

/-! ## Lists -/

namespace Schema

mutual

/-- The blocks of rules of an entry and of those below it, each with its path; `path` leads to the
entry. -/
def blocksAt (path : Path) : Schema → List (Path × Comply)
  | { comply, children, .. } => comply.toList.map (fun c => (path, c)) ++ blocksBelow path children

/-- The blocks of the entries below a path. -/
def blocksBelow (path : Path) : List Schema → List (Path × Comply)
  | [] => []
  | s :: rest => blocksAt (path ++ [s.name]) s ++ blocksBelow path rest

end

/-- The blocks of rules of a schema's entries, each with the path of its entry. -/
def blocks (s : Schema) : List (Path × Comply) := blocksAt [s.name] s

mutual

/-- Do an entry and all below it have names? -/
def isNamed : Schema → Bool
  | { name, children, .. } => !name.isEmpty && areNamed children

def areNamed : List Schema → Bool
  | [] => true
  | s :: rest => isNamed s && areNamed rest

end

end Schema

/-- A rule without the number of its script. -/
def Rule.anonymous (r : Rule) : Rule :=
  { r with
    executable := match r.executable with
      | .native body => .native body
      | .script handle => .script { handle with id := 0 } }

/-- What a block says at a path: the references, and the rules without the numbers of their
scripts. -/
def Comply.contents (path : Path) (c : Comply) : Rulebook.Contents where
  references := [(path, c.rules)]
  rules := c.define.map fun d => (path ++ [d.name], .scripted d ⟨0, d.body⟩)

namespace Rulebook.Contents

/-- What is said without the numbers of scripts. -/
def anonymous (c : Contents) : Contents :=
  { c with rules := KeyMap.mapValues Rule.anonymous c.rules }

@[simp] theorem references_append (c c' : Contents) :
    (c ++ c').references = c.references ++ c'.references := rfl

@[simp] theorem rules_append (c c' : Contents) : (c ++ c').rules = c.rules ++ c'.rules := rfl

theorem anonymous_append (c c' : Contents) : (c ++ c').anonymous = c.anonymous ++ c'.anonymous := by
  show (⟨_, _⟩ : Contents) = ⟨_, _⟩
  simp [anonymous, KeyMap.mapValues]

/-- What several blocks say. -/
def ofBlocks (blocks : List (Path × Comply)) : Contents where
  references := blocks.map fun b => (b.1, b.2.rules)
  rules := blocks.flatMap fun b => (b.2.contents b.1).rules

theorem ofBlocks_append (bs bs' : List (Path × Comply)) :
    ofBlocks (bs ++ bs') = ofBlocks bs ++ ofBlocks bs' := by
  show (⟨_, _⟩ : Contents) = ⟨_, _⟩
  simp [ofBlocks]

end Rulebook.Contents

/-- What a schema says, but for the numbers of its scripts. -/
def Schema.contents (s : Schema) : Rulebook.Contents := .ofBlocks s.blocks

/-! ## Loading -/

namespace Loading

variable {σ : Type}

/-- What comes of some work, and the sandbox afterwards. -/
abbrev outcome {α : Type} (act : Loading σ α) (s : Sandbox σ) : Except EngineError α × Sandbox σ :=
  act.run.run s

theorem outcome_pure {α : Type} (a : α) (s : Sandbox σ) :
    outcome (pure a : Loading σ α) s = (.ok a, s) := rfl

/-- Work after other work is done if that has succeeded. -/
theorem outcome_bind {α β : Type} (act : Loading σ α) (f : α → Loading σ β) (s : Sandbox σ) :
    outcome (act >>= f) s = match outcome act s with
      | (.ok a, s') => outcome (f a) s'
      | (.error e, s') => (.error e, s') := by
  show (match outcome act s with | (a, s') => (ExceptT.bindCont f a).run s') = _
  cases outcome act s with
  | mk a s' => cases a <;> rfl

@[simp] theorem outcome_throw {α : Type} (e : EngineError) (s : Sandbox σ) :
    outcome (throw e : Loading σ α) s = (.error e, s) := rfl

/-- The rules of a block are compiled one after the other. -/
theorem outcome_compileAll_cons (schema : String) (path : Path) (d : RuleDefinition)
    (rest : List RuleDefinition) (s : Sandbox σ) :
    outcome (compileAll schema path (d :: rest)) s = match s.compile d.body with
      | (.error e, s') => (.error (.ruleCompileFailure schema path d.name d.body e.message), s')
      | (.ok handle, s') => match outcome (compileAll schema path rest) s' with
        | (.ok others, s'') => (.ok ((path ++ [d.name], .scripted d handle) :: others), s'')
        | (.error e, s'') => (.error e, s'') := by
  have hget : outcome (get : Loading σ (Sandbox σ)) s = (.ok s, s) := rfl
  have hset : ∀ s', outcome (set s' : Loading σ PUnit) s = (.ok ⟨⟩, s') := fun _ => rfl
  simp only [compileAll, outcome_bind, hget, hset]
  rcases s.compile d.body with ⟨_ | handle, s'⟩
  · rfl
  · refine (outcome_bind _ _ _).trans ?_
    dsimp only
    rcases outcome (compileAll schema path rest) s' with ⟨_ | _, _⟩ <;> rfl

/-- Work that finds what some blocks say. It succeeds if they are well-formed and all their scripts
are accepted. -/
structure Finds (act : Loading σ Rulebook.Contents) (wellFormed : Bool)
    (blocks : List (Path × Comply)) : Prop where
  interpreter_eq : ∀ s, (outcome act s).2.interpreter = s.interpreter
  anonymous_eq : ∀ s c, (outcome act s).1 = .ok c → c.anonymous = .ofBlocks blocks
  isOk_eq : ∀ s isScript, s.interpreter.Decides isScript → (outcome act s).1.isOk =
    (wellFormed && blocks.all fun b => b.2.define.all fun d => isScript d.body)

theorem finds_nothing : Finds (pure {} : Loading σ Rulebook.Contents) true [] where
  interpreter_eq _ := rfl
  anonymous_eq _ _ h := Except.ok.inj h ▸ rfl
  isOk_eq _ _ _ := rfl

theorem finds_refusal (e : EngineError) (blocks : List (Path × Comply)) :
    Finds (throw e : Loading σ Rulebook.Contents) false blocks where
  interpreter_eq _ := rfl
  anonymous_eq _ _ h := by simp at h
  isOk_eq _ _ _ := rfl

/-- What is found by one part of the work after the other. -/
theorem Finds.append {act act' : Loading σ Rulebook.Contents} {wellFormed wellFormed' : Bool}
    {blocks blocks' : List (Path × Comply)} (h : Finds act wellFormed blocks)
    (h' : Finds act' wellFormed' blocks') :
    Finds (do return (← act) ++ (← act')) (wellFormed && wellFormed') (blocks ++ blocks') := by
  -- The second part begins where the first has ended, if that has succeeded.
  have hrun : ∀ s, outcome (do return (← act) ++ (← act')) s = match outcome act s with
      | (.ok c, s') => match outcome act' s' with
        | (.ok c', s'') => (.ok (c ++ c'), s'')
        | (.error e, s'') => (.error e, s'')
      | (.error e, s') => (.error e, s') := fun s => by
    simp only [outcome_bind, outcome_pure]
    rcases outcome act s with ⟨_ | c, s'⟩
    · rfl
    · dsimp only
      rcases outcome act' s' with ⟨_ | c', s''⟩ <;> rfl
  refine ⟨fun s => ?_, fun s c hc => ?_, fun s isScript hscript => ?_⟩
  · rw [hrun, ← h.interpreter_eq s]
    rcases outcome act s with ⟨_ | c, s'⟩
    · rfl
    · dsimp only
      rw [← h'.interpreter_eq s']
      rcases outcome act' s' with ⟨_ | c', s''⟩ <;> rfl
  · rw [hrun] at hc
    rcases hfirst : outcome act s with ⟨_ | c₁, s'⟩
    · simp [hfirst] at hc
    · rcases hsecond : outcome act' s' with ⟨_ | c₂, s''⟩
      · simp [hfirst, hsecond] at hc
      · obtain rfl : c₁ ++ c₂ = c := by simpa [hfirst, hsecond] using hc
        rw [Rulebook.Contents.anonymous_append, Rulebook.Contents.ofBlocks_append,
          h.anonymous_eq s c₁ (by rw [hfirst]), h'.anonymous_eq s' c₂ (by rw [hsecond])]
  -- Both parts succeed if both are well formed; the interpreter is the same in between.
  · have hscript' : (outcome act s).2.interpreter.Decides isScript :=
      (h.interpreter_eq s).symm ▸ hscript
    rw [hrun, List.all_append, Bool.and_assoc, Bool.and_left_comm wellFormed', ← Bool.and_assoc,
      ← h.isOk_eq s isScript hscript]
    generalize outcome act s = found at hscript' ⊢
    rcases found with ⟨_ | c, s'⟩
    · rfl
    · rw [← h'.isOk_eq s' isScript hscript']
      dsimp only
      rcases outcome act' s' with ⟨_ | c', s''⟩ <;> rfl

/-- The rules of a block, once their scripts have been compiled. -/
theorem compileAll_spec (schema : String) (path : Path) (ds : List RuleDefinition) (s : Sandbox σ) :
    (outcome (compileAll schema path ds) s).2.interpreter = s.interpreter ∧
    (∀ rules, (outcome (compileAll schema path ds) s).1 = .ok rules →
      KeyMap.mapValues Rule.anonymous rules =
        ds.map fun d => (path ++ [d.name], .scripted d ⟨0, d.body⟩)) ∧
    ∀ isScript, s.interpreter.Decides isScript →
      (outcome (compileAll schema path ds) s).1.isOk = ds.all fun d => isScript d.body := by
  -- The sandbox changes from script to script, but not its interpreter.
  induction ds generalizing s with
  | nil => exact ⟨rfl, fun rules h => Except.ok.inj h ▸ rfl, fun _ _ => rfl⟩
  | cons d rest ih =>
    have hinterpreter := s.interpreter_compile d.body
    have hsource : ∀ handle, (s.compile d.body).1 = .ok handle → handle.source = d.body :=
      fun _ => Sandbox.source_of_compile
    have hisOk : ∀ isScript, s.interpreter.Decides isScript →
        (s.compile d.body).1.isOk = isScript d.body :=
      fun _ hscript => Sandbox.isOk_compile hscript d.body
    rw [outcome_compileAll_cons]
    generalize s.compile d.body = compiled at hinterpreter hsource hisOk ⊢
    rcases compiled with ⟨e | handle, s'⟩
    · refine ⟨hinterpreter, fun rules h => by simp at h, fun isScript hscript => ?_⟩
      rw [List.all_cons, ← hisOk isScript hscript]
      rfl
    · obtain ⟨hrest, hrules, hall⟩ := ih s'
      dsimp only
      generalize outcome (compileAll schema path rest) s' = found at hrest hrules hall ⊢
      rcases found with ⟨e | others, s''⟩
      · refine ⟨hrest.trans hinterpreter, fun rules h => by simp at h, fun isScript hscript => ?_⟩
        rw [List.all_cons, ← hall isScript (hinterpreter.symm ▸ hscript)]
        exact (Bool.and_false _).symm
      · refine ⟨hrest.trans hinterpreter, fun rules h => ?_, fun isScript hscript => ?_⟩
        · obtain rfl := Except.ok.inj h
          have hhandle : handle.source = d.body := hsource handle rfl
          rw [List.map_cons, ← hrules others rfl, ← hhandle]
          rfl
        · rw [List.all_cons, ← hall isScript (hinterpreter.symm ▸ hscript),
            ← hisOk isScript hscript]
          rfl

theorem finds_block (schema : String) (path : Path) (comply : Option Comply) :
    Finds (block schema path comply : Loading σ Rulebook.Contents) true
      (comply.toList.map fun c => (path, c)) := by
  cases comply with
  | none => exact finds_nothing
  | some c =>
    -- Only the definitions are compiled; the references are recorded as they are.
    have hrun : ∀ s : Sandbox σ, outcome (block schema path (some c)) s =
        match outcome (compileAll schema path c.define) s with
        | (.ok rules, s') => (.ok { references := [(path, c.rules)], rules }, s')
        | (.error e, s') => (.error e, s') := fun s => by
      rw [block, outcome_bind]
      rcases outcome (compileAll schema path c.define) s with ⟨_ | _, _⟩ <;> rfl
    refine ⟨fun s => ?_, fun s found hfound => ?_, fun s isScript hscript => ?_⟩
    all_goals
      obtain ⟨hinterpreter, hrules, hall⟩ := compileAll_spec schema path c.define s
    · rw [hrun, ← hinterpreter]
      rcases outcome (compileAll schema path c.define) s with ⟨_ | _, _⟩ <;> rfl
    · rw [hrun] at hfound
      generalize outcome (compileAll schema path c.define) s = compiled at hrules hfound
      rcases compiled with ⟨e | rules, s'⟩
      · simp at hfound
      · obtain rfl := Except.ok.inj hfound
        show (⟨_, _⟩ : Rulebook.Contents) = ⟨_, _⟩
        rw [hrules rules rfl]
        simp [Comply.contents]
    · have hok : _ = ([(path, c)].all fun b => b.2.define.all fun d => isScript d.body) :=
        (hall isScript hscript).trans (Bool.and_true _).symm
      rw [hrun, Bool.true_and, Option.toList_some, List.map_singleton, ← hok]
      rcases outcome (compileAll schema path c.define) s with ⟨_ | _, _⟩ <;> rfl

mutual

/-- What the walk finds at an entry and below it. -/
theorem finds_visit (schema : String) (path : Path) : (s : Schema) →
    Finds (visit schema path s : Loading σ Rulebook.Contents) s.isNamed (s.blocksAt path)
  | { name, comply, children, .. } => by
    rw [visit, Schema.isNamed, Schema.blocksAt]
    split
    · next hempty =>
      rw [hempty]
      exact finds_refusal _ _
    · next hname =>
      rw [Bool.eq_false_iff.2 hname]
      exact (finds_block schema path comply).append (finds_visitAll schema path children)

theorem finds_visitAll (schema : String) (path : Path) : (ss : List Schema) →
    Finds (visitAll schema path ss : Loading σ Rulebook.Contents) (Schema.areNamed ss)
      (Schema.blocksBelow path ss)
  | [] => by
    rw [visitAll, Schema.areNamed, Schema.blocksBelow]
    exact finds_nothing
  | s :: rest => by
    rw [visitAll, Schema.areNamed, Schema.blocksBelow]
    exact (finds_visit schema (path ++ [s.name]) s).append (finds_visitAll schema path rest)

end

/-- What loading a schema finds. -/
theorem finds_contents (s : Schema) :
    Finds (contents s : Loading σ Rulebook.Contents) s.isNamed s.blocks :=
  finds_visit s.name [s.name] s

end Loading

end LayeredAccess.Compliance
