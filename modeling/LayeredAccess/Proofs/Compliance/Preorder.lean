/-
  LayeredAccess.Proofs.Compliance.Preorder

  The walk by which a schema is loaded, stop by stop: every entry is come to
  before those below it, and these in their order. At an entry there is first a
  look at its name; then its references are recorded, if it has a block of rules,
  and the scripts that it defines are compiled one after the other.

  Which stops there are depends on the schema alone (`Schema.stops`). What
  becomes of the walk is decided at the first stop at which something is wrong,
  in the sandbox that the stops before it have left (`ComplianceEngine.Walks`).
  It does not matter whether the walk goes by recursion or keeps the entries that
  are still to be visited on a stack (`Loading.loop_eq_contents`).
-/
import LayeredAccess.Proofs.Compliance.Catalogue

namespace LayeredAccess

namespace Compliance

/-! ## Stops -/

/-- A stop on the walk over a schema. -/
inductive Stop where
  /-- An entry of some name is come to. -/
  | arrive (path : Path) (name : String)
  /-- The references of an entry are recorded. -/
  | list (path : Path) (rules : List RuleRef)
  /-- The script of a rule is compiled. -/
  | define (path : Path) (d : RuleDefinition)

namespace Schema

/-- The stops at a block of rules. -/
def blockStops (path : Path) : Option Comply → List Stop
  | none => []
  | some c => .list path c.rules :: c.define.map (.define path)

/-- The stops at an entry itself. -/
def ownStops (path : Path) (name : String) (comply : Option Comply) : List Stop :=
  .arrive path name :: blockStops path comply

mutual

/-- The stops at an entry and at those below it; `path` leads to the entry. -/
def stopsAt (path : Path) : Schema → List Stop
  | { name, comply, children, .. } => ownStops path name comply ++ stopsBelow path children

/-- The stops at the entries below a path. -/
def stopsBelow (path : Path) : List Schema → List Stop
  | [] => []
  | s :: rest => stopsAt (path ++ [s.name]) s ++ stopsBelow path rest

end

theorem stopsAt_eq (path : Path) (s : Schema) :
    s.stopsAt path = ownStops path s.name s.comply ++ stopsBelow path s.children := by
  cases s
  rw [stopsAt]

/-- The stops on the walk over a schema. -/
def stops (s : Schema) : List Stop := stopsAt [s.name] s

end Schema

namespace Stop

variable {σ : Type}

/-- What is wrong at a stop, if anything is. -/
def fault? (schema : String) (s : Sandbox σ) : Stop → Option EngineError
  | .arrive path name =>
    if name.isEmpty then
      some (.invalidDefinition
        ("schema \"" ++ schema ++ "\" has an unnamed entry under " ++ Text.quotedList path))
    else none
  | .list _ _ => none
  | .define path d =>
    match (s.compile d.body).1 with
    | .error e => some (.ruleCompileFailure schema path d.name d.body e.message)
    | .ok _ => none

/-- The sandbox after a stop. -/
def leave (s : Sandbox σ) : Stop → Sandbox σ
  | .define _ d => (s.compile d.body).2
  | _ => s

/-- The references that are recorded at a stop. -/
def references? : Stop → Option (Path × List RuleRef)
  | .list path rules => some (path, rules)
  | _ => none

/-- The rule that is recorded at a stop, under the path of its entry and its name. -/
def rule? (s : Sandbox σ) : Stop → Option (Path × Rule)
  | .define path d => (s.compile d.body).1.toOption.map fun handle =>
      (path ++ [d.name], .scripted d handle)
  | _ => none

/-- What is recorded at a stop. -/
def recorded (s : Sandbox σ) (stop : Stop) : Rulebook.Contents where
  references := stop.references?.toList
  rules := (stop.rule? s).toList

/-- The sandbox after several stops. -/
def leaveAll (s : Sandbox σ) (stops : List Stop) : Sandbox σ := stops.foldl leave s

/-- The first thing that is wrong on the way. -/
def firstFault? (schema : String) : Sandbox σ → List Stop → Option EngineError
  | _, [] => none
  | s, stop :: rest => (stop.fault? schema s).or (firstFault? schema (stop.leave s) rest)

/-- The rules that are recorded on the way. -/
def rules : Sandbox σ → List Stop → List (Path × Rule)
  | _, [] => []
  | s, stop :: rest => (stop.rule? s).toList ++ rules (stop.leave s) rest

/-- Nothing is wrong at any stop. -/
def Clear (schema : String) (s : Sandbox σ) (stops : List Stop) : Prop :=
  ∀ before stop after, stops = before ++ stop :: after →
    stop.fault? schema (leaveAll s before) = none

variable {schema : String}

theorem clear_cons_iff {s : Sandbox σ} {stop : Stop} {rest : List Stop} :
    Clear schema s (stop :: rest) ↔
      stop.fault? schema s = none ∧ Clear schema (stop.leave s) rest := by
  constructor
  · intro h
    exact ⟨h [] stop rest rfl, fun before x after hrest => h (stop :: before) x after (hrest ▸ rfl)⟩
  · rintro ⟨hstop, hrest⟩ before x after heq
    cases before with
    | nil =>
      obtain ⟨rfl, rfl⟩ := List.cons.inj heq
      exact hstop
    | cons y before =>
      obtain ⟨rfl, rfl⟩ := List.cons.inj heq
      exact hrest before x after rfl

theorem firstFault?_eq_none_iff {s : Sandbox σ} {stops : List Stop} :
    firstFault? schema s stops = none ↔ Clear schema s stops := by
  induction stops generalizing s with
  | nil => exact ⟨fun _ before stop after h => by simp at h, fun _ => rfl⟩
  | cons stop rest ih => rw [firstFault?, Option.or_eq_none_iff, ih, clear_cons_iff]

/-- What is wrong first is wrong at a stop before which nothing is. -/
theorem firstFault?_eq_some_iff {s : Sandbox σ} {stops : List Stop} {error : EngineError} :
    firstFault? schema s stops = some error ↔ ∃ before stop after,
      stops = before ++ stop :: after ∧ Clear schema s before ∧
        stop.fault? schema (leaveAll s before) = some error := by
  have hnil : ∀ s : Sandbox σ, Clear schema s [] := fun s before stop after h => by simp at h
  -- Something is wrong at the first stop, or further on in the sandbox that this stop leaves.
  induction stops generalizing s with
  | nil => simp [firstFault?]
  | cons stop rest ih =>
    simp only [firstFault?, Option.or_eq_some_iff, ih]
    constructor
    · rintro (hstop | ⟨hstop, before, x, after, rfl, hclear, hx⟩)
      · exact ⟨[], stop, rest, rfl, hnil s, hstop⟩
      · exact ⟨stop :: before, x, after, rfl, clear_cons_iff.2 ⟨hstop, hclear⟩, hx⟩
    · rintro ⟨before, x, after, heq, hclear, hx⟩
      cases before with
      | nil =>
        obtain ⟨rfl, rfl⟩ := List.cons.inj heq
        exact .inl hx
      | cons y before =>
        obtain ⟨rfl, rfl⟩ := List.cons.inj heq
        obtain ⟨hstop, hclear⟩ := clear_cons_iff.1 hclear
        exact .inr ⟨hstop, before, x, after, rfl, hclear, hx⟩

end Stop

namespace Rulebook.Contents

theorem append_assoc (a b c : Contents) : a ++ b ++ c = a ++ (b ++ c) := by
  show (⟨_, _⟩ : Contents) = ⟨_, _⟩
  simp

@[simp] theorem empty_append (c : Contents) : ({} : Contents) ++ c = c := rfl

@[simp] theorem append_empty (c : Contents) : c ++ ({} : Contents) = c := by
  show (⟨_, _⟩ : Contents) = c
  simp

end Rulebook.Contents

namespace Loading

variable {σ : Type}

/-! ## Recursion -/

/-- What is done at a stop. -/
def halt (schema : String) (stop : Stop) : Loading σ Rulebook.Contents := do
  let s ← get
  set (stop.leave s)
  match stop.fault? schema s with
  | some e => throw e
  | none => return stop.recorded s

/-- What is done at several stops. -/
def tour (schema : String) : List Stop → Loading σ Rulebook.Contents
  | [] => return {}
  | stop :: rest => do
    let first ← halt schema stop
    let others ← tour schema rest
    return first ++ others

theorem tour_append (schema : String) (stops stops' : List Stop) :
    (tour schema (stops ++ stops') : Loading σ Rulebook.Contents) =
      do return (← tour schema stops) ++ (← tour schema stops') := by
  induction stops with
  | nil => simp only [List.nil_append, tour, pure_bind, Rulebook.Contents.empty_append, bind_pure]
  | cons stop rest ih =>
    simp only [List.cons_append, tour, ih, bind_assoc, pure_bind, Rulebook.Contents.append_assoc]

/-- Work is known by what comes of it in every sandbox. -/
theorem ext_outcome {α : Type} {act act' : Loading σ α} (h : ∀ s, outcome act s = outcome act' s) :
    act = act' := funext h

theorem outcome_halt (schema : String) (stop : Stop) (s : Sandbox σ) :
    outcome (halt schema stop) s = (match stop.fault? schema s with
      | some e => .error e
      | none => .ok (stop.recorded s), stop.leave s) := by
  have hget : outcome (get : Loading σ (Sandbox σ)) s = (.ok s, s) := rfl
  have hset : ∀ s', outcome (set s' : Loading σ PUnit) s = (.ok ⟨⟩, s') := fun _ => rfl
  simp only [halt, outcome_bind, hget, hset]
  cases stop.fault? schema s <;> rfl

theorem outcome_tour_cons (schema : String) (stop : Stop) (rest : List Stop) (s : Sandbox σ) :
    outcome (tour schema (stop :: rest)) s = match stop.fault? schema s with
      | some e => (.error e, stop.leave s)
      | none => match outcome (tour schema rest) (stop.leave s) with
        | (.ok others, s') => (.ok (stop.recorded s ++ others), s')
        | (.error e, s') => (.error e, s') := by
  rw [tour, outcome_bind, outcome_halt]
  cases stop.fault? schema s with
  | some e => rfl
  | none =>
    dsimp only
    rw [outcome_bind]
    rcases outcome (tour schema rest) (stop.leave s) with ⟨e | others, s'⟩ <;> rfl

/-- Compiling the rules of an entry is what is done at the stops for its definitions. -/
theorem tour_define (schema : String) (path : Path) (ds : List RuleDefinition) :
    (tour schema (ds.map (.define path)) : Loading σ Rulebook.Contents) =
      do return { rules := ← compileAll schema path ds } := by
  induction ds with
  | nil => rfl
  | cons d rest ih =>
    -- Both compile this script first, and go on with the others only if it is accepted.
    refine ext_outcome fun s => ?_
    rw [List.map_cons, outcome_tour_cons, ih]
    simp only [outcome_bind, outcome_compileAll_cons, Stop.fault?, Stop.leave, Stop.recorded,
      Stop.rule?]
    rcases s.compile d.body with ⟨e | handle, s'⟩
    · rfl
    · dsimp only
      rcases outcome (compileAll schema path rest) s' with ⟨e | others, s''⟩ <;> rfl

theorem tour_blockStops (schema : String) (path : Path) (comply : Option Comply) :
    (tour schema (Schema.blockStops path comply) : Loading σ Rulebook.Contents) =
      block schema path comply := by
  cases comply with
  | none => rfl
  | some c =>
    refine ext_outcome fun s => ?_
    rw [Schema.blockStops, outcome_tour_cons, tour_define, block, outcome_bind, outcome_bind]
    simp only [Stop.fault?, Stop.leave]
    rcases outcome (compileAll schema path c.define) s with ⟨e | rules, s'⟩ <;> rfl

theorem tour_ownStops (schema : String) (path : Path) (name : String) (comply : Option Comply) :
    (tour schema (Schema.ownStops path name comply) : Loading σ Rulebook.Contents) =
      if name.isEmpty then
        throw (.invalidDefinition
          ("schema \"" ++ schema ++ "\" has an unnamed entry under " ++ Text.quotedList path))
      else block schema path comply := by
  refine ext_outcome fun s => ?_
  rw [Schema.ownStops, outcome_tour_cons, tour_blockStops]
  simp only [Stop.fault?, Stop.leave]
  cases name.isEmpty with
  | true => rfl
  | false =>
    simp only [Bool.false_eq_true, if_false]
    rcases outcome (block schema path comply) s with ⟨e | found, s'⟩ <;> rfl

mutual

/-- The recursive walk does what is to be done at its stops. -/
theorem visit_eq_tour (schema : String) (path : Path) : (s : Schema) →
    (visit schema path s : Loading σ Rulebook.Contents) = tour schema (s.stopsAt path)
  | { name, comply, children, .. } => by
    rw [visit, Schema.stopsAt, tour_append, tour_ownStops, visitAll_eq_tour schema path children]
    split
    -- A walk that ends at an entry without a name never comes to the entries below it.
    · rfl
    · rfl

theorem visitAll_eq_tour (schema : String) (path : Path) : (ss : List Schema) →
    (visitAll schema path ss : Loading σ Rulebook.Contents) =
      tour schema (Schema.stopsBelow path ss)
  | [] => by rw [visitAll, Schema.stopsBelow, tour]
  | s :: rest => by
    rw [visitAll, Schema.stopsBelow, tour_append, visit_eq_tour schema (path ++ [s.name]) s,
      visitAll_eq_tour schema path rest]

end

/-- A walk succeeds if nothing is wrong on the way, and finds what is recorded at its stops.
Otherwise it fails with what is wrong first. -/
theorem outcome_tour (schema : String) (stops : List Stop) (s : Sandbox σ) :
    (outcome (tour schema stops) s).1 = match Stop.firstFault? schema s stops with
      | some e => .error e
      | none => .ok
        { references := stops.filterMap Stop.references?, rules := Stop.rules s stops } := by
  -- By induction on the stops, for all sandboxes, since every stop may have scripts compiled.
  induction stops generalizing s with
  | nil => rfl
  | cons stop rest ih =>
    have hrest := ih (stop.leave s)
    rw [outcome_tour_cons, Stop.firstFault?]
    cases stop.fault? schema s with
    | some e => rfl
    | none =>
      dsimp only [Option.none_or]
      generalize outcome (tour schema rest) (stop.leave s) = found at hrest ⊢
      generalize Stop.firstFault? schema (stop.leave s) rest = fault? at hrest ⊢
      obtain ⟨result, s'⟩ := found
      obtain rfl := hrest
      cases fault? with
      | some e => rfl
      | none =>
        refine congrArg Except.ok ?_
        show (⟨_, _⟩ : Rulebook.Contents) = ⟨_, _⟩
        rw [Stop.rules, List.filterMap_cons]
        cases stop <;> rfl

/-! ## A stack -/

/-- Entries that are still to be visited, with the paths to them. The first is next. -/
abbrev Pending := List (Path × Schema)

/-- Puts the entries below a path on the stack, the last of them first. -/
def push (path : Path) (children : List Schema) (pending : Pending) : Pending :=
  children.reverse.foldl (fun stack child => (path ++ [child.name], child) :: stack) pending

/-- The stops that are still ahead. -/
def ahead (pending : Pending) : List Stop := pending.flatMap fun e => e.2.stopsAt e.1

theorem ahead_push (path : Path) (children : List Schema) (pending : Pending) :
    ahead (push path children pending) = Schema.stopsBelow path children ++ ahead pending := by
  rw [push, List.foldl_reverse]
  induction children with
  | nil => rfl
  | cons child rest ih =>
    rw [List.foldr_cons, Schema.stopsBelow, List.append_assoc, ← ih]
    rfl

/-- Visits the entries on a stack, together with all below them, and adds what they say to what has
been found. -/
def loop (schema : String) :
    Pending → Rulebook.Contents → Loading σ Rulebook.Contents
  | [], found => return found
  | (path, entry) :: pending, found => do
    if entry.name.isEmpty then
      throw (.invalidDefinition
        ("schema \"" ++ schema ++ "\" has an unnamed entry under " ++ Text.quotedList path))
    let own ← block schema path entry.comply
    loop schema (push path entry.children pending) (found ++ own)
termination_by pending => (ahead pending).length
decreasing_by
  rw [ahead_push]
  show _ < (entry.stopsAt path ++ ahead pending).length
  rw [Schema.stopsAt_eq, Schema.ownStops]
  grind

/-- On a stack, too, the walk does what is to be done at the stops that are ahead. -/
theorem loop_eq_tour (schema : String) (pending : Pending) (found : Rulebook.Contents) :
    (loop schema pending found : Loading σ Rulebook.Contents) =
      do return found ++ (← tour schema (ahead pending)) := by
  -- What is found so far stands in front, whatever is still ahead. An entry that is taken from the
  -- stack leaves its own stops behind and puts those below it in front of the pending ones.
  induction pending, found using loop.induct (σ := σ) schema with
  | case1 found =>
    rw [loop, ahead, List.flatMap_nil, tour, pure_bind, Rulebook.Contents.append_empty]
  | case2 path entry pending found hempty =>
    have hahead : ahead ((path, entry) :: pending) = entry.stopsAt path ++ ahead pending := rfl
    rw [loop, if_pos hempty, hahead, Schema.stopsAt_eq, tour_append, tour_append, tour_ownStops,
      if_pos hempty]
    rfl
  | case3 path entry pending found hname ih =>
    have hahead : ahead ((path, entry) :: pending) = entry.stopsAt path ++ ahead pending := rfl
    rw [loop, if_neg hname, hahead, Schema.stopsAt_eq, List.append_assoc, tour_append,
      tour_ownStops, if_neg hname]
    simp only [ih, ahead_push, tour_append, bind_assoc, pure_bind, Rulebook.Contents.append_assoc]

/-- It does not matter whether the walk goes by recursion or keeps a stack. -/
theorem loop_eq_contents (s : Schema) :
    (loop s.name [([s.name], s)] {} : Loading σ Rulebook.Contents) = contents s := by
  rw [loop_eq_tour, contents, visit_eq_tour]
  simp [ahead]

end Loading

/-- Of all that is recorded at a path this is the last. -/
def IsLast {α : Type} (recorded : List (Path × α)) (path : Path) (a : α) : Prop :=
  ∃ before after, recorded = before ++ (path, a) :: after ∧ ∀ later ∈ after, later.1 ≠ path

end Compliance

open Compliance

namespace ComplianceEngine

variable {σ : Type}

/-- A schema is loaded by a walk over its stops. -/
structure Walks (e : ComplianceEngine σ) (s : Schema) : Prop where
  /-- The walk with a stack is the recursive one. -/
  loop_eq : (Loading.loop s.name [([s.name], s)] {} : Loading σ Rulebook.Contents) =
    Loading.contents s
  /-- The schema is entered if nothing is wrong at any stop. -/
  succeeds_iff : (e.load s).1 = .ok () ↔ Stop.Clear s.name e.sandbox s.stops
  /-- Otherwise it is refused for what is wrong at the first stop at which anything is. -/
  fails_iff : ∀ error, (e.load s).1 = .error error ↔ ∃ before stop after,
    s.stops = before ++ stop :: after ∧ Stop.Clear s.name e.sandbox before ∧
      stop.fault? s.name (Stop.leaveAll e.sandbox before) = some error
  /-- Of the references at a path the last ones recorded are kept, and no others. -/
  references_iff : (e.load s).1 = .ok () → ∀ path, path.head? = some s.name → ∀ references,
    KeyMap.find? (e.load s).2.book.references path = some references ↔
      IsLast (s.stops.filterMap Stop.references?) path references
  /-- Of the rules of one name at a path the last one recorded is kept, and no others. -/
  rules_iff : (e.load s).1 = .ok () → ∀ path, path.head? = some s.name → ∀ rule,
    KeyMap.find? (e.load s).2.book.rules path = some rule ↔
      IsLast (Stop.rules e.sandbox s.stops) path rule

/-- Whatever is in an engine, it loads a schema by a walk over the schema's stops. -/
theorem walks_load (e : ComplianceEngine σ) (s : Schema) : Walks e s := by
  have hcontents := Loading.outcome_tour s.name s.stops e.sandbox
  rw [Schema.stops, ← Loading.visit_eq_tour, ← Schema.stops] at hcontents
  change (Loading.outcome (Loading.contents s) e.sandbox).1 = _ at hcontents
  -- The outcome of loading is that of the walk, and so depends on the first fault alone.
  have hload := e.load_eq s
  generalize Loading.outcome (Loading.contents s) e.sandbox = found at hcontents hload
  obtain ⟨result, sandbox⟩ := found
  obtain rfl := hcontents
  have hclear := @Stop.firstFault?_eq_none_iff _ s.name e.sandbox s.stops
  have hfault := @Stop.firstFault?_eq_some_iff _ s.name e.sandbox s.stops
  generalize Stop.firstFault? s.name e.sandbox s.stops = fault? at hclear hfault hload
  cases fault? with
  | some error =>
    have hrefused : (e.load s).1 ≠ .ok () := by simp [hload]
    refine ⟨Loading.loop_eq_contents s, iff_of_false hrefused fun h => ?_, fun error' => ?_,
      fun h => absurd h hrefused, fun h => absurd h hrefused⟩
    · simpa using hclear.2 h
    · rw [← hfault, hload]
      simp
  | none =>
    have hfind : ∀ {α : Type} (table : KeyMap Path α) (recorded : List (Path × α)) (path : Path),
        path.head? = some s.name → ∀ a,
          (KeyMap.find? (Rulebook.overwrite s.name table recorded) path = some a ↔
            IsLast recorded path a) := by
      intro α table recorded path hpath a
      rw [Rulebook.find?_overwrite, if_pos hpath, Option.or_none, KeyMap.find?_reverse_eq_some_iff]
      rfl
    refine ⟨Loading.loop_eq_contents s, iff_of_true (by rw [hload]) (hclear.1 rfl), fun error => ?_,
      fun _ path hpath references => ?_, fun _ path hpath rule => ?_⟩
    · rw [← hfault, hload]
      simp
    · rw [hload]
      exact hfind _ _ path hpath references
    · rw [hload]
      exact hfind _ _ path hpath rule

end ComplianceEngine

end LayeredAccess
