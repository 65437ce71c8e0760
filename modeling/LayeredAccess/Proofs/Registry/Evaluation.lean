/-
  LayeredAccess.Proofs.Registry.Evaluation

  What nodes come to when they are evaluated from scratch, and that this is
  what a registry arrives at step by step.

  A node is ready when all its dependencies are registered and dependable; its
  value is merged from theirs and its own layers; it is valid if it is ready
  and its value complies with its schema, and dependable if it is also active.
  Dependencies form no cycle, so that this can be evaluated along them.
-/
import LayeredAccess.Proofs.Node.Entitlement
import LayeredAccess.Proofs.Node.Profile
import LayeredAccess.Proofs.Registry.Operation
import LayeredAccess.Proofs.Registry.Values

namespace LayeredAccess

/-! ## Evaluating from scratch -/

/-- What a node comes to. -/
structure Evaluation where
  /-- All dependencies are registered and dependable. -/
  ready : Bool
  /-- The value, which only counts if the node is ready. -/
  value : Json
  valid : Bool
  dependable : Bool

namespace Evaluation

/-- Evaluates a node, given what the nodes below it come to. -/
def ofInputs (verifier : Option Verifier) (inputs : NodeInputs)
    (below : String → Option Evaluation) : Evaluation :=
  let ready := inputs.dependencies.all fun d => (below d).any (·.dependable)
  let value := Json.mergeLayers
    (inputs.dependencies.filterMap (fun d => (below d).map (·.value)) ++ inputs.layers)
  let valid := ready && Registry.accepts verifier inputs.resource value
  { ready, value, valid, dependable := inputs.active && valid }

/-- Evaluates a node, looking at most so many levels down. -/
def within (verifier : Option Verifier) (inputs? : String → Option NodeInputs) :
    Nat → String → Option Evaluation
  | 0, _ => none
  | depth + 1, k => (inputs? k).map fun inputs =>
    ofInputs verifier inputs (within verifier inputs? depth)

/-- What a node comes to depends on its dependencies alone. Of those that are dependable the value
counts, of the others only that they are not. -/
theorem ofInputs_congr {verifier : Option Verifier} {inputs : NodeInputs}
    {below below' : String → Option Evaluation}
    (h : ∀ d ∈ inputs.dependencies, below d = below' d) :
    ofInputs verifier inputs below = ofInputs verifier inputs below' := by
  have hready : (inputs.dependencies.all fun d => (below d).any (·.dependable)) =
      inputs.dependencies.all fun d => (below' d).any (·.dependable) := by
    rw [Bool.eq_iff_iff, List.all_eq_true, List.all_eq_true]
    exact forall₂_congr fun d hd => by rw [h d hd]
  have hvalues : inputs.dependencies.filterMap (fun d => (below d).map (·.value)) =
      inputs.dependencies.filterMap fun d => (below' d).map (·.value) :=
    List.filterMap_congr fun d hd => by rw [h d hd]
  simp only [ofInputs, hready, hvalues]

/-- Looking further down than dependencies reach gives nothing new. -/
theorem within_eq {verifier : Option Verifier} {inputs? : String → Option NodeInputs}
    {depth : String → Nat}
    (hdepth : ∀ k inputs, inputs? k = some inputs → ∀ d ∈ inputs.dependencies, depth d < depth k)
    (bound : Nat) : ∀ bound' k, depth k < bound → depth k < bound' →
      within verifier inputs? bound k = within verifier inputs? bound' k := by
  induction bound with
  | zero =>
    intro bound' k hk
    omega
  | succ bound ih =>
    intro bound' k hk hk'
    obtain ⟨bound', rfl⟩ : ∃ b, bound' = b + 1 := ⟨bound' - 1, by omega⟩
    simp only [within]
    cases hinputs : inputs? k with
    | none => rfl
    | some inputs =>
      refine congrArg some (ofInputs_congr fun d hd => ?_)
      have hlt := hdepth k inputs hinputs d hd
      exact ih bound' d (by omega) (by omega)

end Evaluation

namespace Registry

variable {ν : Type} [Node ν] [NodeKind ν]

/-- What a node comes to, going by the definitions that are registered. Dependencies form no cycle,
so no node lies deeper than there are nodes. -/
def evaluate (verifier : Option Verifier) (r : Registry ν) (k : String) : Option Evaluation :=
  Evaluation.within verifier (fun k => (r.get? k).map Node.inputs) (r.size + 1) k

variable {verifier : Option Verifier} {r : Registry ν}

/-- Depths, which grow from dependencies to dependents and are bounded by the number of nodes. -/
theorem Wired.exists_depth (h : Wired r) : ∃ depth : String → Nat, (∀ k, depth k ≤ r.size) ∧
    ∀ k inputs, (r.get? k).map Node.inputs = some inputs →
      ∀ d ∈ inputs.dependencies, depth d < depth k := by
  obtain ⟨height, hle, hlt⟩ := h.exists_height
  refine ⟨fun k => r.size - height k, fun k => Nat.sub_le _ _, fun k inputs hk d hd => ?_⟩
  obtain ⟨n, hn, rfl⟩ := Option.map_eq_some_iff.1 hk
  have hview := view?_of_get? hn
  have := hlt k _ hview d hd
  have := hle d
  show r.size - height d < r.size - height k
  omega

/-- The evaluation of a node is made from the evaluations of its dependencies. -/
theorem Wired.evaluate_eq (h : Wired r) (verifier : Option Verifier) (k : String) :
    r.evaluate verifier k =
      (r.get? k).map fun n =>
        Evaluation.ofInputs verifier (Node.inputs n) (r.evaluate verifier) := by
  obtain ⟨depth, hle, hdepth⟩ := h.exists_depth
  have hmore : ∀ j, r.evaluate verifier j =
      Evaluation.within verifier (fun k => (r.get? k).map Node.inputs) (r.size + 2) j :=
    fun j => Evaluation.within_eq hdepth _ _ j (by have := hle j; omega)
      (by have := hle j; omega)
  rw [hmore k, Evaluation.within, Option.map_map]
  rfl

end Registry

/-! ## Compiling on the spot -/

namespace Outlook

/-- Compiling is not deferred, and a ready node without value is due to be compiled. -/
def Prompt (o : Outlook) : Prop :=
  o.deferred = false ∧ ∀ k l, o.outline? k = some l → l.ready = true → l.compiled = none → k ∈ o.due

/-- Every move keeps ready nodes due. -/
theorem kept_prompt : Kept Prompt := by
  rintro o o' hmove ⟨hmode, h⟩
  refine ⟨?_, fun j l hl hready hnone => ?_⟩
  -- A node that gets ready is put among the due ones by the move that makes it ready.
  -- No move changes the mode.
  · cases hmove with
    | advance ha => cases ha <;> exact hmode
    | lapse hl =>
      cases hl
      exact hmode
    | ask k => exact hmode
    | remove hvalue => exact hmode
    | reset hdue => exact hmode
  · cases hmove with
    | advance ha =>
      cases ha with
      | @learn k l₀ hl₀ hready₀ hnone₀ hk =>
        change (if j = k then _ else o.outline? j) = some l at hl
        split at hl
        · next hj => exact hj ▸ List.mem_cons_self
        · exact List.mem_cons_of_mem _ (h j l hl hready hnone)
      | request hmode' hdue hl₀ hready₀ hnone₀ hdeps hk => simp [hmode] at hmode'
      | @compile k l₀ due hmode' hdue hl₀ hready₀ hnone₀ hdeps hunused hk =>
        change (if j = k then _ else o.outline? j) = some l at hl
        split at hl
        · rw [← Option.some.inj hl] at hnone
          simp at hnone
        · next hj =>
          have hin := h j l hl hready hnone
          rw [hdue] at hin
          exact (List.mem_cons.1 hin).resolve_left hj
    | lapse hlapse =>
      obtain @⟨k, l₀, hnone₀, hdue, hk⟩ := hlapse
      change (if j = k then _ else o.outline? j) = some l at hl
      split at hl
      · next hj =>
        rw [← Option.some.inj hl] at hready
        exact hj ▸ hdue hready
      · exact h j l hl hready hnone
    | ask k => exact List.mem_cons_of_mem _ (h j l hl hready hnone)
    | @remove k hvalue =>
      change (if j = k then none else o.outline? j) = some l at hl
      split at hl
      · simp at hl
      · next hj => exact List.mem_filter.2 ⟨h j l hl hready hnone, by simpa using hj⟩
    | reset hdue =>
      obtain ⟨l₀, hl₀, rfl⟩ := Option.map_eq_some_iff.1 hl
      exact hdue j l₀ hl₀ (of_decide_eq_true hready)

end Outlook

namespace Registry

variable {ν : Type} [Node ν] [NodeKind ν] {verifier : Option Verifier} {r : Registry ν}

/-- Nothing is left to be compiled, and all values are right. -/
structure Rested (verifier : Option Verifier) (r : Registry ν) : Prop extends
    Coherent verifier r where
  valued : (r.outlook []).Valued
  prompt : ∀ k v, r.view? k = some v → v.Ready → v.compiled.isSome

/-- A node is what its evaluation says. -/
structure Agrees (v : NodeView) (e : Evaluation) : Prop where
  compiled_eq : v.compiled = if e.ready then some e.value else none
  verified_eq : v.verified = e.valid
  dependable_eq : v.dependable = e.dependable

omit [Node ν] [NodeKind ν] in
theorem Agrees.isSome_eq {v : NodeView} {e : Evaluation} (h : Agrees v e) :
    v.compiled.isSome = e.ready := by
  rw [h.compiled_eq]
  cases e.ready <;> rfl

variable [LawfulNode ν]

/-- Where the dependencies agree with their evaluations, a node is ready if its evaluation is. -/
theorem Coherent.ready_ofInputs_iff (h : Coherent verifier r) {below : String → Option Evaluation}
    {k : String} {v : NodeView} (hv : r.view? k = some v)
    (hnone : ∀ d ∈ v.inputs.dependencies, r.view? d = none → below d = none)
    (hsome : ∀ d ∈ v.inputs.dependencies, ∀ w, r.view? d = some w →
      ∃ e, below d = some e ∧ Agrees w e) :
    (Evaluation.ofInputs verifier v.inputs below).ready = true ↔ v.Ready := by
  rw [h.ready_iff hv]
  show (v.inputs.dependencies.all fun d => (below d).any (·.dependable)) = true ↔ _
  rw [List.all_eq_true]
  refine forall₂_congr fun d hd => ?_
  cases hw : r.view? d with
  | none => rw [hnone d hd hw, isDependable_eq_false hw, Option.any_none]
  | some w =>
    obtain ⟨e, he, hagrees⟩ := hsome d hd w hw
    rw [he, isDependable_of_view? hw, Option.any_some, hagrees.dependable_eq]

omit [LawfulNode ν] in
/-- A dependency that holds a value and agrees with its evaluation has been evaluated to it. -/
theorem value?_of_agrees {below : String → Option Evaluation} {d : String}
    (hvalue : (r.value? d).isSome = true)
    (hsome : ∀ w, r.view? d = some w → ∃ e, below d = some e ∧ Agrees w e) :
    (below d).map (·.value) = r.value? d := by
  cases hw : r.view? d with
  | none => simp [value?, hw] at hvalue
  | some w =>
    obtain ⟨e, he, hagrees⟩ := hsome w hw
    rw [value?, hw] at hvalue ⊢
    change w.compiled.isSome = true at hvalue
    rw [he]
    show some e.value = w.compiled
    rw [hagrees.compiled_eq] at hvalue ⊢
    split at hvalue
    · next hready => rw [if_pos hready]
    · simp at hvalue

/-- A node agrees with its evaluation if its dependencies agree with theirs. -/
theorem Rested.agrees_ofInputs (h : Rested verifier r) {below : String → Option Evaluation}
    {k : String} {v : NodeView} (hv : r.view? k = some v)
    (hnone : ∀ d ∈ v.inputs.dependencies, r.view? d = none → below d = none)
    (hsome : ∀ d ∈ v.inputs.dependencies, ∀ w, r.view? d = some w →
      ∃ e, below d = some e ∧ Agrees w e) :
    Agrees v (Evaluation.ofInputs verifier v.inputs below) := by
  have hfits := h.fits k v hv
  have hready := h.toCoherent.ready_ofInputs_iff hv hnone hsome
  generalize he : Evaluation.ofInputs verifier v.inputs below = e at hready ⊢
  have hcompiled : v.compiled = if e.ready then some e.value else none := by
    split
    · next hr =>
      have hr' := hready.1 hr
      obtain ⟨x, hx⟩ := Option.isSome_iff_exists.1 (h.prompt k v hv hr')
      have hvalues : ∀ d ∈ v.inputs.dependencies, (r.value? d).isSome :=
        fun d hd => h.value?_of_isDependable ((h.toCoherent.ready_iff hv).1 hr' d hd)
      have hexpected := h.valued k v.outline x (outline?_outlook hv) hx fun d hd => by
        rw [value?_outlook]
        exact hvalues d hd
      -- What is merged are the values of the dependencies either way.
      have hbelow : v.inputs.dependencies.filterMap (fun d => (below d).map (·.value)) =
          v.inputs.dependencies.filterMap (r.outlook []).value? := by
        refine List.filterMap_congr fun d hd => ?_
        rw [value?_outlook]
        exact value?_of_agrees (hvalues d hd) (hsome d hd)
      rw [hx, hexpected, ← he]
      show some (Json.mergeLayers _) = some (Json.mergeLayers _)
      rw [hbelow]
      rfl
    · next hr => exact hfits.compiled_eq_none fun hready' => hr (hready.2 hready')
  have hverified : v.verified = e.valid := by
    have hvalid : e.valid = (e.ready && accepts verifier v.inputs.resource e.value) := by
      rw [← he]
      rfl
    rw [hfits.verified_eq, hcompiled, hvalid]
    cases e.ready <;> rfl
  refine ⟨hcompiled, hverified, ?_⟩
  rw [NodeView.dependable, hverified, ← he]
  rfl

/-- A registry in which nothing is left to do agrees with evaluation from scratch. -/
theorem Rested.agrees_evaluate (h : Rested verifier r) (k : String) {v : NodeView}
    (hv : r.view? k = some v) :
    ∃ e, r.evaluate verifier k = some e ∧ Agrees v e := by
  obtain ⟨depth, -, hdepth⟩ := h.wired.exists_depth
  -- Along the dependencies: those of a node lie less deep than the node.
  induction hk : depth k using Nat.strongRecOn generalizing k v with
  | _ n ih =>
    have heval := h.wired.evaluate_eq verifier k
    obtain ⟨m, hm, rfl⟩ := exists_get? hv
    rw [hm, Option.map_some] at heval
    refine ⟨_, heval, ?_⟩
    refine h.agrees_ofInputs hv (fun d hd hd' => ?_) fun d hd w hw => ?_
    · rw [h.wired.evaluate_eq verifier d]
      rw [view?, Option.map_eq_none_iff] at hd'
      rw [hd', Option.map_none]
    · have hlt := hdepth k (Node.inputs m) (by rw [hm, Option.map_some]) d hd
      exact ih (depth d) (hk ▸ hlt) d hw rfl

/-- A registered node agrees with its evaluation. -/
theorem Rested.agrees_of_get? (h : Rested verifier r) {k : String} {n : ν} {e : Evaluation}
    (hn : r.get? k = some n) (he : r.evaluate verifier k = some e) : Agrees (Node.view n) e := by
  obtain ⟨e', he', hagrees⟩ := h.agrees_evaluate k (view?_of_get? hn)
  obtain rfl : e' = e := Option.some.inj (he'.symm.trans he)
  exact hagrees

end Registry

/-! ## In terms of the nodes -/

namespace Registry

variable {ν : Type} [Node ν] [NodeKind ν]

/-- Nodes and cache are what comes out when every node is evaluated from scratch. -/
structure Evaluated (verifier : Option Verifier) (r : Registry ν) : Prop where
  /-- Evaluations rest on each other along the dependencies. -/
  evaluate_eq : ∀ k, r.evaluate verifier k =
    (r.get? k).map fun n => Evaluation.ofInputs verifier (Node.inputs n) (r.evaluate verifier)
  compiled_eq : ∀ k n e, r.get? k = some n → r.evaluate verifier k = some e →
    Node.compiled n = if e.ready then some e.value else none
  dependable_eq : ∀ k n e, r.get? k = some n → r.evaluate verifier k = some e →
    Node.isDependable n = e.dependable
  compiled?_eq : ∀ k, r.compiled? k =
    (r.evaluate verifier k).bind fun e => if e.ready then some e.value else none
  recorded_eq : ∀ k n, r.get? k = some n → ∀ d ∈ Node.dependencies n,
    KeyMap.find? (Node.readiness n) d = some ((r.evaluate verifier d).any (·.dependable))

variable [LawfulNode ν] {verifier : Option Verifier} {r : Registry ν}

/-- Where values fit and nothing is left to be compiled, evaluation gives what is there. -/
theorem Rested.evaluated (h : Rested verifier r) : r.Evaluated verifier := by
  have hagrees : ∀ k n e, r.get? k = some n → r.evaluate verifier k = some e →
      Agrees (Node.view n) e := fun _ _ _ hn he => h.agrees_of_get? hn he
  -- Nodes that are not registered come to nothing.
  have hcases : ∀ k, (r.get? k = none ∧ r.evaluate verifier k = none) ∨
      ∃ n e, r.get? k = some n ∧ r.evaluate verifier k = some e := by
    intro k
    have heval := h.wired.evaluate_eq verifier k
    cases hn : r.get? k with
    | none =>
      rw [hn, Option.map_none] at heval
      exact .inl ⟨rfl, heval⟩
    | some n =>
      rw [hn, Option.map_some] at heval
      exact .inr ⟨n, _, rfl, heval⟩
  refine ⟨h.wired.evaluate_eq verifier, fun k n e hn he => (hagrees k n e hn he).compiled_eq,
    fun k n e hn he => ?_, fun k => ?_, fun k n hn d hd => ?_⟩
  · rw [LawfulNode.isDependable_eq]
    exact (hagrees k n e hn he).dependable_eq
  · rw [h.compiled?_eq, value?, view?]
    rcases hcases k with ⟨hn, he⟩ | ⟨n, e, hn, he⟩
    · rw [hn, he]
      rfl
    · rw [hn, he]
      exact (hagrees k n e hn he).compiled_eq
  · have hrecorded : KeyMap.find? (Node.readiness n) d = some (r.isDependable d) :=
      h.recorded_eq k _ (view?_of_get? hn) d hd
    rw [hrecorded]
    rcases hcases d with ⟨hn', he⟩ | ⟨n', e, hn', he⟩
    · rw [he, isDependable, hn']
      rfl
    · rw [he, isDependable_of_view? (view?_of_get? hn')]
      exact congrArg some (hagrees d n' e hn' he).dependable_eq

/-- Whatever is done to a registry that compiles on the spot, it is at rest then. -/
theorem rested_operateAll (sandbox : SandboxConfig) (verifier : Option Verifier)
    (operations : List (Operation ν)) :
    Rested verifier ((fresh { compileMode := .inline, sandbox } verifier : Registry ν).operateAll
      operations) := by
  let config : EngineConfig := { compileMode := .inline, sandbox }
  have hsound := (coherent_fresh (ν := ν) config verifier).sound_operateAll operations
  have hfresh : ∀ k, ((fresh config verifier : Registry ν).outlook []).outline? k = none :=
    fun _ => rfl
  have hvalued := hsound.evolves _ Outlook.kept_valued fun k l x hl => by simp [hfresh] at hl
  have hprompt := hsound.evolves _ Outlook.kept_prompt
    ⟨rfl, fun k l hl => by simp [hfresh] at hl⟩
  refine ⟨hsound.coherent, hvalued, fun k v hv hready => ?_⟩
  cases hc : v.compiled with
  | some x => rfl
  | none =>
    have hdue := hprompt.2 k v.outline (outline?_outlook hv) (decide_eq_true hready) hc
    exact absurd hdue List.not_mem_nil

/-- A registry that compiles on the spot always holds what comes out when the nodes registered at
the moment are evaluated from scratch. A node says that it holds a value if it is ready, and that
its value is valid if it is. Generations do not wrap: this is about fewer than `2 ^ 64` compile
requests. -/
theorem evaluated_operateAll (sandbox : SandboxConfig) (verifier : Option Verifier) :
    (∀ operations : List (Operation EntitlementNode),
      let r := (fresh { compileMode := .inline, sandbox } verifier).operateAll operations
      r.Evaluated verifier ∧
        ∀ k n e, r.get? k = some n → r.evaluate verifier k = some e →
          n.has .compiled = e.ready ∧ n.has .valid = e.valid) ∧
    (∀ operations : List (Operation ProfileNode),
      let r := (fresh { compileMode := .inline, sandbox } verifier).operateAll operations
      r.Evaluated verifier ∧
        ∀ k n e, r.get? k = some n → r.evaluate verifier k = some e →
          n.compiled.isSome = e.ready ∧ n.isValid = e.valid) := by
  constructor
  · intro operations r
    have hrested := rested_operateAll (ν := EntitlementNode) sandbox verifier operations
    refine ⟨hrested.evaluated, fun k n e hn he => ?_⟩
    have hv := view?_of_get? hn
    have hagrees := hrested.agrees_of_get? hn he
    exact ⟨(hrested.fits k _ hv).marked_eq.trans hagrees.isSome_eq, hagrees.verified_eq⟩
  · intro operations r
    have hrested := rested_operateAll (ν := ProfileNode) sandbox verifier operations
    refine ⟨hrested.evaluated, fun k n e hn he => ?_⟩
    have hagrees := hrested.agrees_of_get? hn he
    exact ⟨hagrees.isSome_eq, hagrees.verified_eq⟩

end Registry

end LayeredAccess
