/-
  LayeredAccess.Proofs.Registry.Delegation

  A registry that leaves compiling to a service, to which it is connected by a
  client, and is driven now and then, next to one that compiles on the spot.

  As long as jobs wait, the first lags behind the second. But the two have the
  same definitions at any time, and after the next drive nothing waits; then
  both hold what comes out when these definitions are evaluated from scratch.
-/
import LayeredAccess.Proofs.Registry.Driving
import LayeredAccess.Proofs.Registry.Evaluation

namespace LayeredAccess

/-- A registry, and its connection to the service that compiles for it alone. -/
structure Delegation (ν : Type) [Node ν] where
  registry : Registry ν
  connection : Connection := {}

namespace Delegation

variable {ν : Type} [Node ν] [NodeKind ν]

/-- Something that happens to a registry that is driven now and then. -/
inductive Event (ν : Type) [Node ν] [NodeKind ν] where
  | operate (operation : Operation ν)
  | drive

def step (s : Delegation ν) : Event ν → Delegation ν
  | .operate operation => { s with registry := s.registry.operate operation }
  | .drive =>
    let (_, registry, connection) := s.registry.drive Connection.remote s.connection
    { registry, connection }

def run (s : Delegation ν) (events : List (Event ν)) : Delegation ν := events.foldl step s

/-- Before anything has happened. -/
def start (sandbox : SandboxConfig) (verifier : Option Verifier) : Delegation ν where
  registry := .fresh { compileMode := .deferred, sandbox } verifier

/-- What users do, without the drives. -/
def operations (events : List (Event ν)) : List (Operation ν) :=
  events.filterMap fun
    | .operate operation => some operation
    | .drive => none

/-- How a drive after some events ends, and the registry then. -/
def driven (sandbox : SandboxConfig) (verifier : Option Verifier) (events : List (Event ν)) :
    Except EngineError Nat × Registry ν :=
  let s := (start sandbox verifier).run events
  let (result, registry, _) := s.registry.drive Connection.remote s.connection
  (result, registry)

/-- A registry that compiles on the spot, after what users do in some events. -/
def inline (sandbox : SandboxConfig) (verifier : Option Verifier) (events : List (Event ν)) :
    Registry ν :=
  Registry.operateAll (.fresh { compileMode := .inline, sandbox } verifier) (operations events)

end Delegation

namespace Registry

variable {ν : Type} [Node ν] [NodeKind ν]

/-! ## Equal definitions -/

section Same

variable [BareNode ν] {verifier : Option Verifier} {r r' : Registry ν}

/-- Evaluation from scratch goes by the definitions alone. -/
theorem Same.evaluate_eq (h : Same r r') (hr : Wired r) (hr' : Wired r')
    (verifier : Option Verifier) (k : String) : r.evaluate verifier k = r'.evaluate verifier k := by
  have hinputs : (fun k => (r.get? k).map Node.inputs) = fun k => (r'.get? k).map Node.inputs := by
    funext k
    rcases h.get?_cases k with ⟨hn, hn'⟩ | ⟨n, n', hn, hn', hbare⟩
    · rw [hn, hn']
    · rw [hn, hn', Option.map_some, Option.map_some, BareNode.inputs_congr hbare]
  obtain ⟨depth, hle, hdepth⟩ := hr.exists_depth
  obtain ⟨depth', hle', hdepth'⟩ := hr'.exists_depth
  have := hle k
  have := hle' k
  calc r.evaluate verifier k
      = Evaluation.within verifier (fun k => (r.get? k).map Node.inputs) (r.size + r'.size + 1) k :=
        Evaluation.within_eq hdepth _ _ k (by omega) (by omega)
    _ = Evaluation.within verifier (fun k => (r'.get? k).map Node.inputs)
          (r.size + r'.size + 1) k := by rw [hinputs]
    _ = r'.evaluate verifier k := Evaluation.within_eq hdepth' _ _ k (by omega) (by omega)

end Same

/-! ## Registries at rest -/

/-- Two registries hold the same: the same nodes, which have come equally far, and the same
compiled values in their caches. Of what nodes have recorded, only what they know of their
dependencies counts. -/
structure Equivalent (r r' : Registry ν) : Prop where
  get?_eq : ∀ k, (r.get? k).map (Node.setReadiness · []) = (r'.get? k).map (Node.setReadiness · [])
  compiled?_eq : ∀ k, r.compiled? k = r'.compiled? k
  recorded_eq : ∀ k n n', r.get? k = some n → r'.get? k = some n' → ∀ d ∈ Node.dependencies n,
    KeyMap.find? (Node.readiness n) d = KeyMap.find? (Node.readiness n') d

variable [LawfulNode ν] [BareNode ν] {verifier : Option Verifier} {r r' : Registry ν}

/-- Nodes with the same definition come equally far in registries at rest. -/
theorem Rested.setReadiness_eq {k : String} {n n' : ν} (h : Rested verifier r)
    (h' : Rested verifier r') (hs : Same r r') (hn : r.get? k = some n) (hn' : r'.get? k = some n')
    (hbare : Node.bare n = Node.bare n') :
    Node.setReadiness n [] = Node.setReadiness n' [] := by
  obtain ⟨e, he, hagrees⟩ := h.agrees_evaluate k (view?_of_get? hn)
  obtain ⟨e', he', hagrees'⟩ := h'.agrees_evaluate k (view?_of_get? hn')
  have hmarked := (h.fits k _ (view?_of_get? hn)).marked_eq
  have hmarked' := (h'.fits k _ (view?_of_get? hn')).marked_eq
  obtain rfl : e = e' := by
    rw [← hs.evaluate_eq h.wired h'.wired verifier, he] at he'
    exact Option.some.inj he'
  refine BareNode.ext hbare ?_ ?_ ?_
  · exact hagrees.compiled_eq.trans hagrees'.compiled_eq.symm
  · exact (hmarked.trans hagrees.isSome_eq).trans (hmarked'.trans hagrees'.isSome_eq).symm
  · exact hagrees.verified_eq.trans hagrees'.verified_eq.symm

/-- Registries at rest with the same definitions hold the same. -/
theorem Rested.equivalent (h : Rested verifier r) (h' : Rested verifier r') (hs : Same r r') :
    Equivalent r r' := by
  have hsame := hs.evaluate_eq h.wired h'.wired verifier
  refine ⟨fun k => ?_, fun k => ?_, fun k n n' hn hn' d hd => ?_⟩
  · rcases hs.get?_cases k with ⟨hn, hn'⟩ | ⟨n, n', hn, hn', hbare⟩
    · rw [hn, hn']
    · rw [hn, hn', Option.map_some, Option.map_some, h.setReadiness_eq h' hs hn hn' hbare]
  · rw [h.evaluated.compiled?_eq, h'.evaluated.compiled?_eq, hsame]
  · rcases hs.get?_cases k with ⟨hn₀, -⟩ | ⟨m, m', hm, hm', hbare⟩
    · simp [hn] at hn₀
    · obtain rfl : n = m := Option.some.inj (hn.symm.trans hm)
      obtain rfl : n' = m' := Option.some.inj (hn'.symm.trans hm')
      rw [h.evaluated.recorded_eq k n hn d hd,
        h'.evaluated.recorded_eq k n' hn' d (dependencies_congr hbare ▸ hd), hsame]

omit [BareNode ν] [LawfulNode ν] in
/-- When nothing is on its way no node waits. -/
theorem Coherent.rested {given : List CompileJob} {s : Compiler} (h : Coherent verifier r)
    (ht : (r.outlook []).Tended (idle given s)) (houtbox : r.outbox = []) : Rested verifier r := by
  refine ⟨h, ht.valued, fun k v hv hready => ?_⟩
  cases hc : v.compiled with
  | some x => rfl
  | none =>
    have hwaiting : (r.outlook []).Waiting k :=
      ⟨List.not_mem_nil, v.outline, outline?_outlook hv, decide_eq_true hready, hc⟩
    obtain ⟨g, -, ⟨job, hjob, -⟩ | ⟨a, ha, -⟩⟩ := ht.attended k hwaiting
    · rw [show (r.outlook []).outbox = [] from houtbox] at hjob
      exact absurd hjob List.not_mem_nil
    · exact absurd ha List.not_mem_nil

end Registry

/-! ## What is kept -/

namespace Delegation

open Registry

variable {ν : Type} [Node ν] [NodeKind ν]

/-- No node is forgotten, and the definitions are those of a registry that compiles on the spot. -/
structure Invariant (verifier : Option Verifier) (s : Delegation ν) (r : Registry ν) : Prop where
  coherent : Coherent verifier s.registry
  connected : s.connection.Idle
  tended : ∃ given, (s.registry.outlook []).Tended (idle given s.connection.service)
  same : Same s.registry r

variable {verifier : Option Verifier} {s : Delegation ν} {r : Registry ν}

theorem invariant_start (sandbox : SandboxConfig) (verifier : Option Verifier)
    (config : EngineConfig) :
    Invariant verifier (start sandbox verifier : Delegation ν) (.fresh config verifier) := by
  refine ⟨coherent_fresh _ verifier, Connection.idle_empty, ⟨[], ⟨?_, fun k hk => ?_⟩⟩,
    ⟨fun _ => rfl, rfl⟩⟩
  · exact Outlook.matched_empty (fun _ => rfl) rfl rfl _
  · obtain ⟨-, l, hl, -⟩ := hk
    exact absurd hl (by simp [start, outlook, view?, get?, fresh])

variable [BareNode ν]

theorem generation_le_step (s : Delegation ν) (event : Event ν) :
    s.registry.generation ≤ (s.step event).registry.generation := by
  cases event with
  | operate operation => exact generation_le_operate s.registry operation
  | drive => exact (onward_drive _ s.registry s.connection).generation_le

theorem generation_le_run (s : Delegation ν) (events : List (Event ν)) :
    s.registry.generation ≤ (s.run events).registry.generation := by
  induction events generalizing s with
  | nil => exact Nat.le_refl _
  | cons event rest ih => exact Nat.le_trans (generation_le_step s event) (ih (s.step event))

variable [LawfulNode ν]

theorem Invariant.operate (h : Invariant verifier s r) (operation : Operation ν) :
    Invariant verifier (s.step (.operate operation)) (r.operate operation) := by
  have hsound := h.coherent.sound_operate operation
  obtain ⟨given, ht⟩ := h.tended
  exact ⟨hsound.coherent, h.connected, ⟨given, hsound.evolves _ (Outlook.kept_tended _) ht⟩,
    h.same.operate operation⟩

/-- A drive ends with an empty outbox. -/
theorem Invariant.drive (h : Invariant verifier s r)
    (hword : (s.step .drive).registry.generation < wordLimit) :
    Invariant verifier (s.step .drive) r ∧ (s.step .drive).registry.outbox = [] ∧
      ∃ count, (s.registry.drive Connection.remote s.connection).1 = .ok count := by
  obtain ⟨given, ht⟩ := h.tended
  obtain ⟨count, r', connection, _, given', hdrive, ⟨hidle, rfl⟩, houtbox, hcoherent, ht'⟩ :=
    h.coherent.drive_eq Connection.serves_remote ⟨h.connected, rfl⟩ ht hword
  have hsame := (onward_drive Connection.remote s.registry s.connection).toSame
  simp only [step]
  rw [hdrive] at hsame ⊢
  exact ⟨⟨hcoherent, hidle, ⟨given', ht'⟩, hsame.symm.trans h.same⟩, houtbox, count, rfl⟩

theorem Invariant.run (h : Invariant verifier s r) (events : List (Event ν))
    (hword : (s.run events).registry.generation < wordLimit) :
    Invariant verifier (s.run events) (r.operateAll (operations events)) := by
  induction events generalizing s r with
  | nil => exact h
  | cons event rest ih =>
    cases event with
    | operate operation => exact ih (h.operate operation) hword
    | drive =>
      have hfirst := Nat.lt_of_le_of_lt (generation_le_run (s.step .drive) rest) hword
      exact ih (h.drive hfirst).1 hword

/-- A drive succeeds, it leaves nothing in the outbox, and the registry then holds the same as
another one. -/
structure Refines (driven : Except EngineError Nat × Registry ν) (r : Registry ν) : Prop where
  succeeds : ∃ count, driven.1 = .ok count
  outbox_eq : driven.2.outbox = []
  equivalent : Equivalent driven.2 r

/-- A drive makes up for what a registry that compiles on the spot has done before. -/
theorem Invariant.refines (h : Invariant verifier s r) (hr : Rested verifier r)
    (hword : (s.step .drive).registry.generation < wordLimit) :
    Refines ((s.registry.drive Connection.remote s.connection).1, (s.step .drive).registry) r := by
  obtain ⟨hdriven, houtbox, hcount⟩ := h.drive hword
  obtain ⟨given, ht⟩ := hdriven.tended
  have hrested := hdriven.coherent.rested ht houtbox
  exact ⟨hcount, houtbox, hrested.equivalent hr hdriven.same⟩

theorem refines_driven (sandbox : SandboxConfig) (verifier : Option Verifier)
    (events : List (Event ν)) (hword : (driven sandbox verifier events).2.generation < wordLimit) :
    Refines (driven sandbox verifier events) (inline sandbox verifier events) := by
  let s : Delegation ν := (start sandbox verifier).run events
  have hlast : (s.step .drive).registry.generation < wordLimit := hword
  have hrun := Nat.lt_of_le_of_lt (generation_le_step s .drive) hlast
  have hinv :=
    (invariant_start sandbox verifier { compileMode := .inline, sandbox }).run events hrun
  exact hinv.refines (rested_operateAll sandbox verifier (operations events)) hlast

/-- Whatever has been done to a registry of entitlements or of profiles, and wherever it has been
driven, a drive succeeds and leaves nothing in the outbox, and the registry then holds what it
would if it compiled on the spot. Generations have to fit into the words that messages have for
them. -/
theorem drive_refines_inline (sandbox : SandboxConfig) (verifier : Option Verifier) :
    (∀ events : List (Event EntitlementNode),
      (driven sandbox verifier events).2.generation < wordLimit →
        Refines (driven sandbox verifier events) (inline sandbox verifier events)) ∧
    (∀ events : List (Event ProfileNode),
      (driven sandbox verifier events).2.generation < wordLimit →
        Refines (driven sandbox verifier events) (inline sandbox verifier events)) :=
  ⟨refines_driven sandbox verifier, refines_driven sandbox verifier⟩

/-- An update after a drive takes back what was compiled, and the next drive makes up for it. -/
theorem drive_refines_inline_update :
    let events : List (Event EntitlementNode) :=
      [.operate (.add { id := "root" }), .drive,
        .operate (.update "root" { own := some (.mkObj [("a", .int 7)]) })]
    let events' : List (Event ProfileNode) :=
      [.operate (.add { name := "root" }), .drive, .operate .clearCache]
    ((driven {} none events).2.generation < wordLimit ∧
      Refines (driven {} none events) (inline {} none events)) ∧
    (driven {} none events').2.generation < wordLimit ∧
      Refines (driven {} none events') (inline {} none events') := by
  intro events events'
  have hword : (driven {} none events).2.generation < wordLimit := by decide +kernel
  have hword' : (driven {} none events').2.generation < wordLimit := by decide +kernel
  exact ⟨⟨hword, (drive_refines_inline {} none).1 events hword⟩, hword',
    (drive_refines_inline {} none).2 events' hword'⟩

end Delegation

end LayeredAccess
