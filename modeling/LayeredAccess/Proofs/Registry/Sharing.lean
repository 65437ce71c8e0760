/-
  LayeredAccess.Proofs.Registry.Sharing

  A registry of entitlements and a hub of profiles that compile into one cache.

  As long as no key is registered on both sides, either side writes and reads
  about its own nodes only. So there is one case alone in which what is cached
  of the nodes of one side changes through the other, namely when the cache is
  cleared while something is cached of them: a clear drops the values of both
  sides, but only the nodes of the side that clears are reset and compiled
  anew. A side to which this never happens stays coherent (`sharing_run`).
-/
import LayeredAccess.Proofs.Registry.CacheReads
import LayeredAccess.Registry.Hub

namespace LayeredAccess

namespace Registry

variable {ν μ : Type} [Node ν] [NodeKind ν] {verifier : Option Verifier} {r : Registry ν}
  {s : Registry μ} {k : String}

/-! ## Coherence around a cache that is shared -/

/-- The nodes of a registry fare as if it had its compiler for itself. -/
def Sheltered (verifier : Option Verifier) (r : Registry ν) : Prop :=
  ∃ r₀, Coherent verifier r₀ ∧ Twin r₀ r

theorem sheltered_fresh (config : EngineConfig) (verifier : Option Verifier) :
    Sheltered verifier (fresh config verifier : Registry ν) :=
  ⟨_, coherent_fresh config verifier, .refl _⟩

/-- What is cached of a node is the value that it holds. -/
theorem Sheltered.compiled?_eq (h : Sheltered verifier r) (hk : r.contains k = true) :
    r.compiled? k = (r.get? k).bind Node.compiled := by
  obtain ⟨r₀, hcoherent, htwin⟩ := h
  rw [htwin.contains_eq] at hk
  rw [htwin.compiled?_eq hk, htwin.get?_eq, hcoherent.faithful.compiled?_eq]

/-- Others may change what is cached of other keys. -/
theorem Sheltered.around (h : Sheltered verifier r) {c : Compiler}
    (hc : ∀ k, r.contains k = true → c.get? k = r.compiled? k) :
    Sheltered verifier (r.around c) := by
  obtain ⟨r₀, hcoherent, htwin⟩ := h
  refine ⟨r₀, hcoherent, c, ?_, fun k hk => ?_⟩
  · obtain ⟨c₀, rfl, -⟩ := htwin
    rfl
  · rw [hc k ((htwin.contains_eq k).trans hk), htwin.compiled?_eq hk]

/-- Nothing may be cached yet of a node that is entered. -/
theorem Sheltered.operate [LawfulNode ν] [LinkedNode ν] (h : Sheltered verifier r)
    (operation : Operation ν) (hnew : ∀ k, r.contains k = false →
      (r.operate operation).contains k = true → r.compiled? k = none) :
    Sheltered verifier (r.operate operation) := by
  obtain ⟨r₀, hcoherent, htwin⟩ := h
  refine ⟨r₀.operate operation, (hcoherent.sound_operate operation).coherent,
    htwin.operate operation fun k hk hk' => ?_⟩
  -- The twin does not have the node yet either, and nothing is cached there of what it lacks.
  have hnone : r₀.get? k = none := by
    rw [contains, htwin.get?_eq] at hk
    simpa using hk
  rw [hnew k hk hk', hcoherent.faithful.compiled?_eq, hnone, Option.bind_none]

/-! ## Two registries around one compiler -/

/-- Two registries share a compiler and no key, and what is cached belongs to one of them. -/
structure Neighbours (r : Registry ν) (s : Registry μ) : Prop where
  shared : s.compiler = r.compiler
  apart : ∀ k, r.contains k = true → s.contains k = false
  owned : ∀ k, r.contains k = false → s.contains k = false → r.compiled? k = none

omit [Node ν] [NodeKind ν] in
/-- The other registry does not have the keys of the one. -/
theorem eq_false_of_apart (h : ∀ k, r.contains k = true → s.contains k = false)
    (hk : s.contains k = true) : r.contains k = false := by
  cases hr : r.contains k with
  | false => rfl
  | true => rw [h k hr] at hk; cases hk

omit [Node ν] [NodeKind ν] in
theorem Neighbours.symm (h : Neighbours r s) : Neighbours s r :=
  ⟨h.shared.symm, fun _ hk => eq_false_of_apart h.apart hk, fun k hs hr => by
    rw [compiled?, h.shared]
    exact h.owned k hr hs⟩

omit [Node ν] [NodeKind ν] in
theorem Neighbours.compiled?_eq (h : Neighbours r s) (k : String) :
    s.compiled? k = r.compiled? k := by
  rw [compiled?, h.shared, compiled?]

variable [LawfulNode ν] [LinkedNode ν] {operation : Operation ν}

/-- Unless it clears the cache, an operation on one registry leaves alone what is cached of the
nodes of the other. -/
theorem Neighbours.compiled?_operate (h : Neighbours r s)
    (hapart : ∀ k, (r.operate operation).contains k = true → s.contains k = false)
    (hclears : operation.clears = false) (hk : s.contains k = true) :
    (r.operate operation).compiled? k = s.compiled? k := by
  rw [h.compiled?_eq]
  exact Registry.compiled?_operate hclears (eq_false_of_apart h.apart hk)
    (eq_false_of_apart hapart hk)

/-- A clear drops all that is cached of the nodes of the other registry. -/
theorem Neighbours.compiled?_of_clears (h : Neighbours r s) (hclears : operation.clears = true)
    (hk : s.contains k = true) : (r.operate operation).compiled? k = none := by
  cases operation with
  | clearCache => exact compiled?_clearCache (eq_false_of_apart h.apart hk)
  | add | update | delete | customize => cases hclears

/-- So an operation on one registry changes something that is cached of the nodes of the other if
and only if it clears the cache while something is. -/
theorem Neighbours.compiled?_operate_eq_iff (h : Neighbours r s)
    (hapart : ∀ k, (r.operate operation).contains k = true → s.contains k = false) :
    (∀ k, s.contains k = true → (r.operate operation).compiled? k = s.compiled? k) ↔
      (operation.clears = true → ∀ k, s.contains k = true → s.compiled? k = none) := by
  constructor
  · intro hsame hclears k hk
    rw [← hsame k hk]
    exact h.compiled?_of_clears hclears hk
  · intro hnone k hk
    cases hclears : operation.clears with
    | true => rw [hnone hclears k hk, h.compiled?_of_clears hclears hk]
    | false => exact h.compiled?_operate hapart hclears hk

theorem Neighbours.operate (h : Neighbours r s)
    (hapart : ∀ k, (r.operate operation).contains k = true → s.contains k = false) :
    Neighbours (r.operate operation) (s.around (r.operate operation).compiler) := by
  refine ⟨rfl, hapart, fun k hk' hs => ?_⟩
  cases hk : r.contains k with
  | true => exact compiled?_operate_of_removed hk hk'
  | false =>
    cases hclears : operation.clears with
    | true =>
      cases operation with
      | clearCache => exact compiled?_clearCache hk
      | add | update | delete | customize => cases hclears
    | false => rw [Registry.compiled?_operate hclears hk hk', h.owned k hk hs]

/-- A registry stays sheltered whatever it does itself. -/
theorem Neighbours.sheltered_operate (h : Neighbours r s)
    (hapart : ∀ k, (r.operate operation).contains k = true → s.contains k = false)
    (hr : Sheltered verifier r) : Sheltered verifier (r.operate operation) :=
  hr.operate operation fun k hk hk' => h.owned k hk (hapart k hk')

end Registry

/-! ## Engines -/

/-- One of the two registries of an engine. -/
inductive Side where
  | entitlements
  | profiles
  deriving DecidableEq

def Side.other : Side → Side
  | entitlements => profiles
  | profiles => entitlements

namespace Engine

/-- Something that is done to one side of an engine, whether it is refused or not. -/
inductive Event where
  | entitlements (operation : Operation EntitlementNode)
  | profiles (operation : Operation ProfileNode)
  | handleProfile (profile : Profile)
  | deleteProfile (name : String)

/-- The side that an event is about. -/
def Event.side : Event → Side
  | entitlements _ => .entitlements
  | _ => .profiles

/-- Does an event clear the cache? -/
def Event.clears : Event → Bool
  | entitlements operation => operation.clears
  | profiles operation => operation.clears
  | _ => false

def step (e : Engine) : Event → Engine
  | .entitlements operation => (e.onEntitlements fun r => ((), r.operate operation)).2
  | .profiles operation => (e.onProfiles (·.onRegistry fun r => ((), r.operate operation))).2
  | .handleProfile profile => (e.onProfiles (·.handleProfile profile)).2
  | .deleteProfile name => (e.onProfiles (·.deleteProfile name)).2

def run (e : Engine) (events : List Event) : Engine := events.foldl step e

/-- Before anything has been done to either side. -/
def start (config config' : EngineConfig) (verifier verifier' : Option Verifier) : Engine where
  entitlements := .fresh config verifier
  profiles := ⟨.fresh config' verifier'⟩

/-- Is a key registered on one side? -/
def contains (e : Engine) : Side → String → Bool
  | .entitlements => e.entitlements.contains
  | .profiles => e.profiles.registry.contains

/-- What one side finds cached of a key. -/
def compiled? (e : Engine) : Side → String → Option Json
  | .entitlements => e.entitlements.compiled?
  | .profiles => e.profiles.compiled?

/-- The value that a node of one side holds. -/
def value? (e : Engine) : Side → String → Option Json
  | .entitlements => fun k => (e.entitlements.get? k).bind Node.compiled
  | .profiles => fun k => (e.profiles.registry.get? k).bind Node.compiled

/-- No key is registered on both sides. -/
def Apart (e : Engine) : Prop := ∀ k ∈ e.entitlements.keys, e.contains .profiles k = false

instance (e : Engine) : Decidable e.Apart := inferInstanceAs (Decidable (∀ k ∈ _, _))

/-- An event does not clear the cache while something is cached of the nodes of the other side. -/
def Considerate (e : Engine) (event : Event) : Prop :=
  event.clears = true → ∀ k, e.contains event.side.other k = true →
    e.compiled? event.side.other k = none

/-- Something holds of some events in turn, each together with the engine that it meets. -/
def Along (P : Engine → Event → Prop) (e : Engine) : List Event → Prop
  | [] => True
  | event :: rest => P e event ∧ Along P (e.step event) rest

/-- What becomes of the other side in an event. -/
structure Leaves (e : Engine) (event : Event) : Prop where
  contains_eq : ∀ k, (e.step event).contains event.side.other k = e.contains event.side.other k
  value?_eq : ∀ k, (e.step event).value? event.side.other k = e.value? event.side.other k
  /-- What is cached of its nodes stays as it is, except if the cache is cleared while something
  is. -/
  compiled?_eq_iff : (∀ k, e.contains event.side.other k = true →
    (e.step event).compiled? event.side.other k = e.compiled? event.side.other k) ↔
      e.Considerate event
  /-- Then all of it is lost. -/
  compiled?_of_clears : event.clears = true → ∀ k, e.contains event.side.other k = true →
    (e.step event).compiled? event.side.other k = none

/-! ## What holds at every point -/

/-- The operation on the hub's registry that a definition from outside amounts to. -/
def handling (e : Engine) (profile : Profile) : Operation ProfileNode :=
  if e.contains .profiles profile.name then .update profile.name profile.toPatch else .add profile

theorem clears_handling (e : Engine) (profile : Profile) :
    (e.handling profile).clears = false := by
  unfold handling
  split <;> rfl

theorem step_handleProfile (e : Engine) (profile : Profile) :
    e.step (.handleProfile profile) = e.step (.profiles (e.handling profile)) := by
  cases hk : e.profiles.registry.contains profile.name with
  | true =>
    have hupdate : e.handling profile = .update profile.name profile.toPatch := if_pos hk
    simp only [step, hupdate, onProfiles, ProfileHub.handleProfile, ProfileHub.onRegistry, hk,
      if_true]
    rfl
  | false =>
    have hadd : e.handling profile = .add profile := if_neg (by simp [contains, hk])
    simp only [step, hadd, onProfiles, ProfileHub.handleProfile, ProfileHub.onRegistry, hk,
      Bool.false_eq_true, if_false]
    rfl

variable {e : Engine} {verifier verifier' : Option Verifier} {event : Event} {side : Side}

theorem apart_iff : e.Apart ↔ ∀ k, e.entitlements.contains k = true →
    e.profiles.registry.contains k = false := by
  refine forall_congr' fun k => ?_
  rw [Registry.keys, KeyMap.mem_keys_iff]
  rfl

/-- Every event of the profiles is an operation on the registry of the hub. -/
theorem exists_operation (e : Engine) (event : Event) :
    (∃ operation, event = .entitlements operation) ∨
      ∃ operation, event.side = .profiles ∧ event.clears = operation.clears ∧
        e.step event = e.step (.profiles operation) := by
  cases event with
  | entitlements operation => exact .inl ⟨operation, rfl⟩
  | profiles operation => exact .inr ⟨operation, rfl, rfl, rfl⟩
  | handleProfile profile =>
    exact .inr ⟨e.handling profile, rfl, (clears_handling e profile).symm,
      step_handleProfile e profile⟩
  | deleteProfile name => exact .inr ⟨.delete name, rfl, rfl, rfl⟩

/-- Every event is an operation on one of the registries, which takes no key of the other. -/
theorem exists_operation_of_apart (hapart : (e.step event).Apart) :
    (∃ operation, event = .entitlements operation ∧
      ∀ k, (e.entitlements.operate operation).contains k = true →
        e.profiles.registry.contains k = false) ∨
    ∃ operation, event.side = .profiles ∧ event.clears = operation.clears ∧
      e.step event = e.step (.profiles operation) ∧
      ∀ k, (e.profiles.registry.operate operation).contains k = true →
        e.entitlements.contains k = false := by
  rw [apart_iff] at hapart
  obtain ⟨operation, rfl⟩ | ⟨operation, hside, hclears, hstep⟩ := exists_operation e event
  · exact .inl ⟨operation, rfl, hapart⟩
  · rw [hstep] at hapart
    exact .inr ⟨operation, hside, hclears, hstep, fun k hk => Registry.eq_false_of_apart hapart hk⟩

/-- The two sides of an engine, around their common compiler. -/
abbrev Invariant (e : Engine) : Prop := Registry.Neighbours e.entitlements e.profiles.registry

theorem invariant_start (config config' : EngineConfig) (verifier verifier' : Option Verifier) :
    Invariant (start config config' verifier verifier') :=
  ⟨rfl, fun _ _ => rfl, fun _ _ _ => rfl⟩

theorem Invariant.step (h : Invariant e) (hapart : (e.step event).Apart) :
    Invariant (e.step event) := by
  obtain ⟨operation, rfl, hkeys⟩ | ⟨operation, -, -, hstep, hkeys⟩ :=
    exists_operation_of_apart hapart
  · exact h.operate hkeys
  · exact hstep ▸ (h.symm.operate hkeys).symm

theorem Invariant.leaves (h : Invariant e) (hapart : (e.step event).Apart) : Leaves e event := by
  obtain ⟨operation, rfl, hkeys⟩ | ⟨operation, hside, hclears, hstep, hkeys⟩ :=
    exists_operation_of_apart hapart
  · exact ⟨fun _ => rfl, fun _ => rfl, h.compiled?_operate_eq_iff hkeys,
      fun hclears k hk => h.compiled?_of_clears hclears hk⟩
  · have hiff := h.symm.compiled?_operate_eq_iff hkeys
    refine ⟨?_, ?_, ?_, ?_⟩
    all_goals simp only [Considerate, hside, hclears, hstep]
    · exact fun _ => rfl
    · exact fun _ => rfl
    · exact hiff
    · exact fun hclears k hk => h.symm.compiled?_of_clears hclears hk

/-- One side of an engine fares as if it had the compiler for itself. -/
def Sheltered (verifier verifier' : Option Verifier) (e : Engine) : Side → Prop
  | .entitlements => Registry.Sheltered verifier e.entitlements
  | .profiles => Registry.Sheltered verifier' e.profiles.registry

theorem sheltered_start (config config' : EngineConfig) (verifier verifier' : Option Verifier)
    (side : Side) :
    (start config config' verifier verifier').Sheltered verifier verifier' side := by
  cases side with
  | entitlements => exact Registry.sheltered_fresh config verifier
  | profiles => exact Registry.sheltered_fresh config' verifier'

theorem Sheltered.compiled?_eq {k : String} (h : e.Sheltered verifier verifier' side)
    (hk : e.contains side k = true) : e.compiled? side k = e.value? side k := by
  cases side with
  | entitlements => exact Registry.Sheltered.compiled?_eq h hk
  | profiles => exact Registry.Sheltered.compiled?_eq h hk

/-- Only an inconsiderate event of the other side can harm a side. -/
theorem Invariant.sheltered_step (h : Invariant e) (hapart : (e.step event).Apart)
    (hs : e.Sheltered verifier verifier' side)
    (hconsiderate : event.side ≠ side → e.Considerate event) :
    (e.step event).Sheltered verifier verifier' side := by
  obtain ⟨operation, rfl, hkeys⟩ | ⟨operation, hside, hclears, hstep, hkeys⟩ :=
    exists_operation_of_apart hapart
  · cases side with
    | entitlements => exact h.sheltered_operate hkeys hs
    | profiles =>
      -- The other side acts, but all that is cached here stays.
      have hkept := (h.compiled?_operate_eq_iff hkeys).2 (hconsiderate fun hside => by cases hside)
      exact Registry.Sheltered.around hs hkept
  · rw [hstep]
    simp only [Considerate, hside, hclears] at hconsiderate
    cases side with
    | profiles => exact h.symm.sheltered_operate hkeys hs
    | entitlements =>
      have hkept := (h.symm.compiled?_operate_eq_iff hkeys).2
        (hconsiderate fun hside => by cases hside)
      exact Registry.Sheltered.around hs hkept

/-! ## Runs -/

variable {events : List Event}

theorem Invariant.along_leaves (h : Invariant e)
    (hapart : Along (fun e event => (e.step event).Apart) e events) : Along Leaves e events := by
  induction events generalizing e with
  | nil => trivial
  | cons event rest ih => exact ⟨h.leaves hapart.1, ih (h.step hapart.1) hapart.2⟩

theorem Invariant.sheltered_run (h : Invariant e)
    (hapart : Along (fun e event => (e.step event).Apart) e events)
    (hconsiderate : Along (fun e event => event.side ≠ side → e.Considerate event) e events)
    (hs : e.Sheltered verifier verifier' side) :
    (e.run events).Sheltered verifier verifier' side := by
  induction events generalizing e with
  | nil => exact hs
  | cons event rest ih =>
    exact ih (h.step hapart.1) hapart.2 hconsiderate.2
      (h.sheltered_step hapart.1 hs hconsiderate.1)

/-- Whatever is done to the two sides of an engine while no key is registered on both, an event of
one side changes something that is cached of the nodes of the other if and only if it clears the
cache while something is; and a side for which the other is always considerate has exactly the
values of its nodes cached. Generations do not wrap: this is about fewer than `2 ^ 64` compile
requests. -/
theorem sharing_run (config config' : EngineConfig) (verifier verifier' : Option Verifier)
    (events : List Event)
    (hapart : Along (fun e event => (e.step event).Apart)
      (start config config' verifier verifier') events) :
    let e := start config config' verifier verifier'
    Along Leaves e events ∧
      ∀ side, Along (fun e event => event.side ≠ side → e.Considerate event) e events →
        ∀ k, (e.run events).contains side k = true →
          (e.run events).compiled? side k = (e.run events).value? side k := by
  intro e
  have h := invariant_start config config' verifier verifier'
  refine ⟨h.along_leaves hapart, fun side hconsiderate k hk => ?_⟩
  have hsheltered := h.sheltered_run hapart hconsiderate
    (sheltered_start config config' verifier verifier' side)
  exact hsheltered.compiled?_eq hk

/-- The entitlements clear the cache while there is no profile yet. -/
theorem sharing_run_cleared_early :
    let events : List Event :=
      [.entitlements (.add { id := "base" }), .entitlements .clearCache,
        .handleProfile { name := "root" }]
    Along (fun e event => (e.step event).Apart) (start {} {} none none) events ∧
      Along Leaves (start {} {} none none) events ∧
      ((start {} {} none none).run events).compiled? .profiles "root" =
        ((start {} {} none none).run events).value? .profiles "root" := by
  intro events
  have hapart : Along (fun e event => (e.step event).Apart) (start {} {} none none) events :=
    ⟨by decide +kernel, by decide +kernel, by decide +kernel, trivial⟩
  have hconsiderate : Along (fun e event => event.side ≠ .profiles → e.Considerate event)
      (start {} {} none none) events := by
    refine ⟨fun _ hclears => ?_, fun _ _ k hk => ?_, fun hside => absurd rfl hside, trivial⟩
    · cases hclears
    · cases hk
  obtain ⟨hleaves, hcoherent⟩ := sharing_run {} {} none none events hapart
  exact ⟨hapart, hleaves, hcoherent .profiles hconsiderate "root" (by decide +kernel)⟩

/-- When the entitlements clear the cache, what is cached of a profile is lost, although the
profile still holds its value. -/
theorem forgotten_by_clear :
    let events : List Event := [.handleProfile { name := "root" }]
    let clear : Event := .entitlements .clearCache
    Along (fun e event => (e.step event).Apart) (start {} {} none none) (events ++ [clear]) ∧
      (¬ ∀ k, ((start {} {} none none).run events).contains .profiles k = true →
        (((start {} {} none none).run events).step clear).compiled? .profiles k =
          ((start {} {} none none).run events).compiled? .profiles k) ∧
      ¬ ∀ k, (((start {} {} none none).run events).step clear).contains .profiles k = true →
        (((start {} {} none none).run events).step clear).compiled? .profiles k =
          (((start {} {} none none).run events).step clear).value? .profiles k := by
  intro events clear
  have hapart : Along (fun e event => (e.step event).Apart) (start {} {} none none)
      (events ++ [clear]) := ⟨by decide +kernel, by decide +kernel, trivial⟩
  have hcontains : ((start {} {} none none).run events).contains .profiles "root" = true := by
    decide +kernel
  have hcached : (((start {} {} none none).run events).compiled? .profiles "root").isSome =
      true := by
    decide +kernel
  have hholds : (((start {} {} none none).run events).value? .profiles "root").isSome = true := by
    decide +kernel
  have hleaves : Leaves ((start {} {} none none).run events) clear :=
    ((invariant_start {} {} none none).along_leaves hapart).2.1
  have hlost : (((start {} {} none none).run events).step clear).compiled? .profiles "root" =
      none := hleaves.compiled?_of_clears rfl "root" hcontains
  refine ⟨hapart, fun hsame => ?_, fun hsame => ?_⟩
  · rw [← hsame "root" hcontains, hlost] at hcached
    cases hcached
  · have hstill : (((start {} {} none none).run events).step clear).value? .profiles "root" =
        ((start {} {} none none).run events).value? .profiles "root" := hleaves.value?_eq "root"
    rw [← hstill, ← hsame "root" ((hleaves.contains_eq "root").trans hcontains), hlost] at hholds
    cases hholds

end Engine

end LayeredAccess
