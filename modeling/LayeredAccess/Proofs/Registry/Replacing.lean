/-
  LayeredAccess.Proofs.Registry.Replacing

  To replace a profile comes to the same as to delete it and to enter it again.

  The two ways share no step: a replacement patches the node where it stands,
  moves its subscriptions only if dependencies change, and has nothing compiled
  if nothing changes that is merged; the other way makes every dependent lose
  its value before the new node is there. But a registry that compiles on the
  spot ends with what its definitions come to from scratch
  (`Registry.Rested.evaluated`), whichever way it went. So it is enough to
  compare definitions: where these are alike, so is what they come to
  (`Registry.Wired.alike_evaluate`), and both ways leave alike definitions.

  They need not leave the same ones. A replacement keeps a payload that is equal
  to the new one, and equal payloads may differ in the sign of a zero.
-/
import LayeredAccess.Proofs.Merge.Alike
import LayeredAccess.Proofs.Registry.Definitions
import LayeredAccess.Proofs.Registry.Evaluation
import LayeredAccess.Proofs.Registry.Structure
import LayeredAccess.Registry.Hub

namespace LayeredAccess

/-! ## Alike definitions -/

/-- Definitions that are the same but for their payloads, which are alike. -/
structure Profile.Alike (p p' : Profile) : Prop where
  name_eq : p.name = p'.name
  entitlements : Json.Alike p.entitlements p'.entitlements
  dependencies_eq : p.dependencies = p'.dependencies
  metadata_eq : p.metadata = p'.metadata

theorem Profile.Alike.refl (p : Profile) : p.Alike p := ⟨rfl, .refl _, rfl, rfl⟩

/-- Evaluations that are the same but for their values, which are alike. -/
structure Evaluation.Alike (e e' : Evaluation) : Prop where
  ready_eq : e.ready = e'.ready
  value : Json.Alike e.value e'.value
  valid_eq : e.valid = e'.valid
  dependable_eq : e.dependable = e'.dependable

/-- What alike evaluations say of the value is alike. -/
theorem Evaluation.Alike.rel_value {e e' : Evaluation} (h : e.Alike e') :
    Option.Rel Json.Alike (if e.ready then some e.value else none)
      (if e'.ready then some e'.value else none) := by
  rw [h.ready_eq]
  split
  · exact .some h.value
  · exact .none

namespace ProfileNode

/-- A profile has no schema, so it is valid, and dependable, as soon as it is ready. -/
theorem ofInputs_eq (verifier : Option Verifier) (n : ProfileNode)
    (below : String → Option Evaluation) :
    let e := Evaluation.ofInputs verifier (Node.inputs n) below
    e.valid = e.ready ∧ e.dependable = e.ready := by
  intro e
  have hvalid : e.valid = e.ready := by
    show (e.ready && Registry.accepts verifier none e.value) = e.ready
    rw [Registry.accepts_none, Bool.and_true]
  refine ⟨hvalid, ?_⟩
  show (true && e.valid) = e.ready
  rw [hvalid, Bool.true_and]

/-- Alike definitions on top of alike evaluations come to the like. -/
theorem alike_ofInputs (verifier : Option Verifier) {n n' : ProfileNode}
    (h : n.profile.Alike n'.profile) {below below' : String → Option Evaluation}
    (hbelow : ∀ d ∈ n.profile.dependencies,
      Option.Rel Evaluation.Alike (below d) (below' d)) :
    (Evaluation.ofInputs verifier (Node.inputs n) below).Alike
      (Evaluation.ofInputs verifier (Node.inputs n') below') := by
  have hready : (n.profile.dependencies.all fun d => (below d).any (·.dependable)) =
      n'.profile.dependencies.all fun d => (below' d).any (·.dependable) := by
    rw [← h.dependencies_eq, Bool.eq_iff_iff, List.all_eq_true, List.all_eq_true]
    refine forall₂_congr fun d hd => ?_
    have hd' := hbelow d hd
    generalize below d = e, below' d = e' at hd'
    cases hd' with
    | none => rfl
    | some halike => rw [Option.any_some, Option.any_some, halike.dependable_eq]
  -- The values below are alike one by one, and so are the own layers on top of them.
  have hvalue : Json.Alike
      (Json.mergeLayers (n.profile.dependencies.filterMap (fun d => (below d).map (·.value)) ++
        n.profile.layers))
      (Json.mergeLayers (n'.profile.dependencies.filterMap (fun d => (below' d).map (·.value)) ++
        n'.profile.layers)) := by
    rw [← h.dependencies_eq]
    refine Json.alike_mergeLayers (.append (.filterMap fun d hd => ?_) (.cons h.entitlements .nil))
    have hd' := hbelow d hd
    generalize below d = e, below' d = e' at hd'
    cases hd' with
    | none => exact .none
    | some halike => exact .some halike.value
  obtain ⟨hvalid, hdependable⟩ := ofInputs_eq verifier n below
  obtain ⟨hvalid', hdependable'⟩ := ofInputs_eq verifier n' below'
  exact ⟨hready, hvalue, hvalid.trans (hready.trans hvalid'.symm),
    hdependable.trans (hready.trans hdependable'.symm)⟩

end ProfileNode

namespace Registry

/-- The definition of a profile. -/
def definition? (r : Registry ProfileNode) (k : String) : Option Profile :=
  (r.get? k).map (·.profile)

variable {r r' : Registry ProfileNode} {verifier : Option Verifier}

theorem get?_cases_of_alike {k : String}
    (h : Option.Rel Profile.Alike (r.definition? k) (r'.definition? k)) :
    (r.get? k = none ∧ r'.get? k = none) ∨
      ∃ n n', r.get? k = some n ∧ r'.get? k = some n' ∧ n.profile.Alike n'.profile := by
  rw [definition?, definition?] at h
  generalize r.get? k = n, r'.get? k = n' at h ⊢
  cases n <;> cases n' <;> cases h
  · exact .inl ⟨rfl, rfl⟩
  · next halike => exact .inr ⟨_, _, rfl, rfl, halike⟩

/-- Registries with alike definitions come to the like, when they are evaluated from scratch. -/
theorem Wired.alike_evaluate (h : Wired r) (h' : Wired r')
    (hdefs : ∀ k, Option.Rel Profile.Alike (r.definition? k) (r'.definition? k)) (k : String) :
    Option.Rel Evaluation.Alike (r.evaluate verifier k) (r'.evaluate verifier k) := by
  obtain ⟨depth, -, hdepth⟩ := h.exists_depth
  -- Along the dependencies, which are the same on both sides.
  induction hk : depth k using Nat.strongRecOn generalizing k with
  | _ m ih =>
    rw [h.evaluate_eq, h'.evaluate_eq]
    rcases get?_cases_of_alike (hdefs k) with ⟨hn, hn'⟩ | ⟨n, n', hn, hn', halike⟩
    · rw [hn, hn']
      exact .none
    · rw [hn, hn']
      refine .some (ProfileNode.alike_ofInputs verifier halike fun d hd => ?_)
      have hlt := hdepth k (Node.inputs n) (by rw [hn, Option.map_some]) d hd
      exact ih (depth d) (hk ▸ hlt) d rfl

end Registry

/-! ## Hubs that match -/

/-- Two hubs have the same profiles, and these have come equally far, to the same values. -/
structure ProfileHub.Matches (h h' : ProfileHub) : Prop where
  definitions : ∀ k,
    Option.Rel Profile.Alike (h.registry.definition? k) (h'.registry.definition? k)
  state?_eq : ∀ k, h.state? k = h'.state? k
  values : ∀ k, Option.Rel Json.Alike ((h.registry.get? k).bind (·.compiled))
    ((h'.registry.get? k).bind (·.compiled))
  cache : ∀ k, Option.Rel Json.Alike (h.compiled? k) (h'.compiled? k)

namespace Registry

variable {r r' : Registry ProfileNode} {verifier : Option Verifier}

/-- Whether a profile is usable can be told from its evaluation. -/
theorem Evaluated.state_eq (h : r.Evaluated verifier) {k : String} {n : ProfileNode}
    {e : Evaluation} (hn : r.get? k = some n) (he : r.evaluate verifier k = some e) :
    n.state = if e.dependable then .valid else .invalid := by
  have hvalid : (n.state == .valid) = e.dependable := h.dependable_eq k n e hn he
  rw [← hvalid]
  cases n.state <;> rfl

/-- At rest, registries with alike definitions match. -/
theorem Rested.hubs_match (h : Rested verifier r) (h' : Rested verifier r')
    (hdefs : ∀ k, Option.Rel Profile.Alike (r.definition? k) (r'.definition? k)) :
    ProfileHub.Matches ⟨r⟩ ⟨r'⟩ := by
  have heval := h.evaluated
  have heval' := h'.evaluated
  have hevals : ∀ k, Option.Rel Evaluation.Alike (r.evaluate verifier k)
      (r'.evaluate verifier k) := h.wired.alike_evaluate h'.wired hdefs
  -- A profile of both comes to alike evaluations.
  have hboth : ∀ k n n', r.get? k = some n → r'.get? k = some n' → ∃ e e',
      r.evaluate verifier k = some e ∧ r'.evaluate verifier k = some e' ∧ e.Alike e' := by
    intro k n n' hn hn'
    have he := heval.evaluate_eq k
    have he' := heval'.evaluate_eq k
    rw [hn, Option.map_some] at he
    rw [hn', Option.map_some] at he'
    have halike := hevals k
    rw [he, he'] at halike
    cases halike with
    | some halike => exact ⟨_, _, he, he', halike⟩
  refine ⟨hdefs, fun k => ?_, fun k => ?_, fun k => ?_⟩
  · show (r.get? k).map (·.state) = (r'.get? k).map (·.state)
    rcases get?_cases_of_alike (hdefs k) with ⟨hn, hn'⟩ | ⟨n, n', hn, hn', -⟩
    · rw [hn, hn']
    · obtain ⟨e, e', he, he', halike⟩ := hboth k n n' hn hn'
      rw [hn, hn', Option.map_some, Option.map_some, heval.state_eq hn he,
        heval'.state_eq hn' he', halike.dependable_eq]
  · show Option.Rel Json.Alike ((r.get? k).bind (·.compiled)) ((r'.get? k).bind (·.compiled))
    rcases get?_cases_of_alike (hdefs k) with ⟨hn, hn'⟩ | ⟨n, n', hn, hn', -⟩
    · rw [hn, hn']
      exact .none
    · obtain ⟨e, e', he, he', halike⟩ := hboth k n n' hn hn'
      have hvalue : n.compiled = _ := heval.compiled_eq k n e hn he
      have hvalue' : n'.compiled = _ := heval'.compiled_eq k n' e' hn' he'
      rw [hn, hn', Option.bind_some, Option.bind_some, hvalue, hvalue']
      exact halike.rel_value
  · show Option.Rel Json.Alike (r.compiled? k) (r'.compiled? k)
    rw [heval.compiled?_eq, heval'.compiled?_eq]
    have halike := hevals k
    generalize r.evaluate verifier k = e, r'.evaluate verifier k = e' at halike
    cases halike with
    | none => exact .none
    | some halike => exact halike.rel_value

end Registry

/-! ## What operations do to definitions -/

namespace Registry

variable {r r' : Registry ProfileNode}

theorem Same.definition?_eq (h : Same r r') (k : String) : r.definition? k = r'.definition? k := by
  have hprofile := congrArg (Option.map (·.profile)) (h.bare_eq k)
  rwa [Option.map_map, Option.map_map] at hprofile

theorem definition?_of_insert {k : String} {n : ProfileNode}
    (hnodes : r'.nodes = KeyMap.insert r.nodes k n) (j : String) :
    r'.definition? j = if k = j then some n.profile else r.definition? j := by
  rw [definition?, get?, hnodes, KeyMap.find?_insert]
  split <;> rfl

/-- Profiles keep their definitions, whatever they are told. -/
theorem onward_deliver_profile (r : Registry ProfileNode) (k : String) (s : Signal) :
    Onward r (r.deliver k s) := by
  refine .trans ?_ (onward_deliver r k s)
  cases hn : r.get? k with
  | none =>
    rw [tell_none hn]
    exact .refl r
  | some n =>
    obtain ⟨hnodes, hgraph, hgeneration⟩ := tell_some hn (.own s .registry)
    exact .set hn (ProfileNode.bare_eq_iff.2 (ProfileNode.profile_answer n _)) hnodes hgraph
      hgeneration

/-- A fitting profile with a new name is entered. -/
theorem add_profile {p : Profile} (hnew : r.contains p.name = false)
    (hcheck : r.graph.check p.name p.dependencies = .ok ()) :
    (r.add (.ofProfile p)).1 = .ok () ∧
      ∀ j, (r.add (.ofProfile p)).2.definition? j =
        if p.name = j then some p else r.definition? j := by
  have hadd := add_of_check (n := ProfileNode.ofProfile p) hnew hcheck
  refine ⟨by rw [hadd], fun j => ?_⟩
  obtain ⟨⟨readiness, hnodes⟩, -, -⟩ := install_eq r (.ofProfile p)
  have htold : Onward (r.install (.ofProfile p)) (r.add (.ofProfile p)).2 := by
    rw [hadd]
    exact (silent_publishSignal _ _ _ _).onward.trans (onward_deliver_profile _ _ _)
  rw [← htold.definition?_eq, definition?_of_insert hnodes]
  rfl

/-- A profile can always be deleted. -/
theorem delete_profile {k : String} {p : Profile} (hp : r.definition? k = some p) :
    ∃ n, (r.delete k).1 = .ok n ∧ n.profile = p ∧ (r.delete k).2.graph = r.graph.erase k ∧
      ∀ j, (r.delete k).2.definition? j = if k = j then none else r.definition? j := by
  obtain ⟨n, hn, -⟩ := Option.map_eq_some_iff.1 hp
  obtain ⟨-, m, hm, hdelete⟩ := exists_delete hn rfl
  have htold := onward_farewell r k
  generalize (r.publishSignal k .deleted true).settle _ = s at hm hdelete htold
  obtain ⟨hnodes, hgraph, -⟩ := uninstall_eq s k (Node.dependencies m)
  rw [hdelete]
  refine ⟨m, rfl, ?_, hgraph.trans (by rw [htold.graph_eq]), fun j => ?_⟩
  · rw [htold.definition?_eq, definition?, hm] at hp
    exact Option.some.inj hp
  · rw [definition?, get?, hnodes, KeyMap.find?_erase, htold.definition?_eq]
    split <;> rfl

/-- Whether or not its subscriptions are moved, a profile that is changed takes the place of the
former one. -/
theorem definition?_placed (r : Registry ProfileNode) (k : String) (after : ProfileNode)
    (previous : List String) (moved : Bool) (j : String) :
    (if moved = true then (r.setNode k after).relink k previous after
      else r.setNode k after).definition? j =
      if k = j then some after.profile else r.definition? j := by
  have hset : (r.setNode k after).definition? j =
      if k = j then some after.profile else r.definition? j := definition?_of_insert rfl j
  split
  · obtain ⟨⟨readiness, hnodes⟩, -, -⟩ := relink_eq (r.setNode k after) k previous after
    rw [definition?_of_insert hnodes, hset]
    split <;> rfl
  · exact hset

/-- A patch that passes the check changes the definition of one profile. -/
theorem update_profile {k : String} {n : ProfileNode} (hn : r.get? k = some n)
    {patch : ProfilePatch} (hcheck : r.checkUpdate k n patch = .ok ()) :
    (r.update k patch).1 = .ok () ∧
      ∀ j, (r.update k patch).2.definition? j =
        if k = j then some (n.applyPatch patch).2.profile else r.definition? j := by
  -- That everybody is told of the change leads onward.
  have htold : ∀ (placed : Registry ProfileNode) (recompile : Bool), Onward placed
      (if recompile = true then
        (Except.ok (α := Unit) (ε := EngineError) (),
          ((placed.publishWide k .updated).publishNarrow k .updated).deliver k .updated)
      else (.ok (), placed.publishWide k .updated)).2 := by
    intro placed recompile
    have hwide : Onward placed (placed.publishWide k .updated) := Silent.onward ⟨_, rfl⟩
    split
    · exact hwide.trans ((Silent.onward ⟨_, rfl⟩).trans (onward_deliver_profile _ _ _))
    · exact hwide
  simp only [Registry.update, hn, hcheck]
  refine ⟨by split <;> rfl, fun j => ?_⟩
  rw [← (htold _ _).definition?_eq]
  exact definition?_placed r k (n.applyPatch patch).2 _ _ j

end Registry

/-! ## Replacing -/

/-- A patch of every field makes a profile alike the given one. -/
theorem ProfileNode.alike_applyPatch {n : ProfileNode} {p : Profile}
    (hname : n.profile.name = p.name) : p.Alike (n.applyPatch p.toPatch).2.profile := by
  refine ⟨hname.symm, ?_, ?_, rfl⟩
  · show Json.Alike p.entitlements
      (if !(p.entitlements == n.profile.entitlements) then p.entitlements
        else n.profile.entitlements)
    split
    · exact .refl _
    · next h =>
      rw [Bool.not_eq_true, Bool.not_eq_false'] at h
      exact Json.alike_of_same h
  · show p.dependencies = if !decide (p.dependencies = n.profile.dependencies) then p.dependencies
      else n.profile.dependencies
    split
    · rfl
    · next h => simpa using h

/-- The check of a node does not look at what the node depended on before. -/
theorem DependencyGraph.check_erase (g : DependencyGraph) (k : String) (ds : List String) :
    (g.erase k).check k ds = g.check k ds := by
  have herase : KeyMap.erase (KeyMap.erase g.edges k) k = KeyMap.erase g.edges k :=
    KeyMap.erase_eq_self (by rw [KeyMap.find?_erase, if_pos rfl])
  rw [DependencyGraph.check, DependencyGraph.erase, herase]
  rfl

namespace Registry

variable {r : Registry ProfileNode} {p : Profile}

/-- A profile is replaced if the dependencies of the new one fit, and else the reason is told. -/
theorem replace_profile {n : ProfileNode} (hn : r.get? p.name = some n) :
    (r.graph.check p.name p.dependencies = .ok () ∧ (r.update p.name p.toPatch).1 = .ok () ∧
      ∀ j, (r.update p.name p.toPatch).2.definition? j =
        if p.name = j then some (n.applyPatch p.toPatch).2.profile else r.definition? j) ∨
    ∃ e, r.graph.check p.name p.dependencies = .error e ∧
      r.update p.name p.toPatch = r.refuse "Update Error" p.name e.toEngineError := by
  have hupdate : r.checkUpdate p.name n p.toPatch =
      (r.graph.check p.name p.dependencies).mapError GraphError.toEngineError := rfl
  cases hcheck : r.graph.check p.name p.dependencies with
  | ok u =>
    rw [hcheck] at hupdate
    exact .inl ⟨rfl, update_profile hn hupdate⟩
  | error e =>
    rw [hcheck] at hupdate
    refine .inr ⟨e, rfl, ?_⟩
    simp only [Registry.update, hn, hupdate, Except.mapError]

/-- A profile that fits in place of another also fits after the other has been deleted, and the
definitions that are left are alike. -/
theorem readd_profile {n : ProfileNode} (hn : r.get? p.name = some n)
    (hname : n.profile.name = p.name) (hok : (r.update p.name p.toPatch).1 = .ok ()) :
    ∃ m, (r.delete p.name).1 = .ok m ∧ m.profile = n.profile ∧
      (r.delete p.name).2.contains p.name = false ∧
      ((r.delete p.name).2.add (.ofProfile p)).1 = .ok () ∧
      (∀ j, ((r.delete p.name).2.add (.ofProfile p)).2.definition? j =
        if p.name = j then some p else r.definition? j) ∧
      ∀ j, Option.Rel Profile.Alike
        (((r.delete p.name).2.add (.ofProfile p)).2.definition? j)
        ((r.update p.name p.toPatch).2.definition? j) := by
  -- A replacement succeeds only if the graph accepts it, and then so does a new entry.
  rcases replace_profile hn with ⟨hcheck, -, hupdated⟩ | ⟨e, -, hrefuse⟩
  · obtain ⟨m, hdeleted, hm, hgraph, hdefs⟩ :=
      delete_profile (show r.definition? p.name = some n.profile by rw [definition?, hn]; rfl)
    have hnone : (r.delete p.name).2.definition? p.name = none := by rw [hdefs, if_pos rfl]
    have hnew : (r.delete p.name).2.contains p.name = false := by
      rw [contains, Option.map_eq_none_iff.1 hnone, Option.isSome_none]
    obtain ⟨hadded, hentered⟩ :=
      add_profile hnew (by rw [hgraph, DependencyGraph.check_erase, hcheck])
    have hagain : ∀ j, ((r.delete p.name).2.add (.ofProfile p)).2.definition? j =
        if p.name = j then some p else r.definition? j := by
      intro j
      rw [hentered, hdefs]
      split <;> rfl
    refine ⟨m, hdeleted, hm, hnew, hadded, hagain, fun j => ?_⟩
    rw [hagain, hupdated]
    split
    · exact .some (ProfileNode.alike_applyPatch hname)
    · cases r.definition? j with
      | none => exact .none
      | some q => exact .some (.refl q)
  · rw [hrefuse] at hok
    cases hok

end Registry

namespace ProfileHub

open Registry

variable {h : ProfileHub} {p : Profile}

theorem handleProfile_of_contains (hcontains : h.registry.contains p.name = true) :
    h.handleProfile p =
      ((h.registry.update p.name p.toPatch).1, ⟨(h.registry.update p.name p.toPatch).2⟩) := by
  simp only [handleProfile, onRegistry, hcontains, if_true]

theorem handleProfile_of_new (hnew : h.registry.contains p.name = false) :
    h.handleProfile p =
      ((h.registry.add (.ofProfile p)).1, ⟨(h.registry.add (.ofProfile p)).2⟩) := by
  simp only [handleProfile, onRegistry, hnew, Bool.false_eq_true, if_false]

/-- In a hub that compiles on the spot, to replace a profile comes to the same as to delete it and
to enter it again: if the one succeeds so does the other, the profile is the given one and the
others are as before, and the two hubs match in definitions, states, values and cache. A replacement
that is refused changes nothing; it is only told. Generations do not wrap: this is about fewer than
`2 ^ 64` compile requests. -/
theorem replaced_operateAll (sandbox : SandboxConfig) (verifier : Option Verifier)
    (operations : List (Operation ProfileNode)) (p : Profile) :
    let h : ProfileHub :=
      ⟨(fresh { compileMode := .inline, sandbox } verifier).operateAll operations⟩
    h.registry.contains p.name = true →
      (∀ replaced, h.handleProfile p = (.ok (), replaced) →
        ∃ old without again, h.deleteProfile p.name = (.ok old, without) ∧
          h.registry.definition? p.name = some old ∧
          without.registry.contains p.name = false ∧
          without.handleProfile p = (.ok (), again) ∧
          (∀ k, again.registry.definition? k =
            if p.name = k then some p else h.registry.definition? k) ∧
          again.Matches replaced) ∧
      ∀ e refused, h.handleProfile p = (.error e, refused) →
        refused.registry = { h.registry with
          published := h.registry.published ++
            [{ kind := actionKind ProfileNode "Update Error"
               payload := some (errorPayload p.name e) }] } := by
  intro h hcontains
  have hrested : Rested verifier h.registry := rested_operateAll sandbox verifier operations
  obtain ⟨n, hn⟩ := Option.isSome_iff_exists.1 hcontains
  have hname : n.profile.name = p.name := hrested.wired.key_eq p.name _ (view?_of_get? hn)
  rw [handleProfile_of_contains hcontains]
  constructor
  · intro replaced hreplaced
    obtain ⟨hok, rfl⟩ := Prod.mk.inj hreplaced
    obtain ⟨m, hdeleted, hm, hnew, hadded, hagain, hdefs⟩ := readd_profile hn hname hok
    refine ⟨m.profile, ⟨(h.registry.delete p.name).2⟩,
      ⟨((h.registry.delete p.name).2.add (.ofProfile p)).2⟩, ?_, ?_, hnew, ?_, hagain, ?_⟩
    · simp only [deleteProfile, onRegistry, hdeleted]
      rfl
    · rw [definition?, hn, hm, Option.map_some]
    · rw [handleProfile_of_new hnew, hadded]
    · -- Both hubs come from the operations by some more, so both are at rest.
      have hreadded := rested_operateAll sandbox verifier
        (operations ++ [.delete p.name, .add p])
      have hupdated := rested_operateAll sandbox verifier
        (operations ++ [Operation.update (ν := ProfileNode) p.name p.toPatch])
      rw [operateAll, List.foldl_append] at hreadded hupdated
      exact Rested.hubs_match hreadded hupdated hdefs
  · intro e refused hrefused
    obtain ⟨herror, rfl⟩ := Prod.mk.inj hrefused
    rcases replace_profile hn with ⟨-, hok, -⟩ | ⟨e', -, hrefuse⟩
    · rw [hok] at herror
      cases herror
    · rw [hrefuse] at herror ⊢
      cases herror
      rfl

/-- A profile is given a dependency that is missing; another time, one that closes a cycle. -/
theorem replaced_operateAll_base :
    let base : Profile := { name := "base", entitlements := .obj [("a", .int 1)] }
    let waiting : Profile := { base with dependencies := ["top"] }
    let circular : Profile := { base with dependencies := ["base"] }
    let h : ProfileHub := ⟨(fresh {} none).operateAll [.add base]⟩
    h.registry.contains "base" = true ∧
      (∃ replaced old without again, h.handleProfile waiting = (.ok (), replaced) ∧
        h.deleteProfile "base" = (.ok old, without) ∧
        without.handleProfile waiting = (.ok (), again) ∧ again.Matches replaced) ∧
      ∃ e refused, h.handleProfile circular = (.error e, refused) ∧
        refused.registry.nodes = h.registry.nodes := by
  intro base waiting circular h
  have hcontains : h.registry.contains "base" = true := by decide +kernel
  obtain ⟨n, hn⟩ := Option.isSome_iff_exists.1 hcontains
  have hfits : h.registry.graph.check "base" ["top"] = .ok () := by decide +kernel
  have hcycle : h.registry.graph.check "base" ["base"] = .error (.circular ["base", "base"]) := by
    decide +kernel
  refine ⟨hcontains, ?_, ?_⟩
  · have hhandle := handleProfile_of_contains (h := h) (p := waiting) hcontains
    rcases replace_profile (p := waiting) hn with ⟨-, hok, -⟩ | ⟨e, herror, -⟩
    · rw [hok] at hhandle
      obtain ⟨old, without, again, hdelete, -, -, hagain, -, hmatches⟩ :=
        (replaced_operateAll {} none [.add base] waiting hcontains).1 _ hhandle
      exact ⟨_, old, without, again, hhandle, hdelete, hagain, hmatches⟩
    · rw [hfits] at herror
      cases herror
  · have hhandle := handleProfile_of_contains (h := h) (p := circular) hcontains
    rcases replace_profile (p := circular) hn with ⟨hcheck, -, -⟩ | ⟨e, -, hrefuse⟩
    · rw [hcycle] at hcheck
      cases hcheck
    · rw [hrefuse] at hhandle
      refine ⟨_, _, hhandle, ?_⟩
      rw [(replaced_operateAll {} none [.add base] circular hcontains).2 _ _ hhandle]

end ProfileHub

end LayeredAccess
