/-
  LayeredAccess.Proofs.Registry.Mirror

  The actions that are told mirror what becomes of the nodes: whoever follows a
  node knows from what has been told last whether the node is dependable, and
  if it is, which value it holds.

  A call begins with something true (`Opens.truthful`), its cascade keeps it
  true, and a node that is taken out in the end has been said to be gone. Only
  clearing the cache drops values without telling the followers of the nodes.
-/
import LayeredAccess.Proofs.Registry.Truthful

namespace LayeredAccess

/-- A node that holds no value and is not said to hold one, as fresh nodes are. -/
def Node.Blank {ν : Type} [Node ν] [NodeKind ν] (n : ν) : Prop :=
  (Node.view n).fallen = Node.view n

/-- The calls of which followers learn all that they need: blank nodes are entered, the cache is
not cleared, and all actions are kept. Outcomes may belong to no job, and bring any value. -/
def Call.Followed {ν : Type} [Node ν] [NodeKind ν] : Call ν → Prop
  | .add n => Node.Blank n
  | .clearCache | .collect => False
  | _ => True

namespace Registry

variable {ν : Type} [Node ν] [NodeKind ν] {r r' : Registry ν} {c : Call ν} {key : String}
  {n : ν} {tasks : List Task}

/-- What followers have been told is true, and there is nothing left to do. -/
abbrev Told (r : Registry ν) : Prop := Truthful (fun _ => False) r []

variable [LawfulNode ν]

/-! ## Patches -/

/-- A patched node is as far as it was before. -/
theorem standing?_setNode_patch (hn : r.get? key = some n) (patch : Node.Patch ν) :
    (r.setNode key (Node.applyPatch n patch).2).standing? = r.standing? := by
  obtain ⟨⟨inputs, hview, hactive⟩, -⟩ := LawfulNode.patched n patch
  funext j
  rw [standing?, view?_setNode]
  split
  · next hj =>
    rw [hj, standing?, view?_of_get? hn, hview, Option.map_some, Option.map_some, hactive]
  · rfl

/-- Moving its subscriptions leaves a node where it is. -/
theorem standing?_patched (hw : Wired r) {patch : Node.Patch ν} (hn : r.get? key = some n)
    (hcheck : r.checkUpdate key n patch = .ok ()) :
    (r.patched key n patch).standing? = r.standing? := by
  have hset := standing?_setNode_patch hn patch
  obtain ⟨⟨inputs, hview, -⟩, hinstalled, -⟩ := LawfulNode.patched n patch
  let after := (Node.applyPatch n patch).2
  let placed := if (Node.applyPatch n patch).1.dependenciesChanged then
    (r.setNode key after).relink key (Node.dependencies n) after else r.setNode key after
  show placed.standing? = r.standing?
  -- Only a patch of the dependencies goes through the tables.
  cases hchanged : (Node.applyPatch n patch).1.dependenciesChanged with
  | false => simpa [placed, hchanged] using hset
  | true =>
    have hkey : Node.key after = key := by
      have hk : (Node.view after).key = (Node.view n).key := by rw [hview]
      exact hk.trans (hw.key_eq key _ (view?_of_get? hn))
    have hfits := check_of_checkUpdate hcheck (hinstalled hchanged)
    obtain ⟨-, hrelinked, -⟩ := relink_spec hw (view?_of_get? hn) hkey hfits
    have hplaced : placed =
        (r.setNode key after).relink key (Node.view n).inputs.dependencies after := by
      simp only [placed, hchanged, if_true]
      rfl
    rw [hplaced, ← hset]
    funext j
    rw [standing?, hrelinked, standing?, view?_setNode]
    split <;> rfl

omit [NodeKind ν] [LawfulNode ν] in
/-- Followers learn of a patch, but nothing of where the node stands. -/
theorem sameTidings_patched (r : Registry ν) (key : String) (n : ν) (patch : Node.Patch ν) :
    SameTidings r (r.patched key n patch) := by
  obtain ⟨nodes, listeners, graph, hpatched, -⟩ := exists_patched r key n patch
  have hplaced : Untold r ({ r with nodes, listeners, graph } : Registry ν) :=
    untold_of_published rfl
  rw [hpatched]
  exact (hplaced.trans (untold_publishWide _ key .updated)).sameTidings.trans
    (sameTidings_publishSignal _ key false (by decide) (by decide))

/-! ## Openings -/

/-- A node without value has taken its place, and followers have learnt that it is new. -/
theorem Told.entered {v : NodeView} (h : Told r) (hw : Wired r') (hblank : v.fallen = v)
    (hview : ∀ j, r'.view? j = if j = key then some v else r.view? j)
    (hseems : ∀ j, r'.seemsDependable j = if j = key then false else r.seemsDependable j)
    (htold : ∀ j, r'.toldValue? j = r.toldValue? j) :
    Truthful (fun _ => False) r' [.tell key (.own .added .registry)] := by
  have hself : r'.view? key = some v := (hview key).trans (if_pos rfl)
  have hother : ∀ j, j ≠ key → r'.view? j = r.view? j := fun j hj => (hview j).trans (if_neg hj)
  have hverified : v.verified = false := congrArg NodeView.verified hblank.symm
  have hcompiled : v.compiled = none := congrArg NodeView.compiled hblank.symm
  have hfirst : ∀ w, r'.view? key = some w → w.verified = false := by
    intro w hkey
    obtain rfl := Option.some.inj (hself.symm.trans hkey)
    exact hverified
  -- Followers do not take the new node to be dependable, and it is not.
  refine ⟨hw, fun j w hj hwv => ?_, fun j hj _ => ?_, fun j x hx _ => ?_, fun t ht => ?_,
    by simp, fun _ hf => hf.elim⟩
  · by_cases hjk : j = key
    · rw [hfirst w (hjk ▸ hj)] at hwv
      simp at hwv
    · exact h.held j w (hother j hjk ▸ hj) hwv
  · rw [hseems]
    split
    · next hjk =>
      rw [hjk, isDependable_of_view? hself, NodeView.dependable, hverified, Bool.and_false]
    · next hjk =>
      rw [isDependable_congr (hother j hjk)]
      exact h.seems_eq j hj (by simp)
  · have hjk : j ≠ key := by
      rintro rfl
      rw [value?, hself, Option.bind_some, hcompiled] at hx
      simp at hx
    rw [value?, hother j hjk] at hx
    rw [htold]
    exact h.told_eq j x hx (by simp)
  · obtain rfl := Option.some.inj ht
    exact hfirst

/-- A blank node is entered. -/
theorem Told.install (h : Told r) (hblank : Node.Blank n)
    (hnew : r.contains (Node.key n) = false)
    (hcheck : r.graph.check (Node.key n) (Node.dependencies n) = .ok ())
    (hw : Wired ((r.install n).publishSignal (Node.key n) .added true)) :
    Truthful (fun _ => False) ((r.install n).publishSignal (Node.key n) .added true)
      [.tell (Node.key n) (.own .added .registry)] := by
  obtain ⟨-, hview, nodes, listeners, graph, hinstall⟩ := install_spec h.wired hnew hcheck
  have huntold : Untold r (r.install n) := untold_of_published (by rw [hinstall])
  have hblank' : ((Node.view n).informed r.isDependable).fallen =
      (Node.view n).informed r.isDependable :=
    congrArg (NodeView.informed · r.isDependable) hblank
  refine h.entered hw hblank' (fun j => ?_) (fun j => ?_) fun j => ?_
  · rw [view?_publishSignal, hview]
  · rw [seemsDependable_publishSignal, huntold.seemsDependable_eq]
    exact if_congr (and_iff_left (by decide)) rfl rfl
  · rw [toldValue?_publishSignal, huntold.toldValue?_eq]
    exact if_neg fun hc => absurd hc.2 (by decide)

/-- A node that is to be removed is said to be gone. -/
theorem Told.deleted (h : Told r) (hw : Wired (r.publishSignal key .deleted true)) :
    Truthful (· = key) (r.publishSignal key .deleted true)
      ((r.publishSignal key .deleted true).dispatch key .deleted .registry) := by
  have hview := view?_publishSignal r key .deleted true
  -- The tasks only tell of the deletion, and say nothing to followers themselves.
  have hcalm : ∀ u ∈ (r.publishSignal key .deleted true).dispatch key .deleted .registry,
      u.Calm := by
    intro u hu
    obtain ⟨l, -, rfl⟩ := List.mem_map.1 hu
    cases l <;> trivial
  have hseems : ∀ j, (r.publishSignal key .deleted true).seemsDependable j =
      if j = key then false else r.seemsDependable j := by
    intro j
    rw [seemsDependable_publishSignal]
    exact if_congr (and_iff_left (by decide)) rfl rfl
  refine ⟨hw, fun k v hv => h.held k v (hview ▸ hv), fun k hk _ => ?_, fun k x hx _ => ?_,
    fun u hu => (hcalm u (List.mem_of_mem_head? hu)).ripe _,
    fun u hu => hcalm u (List.mem_of_mem_tail hu), fun k hk => ⟨?_, fun u hu => ?_⟩⟩
  · rw [hseems, if_neg hk, isDependable_congr (congrFun hview k)]
    exact h.seems_eq k id (by simp)
  · rw [toldValue?_publishSignal, if_neg fun hc => absurd hc.2 (by decide)]
    rw [value?, hview] at hx
    exact h.told_eq k x hx (by simp)
  · rw [hseems, if_pos hk]
  · exact isLoss_of_mem_dispatch (.inr rfl) hu

/-- A call that removes no node begins with something true. -/
theorem Opens.truthful (hopens : Opens r c r' tasks) (h : Told r) (hw : Wired r')
    (hc : c.Followed) (hkept : ∀ key, c = .delete key → r.deletable key = false) :
    Truthful (fun _ => False) r' tasks := by
  -- Whatever leaves the nodes as they stand says nothing of their standing. Arrivals and entries
  -- are told of by the cascade.
  cases hopens with
  | refused label e =>
    exact h.of_same hw rfl (untold_publishError r _ _ _).sameTidings
  | entered hnew hcheck => exact h.install hc hnew hcheck hw
  | @adopted key patch n hn =>
    have huntold : Untold r (r.setNode key (Node.applyPatch n patch).2) := untold_of_published rfl
    exact h.of_same hw (standing?_setNode_patch hn patch)
      (huntold.trans (untold_publishWide _ key .updated)).sameTidings
  | @patched key patch n hn hcheck =>
    have htold := h.of_same hw (standing?_patched h.wired hn hcheck)
      (sameTidings_patched r key n patch)
    exact htold.ask trivial fun _ => False.elim
  | @deleted key n hn hcheck =>
    have hmay : r.deletable key = true := deletable_iff.2 ⟨n, hn, hcheck⟩
    simp [hkept key rfl] at hmay
  | @customized key flags n hn =>
    have hview := view?_publishSignal r key (.customized flags) true
    have hsame : SameTidings r (r.publishSignal key (.customized flags) true) :=
      sameTidings_publishSignal r key true (by simp [Signal.label, standingLabels])
        (by simp [Signal.label])
    have htold := h.of_same hw (standing?_of_view? hview) hsame
    exact htold.ask trivial fun _ => False.elim
  | cleared | collected => exact hc.elim
  | stale => exact h
  | @failed key =>
    have huntold : Untold r (r.bumpGeneration key).2 := untold_of_published rfl
    exact h.of_same hw rfl (huntold.trans (untold_publishError _ _ _ _)).sameTidings
  | @unmet key =>
    have huntold : Untold r (r.bumpGeneration key).2 := untold_of_published rfl
    exact h.of_same hw rfl huntold.sameTidings
  | arrived => exact h.brought (fun _ => id) hw rfl rfl
  | fetched =>
    have huntold : Untold r r.takeOutbox.2 := untold_of_published rfl
    exact h.of_same hw rfl huntold.sameTidings
  | shared compiler =>
    have huntold : Untold r ({ r with compiler } : Registry ν) := untold_of_published rfl
    exact h.of_same hw rfl huntold.sameTidings

/-! ## Calls -/

/-- A node that has been said to be gone is taken out. -/
theorem Truthful.uninstall (h : Truthful (· = key) r []) (hn : r.get? key = some n) :
    Told (r.uninstall key (Node.dependencies n)) := by
  obtain ⟨hw, hview, -⟩ := uninstall_spec h.wired (view?_of_get? hn)
  have huntold : Untold r (r.uninstall key (Node.dependencies n)) :=
    untold_of_published (published_uninstall r key _)
  change Wired (r.uninstall key (Node.dependencies n)) at hw
  change ∀ j, (r.uninstall key (Node.dependencies n)).view? j = _ at hview
  generalize r.uninstall key (Node.dependencies n) = r' at hw hview huntold ⊢
  have hother : ∀ j, j ≠ key → r'.view? j = r.view? j := fun j hj => (hview j).trans (if_neg hj)
  have hself : r'.view? key = none := (hview key).trans (if_pos rfl)
  -- The node was said to be gone before, and the others stay as they are.
  refine ⟨hw, fun j v hj => ?_, fun j _ _ => ?_, fun j x hx _ => ?_, by simp, by simp,
    fun _ hf => hf.elim⟩
  · have hjk : j ≠ key := by
      rintro rfl
      simp [hself] at hj
    exact h.held j v (hother j hjk ▸ hj)
  · rw [huntold.seemsDependable_eq]
    by_cases hjk : j = key
    · subst hjk
      rw [(h.farewell j rfl).1, isDependable_eq_false hself]
    · rw [isDependable_congr (hother j hjk)]
      exact h.seems_eq j hjk (by simp)
  · have hjk : j ≠ key := by
      rintro rfl
      simp [value?, hself] at hx
    rw [value?, hother j hjk] at hx
    rw [huntold.toldValue?_eq]
    exact h.told_eq j x hx (by simp)

variable [LinkedNode ν] [CandidNode ν]

/-- What is true when a call begins has become true of the outcome when its tasks are done. -/
theorem Structured.told_settle {gone : String → Prop} (hs : Structured r) (c : Call ν)
    (h : Truthful gone (r.opening c).1 (r.opening c).2) :
    Truthful gone ((r.opening c).1.settle (r.opening c).2) [] := by
  have hrun := Agenda.run_preserves (P := Truthful gone) (fun _ _ _ hnow => hnow.step)
    ((r.opening c).1.cascadeBound (r.opening c).2) _ _ h
  rwa [hs.exists_settled c] at hrun

/-- After a call followers have been told what is true, if they had been before it. -/
theorem Told.call (h : Told r) (hs : Structured r) (hc : c.Followed) : Told (r.call c) := by
  have hw := (hs.opening c).toWired
  -- Only when a node is removed something is done after the cascade.
  by_cases hremoved : ∃ key, c = .delete key ∧ r.deletable key = true
  · obtain ⟨key, rfl, hmay⟩ := hremoved
    obtain ⟨n, hn, hcheck⟩ := deletable_iff.1 hmay
    obtain ⟨-, m, hm, hdelete⟩ := exists_delete hn hcheck
    have htold : Truthful (· = key) (r.opening (.delete key)).1 (r.opening (.delete key)).2 := by
      rw [opening_delete hmay] at hw ⊢
      exact h.deleted hw
    have hsettled := hs.told_settle (.delete key) htold
    rw [opening_delete hmay] at hsettled
    show Told (r.delete key).2
    rw [hdelete]
    exact hsettled.uninstall hm
  · have hkept : ∀ key, c = .delete key → r.deletable key = false :=
      fun key hkey => Bool.eq_false_iff.2 fun hmay => hremoved ⟨key, hkey, hmay⟩
    have hclosing : ∀ s, r.closing s c = s := by
      intro s
      cases c with
      | delete key => exact if_neg (by simp [hkept key rfl])
      | add | update | customize | clearCache | apply | takeOutbox | collect | share => rfl
    rw [call_eq_closing, hclosing]
    exact hs.told_settle c ((opens_opening r c).truthful h hw hc hkept)

/-! ## Runs -/

/-- What has been told mirrors the nodes. A node is registered and dependable if and only if the
last that has been said of its standing is that it has been verified; and if it is, the value that
has been told last is the one that it holds. -/
structure Mirrors (r : Registry ν) : Prop where
  isDependable_iff : ∀ k, r.isDependable k = true ↔
    ∃ a, r.lastOf k standingLabels = some a ∧ a.kind = actionKind ν "Validate Ok"
  compiled_eq : ∀ k n, r.get? k = some n → Node.isDependable n = true →
    ∃ a x, r.lastOf k ["Compile Ok"] = some a ∧ a.payload = some x ∧ Node.compiled n = some x

omit [LinkedNode ν] [CandidNode ν] in
theorem Told.mirrors (h : Told r) : Mirrors r := by
  refine ⟨fun k => ?_, fun k n hn hdep => ?_⟩
  · rw [← h.seems_eq k id (by simp), seemsDependable, Option.any_eq_true]
    simp only [beq_iff_eq]
  · have hv := view?_of_get? hn
    rw [LawfulNode.isDependable_eq, NodeView.dependable, Bool.and_eq_true] at hdep
    obtain ⟨x, hx⟩ := Option.isSome_iff_exists.1 (h.held k _ hv hdep.2)
    have htold : r.toldValue? k = some x := by
      refine h.told_eq k x ?_ (by simp)
      rw [value?, hv]
      exact hx
    obtain ⟨a, ha, hpayload⟩ := Option.bind_eq_some_iff.1 htold
    exact ⟨a, x, ha, hpayload, hx⟩

omit [LawfulNode ν] [LinkedNode ν] [CandidNode ν] in
theorem told_fresh (config : EngineConfig) (verifier : Option Verifier) :
    Told (fresh config verifier : Registry ν) := by
  refine ⟨wired_empty config verifier, ?_, fun k _ _ => rfl, ?_, by simp, by simp,
    fun _ hf => hf.elim⟩
  · intro k v hv
    simp [view?, get?, fresh] at hv
  · intro k x hx
    simp [value?, view?, get?, fresh] at hx

theorem told_reached (config : EngineConfig) (verifier : Option Verifier) (calls : List (Call ν))
    (hcalls : ∀ c ∈ calls, c.Followed) : Told (reached config verifier calls) := by
  have hrun : ∀ (cs : List (Call ν)) (r : Registry ν), (∀ c ∈ cs, c.Followed) → Structured r →
      Told r → Told (cs.foldl Registry.call r) := by
    intro cs
    induction cs with
    | nil => exact fun _ _ _ h => h
    | cons c rest ih =>
      intro r hcs hs h
      obtain ⟨hc, hrest⟩ := List.forall_mem_cons.1 hcs
      exact ih (r.call c) hrest (hs.call c) (h.call hs hc)
  exact hrun calls _ hcalls (structured_fresh config verifier) (told_fresh config verifier)

/-- In every registry that calls can lead to, be it one of entitlements or of profiles, whether the
compiler works at once or elsewhere, what has been told mirrors the nodes; provided that the cache
is never cleared and all nodes are blank when they are entered. Generations do not wrap: this is
about fewer than `2 ^ 64` compile requests. -/
theorem mirrors_reached (config : EngineConfig) (verifier : Option Verifier) :
    (∀ calls : List (Call EntitlementNode), (∀ c ∈ calls, c.Followed) →
      Mirrors (reached config verifier calls)) ∧
    (∀ calls : List (Call ProfileNode), (∀ c ∈ calls, c.Followed) →
      Mirrors (reached config verifier calls)) :=
  ⟨fun calls hcalls => (told_reached config verifier calls hcalls).mirrors,
    fun calls hcalls => (told_reached config verifier calls hcalls).mirrors⟩

/-- A node is switched off, and removed while another depends on it; a value that has been asked
for comes late. -/
theorem mirrors_reached_removed :
    let base : EntitlementNode := NodeKind.ofDefinition ({ id := "base" } : Entitlement)
    let top : EntitlementNode :=
      NodeKind.ofDefinition ({ id := "top", dependencies := ["base"] } : Entitlement)
    let calls : List (Call EntitlementNode) :=
      [.add base, .add top, .customize "base" .empty, .takeOutbox, .delete "base",
        .apply "base" (.compiled 1 (.int 7))]
    let user : ProfileNode := NodeKind.ofDefinition ({ name := "user" } : Profile)
    let calls' : List (Call ProfileNode) :=
      [.add user, .update "user" { entitlements := some (.int 7) }]
    ((∀ c ∈ calls, c.Followed) ∧ Mirrors (reached { compileMode := .deferred } none calls)) ∧
      (∀ c ∈ calls', c.Followed) ∧ Mirrors (reached {} none calls') := by
  intro base top calls user calls'
  have hbase : Node.Blank base := LawfulNode.fresh (ν := EntitlementNode) _
  have htop : Node.Blank top := LawfulNode.fresh (ν := EntitlementNode) _
  have huser : Node.Blank user := LawfulNode.fresh (ν := ProfileNode) _
  have hcalls : ∀ c ∈ calls, c.Followed := by simp [calls, Call.Followed, hbase, htop]
  have hcalls' : ∀ c ∈ calls', c.Followed := by simp [calls', Call.Followed, huser]
  exact ⟨⟨hcalls, (mirrors_reached { compileMode := .deferred } none).1 calls hcalls⟩, hcalls',
    (mirrors_reached {} none).2 calls' hcalls'⟩

end Registry

end LayeredAccess
