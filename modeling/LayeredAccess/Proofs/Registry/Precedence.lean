/-
  LayeredAccess.Proofs.Registry.Precedence

  Who comes first on a channel. Listeners are kept in the order in which they
  subscribed, so a dependent can stand ahead of the node that it depends on
  (`Ahead`).

  `Rewires` says once what a call can do to the tables. From it follows how the
  order changes with a call (`Structured.ahead_rewired`), and from that when a
  dependent stands ahead of a node (`ahead_iff_waited`): it depended on the node
  already when this was entered, and since then the node has stayed and the
  dependent has kept its dependencies.
-/
import LayeredAccess.Proofs.Registry.CascadePhases

namespace LayeredAccess

/-! ## Patches that move subscriptions -/

/-- Nodes say that a patch has changed their dependencies only if it has. -/
class PatchedNode (ν : Type) [Node ν] : Prop where
  ne_of_dependenciesChanged (n : ν) (patch : Node.Patch ν) :
    (Node.applyPatch n patch).1.dependenciesChanged = true →
      Node.dependencies (Node.applyPatch n patch).2 ≠ Node.dependencies n

/-- What a patch gives differs from what was there, and takes its place. -/
theorem ne_of_any_ne {previous : List String} {given : Option (List String)}
    (h : given.any (fun ds => !decide (ds = previous)) = true) :
    (if given.any (fun ds => !decide (ds = previous)) then given.getD [] else previous) ≠
      previous := by
  obtain ⟨ds, rfl, hne⟩ := (Option.any_eq_true _ _).1 h
  rw [if_pos h]
  simpa using hne

instance : PatchedNode EntitlementNode where
  ne_of_dependenciesChanged _ _ h := ne_of_any_ne h

instance : PatchedNode ProfileNode where
  ne_of_dependenciesChanged _ _ h := ne_of_any_ne h

/-! ## Two in a row -/

section Pairs

variable {α : Type} {a b x : α} {xs : List α}

theorem pair_sublist_filter (p : α → Bool) :
    [a, b].Sublist (xs.filter p) ↔ [a, b].Sublist xs ∧ p a = true ∧ p b = true := by
  constructor
  · intro h
    refine ⟨h.trans List.filter_sublist, ?_, ?_⟩
    · exact (List.mem_filter.1 (h.subset List.mem_cons_self)).2
    · exact (List.mem_filter.1 (h.subset (List.mem_cons_of_mem a List.mem_cons_self))).2
  · rintro ⟨h, ha, hb⟩
    simpa [ha, hb] using h.filter p

/-- What comes last does not matter to the order of others. -/
theorem pair_sublist_append {ys : List α} (hb : b ∉ ys) :
    [a, b].Sublist (xs ++ ys) ↔ [a, b].Sublist xs := by
  refine ⟨fun h => ?_, fun h => h.trans (List.sublist_append_left xs ys)⟩
  obtain ⟨l, l', heq, hl, hl'⟩ := List.sublist_append_iff.1 h
  rcases List.eq_nil_or_concat l' with rfl | ⟨l'', y, rfl⟩
  · rw [List.append_nil] at heq
    exact heq ▸ hl
  · -- The second of the two would have to be one of the last.
    have hy : y ∈ ys := hl'.subset (by simp)
    have hlast := congrArg List.getLast? heq
    simp only [List.getLast?_cons_cons, List.getLast?_singleton, List.concat_eq_append,
      ← List.append_assoc, List.getLast?_append, Option.some_or, Option.some.injEq] at hlast
    exact absurd (hlast ▸ hy) hb

theorem pair_sublist_concat_self (hb : b ∉ xs) : [a, b].Sublist (xs ++ [b]) ↔ a ∈ xs := by
  constructor
  · intro h
    obtain ⟨l, l', heq, hl, hl'⟩ := List.sublist_append_iff.1 h
    match l, heq with
    | [], heq =>
      have hlength := hl'.length_le
      rw [List.nil_append] at heq
      rw [← heq] at hlength
      simp at hlength
    | [c], heq =>
      obtain ⟨rfl, -⟩ := List.cons.inj heq
      exact hl.subset List.mem_cons_self
    | c :: d :: rest, heq =>
      simp only [List.cons_append, List.cons.injEq] at heq
      exact absurd (heq.2.1 ▸ hl.subset (by simp)) hb
  · intro h
    exact (List.singleton_sublist.2 h).append (List.Sublist.refl [b])

end Pairs

namespace Registry

/-! ## Subscriptions of one node -/

section Channels

variable {ν : Type}

/-- A dependent has subscribed to the channel of a node before the node itself has. -/
def Ahead (r : Registry ν) (key j : String) : Prop :=
  [Listener.dependent j, .owner key].Sublist (r.listenersOf key)

theorem listenersOf_subscribeAll (r : Registry ν) (k : String) (ds : List String) (c : String) :
    (r.subscribeAll k ds).listenersOf c =
      if c ∈ ds ∧ .dependent k ∉ r.listenersOf c then r.listenersOf c ++ [.dependent k]
      else r.listenersOf c := by
  induction ds generalizing r with
  | nil => simp [subscribeAll]
  | cons d rest ih =>
    show ((r.subscribe d (.dependent k)).subscribeAll k rest).listenersOf c = _
    rw [ih]
    simp only [listenersOf_subscribe]
    by_cases hd : d = c
    · subst hd
      by_cases hk : .dependent k ∈ r.listenersOf d <;> simp [hk]
    · simp [hd, Ne.symm hd]

theorem listenersOf_unsubscribeAll (r : Registry ν) (k : String) (ds : List String) (c : String) :
    (r.unsubscribeAll k ds).listenersOf c =
      if c ∈ ds then (r.listenersOf c).filter (· ≠ .dependent k) else r.listenersOf c := by
  induction ds generalizing r with
  | nil => simp [unsubscribeAll]
  | cons d rest ih =>
    show ((r.unsubscribe d (.dependent k)).unsubscribeAll k rest).listenersOf c = _
    rw [ih, listenersOf_unsubscribe]
    by_cases hd : d = c
    · subst hd
      simp
    · simp [hd, Ne.symm hd]

/-- Whoever subscribes anew is ahead of nobody any more, if it had been listening to those channels
only that it has left before. -/
theorem ahead_resubscribed (r : Registry ν) (k : String) {previous : List String}
    (current : List String) (hprevious : ∀ c, .dependent k ∈ r.listenersOf c → c ∈ previous)
    (key j : String) :
    ((r.unsubscribeAll k previous).subscribeAll k current).Ahead key j ↔
      r.Ahead key j ∧ j ≠ k := by
  -- First the node leaves all channels that it has been listening to.
  have hleft : (r.unsubscribeAll k previous).listenersOf key =
      (r.listenersOf key).filter (· ≠ .dependent k) := by
    rw [listenersOf_unsubscribeAll]
    split
    · rfl
    · next hnot =>
      refine (List.filter_eq_self.2 fun l hl => ?_).symm
      rw [decide_eq_true_eq]
      rintro rfl
      exact hnot (hprevious key hl)
  have hfiltered : [Listener.dependent j, .owner key].Sublist
      ((r.listenersOf key).filter (· ≠ .dependent k)) ↔ r.Ahead key j ∧ j ≠ k := by
    rw [pair_sublist_filter, Ahead]
    simp
  rw [Ahead, listenersOf_subscribeAll, hleft]
  split
  · rw [pair_sublist_append (by simp)]
    exact hfiltered
  · exact hfiltered

/-- Whoever is taken out is ahead of nobody, and nobody is ahead of it. -/
theorem ahead_uninstall (r : Registry ν) (k : String) {previous : List String}
    (hprevious : ∀ c, .dependent k ∈ r.listenersOf c → c ∈ previous) (key j : String) :
    (r.uninstall k previous).Ahead key j ↔ r.Ahead key j ∧ key ≠ k ∧ j ≠ k := by
  let r₁ : Registry ν := { r with nodes := KeyMap.erase r.nodes k }
  have hlisteners : (r.uninstall k previous).listenersOf key =
      ((r₁.unsubscribe k (.owner k)).unsubscribeAll k previous).listenersOf key := rfl
  have hprevious' : ∀ c, .dependent k ∈ (r₁.unsubscribe k (.owner k)).listenersOf c →
      c ∈ previous := fun c hc =>
    hprevious c ((mem_listenersOf_unsubscribe r₁ k c (.owner k) _).1 hc).1
  -- Taking a node out resubscribes it to nothing.
  have hleft := ahead_resubscribed (r₁.unsubscribe k (.owner k)) k [] hprevious' key j
  rw [Ahead, hlisteners]
  refine hleft.trans ?_
  rw [← and_assoc]
  refine and_congr_left fun _ => ?_
  rw [Ahead, listenersOf_unsubscribe]
  split
  · next hk =>
    subst hk
    rw [pair_sublist_filter]
    simp
  · next hk => exact (and_iff_left (Ne.symm hk)).symm

end Channels

/-! ## What calls do to the tables -/

section Tables

variable {ν : Type} [Node ν] {r r' : Registry ν} {key j k : String}

/-- The dependencies of a node, if it is registered. -/
def dependencies? (r : Registry ν) (k : String) : Option (List String) :=
  (r.get? k).map Node.dependencies

theorem dependsOn_iff_dependencies? (r : Registry ν) (a b : String) :
    r.DependsOn a b ↔ ∃ ds, r.dependencies? a = some ds ∧ b ∈ ds := by
  rw [DependsOn, dependencies?]
  cases r.get? a <;> simp

variable [NodeKind ν]

theorem dependencies?_eq (r : Registry ν) (k : String) :
    r.dependencies? k = (r.links? k).map Prod.snd := by
  rw [links?, view?, Option.map_map, Option.map_map]
  rfl

theorem contains_eq (r : Registry ν) (k : String) : r.contains k = (r.links? k).isSome := by
  rw [links?, view?, Option.isSome_map, Option.isSome_map, contains]

/-- What a call can do to the tables. -/
inductive Rewires (r r' : Registry ν) : Prop
  | kept (hl : Linked r r')
  | entered {n : ν} (hnew : r.contains (Node.key n) = false)
    (hcheck : r.graph.check (Node.key n) (Node.dependencies n) = .ok ())
    (hl : Linked (r.install n) r')
  | relinked {k : String} {n m : ν} (hn : r.get? k = some n) (hkey : Node.key m = k)
    (hcheck : r.graph.check k (Node.dependencies m) = .ok ())
    (hne : Node.dependencies m ≠ Node.dependencies n)
    (hl : Linked ((r.setNode k m).relink k (Node.dependencies n) m) r')
  | removed {k : String} {m : ν} {r₁ : Registry ν} (hl : Linked r r₁) (hm : r₁.get? k = some m)
    (heq : r' = r₁.uninstall k (Node.dependencies m))

variable [LawfulNode ν] [LinkedNode ν] [PatchedNode ν]

omit [LinkedNode ν] in
theorem Structured.rewires_patched (h : Structured r) {n : ν} {patch : Node.Patch ν}
    (hn : r.get? k = some n) (hcheck : r.checkUpdate k n patch = .ok ()) {r' : Registry ν}
    (hl : Linked (r.patched k n patch) r') : Rewires r r' := by
  obtain ⟨⟨inputs, hview, -⟩, hinstalled, hsame, -⟩ := LawfulNode.patched n patch
  have hkey : Node.key (Node.applyPatch n patch).2 = Node.key n :=
    show (Node.view (Node.applyPatch n patch).2).key = (Node.view n).key by rw [hview]
  have htold : ∀ s : Registry ν,
      Linked s ((s.publishWide k .updated).publishNarrow k .updated) := fun s =>
    Linked.trans (linked_of_silent ⟨_, rfl⟩) (linked_of_silent ⟨_, rfl⟩)
  cases hchanged : (Node.applyPatch n patch).1.dependenciesChanged with
  | true =>
    simp only [Registry.patched, hchanged, if_true] at hl
    exact .relinked hn (hkey.trans (h.key_eq k _ (view?_of_get? hn)))
      (check_of_checkUpdate hcheck (hinstalled hchanged))
      (PatchedNode.ne_of_dependenciesChanged n patch hchanged) ((htold _).trans hl)
  | false =>
    simp only [Registry.patched, hchanged, Bool.false_eq_true, if_false] at hl
    exact .kept ((linked_setNode hn hkey (hsame hchanged)).trans ((htold _).trans hl))

omit [NodeKind ν] [LawfulNode ν] [LinkedNode ν] [PatchedNode ν] in
theorem closing_of_ne_delete (r settled : Registry ν) {c : Call ν}
    (h : ∀ key, c ≠ .delete key) : r.closing settled c = settled := by
  cases c with
  | delete key => exact absurd rfl (h key)
  | add | update | customize | clearCache | apply | takeOutbox | collect | share => rfl

/-- Calls enter a node, move the subscriptions of one, take one out, or leave the tables alone. -/
theorem Structured.rewires (h : Structured r) (c : Call ν) : Rewires r (r.call c) := by
  have hcall := call_eq_closing r c
  have hopens := opens_opening r c
  generalize r.opening c = opening at hcall hopens
  obtain ⟨begun, tasks⟩ := opening
  have hsettled : Linked begun (begun.settle tasks) := linked_settle begun tasks
  dsimp only at hcall hopens
  -- A cascade leaves the tables alone, so the opening decides.
  cases hopens with
  | refused label e _ _ hrefused => exact hrefused ▸ .kept (linked_of_silent ⟨_, rfl⟩)
  | entered hnew hcheck =>
    rw [hcall, closing_of_ne_delete _ _ (by simp)]
    refine .entered hnew hcheck (Linked.trans ?_ hsettled)
    exact linked_of_silent (silent_publishSignal _ _ _ _)
  | @adopted key patch n hn hcheck hsame =>
    simp only [PatchOutcome.needsRecompile, Bool.or_eq_false_iff] at hsame
    obtain ⟨⟨inputs, hview, -⟩, -, hdeps, -⟩ := LawfulNode.patched n patch
    have hkey : Node.key (Node.applyPatch n patch).2 = Node.key n :=
      show (Node.view (Node.applyPatch n patch).2).key = (Node.view n).key by rw [hview]
    rw [hcall, closing_of_ne_delete _ _ (by simp)]
    refine .kept (Linked.trans ?_ hsettled)
    exact (linked_setNode hn hkey (hdeps hsame.1.1)).trans (linked_of_silent ⟨_, rfl⟩)
  | patched hn hcheck =>
    rw [hcall, closing_of_ne_delete _ _ (by simp)]
    exact h.rewires_patched hn hcheck hsettled
  | @deleted key n hn hcheck =>
    obtain ⟨hl, m, hm, heq⟩ := exists_delete hn hcheck
    exact .removed hl hm (congrArg Prod.snd heq)
  | cleared =>
    rw [hcall, closing_of_ne_delete _ _ (by simp)]
    exact .kept ((linked_resetAll r).trans hsettled)
  | customized | stale | failed | unmet | arrived | fetched | collected | shared =>
    rw [hcall, closing_of_ne_delete _ _ (by simp)]
    refine .kept (Linked.trans ?_ hsettled)
    exact linked_of_nodes rfl rfl rfl rfl rfl

/-! ## How the order changes -/

omit [LawfulNode ν] [LinkedNode ν] [PatchedNode ν] in
theorem Linked.ahead_iff (h : Linked r r') : r'.Ahead key j ↔ r.Ahead key j := by
  rw [Ahead, listenersOf, h.listeners_eq]
  rfl

omit [LawfulNode ν] [LinkedNode ν] [PatchedNode ν] in
theorem Wired.of_ahead (hw : Wired r) (h : r.Ahead key j) :
    r.DependsOn j key ∧ r.contains key = true := by
  constructor
  · obtain ⟨v, hv, hmem⟩ := (hw.mem_listenersOf key (.dependent j)).1 (h.subset (by simp))
    obtain ⟨n, hn, rfl⟩ := exists_get? hv
    exact ⟨n, hn, hmem⟩
  · obtain ⟨-, hsome⟩ := (hw.mem_listenersOf key (.owner key)).1 (h.subset (by simp))
    rw [contains_eq, links?, Option.isSome_map]
    exact hsome

omit [LawfulNode ν] [LinkedNode ν] [PatchedNode ν] in
/-- Who is entered comes after all who have been waiting for it. -/
theorem Wired.ahead_install (hw : Wired r) {n : ν} (hnew : r.contains (Node.key n) = false)
    (hself : Node.key n ∉ Node.dependencies n) :
    (r.install n).Ahead key j ↔
      if key = Node.key n then r.DependsOn j key else r.Ahead key j := by
  let r₁ : Registry ν :=
    { r.setNode (Node.key n)
        (Node.setReadiness n (Readiness.snapshot (Node.dependencies n) r.isDependable)) with
      graph := r.graph.insert (Node.key n) (Node.dependencies n) }
  have hlisteners : (r.install n).listenersOf key =
      ((r₁.subscribe (Node.key n) (.owner (Node.key n))).subscribeAll (Node.key n)
        (Node.dependencies n)).listenersOf key := rfl
  have hold : r₁.listenersOf = r.listenersOf := rfl
  rw [Ahead, hlisteners, listenersOf_subscribeAll, listenersOf_subscribe, hold]
  -- On its own channel the node is the last. On the others nothing is put ahead of anyone.
  by_cases hk : key = Node.key n
  · subst hk
    have hnobody : .owner (Node.key n) ∉ r.listenersOf (Node.key n) := by
      rw [hw.mem_listenersOf]
      rintro ⟨-, hsome⟩
      rw [contains_eq, links?, Option.isSome_map, hsome] at hnew
      simp at hnew
    simp only [hself, false_and, if_false, hnobody, not_false_eq_true, and_self, if_true]
    rw [pair_sublist_concat_self hnobody, hw.mem_listenersOf]
    constructor
    · rintro ⟨v, hv, hmem⟩
      obtain ⟨m, hm, rfl⟩ := exists_get? hv
      exact ⟨m, hm, hmem⟩
    · rintro ⟨m, hm, hmem⟩
      exact ⟨_, view?_of_get? hm, hmem⟩
  · simp only [Ne.symm hk, false_and, if_false, if_neg hk]
    split
    · exact pair_sublist_append (by simp)
    · rfl

omit [LawfulNode ν] [LinkedNode ν] [PatchedNode ν] in
/-- A dependent listens to its dependencies alone. -/
theorem Wired.mem_of_listens (hw : Wired r) {n : ν} (hn : r.get? k = some n) (c : String) :
    .dependent k ∈ r.listenersOf c → c ∈ Node.dependencies n := by
  rw [hw.mem_listenersOf]
  rintro ⟨v, hv, hmem⟩
  obtain rfl := Option.some.inj ((view?_of_get? hn).symm.trans hv)
  exact hmem

omit [LinkedNode ν] [PatchedNode ν] in
theorem links?_install (hw : Wired r) {n : ν} (hnew : r.contains (Node.key n) = false)
    (hcheck : r.graph.check (Node.key n) (Node.dependencies n) = .ok ()) (i : String) :
    (r.install n).links? i =
      if i = Node.key n then some (Node.key n, Node.dependencies n) else r.links? i := by
  obtain ⟨-, hview, -⟩ := install_spec hw hnew hcheck
  rw [links?, hview]
  split <;> rfl

omit [LinkedNode ν] [PatchedNode ν] in
theorem links?_relink (hw : Wired r) {n m : ν} (hn : r.get? k = some n) (hkey : Node.key m = k)
    (hcheck : r.graph.check k (Node.dependencies m) = .ok ()) (i : String) :
    ((r.setNode k m).relink k (Node.dependencies n) m).links? i =
      if i = k then some (k, Node.dependencies m) else r.links? i := by
  obtain ⟨-, hview, -⟩ := relink_spec hw (view?_of_get? hn) hkey hcheck
  refine (congrArg (Option.map _) (hview i)).trans ?_
  split
  · exact congrArg some (Prod.ext hkey rfl)
  · rfl

/-- What a change leaves of the order of two nodes: whoever is ahead after it was ahead before, or
depended on a node that is new; and both are still there, with the same dependencies. -/
def Carries (r r' : Registry ν) (key j : String) : Prop :=
  (r.Ahead key j ∨ (r.contains key = false ∧ r.DependsOn j key)) ∧
    r'.contains key = true ∧ r'.dependencies? j = r.dependencies? j

omit [NodeKind ν] [LawfulNode ν] [LinkedNode ν] [PatchedNode ν] in
theorem dependencies?_ne_none_of_dependsOn (h : r.DependsOn j key) : r.dependencies? j ≠ none := by
  obtain ⟨ds, hds, -⟩ := (dependsOn_iff_dependencies? r j key).1 h
  simp [hds]

omit [NodeKind ν] [LawfulNode ν] [LinkedNode ν] [PatchedNode ν] in
/-- If the node has been there, somebody who is ahead has been ahead. -/
theorem Carries.ahead (h : Carries r r' key j) (hcontains : r.contains key = true) :
    r.Ahead key j := by
  rcases h.1 with ha | ⟨hnew, -⟩
  · exact ha
  · simp [hcontains] at hnew

omit [LawfulNode ν] [LinkedNode ν] [PatchedNode ν] in
theorem Wired.carries_kept (hw : Wired r) (hl : Linked r r') :
    r'.Ahead key j ↔ Carries r r' key j := by
  have hkey : r'.contains key = r.contains key := by
    rw [contains_eq, contains_eq, hl.links?_eq]
  have hdeps : r'.dependencies? j = r.dependencies? j := by
    rw [Registry.dependencies?_eq, Registry.dependencies?_eq, hl.links?_eq]
  rw [hl.ahead_iff]
  exact ⟨fun ha => ⟨.inl ha, hkey.trans (hw.of_ahead ha).2, hdeps⟩,
    fun h => h.ahead (hkey.symm.trans h.2.1)⟩

omit [LinkedNode ν] [PatchedNode ν] in
theorem Structured.carries_entered (h : Structured r) {n : ν}
    (hnew : r.contains (Node.key n) = false)
    (hcheck : r.graph.check (Node.key n) (Node.dependencies n) = .ok ())
    (hl : Linked (r.install n) r') : r'.Ahead key j ↔ Carries r r' key j := by
  have hw := h.toWired
  obtain ⟨-, -, hself, -⟩ := (DependencyGraph.check_eq_ok_iff h.ranked).1 hcheck
  have hlinks : ∀ i, r'.links? i =
      if i = Node.key n then some (Node.key n, Node.dependencies n) else r.links? i :=
    fun i => (hl.links?_eq i).trans (links?_install hw hnew hcheck i)
  have hcontains : r'.contains key = true ↔ key = Node.key n ∨ r.contains key = true := by
    rw [contains_eq, contains_eq, hlinks]
    split
    · next hk => simp [hk]
    · next hk => simp [hk]
  -- Who depends on another node is not the new one, and keeps its dependencies.
  have hdeps : r.DependsOn j key → r'.dependencies? j = r.dependencies? j := by
    intro hdep
    have hj : j ≠ Node.key n := by
      rintro rfl
      refine dependencies?_ne_none_of_dependsOn hdep ?_
      rw [contains, Option.isSome_eq_false_iff, Option.isNone_iff_eq_none] at hnew
      rw [dependencies?, hnew, Option.map_none]
    rw [dependencies?_eq, dependencies?_eq, hlinks, if_neg hj]
  rw [hl.ahead_iff, hw.ahead_install hnew hself]
  by_cases hk : key = Node.key n
  · rw [if_pos hk]
    refine ⟨fun hdep => ⟨.inr ⟨hk ▸ hnew, hdep⟩, hcontains.2 (.inl hk), hdeps hdep⟩, ?_⟩
    rintro ⟨ha | ⟨-, hdep⟩, -⟩
    · exact (hw.of_ahead ha).1
    · exact hdep
  · rw [if_neg hk]
    refine ⟨fun ha => ?_, fun hcarries => ?_⟩
    · obtain ⟨hdep, hold⟩ := hw.of_ahead ha
      exact ⟨.inl ha, hcontains.2 (.inr hold), hdeps hdep⟩
    · exact hcarries.ahead ((hcontains.1 hcarries.2.1).resolve_left hk)

omit [LinkedNode ν] [PatchedNode ν] in
theorem Wired.carries_relinked (hw : Wired r) {n m : ν} (hn : r.get? k = some n)
    (hkey : Node.key m = k) (hcheck : r.graph.check k (Node.dependencies m) = .ok ())
    (hne : Node.dependencies m ≠ Node.dependencies n)
    (hl : Linked ((r.setNode k m).relink k (Node.dependencies n) m) r') :
    r'.Ahead key j ↔ Carries r r' key j := by
  have hlinks : ∀ i, r'.links? i = if i = k then some (k, Node.dependencies m) else r.links? i :=
    fun i => (hl.links?_eq i).trans (links?_relink hw hn hkey hcheck i)
  have hplace : ((r.setNode k m).relink k (Node.dependencies n) m).Ahead key j ↔
      r.Ahead key j ∧ j ≠ k :=
    ahead_resubscribed (r.setNode k m) k (Node.dependencies m) (hw.mem_of_listens hn) key j
  have hcontains : r'.contains key = r.contains key := by
    rw [contains_eq, hlinks]
    split
    · next hk => rw [hk, contains, hn, Option.isSome_some, Option.isSome_some]
    · rw [contains_eq]
  -- The node is the only one that has other dependencies than before.
  have hdeps : r'.dependencies? j = r.dependencies? j ↔ j ≠ k := by
    rw [Registry.dependencies?_eq, hlinks]
    split
    · next hj =>
      rw [hj, dependencies?, hn]
      simpa using hne
    · next hj =>
      rw [Registry.dependencies?_eq]
      simpa using hj
  rw [hl.ahead_iff, hplace, Carries, hcontains, hdeps]
  constructor
  · rintro ⟨ha, hj⟩
    exact ⟨.inl ha, (hw.of_ahead ha).2, hj⟩
  · rintro ⟨ha | ⟨hnew, -⟩, hold, hj⟩
    · exact ⟨ha, hj⟩
    · simp [hold] at hnew

omit [LawfulNode ν] [LinkedNode ν] [PatchedNode ν] in
theorem Structured.carries_removed (h : Structured r) {m : ν} {r₁ : Registry ν}
    (hl : Linked r r₁) (hm : r₁.get? k = some m) (hr' : r' = r₁.uninstall k (Node.dependencies m)) :
    r'.Ahead key j ↔ Carries r r' key j := by
  have hw := h.toWired
  have hs : Structured r₁ := h.of_linked hl
  have hlinks : ∀ i, r'.links? i = if i = k then none else r.links? i := by
    intro i
    rw [hr', (hs.uninstall hm).2, hl.links?_eq]
  -- The node is the only one that is gone.
  have hcontains : r'.contains key = true ↔ key ≠ k ∧ r.contains key = true := by
    rw [contains_eq, contains_eq, hlinks]
    split
    · next hk => simp [hk]
    · next hk => simp [hk]
  rw [hr', ahead_uninstall r₁ k (hs.toWired.mem_of_listens hm) key j, hl.ahead_iff, ← hr']
  constructor
  · rintro ⟨ha, hk, hj⟩
    refine ⟨.inl ha, hcontains.2 ⟨hk, (hw.of_ahead ha).2⟩, ?_⟩
    rw [dependencies?_eq, dependencies?_eq, hlinks, if_neg hj]
  · intro hcarries
    obtain ⟨hk, hold⟩ := hcontains.1 hcarries.2.1
    have ha := hcarries.ahead hold
    refine ⟨ha, hk, ?_⟩
    rintro rfl
    refine dependencies?_ne_none_of_dependsOn (hw.of_ahead ha).1 ?_
    rw [← hcarries.2.2, dependencies?_eq, hlinks, if_pos rfl, Option.map_none]

omit [LinkedNode ν] [PatchedNode ν] in
/-- What a change to the tables means for one pair of nodes. -/
theorem Structured.ahead_rewired (h : Structured r) (hr : Rewires r r') :
    r'.Ahead key j ↔
      (r.Ahead key j ∨ (r.contains key = false ∧ r.DependsOn j key)) ∧
        r'.contains key = true ∧ r'.dependencies? j = r.dependencies? j := by
  cases hr with
  | kept hl => exact h.toWired.carries_kept hl
  | entered hnew hcheck hl => exact h.carries_entered hnew hcheck hl
  | relinked hn hkey hcheck hne hl => exact h.toWired.carries_relinked hn hkey hcheck hne hl
  | removed hl hm heq => exact h.carries_removed hl hm heq

end Tables

/-! ## Since when somebody is ahead -/

section Histories

variable {ν ε : Type} [Node ν]

/-- In the history of a registry, a node waited for another when this was entered, and both have
been left alone since: the one has kept its dependencies, and the other has stayed. -/
structure Waited (reach : List ε → Registry ν) (history : List ε) (key j : String)
    (before : List ε) (e : ε) (after : List ε) : Prop where
  history_eq : history = before ++ e :: after
  unregistered : (reach before).contains key = false
  dependsOn : (reach before).DependsOn j key
  kept : ∀ middle, middle <+: after →
    (reach (before ++ e :: middle)).contains key = true ∧
      (reach (before ++ e :: middle)).dependencies? j = (reach before).dependencies? j

variable [NodeKind ν] [LawfulNode ν]

/-- A dependent is ahead of a node if and only if it has waited for the node. -/
theorem ahead_iff_waited (reach : List ε → Registry ν) (hempty : ∀ c, (reach []).listenersOf c = [])
    (hstructured : ∀ history, Structured (reach history))
    (hrewires : ∀ history e, Rewires (reach history) (reach (history ++ [e])))
    (history : List ε) (key j : String) :
    (reach history).Ahead key j ↔
      ∃ before e after, Waited reach history key j before e after := by
  -- Going by the last event, which either keeps a wait or begins one.
  induction history using List.reverseRecOn with
  | nil =>
    refine ⟨fun h => ?_, fun ⟨before, e, after, h⟩ => ?_⟩
    · rw [Ahead, hempty] at h
      exact absurd (h.subset List.mem_cons_self) (by simp)
    · simpa using h.history_eq
  | append_singleton history last ih =>
    rw [(hstructured history).ahead_rewired (hrewires history last), ih]
    constructor
    · rintro ⟨⟨before, e, after, h⟩ | ⟨hnew, hdep⟩, hcontains, hdeps⟩
      · refine ⟨before, e, after ++ [last],
          by rw [h.history_eq, List.append_assoc, List.cons_append], h.unregistered, h.dependsOn,
          fun middle hmiddle => ?_⟩
        rcases List.prefix_concat_iff.1 hmiddle with rfl | hmiddle
        · rw [← List.cons_append, ← List.append_assoc, ← h.history_eq]
          refine ⟨hcontains, hdeps.trans ?_⟩
          have hlast := (h.kept after List.prefix_rfl).2
          rwa [← h.history_eq] at hlast
        · exact h.kept middle hmiddle
      · refine ⟨history, last, [], rfl, hnew, hdep, fun middle hmiddle => ?_⟩
        obtain rfl := List.prefix_nil.1 hmiddle
        exact ⟨hcontains, hdeps⟩
    · rintro ⟨before, e, after, h⟩
      obtain ⟨hcontains, hdeps⟩ := h.kept after List.prefix_rfl
      rw [← h.history_eq] at hcontains hdeps
      rcases List.eq_nil_or_concat after with rfl | ⟨after, d, rfl⟩
      · obtain ⟨rfl, -⟩ := List.append_inj' h.history_eq rfl
        exact ⟨.inr ⟨h.unregistered, h.dependsOn⟩, hcontains, hdeps⟩
      · have heq := h.history_eq
        rw [List.concat_eq_append, ← List.cons_append, ← List.append_assoc] at heq
        obtain ⟨rfl, -⟩ := List.append_inj' heq rfl
        have hwaited : Waited reach (before ++ e :: after) key j before e after :=
          ⟨rfl, h.unregistered, h.dependsOn, fun middle hmiddle =>
            h.kept middle (hmiddle.trans (by simp))⟩
        refine ⟨.inl ⟨before, e, after, hwaited⟩, hcontains, ?_⟩
        rw [hdeps, (hwaited.kept after List.prefix_rfl).2]

variable [LinkedNode ν] [PatchedNode ν]

theorem ahead_reached_iff (config : EngineConfig) (verifier : Option Verifier)
    (calls : List (Call ν)) (key j : String) :
    (reached config verifier calls).Ahead key j ↔
      ∃ before c after, Waited (reached config verifier) calls key j before c after := by
  refine ahead_iff_waited (reached config verifier) (fun _ => rfl)
    (structured_reached config verifier) (fun cs c => ?_) calls key j
  have hconcat : reached config verifier (cs ++ [c]) = (reached config verifier cs).call c := by
    rw [reached, List.foldl_append]
    rfl
  rw [hconcat]
  exact (structured_reached config verifier cs).rewires c

end Histories

end Registry

namespace Session

open Registry

variable {ν : Type} [Node ν] [NodeKind ν] [LawfulNode ν] [LinkedNode ν] [PatchedNode ν]

theorem ahead_run_iff (config : EngineConfig) (verifier : Option Verifier)
    (events : List (Event ν)) (key j : String) :
    ((start config verifier).run events).registry.Ahead key j ↔
      ∃ before e after,
        Waited (fun events => ((start config verifier).run events).registry) events key j
          before e after := by
  refine ahead_iff_waited (fun events => ((start config verifier).run events).registry)
    (fun _ => rfl) (structured_run config verifier) (fun es e => ?_) events key j
  have hs : Structured ((start config verifier).run es).registry :=
    structured_run config verifier es
  rw [run_concat, registry_step]
  cases e.call? ((start config verifier).run es) with
  | none => exact .kept (.refl _)
  | some c => exact hs.rewires c

end Session

end LayeredAccess
