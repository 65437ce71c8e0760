/-
  LayeredAccess.Proofs.Registry.Rising

  Cascades in which nodes get their values.

  A node that has become dependable tells its dependents; one that has been
  told of its last missing dependency is compiled, and so on. No node is told
  twice: the news that are still to be told are exactly those that a node does
  not know yet (`Rising.news`). So a node is compiled at most once, and never
  while it holds a value.

  A request is answered on the spot or queued; both count as one step of the
  cascade, together with what the node itself does about the answer.
-/
import LayeredAccess.Proofs.Registry.ValueState

namespace LayeredAccess

/-- The node with a value, verified if the verifier accepts it. -/
def NodeView.valued (v : NodeView) (verifier : Option Verifier) (x : Json) : NodeView :=
  { v with
    compiled := some x, marked := true
    verified := Registry.accepts verifier v.inputs.resource x }

namespace Registry

variable {ν : Type} [Node ν] [NodeKind ν]

/-! ## A node and its value -/

section Arrival

variable [LawfulNode ν] {verifier : Option Verifier} {r : Registry ν} {k : String} {v : NodeView}

/-- A value is verified. If it complies, the node tells its dependents if they can build on it. -/
theorem leads_validate {m : ν} (hm : r.get? k = some m) {x : Json} (hx : Node.compiled m = some x)
    (hkind : NodeKind.verifies ν = true) (hplain : (Node.view m).verified = false)
    (hverifier : r.verifier = verifier) :
    let v' : NodeView := { Node.view m with verified := accepts verifier (Node.resource m) x }
    ∃ n r' more, Agenda.Leads step n r (.perform k .validate) r' more ∧ 0 < n ∧ n ≤ 2 ∧
      Turns r r' k v' ∧ ∃ gain, NodeView.Gain gain ∧
        more = if v'.dependable then gain.map (.perform k) else [] := by
  intro v'
  obtain ⟨r₁, hsilent, hvalidate⟩ := validate_eq hm hx
  rw [hverifier] at hvalidate
  have hleads := Agenda.leads_of_step (show step r (.perform k .validate) = _ from hvalidate)
  cases haccepts : accepts verifier (Node.resource m) x with
  -- The value does not comply: the node has not changed, and nobody is told.
  | false =>
    rw [haccepts] at hleads
    have hsame : v' = Node.view m := by
      show { Node.view m with verified := accepts verifier (Node.resource m) x } = Node.view m
      rw [haccepts, ← hplain]
    refine ⟨1, r₁, _, hleads, by omega, by omega, ?_, [.broadcast .validated false], .told, ?_⟩
    · rw [hsame]
      exact hsilent.alike.turns (view?_of_get? hm)
    · simp [hsame, NodeView.dependable, hplain]
  -- The value complies: the node is told so, and answers as the one it has become.
  | true =>
    rw [haccepts] at hleads
    have hm₁ : r₁.get? k = some m := by
      obtain ⟨published, rfl⟩ := hsilent
      exact hm
    obtain ⟨gain, hgain, hreacts⟩ := LawfulNode.validated m hkind
    obtain ⟨r₂, htell, hc⟩ := tell_eq hm₁ hreacts
    have hleads₂ :=
      Agenda.leads_of_step (show step r₁ (.tell k (.own .validated .registry)) = _ from htell)
    have hturns := hc.turns fun hl => by
      have hnot : Node.compiled m = none := hl.2
      simp [hx] at hnot
    refine ⟨2, r₂, _, hleads.trans hleads₂, by omega, by omega, ?_, gain, hgain, ?_⟩
    · have hv' : v' = { Node.view m with verified := true } := by rw [← haccepts]
      rw [hv']
      exact (hsilent.alike.turns (view?_of_get? hm)).trans hturns
    · have hactive : (Node.view m).inputs.active = NodeKind.isActive m := rfl
      simp only [v', NodeView.dependable, haccepts, hactive, Bool.and_true]
      split <;> simp

/-- A node without value that is told of one: it has it verified, and tells its dependents if they
can build on it. -/
theorem leads_arrival (hv : r.view? k = some v) (hnone : v.compiled = none)
    (hplain : v.verified = false) (hverifier : r.verifier = verifier) (x : Json) :
    ∃ n r' more, Agenda.Leads step n r (.tell k (.own (.compiled x) .registry)) r' more ∧
      0 < n ∧ n ≤ 3 ∧ Turns r r' k (v.valued verifier x) ∧ ∃ gain, NodeView.Gain gain ∧
        more = if (v.valued verifier x).dependable then gain.map (.perform k) else [] := by
  obtain ⟨m, hm, rfl⟩ := exists_get? hv
  obtain ⟨r₁, htell, hc⟩ := tell_eq hm (LawfulNode.compiled m x)
  have hturns := hc.turns (fun hl => by simp [hnone, NodeView.Loses] at hl)
  have hleads :=
    Agenda.leads_of_step (show step r (.tell k (.own (.compiled x) .registry)) = _ from htell)
  cases hkind : NodeKind.verifies ν with
  | false =>
    -- Nothing is verified: the value counts at once.
    have hresource : (Node.view m).inputs.resource = none := LawfulNode.resource_eq_none hkind m
    have hactive : (Node.view m).inputs.active = true := LawfulNode.isActive_eq_true hkind m
    have haccepts : accepts verifier (Node.view m).inputs.resource x = true := by
      rw [hresource, accepts_none]
    refine ⟨1, r₁, _, hleads, by omega, by omega, ?_, [.broadcast .validated false], .told, ?_⟩
    · simp only [NodeView.valued, haccepts]
      simpa [hkind] using hturns
    · simp [NodeView.valued, NodeView.dependable, haccepts, hactive, hkind]
  | true =>
    -- The node as it is with the value, before that is verified
    obtain ⟨m₁, hm₁, hview₁⟩ := exists_get? ((hturns.view?_eq k).trans (if_pos rfl))
    have hx : Node.compiled m₁ = some x := congrArg NodeView.compiled hview₁
    have hresource : Node.resource m₁ = (Node.view m).inputs.resource :=
      congrArg (fun w : NodeView => w.inputs.resource) hview₁
    have hplain₁ : (Node.view m₁).verified = false := by
      rw [hview₁]
      simp [hplain, hkind]
    obtain ⟨n, r₂, more, hleads₂, hpos, hle, hturns₂, gain, hgain, hmore⟩ :=
      leads_validate hm₁ hx hkind hplain₁ (hturns.verifier_eq.trans hverifier)
    simp only [hkind, if_true, List.map_cons, List.map_nil] at hleads
    have hvalued : ({ Node.view m₁ with
        verified := accepts verifier (Node.resource m₁) x } : NodeView) =
          (Node.view m).valued verifier x := by
      rw [hview₁, hresource]
      rfl
    rw [hvalued] at hturns₂ hmore
    exact ⟨1 + n, r₂, more, hleads.trans hleads₂, by omega, by omega, hturns.trans hturns₂, gain,
      hgain, hmore⟩

end Arrival

variable {verifier : Option Verifier} {width : Nat} {height : String → Nat} {bound : Nat}
  {r r' : Registry ν} {tasks rest : List Task}

/-! ## What is still to be told -/

/-- The news in a task: to whom it will be told of which dependency. -/
def heard (r : Registry ν) : Task → List (String × String)
  | .tell n (.dependency d _) => [(n, d)]
  | .perform d (.broadcast _ _) => (r.listenersOf d).filterMap fun
    | .owner _ => none
    | .dependent n => some (n, d)
  | _ => []

/-- The nodes that are due to be compiled. -/
def dueOf (tasks : List Task) : List String := tasks.filterMap fun
  | .perform k .compile => some k
  | _ => none

/-- A node does not know yet that a dependency has become dependable. -/
def Outdated (r : Registry ν) (n d : String) : Prop :=
  ∃ v, r.view? n = some v ∧ d ∈ v.inputs.dependencies ∧ v.recorded d = some false ∧
    r.isDependable d = true

/-- The tasks of a rising cascade, which only reaches nodes below a height. -/
def RisingTask (height : String → Nat) (bound : Nat) (r : Registry ν) : Task → Prop
  | .tell n (.dependency _ s) => s = .validated ∧ height n < bound
  | .tell k (.own _ origin) => origin = .node k ∧ (r.view? k).isSome
  | .perform d (.broadcast s _) => s = .validated ∧ height d ≤ bound
  | .perform k .compile => height k < bound
  | .perform _ .validate => False
  | .perform _ .announce => True

/-- What holds while values come. -/
structure Rising (verifier : Option Verifier) (width : Nat) (height : String → Nat) (bound : Nat)
    (r : Registry ν) (tasks : List Task) : Prop where
  steady : Steady verifier r
  graded : Graded width height r
  recorded_true : ∀ n v, r.view? n = some v → ∀ d ∈ v.inputs.dependencies,
    v.recorded d = some true → r.isDependable d = true
  news : ∀ n d, (n, d) ∈ tasks.flatMap r.heard ↔ r.Outdated n d
  nodup_news : (tasks.flatMap r.heard).Nodup
  due : ∀ k ∈ dueOf tasks, ∃ v, r.view? k = some v ∧ v.Ready ∧ v.compiled = none
  nodup_due : (dueOf tasks).Nodup
  allowed : ∀ t ∈ tasks, RisingTask height bound r t

theorem dueOf_map_compile (ks : List String) : dueOf (ks.map (.perform · .compile)) = ks := by
  induction ks with
  | nil => rfl
  | cons k rest ih => exact congrArg (k :: ·) ih

@[simp] theorem dueOf_append (xs ys : List Task) : dueOf (xs ++ ys) = dueOf xs ++ dueOf ys :=
  List.filterMap_append

theorem mem_heard_broadcast (hw : Wired r) (n d e : String) (s : Signal) (wide : Bool) :
    (n, e) ∈ r.heard (.perform d (.broadcast s wide)) ↔
      e = d ∧ ∃ v, r.view? n = some v ∧ d ∈ v.inputs.dependencies := by
  simp only [heard, List.mem_filterMap]
  constructor
  · rintro ⟨l, hl, heq⟩
    cases l with
    | owner k => simp at heq
    | dependent k =>
      obtain ⟨rfl, rfl⟩ : k = n ∧ d = e := by simpa using heq
      exact ⟨rfl, (hw.mem_listenersOf d _).1 hl⟩
  · rintro ⟨rfl, hv⟩
    exact ⟨.dependent n, (hw.mem_listenersOf e _).2 hv, rfl⟩

theorem nodup_heard (hw : Wired r) (t : Task) : (r.heard t).Nodup := by
  unfold heard
  split
  · simp
  · next d s wide =>
    refine List.Pairwise.filterMap _ (fun l l' hne b hb b' hb' heq => hne ?_) (hw.nodup d)
    subst heq
    cases l with
    | owner k => simp at hb
    | dependent k =>
      cases l' with
      | owner k' => simp at hb'
      | dependent k' =>
        obtain rfl : (k, d) = b := by simpa using hb
        obtain rfl : k' = k := by simpa using hb'
        rfl
  · simp

omit [Node ν] [NodeKind ν] in
/-- The tasks of a channel bring the news of the broadcast that leads to them. -/
theorem heard_dispatch (r : Registry ν) (d : String) (s : Signal) (wide : Bool) :
    (r.dispatch d s (.node d)).flatMap r.heard = r.heard (.perform d (.broadcast s wide)) := by
  simp only [dispatch, heard]
  induction r.listenersOf d with
  | nil => rfl
  | cons l rest ih => cases l <;> simp [heard, ih]

omit [Node ν] [NodeKind ν] in
theorem dueOf_dispatch (r : Registry ν) (d : String) (s : Signal) (o : Origin) :
    dueOf (r.dispatch d s o) = [] := by
  simp only [dueOf, List.filterMap_eq_nil_iff, dispatch]
  intro t ht
  obtain ⟨l, -, rfl⟩ := List.mem_map.1 ht
  cases l <;> rfl

omit [Node ν] [NodeKind ν] in
/-- A node that asks to be compiled brings no news. -/
theorem heard_compileIfReady (r : Registry ν) (v : NodeView) (k : String) :
    (v.compileIfReady.map (Task.perform k)).flatMap r.heard = [] := by
  unfold NodeView.compileIfReady
  split <;> rfl

omit [Node ν] [NodeKind ν] in
theorem total_compileIfReady_le (weight : Task → Nat) (v : NodeView) (k : String) :
    Agenda.total weight (v.compileIfReady.map (Task.perform k)) ≤
      weight (.perform k .compile) := by
  unfold NodeView.compileIfReady
  split <;> simp

theorem dueOf_compileIfReady (v : NodeView) (k : String) :
    dueOf (v.compileIfReady.map (Task.perform k)) = if v.Ready then [k] else [] := by
  unfold NodeView.compileIfReady
  split <;> rfl

omit [Node ν] [NodeKind ν] in
theorem heard_of_frame (hf : Frame r r') : r'.heard = r.heard := by
  funext t
  unfold heard listenersOf
  rw [hf.listeners_eq]

/-! ## The steps of a rising cascade -/

/-- The tasks of a rising cascade stay such tasks as long as nobody is removed. -/
theorem RisingTask.mono {t : Task} (h : RisingTask height bound r t)
    (hsome : ∀ k, (r.view? k).isSome → (r'.view? k).isSome) : RisingTask height bound r' t := by
  cases t with
  | tell n notice =>
    cases notice with
    | own s origin => exact ⟨h.1, hsome n h.2⟩
    | dependency d s => exact h
  | perform k effect => cases effect <;> exact h

/-- What tasks lead to is added to those that are left. -/
theorem RisingTask.of_append {more : List Task} (hmore : ∀ t ∈ more, RisingTask height bound r' t)
    (hrest : ∀ t ∈ rest, RisingTask height bound r t)
    (hsome : ∀ k, (r.view? k).isSome → (r'.view? k).isSome) :
    ∀ t ∈ more ++ rest, RisingTask height bound r' t := by
  intro t ht
  rcases List.mem_append.1 ht with ht | ht
  · exact hmore t ht
  · exact (hrest t ht).mono hsome

/-- A node may ask to be compiled. -/
theorem risingTask_compileIfReady {k : String} (v : NodeView) (hlt : height k < bound) :
    ∀ t ∈ v.compileIfReady.map (Task.perform k), RisingTask height bound r t := by
  intro t ht
  obtain ⟨e, he, rfl⟩ := List.mem_map.1 ht
  obtain rfl := NodeView.eq_compile_of_mem he
  exact hlt

/-- A node may tell of a gain. -/
theorem risingTask_gain {k : String} {gain : List Effect} (hgain : NodeView.Gain gain)
    (hle : height k ≤ bound) (told : Bool) :
    ∀ t ∈ (if told then gain.map (Task.perform k) else []), RisingTask height bound r t := by
  intro t ht
  split at ht
  · cases hgain with
    | told =>
      obtain rfl : t = .perform k (.broadcast .validated false) := by simpa using ht
      exact ⟨rfl, hle⟩
    | announced =>
      obtain rfl | rfl : t = .perform k (.broadcast .validated false) ∨
          t = .perform k .announce := by simpa using ht
      · exact ⟨rfl, hle⟩
      · trivial
  · simp at ht

/-- A node that comes to look different stays registered. -/
theorem isSome_view?_set {k : String} {v' : NodeView}
    (hview : ∀ j, r'.view? j = if j = k then some v' else r.view? j) (j : String)
    (hj : (r.view? j).isSome) : (r'.view? j).isSome := by
  rw [hview]
  split
  · rfl
  · exact hj

section Steps

variable [LawfulNode ν]

/-- What depends on a node without value is not ready. -/
theorem Rising.not_ready (h : Rising verifier width height bound r tasks) {k j : String}
    {v w : NodeView} (hv : r.view? k = some v) (hnone : v.compiled = none)
    (hw : r.view? j = some w) (hk : k ∈ w.inputs.dependencies) : ¬ w.Ready := by
  intro hready
  have hdep := h.recorded_true j w hw k hk (hready k hk)
  rw [isDependable_of_view? hv, (h.steady.fits k v hv).dependable_eq_false hnone] at hdep
  simp at hdep

omit [LawfulNode ν] in
/-- What is ready has dependencies that are dependable and hold values. -/
theorem Rising.isDependable_of_ready (h : Rising verifier width height bound r tasks) {k : String}
    {v : NodeView} (hv : r.view? k = some v) (hready : v.Ready) :
    ∀ d ∈ v.inputs.dependencies, r.isDependable d = true :=
  fun d hd => h.recorded_true k v hv d hd (hready d hd)

/-- A step that concerns no node: what it leads to brings the same news. -/
theorem Rising.of_unmoved {t : Task} {more : List Task}
    (h : Rising verifier width height bound r (t :: rest)) (ha : Unmoved r r')
    (hheard : more.flatMap r.heard = r.heard t) (hdue : dueOf more = [])
    (hmore : ∀ u ∈ more, RisingTask height bound r' u) :
    Rising verifier width height bound r' (more ++ rest) := by
  have hsub : ∀ k ∈ dueOf rest, k ∈ dueOf (t :: rest) := by
    intro k hk
    rw [show t :: rest = [t] ++ rest from rfl, dueOf_append]
    exact List.mem_append_right _ hk
  -- What there was to be heard of the task is now to be heard of those it has left.
  have hnews : (more ++ rest).flatMap r'.heard = (t :: rest).flatMap r.heard := by
    rw [heard_of_frame ha.toFrame, List.flatMap_append, hheard, List.flatMap_cons]
  refine ⟨h.steady.of_unmoved ha, h.graded.of_unmoved ha, fun n v hv d hd hr => ?recorded_true,
    fun n d => ?news, ?nodup_news, fun k hk => ?due, ?nodup_due,
    RisingTask.of_append hmore (fun u hu => h.allowed u (List.mem_cons_of_mem _ hu))
      fun k hk => by rwa [ha.view?_eq]⟩
  case recorded_true =>
    rw [ha.isDependable_eq]
    exact h.recorded_true n v ((ha.view?_eq n).symm.trans hv) d hd hr
  case news => rw [hnews, h.news, Outdated, Outdated, ha.view?_eq, ha.isDependable_eq]
  case nodup_news =>
    rw [hnews]
    exact h.nodup_news
  case due =>
    rw [dueOf_append, hdue] at hk
    obtain ⟨v, hv, hv'⟩ := h.due k (hsub k hk)
    exact ⟨v, (ha.view?_eq k).trans hv, hv'⟩
  case nodup_due =>
    rw [dueOf_append, hdue]
    have hnodup := h.nodup_due
    rw [show t :: rest = [t] ++ rest from rfl, dueOf_append] at hnodup
    exact (List.nodup_append.1 hnodup).2.1

/-- A task of a rising cascade can be done, with what a node does at once about its value. The
outlook goes on by one advance, or nothing happens that matters. -/
def Rising.Proceeds (verifier : Option Verifier) (width : Nat) (height : String → Nat)
    (bound : Nat) (r : Registry ν) (t : Task) (rest : List Task) : Prop :=
  ∃ n r' more, Agenda.Leads step n r t r' more ∧ 0 < n ∧
    n + Agenda.total (Task.weight width height) more ≤ t.weight width height ∧
    Rising verifier width height bound r' (more ++ rest) ∧
    (r'.outlook (dueOf (more ++ rest)) = r.outlook (dueOf (t :: rest)) ∨
      Outlook.Advance (fun k => height k < bound) (r.outlook (dueOf (t :: rest)))
        (r'.outlook (dueOf (more ++ rest))))

/-! ## Nodes that get back a dependency -/

/-- A node learns that a dependency has become dependable. -/
structure Regains (r r' : Registry ν) (n d : String) (v v' : NodeView) : Prop extends
    Turns r r' n v' where
  before : r.view? n = some v
  mem : d ∈ v.inputs.dependencies
  unknown : v.recorded d = some false
  dependable : r.isDependable d = true
  after : v' = v.record d true

section Regains

variable {n d : String} {s : Signal} {v v' : NodeView}

omit [LawfulNode ν] in
theorem Regains.not_ready (h : Regains r r' n d v v') : ¬ v.Ready := fun hready => by
  simpa [h.unknown] using hready d h.mem

omit [LawfulNode ν] in
theorem Regains.dependencies_eq (h : Regains r r' n d v v') :
    v'.inputs.dependencies = v.inputs.dependencies := by
  rw [h.after, NodeView.record_inputs]

theorem Regains.isDependable_eq (h : Regains r r' n d v v') (j : String) :
    r'.isDependable j = r.isDependable j := by
  rw [isDependable_set h.view?_eq]
  split
  · next hj => rw [hj, isDependable_of_view? h.before, h.after, NodeView.record_dependable]
  · rfl

/-- The node is up to date about the dependency; nothing else changes. -/
theorem Regains.outdated_iff (h : Regains r r' n d v v') (j e : String) :
    r'.Outdated j e ↔ (j, e) ≠ (n, d) ∧ r.Outdated j e := by
  simp only [Outdated, h.isDependable_eq, h.view?_eq]
  by_cases hj : j = n
  · by_cases he : e = d
    · simp [hj, h.after, he, NodeView.record_recorded]
    · simp [hj, h.before, h.after, NodeView.record_recorded, he]
  · simp [hj]

/-- What the node takes to be dependable is so, also what it has just been told of. -/
theorem Regains.recorded_true (hg : Regains r r' n d v v')
    (h : Rising verifier width height bound r tasks) {j e : String} {w : NodeView}
    (hw : r'.view? j = some w) (he : e ∈ w.inputs.dependencies) (hrec : w.recorded e = some true) :
    r'.isDependable e = true := by
  rw [hg.isDependable_eq]
  rw [hg.view?_eq] at hw
  split at hw
  · obtain rfl : v' = w := Option.some.inj hw
    rw [hg.dependencies_eq] at he
    rw [hg.after, NodeView.record_recorded] at hrec
    split at hrec
    · next hed => rw [hed, hg.dependable]
    · exact h.recorded_true n v hg.before e he hrec
  · exact h.recorded_true j w hw e he hrec

omit [LawfulNode ν] in
theorem Regains.compiled_eq_none (hg : Regains r r' n d v v')
    (h : Rising verifier width height bound r tasks) :
    v.compiled = none ∧ v'.compiled = none := by
  have hnone := (h.steady.fits n v hg.before).compiled_eq_none hg.not_ready
  exact ⟨hnone, by rw [hg.after, NodeView.record_compiled, hnone]⟩

omit [LawfulNode ν] in
/-- Nothing was due for the node, which was not ready. -/
theorem Regains.not_due (hg : Regains r r' n d v v')
    (h : Rising verifier width height bound r (.tell n (.dependency d s) :: rest)) :
    n ∉ dueOf rest := by
  intro hn
  obtain ⟨w, hw, hready, -⟩ := h.due n hn
  obtain rfl : v = w := Option.some.inj (hg.before.symm.trans hw)
  exact hg.not_ready hready

omit [LawfulNode ν] in
/-- What the node has been told is not told again, and nothing new is to be told. -/
theorem Regains.flatMap_heard (hg : Regains r r' n d v v') :
    (v'.compileIfReady.map (Task.perform n) ++ rest).flatMap r'.heard = rest.flatMap r.heard := by
  rw [List.flatMap_append, heard_compileIfReady, List.nil_append, heard_of_frame hg.toFrame]

/-- What is still to be told is what nodes do not know yet, without what has just been told. -/
theorem Regains.news (hg : Regains r r' n d v v')
    (h : Rising verifier width height bound r (.tell n (.dependency d s) :: rest)) (j e : String) :
    (j, e) ∈ (v'.compileIfReady.map (Task.perform n) ++ rest).flatMap r'.heard ↔
      r'.Outdated j e := by
  have hold : (j, e) ∈ (n, d) :: rest.flatMap r.heard ↔ r.Outdated j e := h.news j e
  have hfresh : (n, d) ∉ rest.flatMap r.heard := (List.nodup_cons.1 h.nodup_news).1
  rw [hg.flatMap_heard, hg.outdated_iff, ← hold, List.mem_cons]
  constructor
  · exact fun hin => ⟨fun he => hfresh (he ▸ hin), .inr hin⟩
  · exact fun ⟨hne, hin⟩ => hin.resolve_left hne

omit [LawfulNode ν] in
/-- The node is due if it is ready now; the others are due as before. -/
theorem Regains.due (hg : Regains r r' n d v v')
    (h : Rising verifier width height bound r (.tell n (.dependency d s) :: rest)) {k : String}
    (hk : k ∈ dueOf (v'.compileIfReady.map (Task.perform n) ++ rest)) :
    ∃ w, r'.view? k = some w ∧ w.Ready ∧ w.compiled = none := by
  rw [dueOf_append, dueOf_compileIfReady, List.mem_append] at hk
  rw [hg.view?_eq]
  rcases hk with hk | hk
  · split at hk
    · next hready =>
      obtain rfl : k = n := List.mem_singleton.1 hk
      exact ⟨v', if_pos rfl, hready, (hg.compiled_eq_none h).2⟩
    · exact absurd hk List.not_mem_nil
  · have hne : k ≠ n := fun he => hg.not_due h (he ▸ hk)
    rw [if_neg hne]
    exact h.due k hk

/-- A node that learns that a dependency has become dependable. If it was the last one missing,
the node is due from then on. -/
theorem Rising.of_regains
    (h : Rising verifier width height bound r (.tell n (.dependency d s) :: rest))
    (hlt : height n < bound) (hg : Regains r r' n d v v') :
    Rising verifier width height bound r' (v'.compileIfReady.map (.perform n) ++ rest) := by
  have hv := hg.before
  have hkey : v'.key = v.key := by rw [hg.after, NodeView.record_key]
  obtain ⟨hnone, hnone'⟩ := hg.compiled_eq_none h
  -- A node without value fits, whatever it records.
  have hfits : v'.Fits verifier := hg.after ▸ (h.steady.fits n v hv).record hnone d true
  have hcompiled := hg.compiled?_eq_of_value h.steady hv (hnone'.trans hnone.symm)
  refine ⟨h.steady.set hg.toFrame hv hg.view?_eq hcompiled hkey hg.dependencies_eq hfits,
    h.graded.set hg.toFrame hv hg.view?_eq hkey hg.dependencies_eq,
    fun j w hw e => hg.recorded_true h hw, hg.news h, ?_, fun k => hg.due h, ?_,
    RisingTask.of_append (risingTask_compileIfReady v' hlt)
      (fun u hu => h.allowed u (List.mem_cons_of_mem _ hu)) (isSome_view?_set hg.view?_eq)⟩
  · rw [hg.flatMap_heard]
    exact (List.nodup_cons.1 h.nodup_news).2
  · rw [dueOf_append, dueOf_compileIfReady]
    split
    · exact List.nodup_cons.2 ⟨hg.not_due h, h.nodup_due⟩
    · exact h.nodup_due

end Regains

/-- A node is told that it has got back a dependency, of which it did not know. -/
theorem Rising.tell_regained {n d : String} {s : Signal}
    (h : Rising verifier width height bound r (.tell n (.dependency d s) :: rest)) :
    ∃ v r', r.view? n = some v ∧ v.recorded d = some false ∧ ¬ v.Ready ∧ v.compiled = none ∧
      r.tell n (.dependency d s) = (r', (v.record d true).compileIfReady.map (.perform n)) ∧
      Turns r r' n (v.record d true) ∧ height n < bound ∧
      Rising verifier width height bound r'
        ((v.record d true).compileIfReady.map (.perform n) ++ rest) := by
  obtain ⟨rfl, hlt⟩ := h.allowed _ List.mem_cons_self
  obtain ⟨v, hv, hd, hr, hdep⟩ := (h.news n d).1 List.mem_cons_self
  obtain ⟨m, hm, rfl⟩ := exists_get? hv
  have hnot : ¬ (Node.view m).Ready := fun hready => by simp [hready d hd] at hr
  have hnone := (h.steady.fits n _ hv).compiled_eq_none hnot
  obtain ⟨r', htell, hc⟩ := tell_eq hm (LawfulNode.regained m d hr)
  have hturns := hc.turns (fun hl => by simp [hnone, NodeView.Loses] at hl)
  exact ⟨_, r', hv, hr, hnot, hnone, htell, hturns, hlt,
    h.of_regains hlt ⟨hturns, hv, hd, hr, hdep, rfl⟩⟩

/-- A node that has got back a dependency is compiled if it was the last one missing. -/
theorem Rising.regained {n d : String} {s : Signal}
    (h : Rising verifier width height bound r (.tell n (.dependency d s) :: rest)) :
    Rising.Proceeds verifier width height bound r (.tell n (.dependency d s)) rest := by
  obtain ⟨v, r', hv, hr, hnot, hnone, htell, hturns, hlt, hnext⟩ := h.tell_regained
  generalize hv' : v.record d true = v' at htell hturns hnext
  have hleads := Agenda.leads_of_step (show step r (.tell n (.dependency d s)) = _ from htell)
  refine ⟨1, r', v'.compileIfReady.map (.perform n), hleads, Nat.one_pos, ?_, hnext, ?_⟩
  · have hweight := total_compileIfReady_le (Task.weight width height) v' n
    simp only [Task.weight] at hweight ⊢
    omega
  · have hline : (r.outlook (dueOf rest)).outline? n = some v.outline := outline?_outlook hv
    rw [dueOf_append, dueOf_compileIfReady]
    -- The last dependency makes the node ready and due. Before it nothing in the outlook changes.
    by_cases hready : v'.Ready
    · rw [if_pos hready]
      refine .inr ?_
      have hline' : v'.outline = { v.outline with ready := true } := by
        rw [← hv'] at hready ⊢
        simp only [NodeView.outline, decide_eq_true hready]
        rfl
      rw [hturns.outlook_eq, hline']
      exact .learn hline (decide_eq_false hnot) hnone hlt
    · rw [if_neg hready]
      refine .inl ?_
      have hline' : v'.outline = v.outline := by
        rw [← hv'] at hready ⊢
        simp only [NodeView.outline, decide_eq_false hready, decide_eq_false hnot]
        rfl
      show r'.outlook (dueOf rest) = r.outlook (dueOf rest)
      rw [hturns.outlook_eq, hline', Outlook.set_eq_self hline]

/-- A node is told of what it has told others. -/
theorem Rising.tell_echo {n : String} {s : Signal} {origin : Origin}
    (h : Rising verifier width height bound r (.tell n (.own s origin) :: rest)) :
    origin = .node n ∧ ∃ r', r.tell n (.own s origin) = (r', []) ∧ Alike r r' := by
  obtain ⟨rfl, hsome⟩ := h.allowed _ List.mem_cons_self
  exact ⟨rfl, h.steady.wired.tell_echo hsome s⟩

theorem Rising.echo {n : String} {s : Signal} {origin : Origin}
    (h : Rising verifier width height bound r (.tell n (.own s origin) :: rest)) :
    Rising.Proceeds verifier width height bound r (.tell n (.own s origin)) rest := by
  obtain ⟨rfl, r', htell, ha⟩ := h.tell_echo
  have hleads := Agenda.leads_of_step (show step r (.tell n (.own s (.node n))) = _ from htell)
  refine ⟨1, r', [], hleads, Nat.one_pos, ?_,
    h.of_unmoved ha.toUnmoved rfl rfl (by simp), .inl (ha.outlook_eq _)⟩
  cases s <;> simp [Task.weight]

/-- The directory is told of a value. -/
theorem Rising.announce {k : String}
    (h : Rising verifier width height bound r (.perform k .announce :: rest)) :
    Rising.Proceeds verifier width height bound r (.perform k .announce) rest := by
  have ha := (silent_announce r k).alike
  refine ⟨1, r.announce k, [], Agenda.leads_step step r (.perform k .announce),
    Nat.one_pos, ?_, h.of_unmoved ha.toUnmoved rfl rfl (by simp), .inl (ha.outlook_eq _)⟩
  simp [Task.weight]

/-- A channel is told that its node has become dependable. -/
theorem Rising.of_broadcast {d : String} {s : Signal} {wide : Bool}
    (h : Rising verifier width height bound r (.perform d (.broadcast s wide) :: rest)) :
    Rising verifier width height bound (r.publishSignal d s wide)
      ((r.publishSignal d s wide).dispatch d s (.node d) ++ rest) := by
  obtain ⟨rfl, hle⟩ := h.allowed _ List.mem_cons_self
  let r' := r.publishSignal d .validated wide
  have ha : Alike r r' := (silent_publishSignal r d .validated wide).alike
  have hg := h.graded.of_unmoved ha.toUnmoved
  have hheard : (r'.dispatch d .validated (.node d)).flatMap r.heard =
      r.heard (.perform d (.broadcast .validated wide)) := by
    rw [← heard_of_frame ha.toFrame]
    exact heard_dispatch r' d .validated wide
  refine h.of_unmoved ha.toUnmoved hheard (dueOf_dispatch r' d .validated (.node d)) fun u hu => ?_
  obtain ⟨l, hl, rfl⟩ := List.mem_map.1 hu
  have hlistens := (hg.wired.mem_listenersOf d l).1 hl
  -- The node hears its own echo, and its dependents are higher up.
  cases l with
  | owner k =>
    obtain ⟨rfl, hk⟩ := hlistens
    exact ⟨rfl, hk⟩
  | dependent k =>
    obtain ⟨v, hv, hmem⟩ := hlistens
    have hlt := hg.height_lt k v hv d hmem
    exact ⟨rfl, by omega⟩

theorem Rising.broadcast {d : String} {s : Signal} {wide : Bool}
    (h : Rising verifier width height bound r (.perform d (.broadcast s wide) :: rest)) :
    Rising.Proceeds verifier width height bound r (.perform d (.broadcast s wide)) rest := by
  have ha : Alike r (r.publishSignal d s wide) := (silent_publishSignal r d s wide).alike
  have hg := h.graded.of_unmoved ha.toUnmoved
  refine ⟨1, r.publishSignal d s wide, (r.publishSignal d s wide).dispatch d s (.node d),
    Agenda.leads_step step r (.perform d (.broadcast s wide)), Nat.one_pos, ?_,
    h.of_broadcast, .inl ?_⟩
  · have htotal := hg.total_dispatch_le d s
    simp only [Task.weight]
    omega
  · rw [dueOf_append, dueOf_dispatch]
    exact ha.outlook_eq _

omit [LawfulNode ν] in
/-- A request that is answered or queued is no longer due. -/
theorem Rising.of_due {k : String}
    (h : Rising verifier width height bound r (.perform k .compile :: rest)) :
    Rising verifier width height bound r rest ∧ k ∉ dueOf rest := by
  obtain ⟨hfresh, hnodup⟩ := List.nodup_cons.1 (show (k :: dueOf rest).Nodup from h.nodup_due)
  refine ⟨⟨h.steady, h.graded, h.recorded_true, h.news, h.nodup_news, fun j hj => ?_, hnodup,
    fun u hu => h.allowed u (List.mem_cons_of_mem _ hu)⟩, hfresh⟩
  exact h.due j (List.mem_cons_of_mem _ hj)

/-- A job is queued. -/
theorem Rising.request {k : String} (hmode : r.isDeferred = true)
    (h : Rising verifier width height bound r (.perform k .compile :: rest)) :
    Rising.Proceeds verifier width height bound r (.perform k .compile) rest := by
  obtain ⟨v, hv, hready, hnone⟩ := h.due k List.mem_cons_self
  have hdeps := h.isDependable_of_ready hv hready
  obtain ⟨m, hm, rfl⟩ := exists_get? hv
  have hrequest := requestCompile_deferred hm hdeps hmode
  have hleads := Agenda.leads_of_step (show step r (.perform k .compile) = _ from hrequest)
  refine ⟨1, _, [], hleads, Nat.one_pos, ?_, ?_, .inr ?_⟩
  · simp [Task.weight]
  · exact h.of_unmoved ⟨⟨rfl, rfl, rfl, rfl, fun h => ⟨h, rfl⟩⟩, fun _ => rfl, fun _ => rfl⟩
      rfl rfl (by simp)
  -- In the outlook the move is a request, as all below the node have values.
  · have hvalues : ∀ d ∈ (Node.view m).outline.dependencies,
        ((r.outlook (k :: dueOf rest)).value? d).isSome := by
      intro d hd
      rw [value?_outlook]
      exact h.steady.value?_of_isDependable (hdeps d hd)
    have hadvance : Outlook.Advance (fun k => height k < bound) (r.outlook (k :: dueOf rest)) _ :=
      .request hmode rfl (outline?_outlook hv) (decide_eq_true hready) hnone hvalues
        (h.allowed _ List.mem_cons_self)
    have heq : (Registry.queueJob (r.bumpGeneration k).2
        { id := k, generation := r.generation + 1, dependencies := Node.dependencies m
          layers := Node.layers m }).outlook (dueOf rest) =
        { (r.outlook (k :: dueOf rest)).request k (Node.view m).outline with
          due := dueOf rest } := by
      refine outlook_ext (o := { (r.outlook (k :: dueOf rest)).request k (Node.view m).outline with
        due := dueOf rest }) (fun _ => rfl) rfl rfl (fun j => ?_) rfl
      show KeyMap.find? (KeyMap.insert r.generations k (r.generation + 1)) j =
        if j = k then some (r.generation + 1) else KeyMap.find? r.generations j
      simp only [KeyMap.find?_insert, eq_comm]
    show Outlook.Advance _ (r.outlook (k :: dueOf rest)) _
    rw [List.nil_append, heq]
    exact hadvance

omit [LawfulNode ν] in
/-- A gain calls for nothing but news of the node, and for no compilation. -/
theorem dueOf_gain {gain : List Effect} (hgain : NodeView.Gain gain) (k : String) :
    dueOf (gain.map (.perform k)) = [] := by
  cases hgain <;> rfl

omit [Node ν] [NodeKind ν] [LawfulNode ν] in
theorem heard_gain {gain : List Effect} (hgain : NodeView.Gain gain) (r : Registry ν) (k : String) :
    (gain.map (Task.perform k)).flatMap r.heard =
      r.heard (.perform k (.broadcast .validated false)) := by
  cases hgain <;> simp [heard]

omit [LawfulNode ν] in
/-- A gain that is told brings news of the node to all its dependents. -/
theorem mem_heard_gain (hw : Wired r) {gain : List Effect} (hgain : NodeView.Gain gain)
    (told : Bool) (k n d : String) :
    (n, d) ∈ (if told then gain.map (Task.perform k) else []).flatMap r.heard ↔
      told = true ∧ d = k ∧ ∃ w, r.view? n = some w ∧ k ∈ w.inputs.dependencies := by
  cases told with
  | false => simp
  | true => rw [if_pos rfl, heard_gain hgain, mem_heard_broadcast hw, eq_self, true_and]

/-- When a node becomes dependable all its dependents are out of date about it; nobody was
before. -/
theorem Rising.outdated_of_gain {k : String} {v v' : NodeView}
    (h : Rising verifier width height bound r rest) (hv : r.view? k = some v)
    (hplain : v.dependable = false)
    (hview : ∀ j, r'.view? j = if j = k then some v' else r.view? j)
    (hdeps : v'.inputs.dependencies = v.inputs.dependencies) (hrec : v'.recorded = v.recorded)
    (n d : String) : r'.Outdated n d ↔ r.Outdated n d ∨
      (v'.dependable = true ∧ d = k ∧ ∃ w, r.view? n = some w ∧ k ∈ w.inputs.dependencies) := by
  have hnot : r.isDependable k = false := by rw [isDependable_of_view? hv, hplain]
  have hdependable := isDependable_set hview
  -- What nodes depend on and have recorded is as before.
  have hsame : r'.Outdated n d ↔ ∃ w, r.view? n = some w ∧ d ∈ w.inputs.dependencies ∧
      w.recorded d = some false ∧ r'.isDependable d = true := by
    simp only [Outdated, hview]
    split
    · next hn =>
      subst hn
      simp only [Option.some.injEq, hv, exists_eq_left', hdeps, hrec]
    · rfl
  rw [hsame, hdependable]
  by_cases hd : d = k
  · subst hd
    have hbefore : ¬ r.Outdated n d := by
      rintro ⟨-, -, -, -, hdep⟩
      simp [hnot] at hdep
    rw [if_pos rfl]
    constructor
    · rintro ⟨w, hw, hmem, -, hdep⟩
      exact .inr ⟨hdep, rfl, w, hw, hmem⟩
    · rintro (hin | ⟨hdep, -, w, hw, hmem⟩)
      · exact absurd hin hbefore
      · -- Nobody can have recorded the node as dependable before it was.
        obtain ⟨ready, hr⟩ := Option.isSome_iff_exists.1 ((h.steady.fits n w hw).known d hmem)
        cases ready with
        | false => exact ⟨w, hw, hmem, hr, hdep⟩
        | true =>
          have hdep' := h.recorded_true n w hw d hmem hr
          simp [hnot] at hdep'
  · rw [if_neg hd]
    constructor
    · exact .inl
    · exact fun hin => hin.resolve_right fun hright => hd hright.2.1

/-- A node that was not dependable may have become so. If it has, its dependents are out of date
until they are told. -/
theorem Rising.of_gain {k : String} {v v' : NodeView} {gain : List Effect}
    (h : Rising verifier width height bound r rest) (hv : r.view? k = some v)
    (hplain : v.dependable = false) (hfresh : k ∉ dueOf rest) (hle : height k ≤ bound)
    (hf : Frame r r') (hview : ∀ j, r'.view? j = if j = k then some v' else r.view? j)
    (hcompiled : ∀ j, r'.compiled? j = if j = k then v'.compiled else r.compiled? j)
    (hkey : v'.key = v.key) (hdeps : v'.inputs.dependencies = v.inputs.dependencies)
    (hrec : v'.recorded = v.recorded) (hfits' : v'.Fits verifier) (hgain : NodeView.Gain gain) :
    Rising verifier width height bound r'
      ((if v'.dependable then gain.map (.perform k) else []) ++ rest) := by
  have hnot : r.isDependable k = false := by rw [isDependable_of_view? hv, hplain]
  have hheard := mem_heard_gain h.steady.wired hgain v'.dependable k
  generalize hmore : (if v'.dependable then gain.map (Task.perform k) else []) = more at hheard
  have hdue : dueOf more = [] := by
    rw [← hmore]
    split
    · exact dueOf_gain hgain k
    · rfl
  refine ⟨h.steady.set hf hv hview hcompiled hkey hdeps hfits', h.graded.set hf hv hview hkey hdeps,
    fun n w hw d hd hr => ?recorded_true, fun n d => ?news, ?nodup_news, fun j hj => ?due,
    ?nodup_due, RisingTask.of_append (hmore ▸ risingTask_gain hgain hle v'.dependable) h.allowed
      (isSome_view?_set hview)⟩
  -- What nodes took to be dependable was so, and is no other than before.
  case recorded_true =>
    have hold : ∃ w₀, r.view? n = some w₀ ∧ d ∈ w₀.inputs.dependencies ∧
        w₀.recorded d = some true := by
      rw [hview] at hw
      split at hw
      · next hn =>
        obtain rfl : v' = w := by simpa using hw
        exact ⟨v, hn ▸ hv, hdeps ▸ hd, hrec ▸ hr⟩
      · exact ⟨w, hw, hd, hr⟩
    obtain ⟨w₀, hw₀, hd₀, hr₀⟩ := hold
    have hdep := h.recorded_true n w₀ hw₀ d hd₀ hr₀
    rw [isDependable_set hview, if_neg (fun hdk => by simp [hdk, hnot] at hdep)]
    exact hdep
  case news =>
    rw [heard_of_frame hf, List.flatMap_append, List.mem_append, hheard, h.news,
      h.outdated_of_gain hv hplain hview hdeps hrec, or_comm]
  -- Nothing is told twice: news of the node were not on their way.
  case nodup_news =>
    rw [heard_of_frame hf, List.flatMap_append]
    refine List.nodup_append.2 ⟨?_, h.nodup_news, ?_⟩
    · rw [← hmore]
      split
      · rw [heard_gain hgain]
        exact nodup_heard h.steady.wired _
      · exact List.nodup_nil
    · rintro ⟨n, d⟩ ha b hb rfl
      obtain ⟨-, rfl, -⟩ := (hheard n d).1 ha
      obtain ⟨-, -, -, -, hdep⟩ := (h.news n d).1 hb
      simp [hnot] at hdep
  case due =>
    rw [dueOf_append, hdue, List.nil_append] at hj
    rw [hview, if_neg fun hjk => hfresh (by rw [← hjk]; exact hj)]
    exact h.due j hj
  case nodup_due =>
    rw [dueOf_append, hdue]
    exact h.nodup_due

/-- A ready node is told of its value, which is in the cache already. -/
theorem Rising.arrive {r₁ : Registry ν} {k : String} {v : NodeView} {x : Json}
    (h : Rising verifier width height bound r rest) (hv : r.view? k = some v) (hready : v.Ready)
    (hnone : v.compiled = none) (hfresh : k ∉ dueOf rest) (hle : height k ≤ bound)
    (hd : Delivered r r₁ k x) :
    ∃ n r' more, Agenda.Leads step n r₁ (.tell k (.own (.compiled x) .registry)) r' more ∧
      0 < n ∧ n + Agenda.total (Task.weight width height) more ≤
        width * Nat.pow (width + 16) (height k) + 5 ∧
      Rising verifier width height bound r' (more ++ rest) ∧ dueOf more = [] ∧
      ∀ due, r'.outlook due = (r.outlook due).arrive k v.outline x := by
  -- Only the node looks different, with the value that is told and cached.
  have hview₁ : ∀ j, r₁.view? j = r.view? j := congrFun (view?_congr_nodes hd.nodes_eq)
  have hplain := (h.steady.fits k v hv).sound.verified_eq_false hnone
  obtain ⟨n, r', more, hleads, hpos, hle3, hturns, gain, hgain, hmore⟩ :=
    leads_arrival ((hview₁ k).trans hv) hnone hplain (hd.verifier_eq.trans h.steady.verifier_eq) x
  have hf : Frame r r' := hd.toFrame.trans hturns.toFrame
  have hview : ∀ j, r'.view? j = if j = k then some (v.valued verifier x) else r.view? j := by
    intro j
    rw [hturns.view?_eq, hview₁]
  have hcompiled : ∀ j, r'.compiled? j = if j = k then some x else r.compiled? j := by
    intro j
    rw [hturns.compiled?_eq, hd.compiled?_eq]
  refine ⟨n, r', more, hleads, hpos, ?_, ?_, ?_, fun due => ?_⟩
  · rw [hmore]
    split
    · cases hgain <;> simp [Task.weight] <;> omega
    · simp
      omega
  · rw [hmore]
    have hfits := h.steady.fits k v hv
    exact h.of_gain hv (hfits.dependable_eq_false hnone) hfresh hle hf hview hcompiled rfl rfl rfl
      ⟨rfl, rfl, fun _ => hready, hfits.known⟩ hgain
  · rw [hmore]
    split
    · exact dueOf_gain hgain k
    · rfl
  · refine outlook_ext (o := (r.outlook due).arrive k v.outline x) (fun j => ?_) hf.isDeferred_eq
      (hturns.generation_eq.trans hd.generation_eq) (fun j => ?_)
      (hturns.outbox_eq.trans hd.outbox_eq)
    · rw [hview]
      show _ = if j = k then some { v.outline with compiled := some x }
        else (r.view? j).map NodeView.outline
      split <;> rfl
    · rw [hturns.generations_eq, hd.generations_eq]
      show _ = if j = k then some (r.generation + 1) else KeyMap.find? r.generations j
      simp only [KeyMap.find?_insert, eq_comm]

/-- A value is merged on the spot. -/
theorem Rising.compile {k : String} (hmode : r.isDeferred = false)
    (h : Rising verifier width height bound r (.perform k .compile :: rest)) :
    Rising.Proceeds verifier width height bound r (.perform k .compile) rest := by
  obtain ⟨v, hv, hready, hnone⟩ := h.due k List.mem_cons_self
  have hlt : height k < bound := h.allowed _ List.mem_cons_self
  have hdeps := h.isDependable_of_ready hv hready
  have hvalues : ∀ d ∈ v.inputs.dependencies, (r.value? d).isSome :=
    fun d hd => h.steady.value?_of_isDependable (hdeps d hd)
  obtain ⟨m, hm, rfl⟩ := exists_get? hv
  obtain ⟨r₁, hrequest, hdelivered⟩ := requestCompile_inline hm hdeps hmode fun d hd => by
    rw [h.steady.compiled?_eq]
    exact hvalues d hd
  obtain ⟨hrest, hfresh⟩ := h.of_due
  obtain ⟨n, r', more, hleads', hpos, hweight, hrising, hdue, houtlook⟩ :=
    hrest.arrive hv hready hnone hfresh (Nat.le_of_lt hlt) hdelivered
  have hleads := Agenda.leads_of_step (show step r (.perform k .compile) = _ from hrequest)
  refine ⟨1 + n, r', more, hleads.trans hleads', by omega, ?_, hrising, .inr ?_⟩
  · simp only [Task.weight]
    omega
  -- In the outlook the move is a compilation, as nobody uses the node before it has a value.
  · have hunused : (r.outlook (k :: dueOf rest)).Unused k := by
      intro j l hl hk
      obtain ⟨w, hw, rfl⟩ := Option.map_eq_some_iff.1 hl
      have hnot := h.not_ready hv hnone hw hk
      exact ⟨decide_eq_false hnot, (h.steady.fits j w hw).compiled_eq_none hnot⟩
    have hadvance : Outlook.Advance (fun k => height k < bound) (r.outlook (k :: dueOf rest)) _ :=
      .compile hmode rfl (outline?_outlook hv) (decide_eq_true hready) hnone
        (fun d hd => by rw [value?_outlook]; exact hvalues d hd) hunused hlt
    have hexpected : (r.outlook (k :: dueOf rest)).expected (Node.view m).outline =
        Json.mergeLayers ((Node.dependencies m).filterMap r.compiled? ++ Node.layers m) := by
      have hcompiled : r.compiled? = (r.outlook (k :: dueOf rest)).value? :=
        funext fun j => by rw [h.steady.compiled?_eq, value?_outlook]
      rw [hcompiled]
      rfl
    rw [hexpected] at hadvance
    show Outlook.Advance _ (r.outlook (k :: dueOf rest)) _
    rw [dueOf_append, hdue, houtlook]
    exact hadvance

/-- Every task of a rising cascade can be done. -/
theorem Rising.proceeds {t : Task} (h : Rising verifier width height bound r (t :: rest)) :
    Rising.Proceeds verifier width height bound r t rest := by
  have hallowed := h.allowed t List.mem_cons_self
  match t, hallowed with
  | .tell n (.dependency d s), _ => exact h.regained
  | .tell n (.own s origin), _ => exact h.echo
  | .perform d (.broadcast s wide), _ => exact h.broadcast
  | .perform k .announce, _ => exact h.announce
  | .perform k .compile, _ =>
    cases hmode : r.isDeferred with
    | true => exact h.request hmode
    | false => exact h.compile hmode

/-- A rising cascade comes to an end. What is kept by its advances still holds there. -/
theorem Rising.run_eq (h : Rising verifier width height bound r tasks) {steps : Nat}
    (hsteps : Agenda.total (Task.weight width height) tasks ≤ steps) :
    ∃ r', Agenda.run Registry.step steps r tasks = (r', []) ∧
      Rising verifier width height bound r' [] ∧
      ∀ X : Outlook → Prop,
        (∀ o o', Outlook.Advance (fun k => height k < bound) o o' → X o → X o') →
        X (r.outlook (dueOf tasks)) → X (r'.outlook []) := by
  refine Agenda.exists_run_eq (P := fun r' tasks' =>
    Rising verifier width height bound r' tasks' ∧ ∀ X : Outlook → Prop,
      (∀ o o', Outlook.Advance (fun k => height k < bound) o o' → X o → X o') →
      X (r.outlook (dueOf tasks)) → X (r'.outlook (dueOf tasks')))
    (Task.weight width height) (fun r' t rest ⟨h, hkept⟩ => ?_) steps r tasks
    ⟨h, fun X _ hr => hr⟩ hsteps
  obtain ⟨n, r'', more, hleads, hpos, hweight, hnext, hmove⟩ := h.proceeds
  refine ⟨n, r'', more, hleads, hpos, hweight, hnext, fun X hX hr => ?_⟩
  rcases hmove with heq | hadvance
  · exact heq ▸ hkept X hX hr
  · exact hX _ _ hadvance (hkept X hX hr)

omit [LawfulNode ν] in
/-- Nothing is left of a rising cascade but a coherent registry. -/
theorem Rising.coherent (h : Rising verifier width height bound r []) : Coherent verifier r := by
  refine ⟨h.steady, fun n v hv d hd => ?_⟩
  obtain ⟨ready, hready⟩ := Option.isSome_iff_exists.1 ((h.steady.fits n v hv).known d hd)
  rw [hready]
  cases ready with
  | true => rw [h.recorded_true n v hv d hd hready]
  | false =>
    cases hdep : r.isDependable d with
    | false => rfl
    | true =>
      have hnews := (h.news n d).2 ⟨v, hv, hd, hready, hdep⟩
      simp at hnews

end Steps

end Registry

end LayeredAccess
