/-
  LayeredAccess.Proofs.Registry.Ending

  Cascades come to an end. Whatever state its nodes are in, a node that is told
  something asks for little, and what it broadcasts is told to nodes further up
  alone. So every task costs more steps than those that it leaves
  (`Graded.total_cost_step_le`), and a cascade in a registry whose tables agree
  is finished within its bound (`Graded.exists_settled`).

  A cascade of losses is but that: nothing is compiled or verified before it is
  over (`Wired.isLoss_of_mem_moments`).
-/
import LayeredAccess.Proofs.Node.Answers
import LayeredAccess.Proofs.Registry.CallSteps
import LayeredAccess.Proofs.Registry.Steps

namespace LayeredAccess

/-! ## What tasks cost -/

namespace Registry

/-- A bound on the steps that follow when the dependents of a node are told something. -/
def spread (width : Nat) (height : String → Nat) (k : String) : Nat :=
  width * Nat.pow (width + 16) (height k)

/-- A bound on the steps that a task leads to, itself included, in a registry whose nodes may be in
any state. -/
def Task.cost (width : Nat) (height : String → Nat) : Task → Nat
  | .tell k (.dependency _ _) => spread width height k + 7
  -- Each stage of a value, from compiling to telling everybody, costs more than the next.
  | .tell k (.own (.compiled _) .registry) => spread width height k + 5
  | .tell k (.own .validated .registry) => spread width height k + 3
  | .tell k (.own _ .registry) => 2 * spread width height k + 8
  | .tell _ (.own _ (.node _)) => 1
  | .perform k (.broadcast _ _) => spread width height k + 1
  | .perform k .compile => spread width height k + 6
  | .perform k .validate => spread width height k + 4
  | .perform _ .announce => 1

variable {width : Nat} {height : String → Nat}

theorem Task.one_le_cost (width : Nat) (height : String → Nat) (t : Task) :
    1 ≤ t.cost width height := by
  unfold Task.cost
  split <;> omega

theorem Task.cost_le (t : Task) {bound : Nat} (h : height t.node ≤ bound) :
    t.cost width height ≤ Nat.pow (width + 16) (bound + 2) := by
  let p := Nat.pow (width + 16) (height t.node)
  have hp : 1 ≤ p := Nat.one_le_pow _ _ (by omega)
  have hcost : t.cost width height ≤ 2 * (width * p) + 8 := by
    unfold Task.cost
    split <;> simp only [spread, p, Task.node] <;> omega
  have hmul : (width + 16) * p = width * p + 16 * p := Nat.add_mul ..
  have hlevel : 16 * ((width + 16) * p) ≤ (width + 16) * ((width + 16) * p) :=
    Nat.mul_le_mul_right _ (by omega)
  have hpow : Nat.pow (width + 16) (height t.node + 2) = (width + 16) * ((width + 16) * p) := by
    show (width + 16) ^ (height t.node + 2) = _
    rw [Nat.pow_succ', Nat.pow_succ']
    rfl
  have hmono : Nat.pow (width + 16) (height t.node + 2) ≤ Nat.pow (width + 16) (bound + 2) :=
    Nat.pow_le_pow_right (by omega) (by omega)
  rw [hpow] at hmono
  omega

end Registry

/-! ## What nodes ask for -/

namespace NodeView

open Registry

variable (width : Nat) (height : String → Nat) {verifies : Bool} {v v' : NodeView}
  {notice : Notice} {effects : List Effect} {k : String}

/-- The cost of the effects that a node asks for. -/
def price (width : Nat) (height : String → Nat) (k : String) (effects : List Effect) : Nat :=
  Agenda.total (Task.cost width height) (effects.map (.perform k))

theorem price_compileIfReady_le (v : NodeView) (k : String) :
    price width height k v.compileIfReady ≤ spread width height k + 6 := by
  unfold compileIfReady
  split <;> simp [price, Task.cost]

theorem price_gain_le (h : Gain effects) (k : String) :
    price width height k effects ≤ spread width height k + 2 := by
  cases h <;> simp [price, Task.cost]

theorem price_loss_le (h : v.Loss effects) (k : String) :
    price width height k effects ≤ spread width height k + 1 := by
  cases h <;> simp [price, Task.cost]

theorem price_switch_le {active : Bool} (h : v.Switch active effects) (k : String) :
    price width height k effects ≤ spread width height k + 6 := by
  cases h.switched with
  | stayed | unverified => exact Nat.zero_le _
  | off => simp [price, Task.cost]
  | resumed _ _ hgain =>
    have hprice := price_gain_le width height hgain k
    omega
  | awoken => exact price_compileIfReady_le width height v k

/-- A node asks for less than what it costs to tell it. -/
theorem Answers.price_lt (h : v.Answers verifies notice effects v') (k : String) :
    price width height k effects < (Task.tell k notice).cost width height := by
  have hnil : price width height k [] = 0 := rfl
  -- Telling a node is priced at all that the node could ask for.
  cases h with
  | echo | unasked | invalidated => exact Task.one_le_cost width height _
  | added =>
    have hprice := price_compileIfReady_le width height v k
    simp only [Task.cost]
    omega
  | received | accepted => simp [price, Task.cost]
  | validated hgain =>
    have hprice := price_gain_le width height hgain k
    simp only [Task.cost]
    split <;> omega
  | @updated loss hloss =>
    have hprice := price_compileIfReady_le width height v k
    have hprice' := price_loss_le width height hloss k
    have hsplit : price width height k (loss ++ v.compileIfReady) =
        price width height k loss + price width height k v.compileIfReady := by
      rw [price, List.map_append, Agenda.total_append]
      rfl
    simp only [Task.cost]
    omega
  | deleted hloss =>
    have hprice := price_loss_le width height hloss k
    simp only [Task.cost]
    omega
  | customized hswitch =>
    have hprice := price_switch_le width height hswitch k
    simp only [Task.cost]
    omega
  | @learnt d s _ _ hlearns =>
    simp only [Task.cost]
    cases hlearns with
    | nothing | noted => omega
    | regained =>
      have hprice := price_compileIfReady_le width height (v.record d true) k
      omega
    | lost =>
      split
      · simp [price, Task.cost]
      · omega

end NodeView

/-! ## News of losses -/

/-- The notices that tell of losses. -/
def Notice.IsLoss : Notice → Prop
  | .own signal _ | .dependency _ signal => Registry.IsLoss signal

/-- The effects that tell of losses. -/
def Effect.IsLoss : Effect → Prop
  | .broadcast signal _ => Registry.IsLoss signal
  | _ => False

namespace NodeView

variable {verifies : Bool} {v v' : NodeView} {notice : Notice} {effects : List Effect}

theorem Loss.isLoss {loss : List Effect} (h : v.Loss loss) : ∀ e ∈ loss, e.IsLoss := by
  cases h with
  | told => simp [Effect.IsLoss, Registry.IsLoss]
  | silent => simp

/-- Losses lead to losses alone. -/
theorem Answers.isLoss (h : v.Answers verifies notice effects v') (hnotice : notice.IsLoss) :
    ∀ e ∈ effects, e.IsLoss := by
  cases h with
  | echo | unasked | invalidated => simp
  | added | received | accepted | validated | updated | customized =>
    simp [Notice.IsLoss, Registry.IsLoss] at hnotice
  | deleted hloss => exact hloss.isLoss
  | learnt hlearns =>
    cases hlearns with
    | nothing | noted => simp
    | regained => simp [Notice.IsLoss, Registry.IsLoss] at hnotice
    | lost => split <;> simp [Effect.IsLoss, Registry.IsLoss]

end NodeView

namespace Registry

variable {ν : Type} [Node ν] [NodeKind ν] {r r' : Registry ν} {width : Nat}
  {height : String → Nat} {tasks : List Task}

/-! ## Steps -/

/-- What a node is told about itself comes from the registry or from itself. -/
def Task.Proper : Task → Prop
  | .tell key notice => notice.FromNode key
  | .perform _ _ => True

theorem Wired.proper_of_mem_dispatch (h : Wired r) {c : String} {s : Signal} {u : Task}
    (hu : u ∈ r.dispatch c s (.node c)) : u.Proper := by
  obtain ⟨l, hl, rfl⟩ := List.mem_map.1 hu
  cases l with
  | owner key => exact (((h.mem_listenersOf c _).1 hl).1).symm
  | dependent key => trivial

/-- What a broadcast leads to costs less than the broadcast. -/
theorem Graded.total_cost_dispatch_le (h : Graded width height r) (d : String) (s : Signal) :
    Agenda.total (Task.cost width height) (r.dispatch d s (.node d)) ≤ spread width height d := by
  have hsame : Agenda.total (Task.cost width height) (r.dispatch d s (.node d)) =
      Agenda.total (Task.weight width height) (r.dispatch d s (.node d)) := by
    rw [dispatch]
    induction r.listenersOf d with
    | nil => rfl
    | cons l ls ih =>
      rw [List.map_cons, Agenda.total_cons, Agenda.total_cons, ih]
      cases l with
      | owner key => cases s <;> rfl
      | dependent key => rfl
  rw [hsame]
  exact h.total_dispatch_le d s

theorem Graded.of_linked (h : Graded width height r) (hl : Linked r r') :
    Graded width height r' := h.of_frame hl.toFrame hl.links?_eq

variable [LawfulNode ν] [CandidNode ν]

/-- The answer of a node that is where it belongs. -/
theorem Wired.exists_answers (h : Wired r) {k : String} {n : ν} (hn : r.get? k = some n)
    {notice : Notice} (hnotice : notice.FromNode k) : ∃ v',
      (Node.view n).Answers (NodeKind.verifies ν) notice (answer n notice).1 v' ∧
        Node.view (answer n notice).2 = v' := by
  have hkey : Node.key n = k := h.key_eq k _ (view?_of_get? hn)
  obtain ⟨effects, v', hanswers, hreacts⟩ := CandidNode.answers n (hkey.symm ▸ hnotice)
  obtain ⟨rfl, hview⟩ := hreacts
  exact ⟨v', hanswers, hview⟩

omit [LawfulNode ν] [CandidNode ν] in
theorem Wired.proper_of_mem_step (h : Wired r) {t u : Task} (hu : u ∈ (r.step t).2) :
    u.Proper := by
  cases ensues_of_mem_step hu with
  | told | validated | compiled => trivial
  | @broadcast key s wide _ hu =>
    have hl := linked_of_silent (silent_publishSignal r key s wide)
    exact (h.of_frame hl.toFrame hl.links?_eq).proper_of_mem_dispatch hu

/-- A step costs more than the tasks that it leaves. -/
theorem Graded.total_cost_step_le (h : Graded width height r) {t : Task} (ht : t.Proper) :
    1 + Agenda.total (Task.cost width height) (r.step t).2 ≤ t.cost width height := by
  have hone := t.one_le_cost width height
  have hstep := steps_step r t
  generalize (r.step t).1 = r₁, (r.step t).2 = more at hstep ⊢
  -- Most tasks leave nothing.
  cases hstep with
  | absent | valueless | announced | rejected | unregistered | lacking | queued | uncached =>
    simpa using hone
  | @told key notice n hn =>
    obtain ⟨v', hanswers, -⟩ := h.wired.exists_answers hn ht
    have hprice := hanswers.price_lt width height key
    rw [Nat.add_comm]
    exact hprice
  | @broadcast key s wide =>
    have hgraded := h.of_linked (linked_of_silent (silent_publishSignal r key s wide))
    have hcost := hgraded.total_cost_dispatch_le key s
    simp only [Task.cost]
    omega
  | validated | compiled =>
    simp only [Agenda.total_cons, Agenda.total_nil, Task.cost]
    omega

/-! ## Cascades -/

variable [LinkedNode ν]

/-- Proper tasks are finished within their bound, with everything that follows from them. -/
theorem Graded.exists_settled (h : Graded width height r) (htasks : ∀ t ∈ tasks, t.Proper) :
    ∃ r', Agenda.run step (r.cascadeBound tasks) r tasks = (r', []) := by
  have htotal : Agenda.total (Task.cost width height) tasks ≤ r.cascadeBound tasks := by
    have hcost : ∀ t ∈ tasks, t.cost width height ≤ Nat.pow (width + 16) (r.size + 2) :=
      fun t _ => t.cost_le (h.height_le t.node)
    have hsum := Agenda.total_le_mul _ _ tasks hcost
    rw [cascadeBound, h.width_eq, Nat.succ_mul]
    omega
  -- The heights stay fit and the tasks proper, whatever is done.
  let P : Registry ν → List Task → Prop := fun s ts =>
    Graded width height s ∧ ∀ u ∈ ts, u.Proper
  have hproceeds : ∀ s t rest, P s (t :: rest) → ∃ n s' more, Agenda.Leads step n s t s' more ∧
      0 < n ∧ n + Agenda.total (Task.cost width height) more ≤ t.cost width height ∧
      P s' (more ++ rest) := by
    rintro s t rest ⟨hgraded, hproper⟩
    obtain ⟨ht, hrest⟩ := List.forall_mem_cons.1 hproper
    have hcost := hgraded.total_cost_step_le ht
    have hmore : ∀ u ∈ (step s t).2, u.Proper := fun u hu => hgraded.wired.proper_of_mem_step hu
    exact ⟨1, _, _, Agenda.leads_step step s t, Nat.one_pos, hcost,
      hgraded.of_linked (linked_step s t), List.forall_mem_append.2 ⟨hmore, hrest⟩⟩
  obtain ⟨r', hrun, -⟩ := Agenda.exists_run_eq (Task.cost width height) hproceeds
    (r.cascadeBound tasks) r tasks ⟨h, htasks⟩ htotal
  exact ⟨r', hrun⟩

omit [NodeKind ν] [LawfulNode ν] [CandidNode ν] [LinkedNode ν] in
/-- Calls begin with proper tasks. -/
theorem Opens.proper {c : Call ν} (h : Opens r c r' tasks) : ∀ t ∈ tasks, t.Proper := by
  intro t ht
  cases h with
  | refused | adopted | stale | failed | unmet | fetched | collected | shared => simp at ht
  | entered | patched | customized | arrived =>
    obtain rfl := List.mem_singleton.1 ht
    trivial
  | deleted =>
    obtain ⟨l, -, rfl⟩ := List.mem_map.1 ht
    cases l <;> trivial
  | cleared =>
    obtain ⟨key, -, rfl⟩ := List.mem_map.1 ht
    trivial

/-- In a registry whose tables agree, every call comes to an end. -/
theorem Structured.exists_settled (h : Structured r) (c : Call ν) :
    Agenda.run step ((r.opening c).1.cascadeBound (r.opening c).2) (r.opening c).1
      (r.opening c).2 = ((r.opening c).1.settle (r.opening c).2, []) := by
  obtain ⟨height, hgraded⟩ := (h.opening c).toWired.exists_graded
  obtain ⟨r', hrun⟩ := hgraded.exists_settled (opens_opening r c).proper
  rw [hrun, settle_eq hrun (Nat.le_refl _)]

/-! ## Losses -/

/-- The tasks that speak of losses. -/
def Task.IsLoss : Task → Prop
  | .tell _ notice => notice.IsLoss
  | .perform _ effect => effect.IsLoss

omit [Node ν] [NodeKind ν] [LawfulNode ν] [CandidNode ν] [LinkedNode ν] in
theorem isLoss_of_mem_dispatch {key : String} {s : Signal} {o : Origin} {u : Task}
    (hs : IsLoss s) (hu : u ∈ r.dispatch key s o) : u.IsLoss := by
  obtain ⟨l, -, rfl⟩ := List.mem_map.1 hu
  cases l <;> exact hs

omit [LinkedNode ν] in
/-- Losses lead to losses alone. -/
theorem Wired.isLoss_of_mem_step (h : Wired r) {t u : Task} (ht : t.Proper) (hloss : t.IsLoss)
    (hu : u ∈ (r.step t).2) : u.IsLoss := by
  cases ensues_of_mem_step hu with
  | @told key notice n e hn he =>
    obtain ⟨v', hanswers, -⟩ := h.exists_answers hn ht
    exact hanswers.isLoss hloss e he
  | broadcast hu => exact isLoss_of_mem_dispatch hloss hu
  | validated | compiled => exact hloss.elim

/-- While losses are told, nothing else is done. -/
theorem Wired.isLoss_of_mem_moments (h : Wired r) (htasks : ∀ t ∈ tasks, t.Proper ∧ t.IsLoss)
    {bound : Nat} {m : Registry ν × Task} (hm : m ∈ Agenda.moments step bound r tasks) :
    m.2.IsLoss := by
  let P : Registry ν → List Task → Prop := fun s ts => Wired s ∧ ∀ u ∈ ts, u.Proper ∧ u.IsLoss
  have hstep : ∀ s t rest, P s (t :: rest) → P (step s t).1 ((step s t).2 ++ rest) := by
    rintro s t rest ⟨hw, hlosses⟩
    obtain ⟨⟨ht, hloss⟩, hrest⟩ := List.forall_mem_cons.1 hlosses
    have hl := linked_step s t
    refine ⟨hw.of_frame hl.toFrame hl.links?_eq, List.forall_mem_append.2 ⟨fun u hu => ?_, hrest⟩⟩
    exact ⟨hw.proper_of_mem_step hu, hw.isLoss_of_mem_step ht hloss hu⟩
  obtain ⟨rest, -, hlosses⟩ := Agenda.forall_mem_moments hstep ⟨h, htasks⟩ m hm
  exact (hlosses m.2 List.mem_cons_self).2

end Registry

end LayeredAccess
