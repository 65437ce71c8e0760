/-
  LayeredAccess.Proofs.Registry.Returning

  Every call returns. The tasks of a cascade nest: what a task leaves is done
  before the next task begins. This nesting is well founded. Within one node it
  goes down through the stages in the life of a value, of which there are seven
  (`Nested.stage_lt`), and it comes to another node only by a broadcast, which
  is told to nodes that depend on the one that speaks (`Nested.cases`). Since
  dependencies form no cycle, both together go down (`wellFounded_nested`).

  So the bound of a cascade cuts nothing off: the cascade is the nested run of
  its tasks (`Agenda.finishes_iff`), whatever the verifier says and whatever
  state nodes are entered in.
-/
import LayeredAccess.Proofs.Registry.Ending
import LayeredAccess.Proofs.Registry.Locality
import Mathlib.Data.Prod.Lex

namespace LayeredAccess

/-! ## Stages -/

namespace Registry

/-- How far a node is from having said what there is to be said: a value is asked for, comes, is
verified and made known, which the node then hears of itself. -/
def Task.stage : Task → Nat
  | .tell _ (.own _ (.node _)) => 0
  | .perform _ .announce => 0
  | .perform _ (.broadcast _ _) => 1
  | .tell _ (.own .validated .registry) => 2
  | .perform _ .validate => 3
  | .tell _ (.own (.compiled _) .registry) => 4
  | .perform _ .compile => 5
  | .tell _ _ => 6

theorem Task.stage_le (t : Task) : t.stage ≤ 6 := by
  unfold Task.stage
  split <;> omega

end Registry

namespace NodeView

open Registry

variable {verifies : Bool} {v v' : NodeView} {notice : Notice} {effects : List Effect} {e : Effect}

theorem stage_of_mem_compileIfReady (he : e ∈ v.compileIfReady) (k : String) :
    (Task.perform k e).stage < 6 := by
  obtain rfl := eq_compile_of_mem he
  exact (by decide : 5 < 6)

theorem Gain.stage_lt (h : Gain effects) (he : e ∈ effects) (k : String) :
    (Task.perform k e).stage < 2 := by
  cases h with
  | told =>
    obtain rfl := List.mem_singleton.1 he
    exact Nat.lt_add_one 1
  | announced =>
    rcases List.mem_cons.1 he with rfl | he
    · exact Nat.lt_add_one 1
    · obtain rfl := List.mem_singleton.1 he
      exact Nat.zero_lt_two

theorem Loss.stage_lt (h : v.Loss effects) (he : e ∈ effects) (k : String) :
    (Task.perform k e).stage < 2 := by
  cases h with
  | told =>
    obtain rfl := List.mem_singleton.1 he
    exact Nat.lt_add_one 1
  | silent => simp at he

theorem Switch.stage_lt {active : Bool} (h : v.Switch active effects) (he : e ∈ effects)
    (k : String) : (Task.perform k e).stage < 6 := by
  cases h.switched with
  | stayed | unverified => simp at he
  | off =>
    obtain rfl := List.mem_singleton.1 he
    exact (by decide : 1 < 6)
  | resumed _ _ hgain => exact (hgain.stage_lt he k).trans (by decide)
  | awoken => exact stage_of_mem_compileIfReady he k

theorem Learns.stage_lt {d : String} {s : Signal} (h : v.Learns d s effects v') (he : e ∈ effects)
    (k : String) : (Task.perform k e).stage < 6 := by
  cases h with
  | nothing | noted => simp at he
  | regained => exact stage_of_mem_compileIfReady he k
  | lost =>
    split at he
    · obtain rfl := List.mem_singleton.1 he
      exact (by decide : 1 < 6)
    · simp at he

/-- A node asks only for what comes after the stage at which it was told. -/
theorem Answers.stage_lt (h : v.Answers verifies notice effects v') (he : e ∈ effects)
    (k : String) : (Task.perform k e).stage < (Task.tell k notice).stage := by
  -- The stages are those of the life of a value. Every answer is one of a later stage.
  cases h with
  | echo | unasked | invalidated => simp at he
  | added => exact stage_of_mem_compileIfReady he k
  | received =>
    obtain rfl := List.mem_singleton.1 he
    exact (by decide : 3 < 4)
  | accepted =>
    obtain rfl := List.mem_singleton.1 he
    exact (by decide : 1 < 4)
  | validated hgain =>
    split at he
    · exact hgain.stage_lt he k
    · simp at he
  | updated hloss =>
    rcases List.mem_append.1 he with he | he
    · exact (hloss.stage_lt he k).trans (by decide : 2 < 6)
    · exact stage_of_mem_compileIfReady he k
  | deleted hloss => exact (hloss.stage_lt he k).trans (by decide : 2 < 6)
  | customized hswitch => exact hswitch.stage_lt he k
  | learnt hlearns => exact hlearns.stage_lt he k

end NodeView

/-! ## Nesting -/

namespace Registry

open Relation

/-- The channel on which a task sends a signal. -/
def Task.channel? : Task → Option String
  | .perform key (.broadcast _ _) => some key
  | _ => none

variable {ν : Type} [Node ν] [NodeKind ν] {r r' : Registry ν} {t u : Task}

/-- One task is left by another, at some moment of a cascade that began in the given registry. -/
def Nested (begun : Registry ν) (u t : Task) : Prop :=
  t.Proper ∧ ∃ r, Linked begun r ∧ u ∈ (r.step t).2

variable [LawfulNode ν] [CandidNode ν]

/-- What a task leaves is for the same node and comes later in its life; or the task is a
broadcast, and what it leaves is for a node that depends on the one that speaks. -/
theorem Nested.cases (hw : Wired r) (h : Nested r u t) :
    (u.node = t.node ∧ u.stage < t.stage) ∨
      (t.channel? = some t.node ∧ r.DependsOn u.node t.node) := by
  obtain ⟨ht, s, hl, hu⟩ := h
  have hws : Wired s := hw.of_frame hl.toFrame hl.links?_eq
  -- A broadcast reaches the node itself and its dependents. Every other task is about its own node.
  cases ensues_of_mem_step hu with
  | @told key notice n e hn he =>
    obtain ⟨v', hanswers, -⟩ := hws.exists_answers hn ht
    exact .inl ⟨rfl, hanswers.stage_lt he key⟩
  | @broadcast key signal wide _ hu =>
    have hlp := hl.trans (linked_of_silent (silent_publishSignal s key signal wide))
    have hwp := hw.of_frame hlp.toFrame hlp.links?_eq
    obtain ⟨l, hlisten, rfl⟩ := List.mem_map.1 hu
    have hlistens := (hwp.mem_listenersOf key l).1 hlisten
    cases l with
    | owner key' =>
      obtain rfl : key' = key := hlistens.1
      exact .inl ⟨rfl, Nat.zero_lt_one⟩
    | dependent key' =>
      obtain ⟨v, hv, hc⟩ := hlistens
      obtain ⟨m, hm, rfl⟩ := exists_get? hv
      exact .inr ⟨rfl, (dependsOn_congr (hlp.links?_eq key') key).1 ⟨m, hm, hc⟩⟩
  | validated | compiled => exact .inl ⟨rfl, Nat.lt_add_one _⟩

/-- Whatever nests in a task is for the same node and comes later in its life, or it is for a node
that depends on that of the task. -/
theorem Nested.trans_cases (hw : Wired r) (h : TransGen (Nested r) u t) :
    (u.node = t.node ∧ u.stage < t.stage) ∨ TransGen r.DependsOn u.node t.node := by
  induction h with
  | single h => exact (h.cases hw).imp_right fun h => .single h.2
  | tail _ h ih =>
    rcases h.cases hw with ⟨hnode, hstage⟩ | ⟨-, hdepends⟩
    · rw [← hnode]
      exact ih.imp_left fun h => ⟨h.1, h.2.trans hstage⟩
    · refine .inr ?_
      rcases ih with ⟨hnode, -⟩ | hmore
      · exact hnode ▸ .single hdepends
      · exact hmore.tail hdepends

/-- Within one node the nesting goes down through the stages. -/
theorem Nested.stage_lt (hw : Wired r) (h : TransGen (Nested r) u t) (hnode : u.node = t.node) :
    u.stage < t.stage := by
  rcases Nested.trans_cases hw h with ⟨-, hstage⟩ | hdepends
  · exact hstage
  · rw [hnode] at hdepends
    exact absurd hdepends (hw.not_reaches_self t.node)

/-- What is sent within a broadcast is sent on channels further up: a node has said all that it
says when it is heard. -/
theorem Nested.channel_upward (hw : Wired r) (h : TransGen (Nested r) u t) {c c' : String}
    (hu : u.channel? = some c') (ht : t.channel? = some c) : TransGen r.DependsOn c' c := by
  have hchannel : ∀ {t : Task} {c : String}, t.channel? = some c → t.node = c ∧ t.stage = 1 := by
    intro t c h
    match t with
    | .perform key (.broadcast _ _) => exact ⟨Option.some.inj h, rfl⟩
  obtain ⟨rfl, hstage⟩ := hchannel ht
  obtain ⟨rfl, hstage'⟩ := hchannel hu
  rcases Nested.trans_cases hw h with ⟨-, hlt⟩ | hdepends
  · omega
  · exact hdepends

/-- A chain of tasks, each within the one before and all for one node, has no more links than there
are stages. -/
theorem Nested.chain_length_le (hw : Wired r) {tasks : List Task}
    (hchain : tasks.IsChain fun t u => Nested r u t) {k : String}
    (hnode : ∀ t ∈ tasks, t.node = k) : tasks.length ≤ 7 := by
  -- The stage goes down with every link.
  have hlength : ∀ (t : Task) (rest : List Task),
      (t :: rest).IsChain (fun t u => Nested r u t) → (∀ u ∈ t :: rest, u.node = k) →
        rest.length ≤ t.stage := by
    intro t rest
    induction rest generalizing t with
    | nil => exact fun _ _ => Nat.zero_le _
    | cons u rest ih =>
      intro hchain hnode
      obtain ⟨hnested, hrest⟩ := List.isChain_cons_cons.1 hchain
      have ht := hnode t List.mem_cons_self
      have hu := hnode u (List.mem_cons_of_mem t List.mem_cons_self)
      have hlt := Nested.stage_lt hw (.single hnested) (hu.trans ht.symm)
      have hle := ih u hrest fun w hw => hnode w (List.mem_cons_of_mem t hw)
      rw [List.length_cons]
      omega
  cases tasks with
  | nil => exact Nat.zero_le _
  | cons t rest =>
    have hle := hlength t rest hchain hnode
    have hstage := t.stage_le
    rw [List.length_cons]
    omega

/-- The nesting of tasks is well founded: it comes closer to the nodes on which nobody depends, or
it goes down through the stages of one node. -/
theorem wellFounded_nested (hw : Wired r) : WellFounded (Nested r) := by
  obtain ⟨height, -, hheight⟩ := hw.exists_height
  let measure (t : Task) : Nat ×ₗ Nat := toLex (height t.node, t.stage)
  refine Subrelation.wf (r := InvImage (· < ·) measure) (fun {u t} h => ?_)
    (InvImage.wf measure wellFounded_lt)
  show measure u < measure t
  rw [Prod.Lex.toLex_lt_toLex]
  rcases h.cases hw with ⟨hnode, hstage⟩ | ⟨-, n, hn, hdep⟩
  · exact .inr ⟨congrArg height hnode, hstage⟩
  · exact .inl (hheight u.node _ (view?_of_get? hn) t.node hdep)

/-! ## Calls -/

/-- A call returns, and why. -/
structure Returns (r : Registry ν) (c : Call ν) : Prop where
  /-- The tasks with which the call begins are finished in nested order, with one outcome. -/
  finishes : ∀ settled, Agenda.Finishes step (r.opening c).1 (r.opening c).2 settled ↔
    settled = (r.opening c).1.settle (r.opening c).2
  /-- No task is left over, however many more steps were allowed. -/
  settled : ∀ bound ≥ (r.opening c).1.cascadeBound (r.opening c).2,
    Agenda.run step bound (r.opening c).1 (r.opening c).2 =
      ((r.opening c).1.settle (r.opening c).2, [])
  returned : r.call c = r.closing ((r.opening c).1.settle (r.opening c).2) c
  /-- What a step of the call leaves nests in its task. -/
  nested : ∀ m ∈ r.course c, ∀ u ∈ (m.1.step m.2).2, Nested (r.opening c).1 u m.2
  wellFounded : WellFounded (Nested (r.opening c).1)
  /-- Within a broadcast on the channel of a node there are only broadcasts of those that depend on
  the node. -/
  upward : ∀ t u, TransGen (Nested (r.opening c).1) u t →
    ∀ k k', t.channel? = some k → u.channel? = some k' →
      TransGen (r.opening c).1.DependsOn k' k
  /-- In between, a node is concerned but a bounded number of times. -/
  bounded : ∀ (k : String) (tasks : List Task),
    tasks.IsChain (fun t u => Nested (r.opening c).1 u t) →
    (∀ t ∈ tasks, t.node = k) → tasks.length ≤ 7

variable [LinkedNode ν]

omit [LawfulNode ν] [CandidNode ν] in
/-- All moments of a cascade belong to it. -/
theorem Wired.nested_of_mem_moments {begun : Registry ν} (hw : Wired begun) {tasks : List Task}
    (htasks : ∀ t ∈ tasks, t.Proper) {bound : Nat} {m : Registry ν × Task}
    (hm : m ∈ Agenda.moments step bound begun tasks) :
    ∀ u ∈ (m.1.step m.2).2, Nested begun u m.2 := by
  let P : Registry ν → List Task → Prop := fun s ts => Linked begun s ∧ ∀ u ∈ ts, u.Proper
  have hstep : ∀ s t rest, P s (t :: rest) → P (step s t).1 ((step s t).2 ++ rest) := by
    rintro s t rest ⟨hl, hproper⟩
    obtain ⟨-, hrest⟩ := List.forall_mem_cons.1 hproper
    have hws := hw.of_frame hl.toFrame hl.links?_eq
    exact ⟨hl.trans (linked_step s t),
      List.forall_mem_append.2 ⟨fun u hu => hws.proper_of_mem_step hu, hrest⟩⟩
  obtain ⟨rest, hl, hproper⟩ := Agenda.forall_mem_moments hstep ⟨.refl begun, htasks⟩ m hm
  exact fun u hu => ⟨hproper m.2 List.mem_cons_self, m.1, hl, hu⟩

/-- In a registry whose tables agree every call returns. -/
theorem Structured.returns (h : Structured r) (c : Call ν) : Returns r c := by
  have hw : Wired (r.opening c).1 := (h.opening c).toWired
  have hrun := h.exists_settled c
  refine ⟨fun settled => ⟨fun hf => ?_, fun hs => ?_⟩, fun bound hle => ?_, call_eq_closing r c,
    fun m hm => hw.nested_of_mem_moments (opens_opening r c).proper hm, wellFounded_nested hw,
    fun t u h k k' ht hu => Nested.channel_upward hw h hu ht,
    fun k tasks hchain hnode => Nested.chain_length_le hw hchain hnode⟩
  · exact hf.unique (Agenda.finishes_of_run hrun)
  · exact hs ▸ Agenda.finishes_of_run hrun
  · rw [Agenda.run_of_le hle _ _ (by rw [hrun]), hrun]

omit [LawfulNode ν] [CandidNode ν] [LinkedNode ν] in
/-- The tables do not depend on the verifier. -/
theorem Structured.withVerifier (h : Structured r) (verifier : Option Verifier) :
    Structured { r with verifier } :=
  ⟨⟨h.sorted, h.key_eq, h.dependencies?_eq, h.ranked, h.mem_listenersOf, h.nodup⟩, h.nodup_links,
    h.ne_empty, h.occupied⟩

omit [LawfulNode ν] [CandidNode ν] [LinkedNode ν] in
/-- The registry that some calls lead to, each made under the verifier of its time: schemas may be
loaded and unloaded in between. -/
def reachedUnder (config : EngineConfig)
    (history : List (Option Verifier × Call ν)) : Registry ν :=
  history.foldl (fun r e => ({ r with verifier := e.1 } : Registry ν).call e.2)
    (fresh config none)

omit [CandidNode ν] in
theorem structured_reachedUnder (config : EngineConfig)
    (history : List (Option Verifier × Call ν)) : Structured (reachedUnder config history) := by
  have hrun : ∀ r : Registry ν, Structured r → Structured (history.foldl
      (fun r e => ({ r with verifier := e.1 } : Registry ν).call e.2) r) := by
    induction history with
    | nil => exact fun _ h => h
    | cons e rest ih => exact fun r h => ih _ ((h.withVerifier e.1).call e.2)
  exact hrun _ (structured_fresh config none)

/-- Whatever has been done to a registry of entitlements or of profiles, in either mode and under
any verifiers, every call returns. Its cascade cannot nest without end: within a broadcast there are
only broadcasts of those that depend on the node that speaks, and in between a node is concerned but
a bounded number of times. Generations do not wrap: this is about fewer than `2 ^ 64` compile
requests. -/
theorem returns_reached (config : EngineConfig) :
    (∀ (history : List (Option Verifier × Call EntitlementNode)) (verifier : Option Verifier)
      (c : Call EntitlementNode),
      Returns ({ reachedUnder config history with verifier } : Registry EntitlementNode) c) ∧
    (∀ (history : List (Option Verifier × Call ProfileNode)) (verifier : Option Verifier)
      (c : Call ProfileNode),
      Returns ({ reachedUnder config history with verifier } : Registry ProfileNode) c) := by
  constructor
  · intro history verifier c
    exact ((structured_reachedUnder config history).withVerifier verifier).returns c
  · intro history verifier c
    exact ((structured_reachedUnder config history).withVerifier verifier).returns c

end Registry

end LayeredAccess
