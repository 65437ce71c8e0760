/-
  LayeredAccess.Proofs.Registry.Locality

  What a call can reach. A step concerns one node (`spared_step`), and leaves
  tasks for that node and for those that depend on it (`reaches_of_mem_step`).
  So a call only concerns its subject and those that depend on the subject, be
  it through others: every other node, with all that the registry keeps of it
  and has told of it, is spared.
-/
import LayeredAccess.Proofs.Registry.Sparing
import Mathlib.Logic.Relation

namespace LayeredAccess.Registry

open Relation

variable {ν : Type} [Node ν] {r r' r'' : Registry ν} {k n : String}

/-! ## Steps -/

/-- A step concerns the node of its task alone. -/
theorem spared_step (r : Registry ν) {t : Task} (h : n ≠ t.node) : Spared r (r.step t).1 n := by
  have hstep := steps_step r t
  generalize (r.step t).1 = r₁, (r.step t).2 = more at hstep ⊢
  cases hstep with
  | absent | valueless | validated | unregistered => exact .refl r n
  | told => exact spared_reshape r _ _ h
  | broadcast => exact spared_publishSignal r _ _ h
  | announced => exact spared_publish r fun he => Channel.noConfusion he
  | rejected | lacking => exact spared_publishError r _ _
  | queued => exact (spared_bumpGeneration r h).trans (spared_queueJob _ h)
  | uncached =>
    exact ((spared_bumpGeneration r h).trans
      (spared_compiler _ (Compiler.get?_compile r.compiler _ h))).trans (spared_publishError _ _ _)
  | compiled =>
    exact ((spared_bumpGeneration r h).trans
      (spared_compiler _ (Compiler.get?_compile r.compiler _ h))).trans
      (spared_publishSignal _ _ _ h)

/-- Is a node the given one, or does it depend on it, be it through others? -/
def Reaches (r : Registry ν) (n k : String) : Prop := n = k ∨ TransGen r.DependsOn n k

variable [NodeKind ν]

theorem Linked.reaches_eq (h : Linked r r') : r'.Reaches = r.Reaches := by
  have hdepends : r'.DependsOn = r.DependsOn := by
    funext a b
    exact propext (dependsOn_congr (h.links?_eq a) b)
  funext a b
  rw [Reaches, Reaches, hdepends]

/-- Those who are told of a signal on a channel depend on its node, apart from the node itself. -/
theorem Wired.reaches_of_mem_dispatch (h : Wired r) {c : String} {s : Signal} {o : Origin}
    {u : Task} (hu : u ∈ r.dispatch c s o) : r.Reaches u.node c := by
  obtain ⟨l, hl, rfl⟩ := List.mem_map.1 hu
  have hlistens := (h.mem_listenersOf c l).1 hl
  cases l with
  | owner key => exact .inl hlistens.1
  | dependent key =>
    obtain ⟨v, hv, hc⟩ := hlistens
    obtain ⟨m, hm, rfl⟩ := exists_get? hv
    exact .inr (.single ⟨m, hm, hc⟩)

/-- A step leaves tasks for its node and for those that depend on the node. -/
theorem Wired.reaches_of_mem_step (h : Wired r) {t u : Task} (hu : u ∈ (r.step t).2) :
    r.Reaches u.node t.node := by
  cases ensues_of_mem_step hu with
  | told | validated | compiled => exact .inl rfl
  | @broadcast key s wide _ hu =>
    have hl := linked_of_silent (silent_publishSignal r key s wide)
    have hreaches := (h.of_frame hl.toFrame hl.links?_eq).reaches_of_mem_dispatch hu
    rwa [hl.reaches_eq] at hreaches

omit [NodeKind ν] in
theorem Reaches.trans {a b c : String} (h : r.Reaches a b) (h' : r.Reaches b c) :
    r.Reaches a c := by
  rcases h with rfl | h
  · exact h'
  · rcases h' with rfl | h'
    · exact .inr h
    · exact .inr (h.trans h')

/-! ## Cascades -/

/-- What holds in a cascade that concerns a node: all tasks are about nodes that it can reach, and
all others are spared. -/
structure Confined (r₀ : Registry ν) (k : String) (r : Registry ν) (tasks : List Task) :
    Prop where
  linked : Linked r₀ r
  reaches : ∀ t ∈ tasks, r₀.Reaches t.node k
  spared : ∀ n, ¬ r₀.Reaches n k → Spared r₀ r n

variable {r₀ : Registry ν}

theorem Confined.step [LinkedNode ν] (hw : Wired r₀) {t : Task} {rest : List Task}
    (h : Confined r₀ k r (t :: rest)) : Confined r₀ k (r.step t).1 ((r.step t).2 ++ rest) := by
  have ht := h.reaches t List.mem_cons_self
  have hwired : Wired r := hw.of_frame h.linked.toFrame h.linked.links?_eq
  refine ⟨h.linked.trans (linked_step r t), fun u hu => ?_, fun n hn => ?_⟩
  · rcases List.mem_append.1 hu with hu | hu
    · have hreaches := hwired.reaches_of_mem_step hu
      rw [h.linked.reaches_eq] at hreaches
      exact hreaches.trans ht
    · exact h.reaches u (List.mem_cons_of_mem t hu)
  · refine (h.spared n hn).trans (spared_step r ?_)
    rintro rfl
    exact hn ht

variable [LinkedNode ν]

/-- A cascade that begins with tasks about nodes that a node can reach spares all others. -/
theorem Wired.spared_settle (hw : Wired r₀) {tasks : List Task}
    (htasks : ∀ t ∈ tasks, r₀.Reaches t.node k) (hn : ¬ r₀.Reaches n k) :
    Spared r₀ (r₀.settle tasks) n ∧
      ∀ m ∈ Agenda.moments Registry.step (r₀.cascadeBound tasks) r₀ tasks, m.2.node ≠ n := by
  have hstart : Confined r₀ k r₀ tasks := ⟨.refl r₀, htasks, fun n _ => .refl r₀ n⟩
  have hstep : ∀ s t rest, Confined r₀ k s (t :: rest) →
      Confined r₀ k (Registry.step s t).1 ((Registry.step s t).2 ++ rest) :=
    fun _ _ _ h => h.step hw
  refine ⟨(Agenda.run_preserves hstep _ r₀ tasks hstart).spared n hn, fun m hm hnode => ?_⟩
  obtain ⟨rest, h⟩ := Agenda.forall_mem_moments hstep hstart m hm
  exact hn (hnode ▸ h.reaches m.2 List.mem_cons_self)

/-! ## Calls -/

omit [NodeKind ν] [LinkedNode ν] in
/-- Before the first node is told, a call has only concerned its subject. -/
theorem Opens.spared {c : Call ν} {tasks : List Task} (h : Opens r c r' tasks)
    (hk : c.subject = some k) (hn : n ≠ k) : Spared r r' n := by
  -- What is done before the cascade is done under the key of the subject.
  cases h with
  | refused label e => exact spared_publishError r label e
  | stale => exact .refl r n
  | cleared | fetched | collected | shared => simp [Call.subject] at hk
  | @entered m =>
    obtain rfl : Node.key m = k := Option.some.inj hk
    exact (spared_install r m hn).trans (spared_publishSignal _ _ _ hn)
  | @adopted key =>
    obtain rfl : key = k := Option.some.inj hk
    exact (spared_setNode r _ hn).trans (spared_publishWide _ _)
  | @patched key =>
    obtain rfl : key = k := Option.some.inj hk
    exact spared_patched r _ _ hn
  | @deleted key | @customized key =>
    obtain rfl : key = k := Option.some.inj hk
    exact spared_publishSignal r _ _ hn
  | @failed key =>
    obtain rfl : key = k := Option.some.inj hk
    exact (spared_bumpGeneration r hn).trans (spared_publishError _ _ _)
  | @unmet key =>
    obtain rfl : key = k := Option.some.inj hk
    exact spared_bumpGeneration r hn
  | @arrived key g value =>
    obtain rfl : key = k := Option.some.inj hk
    have hget : (r.compiler.publish key value).get? n = r.compiler.get? n := by
      rw [Compiler.get?_publish, if_neg (Ne.symm hn)]
    exact ((spared_bumpGeneration r hn).trans (spared_compiler _ hget)).trans
      (spared_publishSignal _ _ _ hn)

omit [LinkedNode ν] in
/-- A call begins with tasks for its subject and for those that depend on it. -/
theorem Opens.reaches {c : Call ν} {tasks : List Task} (h : Opens r c r' tasks) (hw : Wired r')
    (hk : c.subject = some k) : ∀ t ∈ tasks, r'.Reaches t.node k := by
  intro t ht
  cases h with
  | refused | adopted | stale | failed | unmet | fetched | collected | shared => simp at ht
  | cleared => simp [Call.subject] at hk
  | @deleted key =>
    obtain rfl : key = k := Option.some.inj hk
    exact hw.reaches_of_mem_dispatch ht
  | entered | patched | customized | arrived =>
    obtain rfl := List.mem_singleton.1 ht
    exact .inl (Option.some.inj hk)

omit [NodeKind ν] [LinkedNode ν] in
/-- Those who reach a node do so without its own dependencies. -/
theorem reaches_of_get?_eq (h : ∀ a, a ≠ k → r'.get? a = r.get? a) (hn : r'.Reaches n k) :
    r.Reaches n k := by
  rcases hn with rfl | hn
  · exact .inl rfl
  · have hdepends : ∀ a b, a ≠ k → r'.DependsOn a b → r.DependsOn a b := by
      intro a b ha hab
      rwa [DependsOn, h a ha] at hab
    induction hn using TransGen.head_induction_on with
    | @single a hstep =>
      by_cases ha : a = k
      · exact .inl ha
      · exact .inr (.single (hdepends a k ha hstep))
    | @head a b hstep _ ih =>
      by_cases ha : a = k
      · exact .inl ha
      · have hab := hdepends a b ha hstep
        rcases ih with rfl | hb
        · exact .inr (.single hab)
        · exact .inr (.head hab hb)

omit [NodeKind ν] [LinkedNode ν] in
theorem spared_closing (c : Call ν) (hk : c.subject = some k) (hn : n ≠ k) :
    Spared r (r₀.closing r c) n := by
  cases c with
  | delete key =>
    obtain rfl : key = k := Option.some.inj hk
    simp only [closing]
    cases r₀.deletable key with
    | false => exact .refl r n
    | true =>
      cases r.get? key with
      | none => exact .refl r n
      | some m => exact spared_uninstall r _ hn
  | add | update | customize | clearCache | apply | takeOutbox | collect | share => exact .refl r n

variable [LawfulNode ν]

/-- A call about a node spares all others that do not depend on it, and none of its steps is about
them. -/
theorem Structured.spared_call (h : Structured r) {c : Call ν} (hk : c.subject = some k)
    (hn : n ≠ k) (hfar : ¬ TransGen r.DependsOn n k) :
    Spared r (r.call c) n ∧ ∀ m ∈ r.course c, m.2.node ≠ n := by
  have hopens := opens_opening r c
  have hbegun := (h.opening c).toWired
  have hbefore : ∀ a, a ≠ k → Spared r (r.opening c).1 a := fun a ha => hopens.spared hk ha
  -- The subject may have got new dependencies by now, but nobody else has.
  have hfar' : ¬ (r.opening c).1.Reaches n k := by
    intro hreaches
    rcases reaches_of_get?_eq (fun a ha => (hbefore a ha).get?_eq) hreaches with rfl | hdepends
    · exact hn rfl
    · exact hfar hdepends
  obtain ⟨hsettled, hsteps⟩ := hbegun.spared_settle (hopens.reaches hbegun hk) hfar'
  refine ⟨?_, hsteps⟩
  rw [call_eq_closing]
  exact ((hbefore n hn).trans hsettled).trans (spared_closing c hk hn)

/-- In every registry that calls can lead to, a call about one node leaves every other node that
does not depend on it as it was: the node with its value and its records, its cached value, its
generation, its queued jobs, and what its followers have been told. No step of the call is about
such a node, so it is not compiled either. Generations do not wrap: this is about fewer than
`2 ^ 64` compile requests. -/
theorem spared_reached (config : EngineConfig) (verifier : Option Verifier) :
    (∀ (calls : List (Call EntitlementNode)) (c : Call EntitlementNode) (k n : String),
      let r := reached config verifier calls
      c.subject = some k → n ≠ k → ¬ TransGen r.DependsOn n k →
        Spared r (r.call c) n ∧ ∀ m ∈ r.course c, m.2.node ≠ n) ∧
    (∀ (calls : List (Call ProfileNode)) (c : Call ProfileNode) (k n : String),
      let r := reached config verifier calls
      c.subject = some k → n ≠ k → ¬ TransGen r.DependsOn n k →
        Spared r (r.call c) n ∧ ∀ m ∈ r.course c, m.2.node ≠ n) := by
  constructor
  · intro calls c k n r hk hn hfar
    have h : Structured r := structured_reached config verifier calls
    exact h.spared_call hk hn hfar
  · intro calls c k n r hk hn hfar
    have h : Structured r := structured_reached config verifier calls
    exact h.spared_call hk hn hfar

omit [NodeKind ν] [LinkedNode ν] in
/-- A node without dependencies depends on nobody. -/
theorem not_reaches_of_root (h : (r.get? n).map Node.dependencies = some []) :
    ¬ TransGen r.DependsOn n k := by
  intro hreaches
  obtain ⟨d, ⟨m, hm, hd⟩, -⟩ := TransGen.head'_iff.1 hreaches
  rw [hm, Option.map_some, Option.some.injEq] at h
  simp [h] at hd

/-- A node is spared when another is entered or removed beside it. -/
theorem spared_reached_beside :
    let apart : EntitlementNode := NodeKind.ofDefinition ({ id := "apart" } : Entitlement)
    let base : EntitlementNode := NodeKind.ofDefinition ({ id := "base" } : Entitlement)
    let apart' : ProfileNode := NodeKind.ofDefinition ({ name := "apart" } : Profile)
    let base' : ProfileNode := NodeKind.ofDefinition ({ name := "base" } : Profile)
    let r := reached {} none [.add apart]
    let r' := reached {} none [.add apart', .add base']
    ((Call.add base).subject = some "base" ∧ "apart" ≠ "base" ∧
      ¬ TransGen r.DependsOn "apart" "base" ∧ Spared r (r.call (.add base)) "apart" ∧
      ∀ m ∈ r.course (.add base), m.2.node ≠ "apart") ∧
    (r'.deletable "base" = true ∧ ¬ TransGen r'.DependsOn "apart" "base" ∧
      Spared r' (r'.call (.delete "base")) "apart" ∧
      ∀ m ∈ r'.course (.delete "base"), m.2.node ≠ "apart") := by
  intro apart base apart' base' r r'
  have hne : "apart" ≠ "base" := by decide
  have hfar : ¬ TransGen r.DependsOn "apart" "base" := not_reaches_of_root (by decide +kernel)
  have hfar' : ¬ TransGen r'.DependsOn "apart" "base" := not_reaches_of_root (by decide +kernel)
  exact ⟨⟨rfl, hne, hfar,
      (spared_reached {} none).1 [.add apart] (.add base) "base" "apart" rfl hne hfar⟩,
    by decide +kernel, hfar', (spared_reached {} none).2 [.add apart', .add base'] (.delete "base")
      "base" "apart" rfl hne hfar'⟩

end LayeredAccess.Registry
