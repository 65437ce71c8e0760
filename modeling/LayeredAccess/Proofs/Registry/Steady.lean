/-
  LayeredAccess.Proofs.Registry.Steady

  What holds of a registry at every moment of a cascade, and what a cascade
  costs.

  `Steady` says that the flags of every node fit its value, and that the cache
  holds the values of the nodes; `Coherent` adds that every node knows how its
  dependencies fare, which holds whenever nothing is left to do. `Task.weight`
  bounds the steps that a task can lead to.
-/
import LayeredAccess.Proofs.Agenda
import LayeredAccess.Proofs.Registry.Wiring

namespace LayeredAccess

/-! ## Nodes that fit -/

/-- The flags of a node fit its value: it is verified exactly if the verifier accepts it. A value
is only held while all dependencies are recorded as dependable. -/
structure NodeView.Fits (verifier : Option Verifier) (v : NodeView) : Prop where
  marked_eq : v.marked = v.compiled.isSome
  verified_eq : v.verified = v.compiled.any (Registry.accepts verifier v.inputs.resource)
  ready_of_compiled : v.compiled.isSome → v.Ready
  /-- Something is recorded of every dependency. -/
  known : ∀ d ∈ v.inputs.dependencies, (v.recorded d).isSome

namespace NodeView

variable {verifier : Option Verifier} {v : NodeView}

theorem Fits.sound (h : v.Fits verifier) : v.Sound := by
  refine ⟨h.marked_eq, fun hv => ?_, h.ready_of_compiled⟩
  rw [h.verified_eq] at hv
  cases hc : v.compiled with
  | none => simp [hc] at hv
  | some x => rfl

theorem Fits.compiled_of_dependable (h : v.Fits verifier) (hd : v.dependable = true) :
    v.compiled.isSome = true := by
  rw [dependable, Bool.and_eq_true] at hd
  exact h.sound.compiled_of_verified hd.2

theorem Fits.dependable_eq_false (h : v.Fits verifier) (hc : v.compiled = none) :
    v.dependable = false := by
  rw [dependable, h.sound.verified_eq_false hc, Bool.and_false]

theorem Fits.compiled_eq_none (h : v.Fits verifier) (hr : ¬ v.Ready) : v.compiled = none := by
  cases hc : v.compiled with
  | none => rfl
  | some x => exact absurd (h.ready_of_compiled (by rw [hc]; rfl)) hr

/-- A node without value fits if it knows its dependencies. -/
theorem fits_fallen (h : ∀ d ∈ v.inputs.dependencies, (v.recorded d).isSome) :
    v.fallen.Fits verifier := ⟨rfl, rfl, by simp, h⟩

/-- What is recorded of one dependency adds to what is recorded of the others. -/
theorem Fits.known_record (h : v.Fits verifier) (d : String) (b : Bool) :
    ∀ e ∈ (v.record d b).inputs.dependencies, ((v.record d b).recorded e).isSome := by
  intro e he
  rw [record_recorded]
  split
  · rfl
  · exact h.known e he

/-- A node without value may be told anything of a dependency. -/
theorem Fits.record (h : v.Fits verifier) (hnone : v.compiled = none) (d : String) (b : Bool) :
    (v.record d b).Fits verifier := by
  refine ⟨h.marked_eq, h.verified_eq, fun hcomp => ?_, h.known_record d b⟩
  rw [record_compiled, hnone] at hcomp
  simp at hcomp

/-- Neither flags nor value speak of whether a node is switched on. -/
theorem Fits.switch (h : v.Fits verifier) (active : Bool) :
    ({ v with inputs.active := active } : NodeView).Fits verifier :=
  ⟨h.marked_eq, h.verified_eq, h.ready_of_compiled, h.known⟩

end NodeView

namespace Registry

variable {ν : Type} [Node ν] [NodeKind ν]

/-! ## Steady registries -/

/-- What holds at every moment, also within a cascade. -/
structure Steady (verifier : Option Verifier) (r : Registry ν) : Prop where
  wired : Wired r
  verifier_eq : r.verifier = verifier
  fits : ∀ k v, r.view? k = some v → v.Fits verifier
  compiled?_eq : ∀ k, r.compiled? k = r.value? k

/-- What holds when nothing is left to do: every node knows which of its dependencies are
registered and dependable. -/
structure Coherent (verifier : Option Verifier) (r : Registry ν) : Prop extends
    Steady verifier r where
  recorded_eq : ∀ k v, r.view? k = some v → ∀ d ∈ v.inputs.dependencies,
    v.recorded d = some (r.isDependable d)

variable {verifier : Option Verifier} {r r' : Registry ν} {k : String} {v v' : NodeView}

/-- In a coherent registry a node is ready if all its dependencies are dependable. -/
theorem Coherent.ready_iff (h : Coherent verifier r) (hv : r.view? k = some v) :
    v.Ready ↔ ∀ d ∈ v.inputs.dependencies, r.isDependable d = true := by
  refine forall₂_congr fun d hd => ?_
  rw [h.recorded_eq k v hv d hd, Option.some.injEq]

/-- A node takes its place, and its cached value is that of the node. -/
theorem Steady.replace (h : Steady verifier r) (hw : Wired r')
    (hverifier : r'.verifier = r.verifier)
    (hview : ∀ j, r'.view? j = if j = k then some v' else r.view? j)
    (hcompiled : ∀ j, r'.compiled? j = if j = k then v'.compiled else r.compiled? j)
    (hfits : v'.Fits verifier) : Steady verifier r' := by
  refine ⟨hw, hverifier.trans h.verifier_eq, fun j w hw => ?_, fun j => ?_⟩
  · rw [hview] at hw
    split at hw
    · obtain rfl : v' = w := by simpa using hw
      exact hfits
    · exact h.fits j w hw
  · rw [hcompiled, value?, hview, h.compiled?_eq, value?]
    split <;> rfl

/-- One node comes to look different, and its cached value is that of the node. -/
theorem Steady.set (h : Steady verifier r) (hf : Frame r r') (hv : r.view? k = some v)
    (hview : ∀ j, r'.view? j = if j = k then some v' else r.view? j)
    (hcompiled : ∀ j, r'.compiled? j = if j = k then v'.compiled else r.compiled? j)
    (hkey : v'.key = v.key) (hdeps : v'.inputs.dependencies = v.inputs.dependencies)
    (hfits : v'.Fits verifier) : Steady verifier r' := by
  refine h.replace (h.wired.of_frame hf fun j => ?_) hf.verifier_eq hview hcompiled hfits
  rw [links?, hview, links?]
  split
  · next hj => rw [hj, hv, Option.map_some, Option.map_some, hkey, hdeps]
  · rfl

/-- Changes that keep the value of a node or drop it do the same to its cached value. -/
theorem Steady.of_changes (h : Steady verifier r) (hc : Changes r r' k v v')
    (hkey : v'.key = v.key) (hdeps : v'.inputs.dependencies = v.inputs.dependencies)
    (hvalue : v'.compiled = none ∨ v'.compiled = v.compiled) (hfits : v'.Fits verifier) :
    Steady verifier r' := by
  refine h.set hc.toFrame hc.before hc.view?_eq (fun j => ?_) hkey hdeps hfits
  have hold : r.compiled? k = v.compiled := by rw [h.compiled?_eq, value?, hc.before]; rfl
  rw [hc.compiled?_eq]
  by_cases hj : j = k
  · simp only [hj, true_and, if_true, hold, NodeView.Loses]
    rcases hvalue with hvalue | hvalue
    · rw [hvalue]
      cases v.compiled <;> simp
    · rw [hvalue]
      cases v.compiled <;> simp
  · simp [hj]

/-- Nodes and cache are as before. -/
structure Unmoved (r r' : Registry ν) : Prop extends Frame r r' where
  view?_eq : ∀ j, r'.view? j = r.view? j
  compiled?_eq : ∀ j, r'.compiled? j = r.compiled? j

/-- Two registries that differ at most in what has been published. -/
structure Alike (r r' : Registry ν) : Prop extends Unmoved r r' where
  outbox_eq : r'.outbox = r.outbox
  generation_eq : r'.generation = r.generation
  generations_eq : r'.generations = r.generations

theorem Silent.alike (h : Silent r r') : Alike r r' := by
  obtain ⟨published, rfl⟩ := h
  exact ⟨⟨⟨rfl, rfl, rfl, rfl, fun h => ⟨h, rfl⟩⟩, fun _ => rfl, fun _ => rfl⟩, rfl, rfl, rfl⟩

theorem Alike.trans {r'' : Registry ν} (h : Alike r r') (h' : Alike r' r'') : Alike r r'' :=
  ⟨⟨h.toFrame.trans h'.toFrame, fun j => (h'.view?_eq j).trans (h.view?_eq j),
    fun j => (h'.compiled?_eq j).trans (h.compiled?_eq j)⟩, h'.outbox_eq.trans h.outbox_eq,
    h'.generation_eq.trans h.generation_eq, h'.generations_eq.trans h.generations_eq⟩

/-- One node comes to look different, and nothing else changes. -/
structure Turns (r r' : Registry ν) (k : String) (v' : NodeView) : Prop extends Frame r r' where
  view?_eq : ∀ j, r'.view? j = if j = k then some v' else r.view? j
  compiled?_eq : ∀ j, r'.compiled? j = r.compiled? j
  outbox_eq : r'.outbox = r.outbox
  generation_eq : r'.generation = r.generation
  generations_eq : r'.generations = r.generations

/-- A node that does not lose its value only turns. -/
theorem Changes.turns (h : Changes r r' k v v') (hkeeps : ¬ v.Loses v') : Turns r r' k v' := by
  refine ⟨h.toFrame, h.view?_eq, fun j => ?_, ?_, h.generation_eq, h.generations_eq⟩
  · rw [h.compiled?_eq, if_neg fun hj => hkeeps hj.2]
  · rw [h.outbox_eq, if_neg fun hl => hkeeps hl.1, List.append_nil]

/-- The cache still has the value of a node that turns and keeps its value. -/
theorem Turns.compiled?_eq_of_value (hc : Turns r r' k v') (h : Steady verifier r)
    (hv : r.view? k = some v) (hvalue : v'.compiled = v.compiled) (j : String) :
    r'.compiled? j = if j = k then v'.compiled else r.compiled? j := by
  rw [hc.compiled?_eq]
  split
  · next hj =>
    rw [hj, h.compiled?_eq, value?, hv, hvalue]
    rfl
  · rfl

theorem Alike.turns (h : Alike r r') (hv : r.view? k = some v) : Turns r r' k v := by
  refine ⟨h.toFrame, fun j => ?_, h.compiled?_eq, h.outbox_eq, h.generation_eq, h.generations_eq⟩
  rw [h.view?_eq]
  split
  · next hj => rw [hj, hv]
  · rfl

/-- A node that looks as before. -/
theorem Turns.alike_self (h : Turns r r' k v) (hv : r.view? k = some v) : Alike r r' := by
  refine ⟨⟨h.toFrame, fun j => ?_, h.compiled?_eq⟩, h.outbox_eq, h.generation_eq,
    h.generations_eq⟩
  rw [h.view?_eq]
  split
  · next hj => rw [hj, hv]
  · rfl

/-- A node that answers nothing and stays as it is. -/
theorem Changes.alike (h : Changes r r' k v v) : Alike r r' :=
  (h.turns fun ⟨h1, h2⟩ => by simp [h2] at h1).alike_self h.before

theorem Turns.trans {r'' : Registry ν} {v'' : NodeView} (h : Turns r r' k v')
    (h' : Turns r' r'' k v'') : Turns r r'' k v'' := by
  refine ⟨h.toFrame.trans h'.toFrame, fun j => ?_,
    fun j => (h'.compiled?_eq j).trans (h.compiled?_eq j), h'.outbox_eq.trans h.outbox_eq,
    h'.generation_eq.trans h.generation_eq, h'.generations_eq.trans h.generations_eq⟩
  rw [h'.view?_eq, h.view?_eq]
  split <;> rfl

theorem Steady.of_unmoved (h : Steady verifier r) (ha : Unmoved r r') : Steady verifier r' := by
  refine ⟨h.wired.of_frame ha.toFrame fun j => ?_, ha.verifier_eq.trans h.verifier_eq,
    fun j w hw => h.fits j w ((ha.view?_eq j).symm.trans hw), fun j => ?_⟩
  · rw [links?, ha.view?_eq, links?]
  · rw [ha.compiled?_eq, value?, ha.view?_eq, h.compiled?_eq, value?]

section Lawful

variable [LawfulNode ν]

/-- A node that is told of what it has told others stays as it is. -/
theorem Wired.tell_echo (h : Wired r) (hsome : (r.view? k).isSome = true) (s : Signal) :
    ∃ r', r.tell k (.own s (.node k)) = (r', []) ∧ Alike r r' := by
  obtain ⟨v, hv⟩ := Option.isSome_iff_exists.1 hsome
  obtain ⟨m, hm, rfl⟩ := exists_get? hv
  have hkey : Node.key m = k := h.key_eq k _ hv
  have hecho := LawfulNode.echo m s
  rw [hkey] at hecho
  obtain ⟨r', htell, hc⟩ := tell_eq hm hecho
  exact ⟨r', htell, hc.alike⟩

theorem Unmoved.isDependable_eq (h : Unmoved r r') (j : String) :
    r'.isDependable j = r.isDependable j := isDependable_congr (h.view?_eq j)

/-- A node that is not registered is not dependable. -/
theorem isDependable_eq_false (h : r.view? k = none) : r.isDependable k = false := by
  rw [isDependable_eq, h]
  rfl

theorem isDependable_of_view? (h : r.view? k = some v) : r.isDependable k = v.dependable := by
  rw [isDependable_eq, h]
  rfl

/-- What is dependable holds a value. -/
theorem Steady.value?_of_isDependable (h : Steady verifier r) (hd : r.isDependable k = true) :
    (r.value? k).isSome = true := by
  cases hv : r.view? k with
  | none => simp [isDependable_eq_false hv] at hd
  | some v =>
    rw [isDependable_of_view? hv] at hd
    rw [value?, hv]
    exact (h.fits k v hv).compiled_of_dependable hd

/-- A change at one node leaves the dependability of the others alone. -/
theorem isDependable_set (hview : ∀ j, r'.view? j = if j = k then some v' else r.view? j)
    (j : String) : r'.isDependable j = if j = k then v'.dependable else r.isDependable j := by
  rw [isDependable_eq, hview]
  split
  · rfl
  · rw [isDependable_eq]

end Lawful

/-! ## Costs -/

omit [Node ν] [NodeKind ν] in
/-- The listeners of one channel are among all listeners. -/
theorem length_listenersOf_le (r : Registry ν) (c : String) :
    (r.listenersOf c).length ≤ r.listenerCount := by
  rw [listenersOf, listenerCount]
  induction r.listeners with
  | nil => simp
  | cons e rest ih =>
    obtain ⟨channel, ls⟩ := e
    rw [KeyMap.find?_cons, List.flatMap_cons, List.length_append]
    split
    · simp
    · omega

/-- The number of listeners, and heights that fall from dependencies to dependents. -/
structure Graded (width : Nat) (height : String → Nat) (r : Registry ν) : Prop where
  wired : Wired r
  width_eq : r.listenerCount = width
  height_le : ∀ k, height k ≤ r.size
  height_lt : ∀ k v, r.view? k = some v → ∀ d ∈ v.inputs.dependencies, height k < height d

variable {width : Nat} {height : String → Nat}

theorem Wired.exists_graded (h : Wired r) : ∃ height, Graded r.listenerCount height r := by
  obtain ⟨height, hle, hlt⟩ := h.exists_height
  exact ⟨height, h, rfl, hle, hlt⟩

theorem Graded.of_frame (h : Graded width height r) (hf : Frame r r')
    (hlinks : ∀ k, r'.links? k = r.links? k) : Graded width height r' := by
  refine ⟨h.wired.of_frame hf hlinks, ?_, fun k => ?_, fun k v' hv' d hd => ?_⟩
  · rw [listenerCount, hf.listeners_eq]
    exact h.width_eq
  · rw [(hf.sorted h.wired.sorted).2]
    exact h.height_le k
  · have hk := hlinks k
    simp only [links?, hv', Option.map_some] at hk
    obtain ⟨v, hv, he⟩ := Option.map_eq_some_iff.1 hk.symm
    have hdeps : v.inputs.dependencies = v'.inputs.dependencies := congrArg Prod.snd he
    exact h.height_lt k v hv d (hdeps ▸ hd)

theorem Graded.of_unmoved (h : Graded width height r) (ha : Unmoved r r') :
    Graded width height r' :=
  h.of_frame ha.toFrame fun k => by rw [links?, ha.view?_eq, links?]

/-- A changed node that lists the same dependencies keeps its height. -/
theorem Graded.set (h : Graded width height r) (hf : Frame r r') (hv : r.view? k = some v)
    (hview : ∀ j, r'.view? j = if j = k then some v' else r.view? j)
    (hkey : v'.key = v.key) (hdeps : v'.inputs.dependencies = v.inputs.dependencies) :
    Graded width height r' := by
  refine h.of_frame hf fun j => ?_
  rw [links?, hview, links?]
  split
  · next hj => rw [hj, hv, Option.map_some, Option.map_some, hkey, hdeps]
  · rfl

/-- A bound on the steps that a task leads to, itself included. -/
def Task.weight (width : Nat) (height : String → Nat) : Task → Nat
  | .tell n (.dependency _ _) => width * Nat.pow (width + 16) (height n) + 7
  | .tell n (.own .deleted .registry) => width * Nat.pow (width + 16) (height n) + 2
  | .tell _ (.own _ _) => 1
  | .perform d (.broadcast _ _) => width * Nat.pow (width + 16) (height d) + 1
  | .perform n .compile => width * Nat.pow (width + 16) (height n) + 6
  | .perform _ _ => 1

/-- The node that a task is about. -/
def Task.node : Task → String
  | .tell n _ => n
  | .perform n _ => n

theorem Task.weight_le (width : Nat) (height : String → Nat) (t : Task) {bound : Nat}
    (h : height t.node < bound) : t.weight width height ≤ Nat.pow (width + 16) bound := by
  have hone : 1 ≤ Nat.pow (width + 16) (height t.node) := Nat.one_le_pow _ _ (by omega)
  have hmono : Nat.pow (width + 16) (height t.node + 1) ≤ Nat.pow (width + 16) bound :=
    Nat.pow_le_pow_right (by omega) h
  have hsucc : Nat.pow (width + 16) (height t.node + 1) =
      Nat.pow (width + 16) (height t.node) * (width + 16) := rfl
  rw [hsucc, Nat.mul_add, Nat.mul_comm _ width] at hmono
  have hweight : t.weight width height ≤ width * Nat.pow (width + 16) (height t.node) + 7 := by
    unfold weight
    split <;> simp only [node] <;> omega
  omega

/-- The tasks of a channel weigh less than the broadcast that leads to them. -/
theorem Graded.total_dispatch_le (hg : Graded width height r) (d : String) (s : Signal) :
    Agenda.total (Task.weight width height) (r.dispatch d s (.node d)) ≤
      width * Nat.pow (width + 16) (height d) := by
  have hone : 1 ≤ Nat.pow (width + 16) (height d) := Nat.one_le_pow _ _ (by omega)
  have hlength : (r.dispatch d s (.node d)).length ≤ width := by
    rw [dispatch, List.length_map]
    exact hg.width_eq ▸ length_listenersOf_le r d
  refine Nat.le_trans (Agenda.total_le_mul _ _ _ fun t ht => ?_) (Nat.mul_le_mul_right _ hlength)
  obtain ⟨l, hl, rfl⟩ := List.mem_map.1 ht
  cases l with
  | owner k =>
    refine Nat.le_trans ?_ hone
    cases s <;> simp [Task.weight]
  | dependent k =>
    obtain ⟨v, hv, hd⟩ := (hg.wired.mem_listenersOf d _).1 hl
    exact Task.weight_le width height _ (hg.height_lt k v hv d hd)

end Registry

end LayeredAccess
