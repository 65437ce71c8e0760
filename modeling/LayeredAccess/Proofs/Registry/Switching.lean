/-
  LayeredAccess.Proofs.Registry.Switching

  Switching a node on and off. A node that is switched off keeps its value, but
  nobody can build on it any more.
-/
import LayeredAccess.Proofs.Registry.Changing

namespace LayeredAccess.Registry

variable {ν : Type} [Node ν] [NodeKind ν] [LawfulNode ν]
variable {verifier : Option Verifier} {r r' : Registry ν}

omit [LawfulNode ν] in
/-- Switching a node on or off leaves all that matters for values as it is. -/
theorem outlook_switched {k : String} {v : NodeView} {active : Bool}
    (hc : Turns r r' k { v with inputs.active := active }) (hv : r.view? k = some v)
    (due : List String) : r'.outlook due = r.outlook due := by
  have hline : ({ v with inputs.active := active } : NodeView).outline = v.outline := rfl
  rw [hc.outlook_eq, hline, Outlook.set_eq_self (outline?_outlook hv)]

/-! ## Switching off -/

/-- A node that is switched off: its dependents learn of the loss. -/
theorem Coherent.sound_switchedOff {k : String} {v : NodeView} (h : Coherent verifier r)
    (hc : Turns r r' k { v with inputs.active := false }) (hv : r.view? k = some v) :
    ∃ r'', Agenda.run step r'.reserve r' [.perform k (.broadcast .invalidated false)] = (r'', []) ∧
      Sound verifier r r'' := by
  have hs : Steady verifier r' :=
    h.toSteady.set hc.toFrame hv hc.view?_eq (hc.compiled?_eq_of_value h.toSteady hv rfl) rfl rfl
      ((h.fits k v hv).switch false)
  obtain ⟨height, hg⟩ := hs.wired.exists_graded
  have hview' : r'.view? k = some { v with inputs.active := false } :=
    (hc.view?_eq k).trans (if_pos rfl)
  -- What is not active is not dependable, and so begins a falling cascade.
  have hnot : r'.isDependable k = false := by
    rw [isDependable_of_view? hview']
    rfl
  let loss : List Effect := [.broadcast .invalidated false]
  have hfalling : Falling verifier r'.listenerCount height (height k) (fun _ => False) r'
      (loss.map (.perform k)) := by
    refine h.falling hs hg (fun j hj => (hc.view?_eq j).trans (if_neg hj)) hnot
      (fun w hw d hd => ?_) (.inl ⟨false, rfl⟩)
    obtain rfl : { v with inputs.active := false } = w := Option.some.inj (hview'.symm.trans hw)
    exact h.recorded_eq k v hv d hd
  have hweight : Agenda.total (Task.weight r'.listenerCount height) (loss.map (.perform k)) ≤
      r'.reserve := by
    simpa [loss] using hg.weight_le (.perform k (.broadcast .invalidated false))
  obtain ⟨r'', hrun, hend, hkept⟩ := hfalling.run_eq hweight
  refine ⟨r'', hrun, hend.coherent, fun X hX hr => ?_⟩
  refine hkept X [] (fun _ hf => hf.elim) (fun o o' hl => hX o o' (.lapse hl)) ?_
  rw [outlook_switched hc hv]
  exact hr

/-! ## Switching on -/

section On

variable {k : String} {v : NodeView} {effects : List Effect}

/-- A node that is switched on: if it is verified, its dependents are out of date until they are
told. -/
theorem Coherent.rising_switchedOn {width : Nat} {height : String → Nat} (h : Coherent verifier r)
    (hg : Graded width height r) (hc : Turns r r' k { v with inputs.active := true })
    (hv : r.view? k = some v) (hoff : v.inputs.active = false) (heffects : NodeView.Gain effects) :
    Rising verifier width height (height k) r'
      (if v.verified then effects.map (.perform k) else []) := by
  have hplain : v.dependable = false := by rw [NodeView.dependable, hoff, Bool.false_and]
  have hstart : Rising verifier width height (height k) r [] :=
    h.rising hg (List.nodup_nil : ([] : List String).Nodup) (by simp)
  have hrising := hstart.of_gain hv hplain (by simp [dueOf]) (Nat.le_refl _) hc.toFrame hc.view?_eq
    (hc.compiled?_eq_of_value h.toSteady hv rfl) rfl rfl rfl ((h.fits k v hv).switch true) heffects
  rw [List.append_nil] at hrising
  exact hrising

/-- A verified node that is switched on: its dependents can build on it again. -/
theorem Coherent.sound_resumed (h : Coherent verifier r)
    (hc : Turns r r' k { v with inputs.active := true }) (hv : r.view? k = some v)
    (hoff : v.inputs.active = false) (hverified : v.verified = true)
    (heffects : NodeView.Gain effects) :
    ∃ r'', Agenda.run step (2 * r'.reserve) r' (effects.map (.perform k)) = (r'', []) ∧
      Sound verifier r r'' := by
  obtain ⟨height, hg⟩ := h.wired.exists_graded
  have hr := h.rising_switchedOn hg hc hv hoff heffects
  rw [hverified, if_pos rfl] at hr
  -- There are two tasks at most: a broadcast and an announcement.
  have hweight : Agenda.total (Task.weight r.listenerCount height) (effects.map (.perform k)) ≤
      2 * r'.reserve := by
    have htotal := Agenda.total_le_mul (Task.weight r.listenerCount height) r'.reserve
      (effects.map (.perform k)) fun t _ => hr.graded.weight_le t
    have hlength : (effects.map (Task.perform k)).length ≤ 2 := by cases heffects <;> simp
    exact Nat.le_trans htotal (Nat.mul_le_mul_right _ hlength)
  obtain ⟨r'', hrun, hend, hkept⟩ := hr.run_eq hweight
  refine ⟨r'', hrun, hend.coherent, fun X hX hx => ?_⟩
  refine hkept X (fun o o' ha => hX o o' (.advance ha)) ?_
  rw [dueOf_gain heffects, outlook_switched hc hv]
  exact hx

/-- A node without value that is switched on: it is compiled if it has become ready meanwhile. -/
theorem Coherent.sound_awoken (h : Coherent verifier r)
    (hc : Turns r r' k { v with inputs.active := true }) (hv : r.view? k = some v)
    (hoff : v.inputs.active = false) (hnone : v.compiled = none) :
    ∃ r'', Agenda.run step (2 * r'.reserve) r' (v.compileIfReady.map (.perform k)) = (r'', []) ∧
      Sound verifier r r'' := by
  obtain ⟨height, hg⟩ := h.wired.exists_graded
  have hr := h.rising_switchedOn hg hc hv hoff .told
  rw [(h.fits k v hv).sound.verified_eq_false hnone] at hr
  have hview' : r'.view? k = some { v with inputs.active := true } :=
    (hc.view?_eq k).trans (if_pos rfl)
  have hsteps : Task.weight r.listenerCount height (.perform k .compile) ≤ 2 * r'.reserve :=
    Nat.le_trans (hr.graded.weight_le _) (by omega)
  -- Whether the node is ready has nothing to do with the switch.
  have htasks : v.compileIfReady =
      ({ v with inputs.active := true } : NodeView).compileIfReady := rfl
  rw [htasks]
  refine Coherent.sound_compile (Rising.coherent hr) hr.graded hview' hnone hsteps fun X hX hx => ?_
  rw [outlook_switched hc hv]
  exact kept_ask hX hx k v.Ready

/-- A node that is switched on while its value has not been verified: nobody is to be told. -/
theorem Coherent.sound_unverified (h : Coherent verifier r)
    (hc : Turns r r' k { v with inputs.active := true }) (hv : r.view? k = some v)
    (hoff : v.inputs.active = false) (hverified : v.verified = false) : Sound verifier r r' := by
  obtain ⟨height, hg⟩ := h.wired.exists_graded
  have hr := h.rising_switchedOn hg hc hv hoff .told
  rw [hverified] at hr
  refine ⟨Rising.coherent hr, fun X _ hx => ?_⟩
  rw [outlook_switched hc hv]
  exact hx

end On

/-! ## Customizing -/

/-- What follows when a node is switched on or off, or left as it is. -/
theorem Coherent.sound_switched {k : String} {v : NodeView} {active : Bool} {effects : List Effect}
    (h : Coherent verifier r) (hc : Turns r r' k { v with inputs.active := active })
    (hv : r.view? k = some v) (hswitch : v.Switch active effects) :
    ∃ r'', Agenda.run step (2 * r'.reserve) r' (effects.map (.perform k)) = (r'', []) ∧
      Sound verifier r r'' := by
  cases hswitch.switched with
  | stayed => exact ⟨r', by simp, h.sound_of_alike (hc.alike_self hv)⟩
  | off =>
    obtain ⟨r'', hrun, hsound⟩ := h.sound_switchedOff hc hv
    refine ⟨r'', ?_, hsound⟩
    rw [← hrun]
    exact Agenda.run_of_le (by omega) _ _ (congrArg Prod.snd hrun)
  | resumed hoff hverified hgain => exact h.sound_resumed hc hv hoff hverified hgain
  | unverified hoff hverified => exact ⟨r', by simp, h.sound_unverified hc hv hoff hverified⟩
  | awoken hoff hverified hmarked =>
    exact h.sound_awoken hc hv hoff ((h.fits k v hv).sound.compiled_eq_none hmarked)

theorem Coherent.sound_customize (h : Coherent verifier r) (k : String) (flags : Flags) :
    Sound verifier r (r.customize k flags).2 := by
  unfold customize
  split
  · next hcontains =>
    obtain ⟨n, hn⟩ := Option.isSome_iff_exists.1 hcontains
    have ha := (silent_publishSignal r k (.customized flags) true).alike
    have h₁ := h.of_unmoved ha.toUnmoved
    generalize r.publishSignal k (.customized flags) true = r₁ at ha h₁ ⊢
    have hv₁ : r₁.view? k = some (Node.view n) := (ha.view?_eq k).trans (view?_of_get? hn)
    obtain ⟨m, hm, hmv⟩ := exists_get? hv₁
    obtain ⟨active, effects, hswitch, hreacts⟩ := LawfulNode.customized m flags
    obtain ⟨r₂, htell, hc⟩ := tell_eq hm hreacts
    -- The switch does not touch the value.
    have hturns := hc.turns fun ⟨hl, hl'⟩ => by
      simp only at hl'
      simp [hl'] at hl
    obtain ⟨r₃, hrun, hsound⟩ := h₁.sound_switched hturns (hmv ▸ hv₁) hswitch
    have hreserve := hc.toFrame.reserve_eq h₁.wired.sorted
    show Sound verifier r (r₁.deliver k (.customized flags))
    rw [deliver_eq htell hrun (Nat.le_of_eq (by rw [hreserve]))]
    exact ⟨hsound.coherent, ha.evolves.trans hsound.evolves⟩
  · exact h.sound_refuse _ _ _

end LayeredAccess.Registry
