/-
  LayeredAccess.Proofs.Merge.PerKey

  What merging layers gives, said without the fold: by the last layers that have
  an opinion, and for objects key by key (`ByKey`, `byKey_mergeLayers`).

  The fold changes one value in place, and has its own cases for the first layer,
  for a key that is not there yet and for a change of type. Here the layers are
  looked at together. Only the objects at the top of the stack count
  (`topObjects`): whatever lies below them ends in a value that is no object and
  so has no member to pass on (`member?_foldl_rdropWhile`). Over these objects the
  fold at a key is the fold of what they hold there (`foldl_layMember`).
-/
import LayeredAccess.Proofs.Merge.Member
import Mathlib.Data.List.DropRight

namespace LayeredAccess.Json

/-- The layers that have an opinion: those that are no sentinel. -/
def opinions (layers : List Json) : List Json := layers.filter fun l => !isUnset l

/-- The objects at the top: the longest end of the layers with an opinion that holds only
objects. -/
def topObjects (layers : List Json) : List Json := (opinions layers).rtakeWhile isObject

/-- The opinions of layers about the value at a key. -/
def valuesAt (layers : List Json) (k : String) : List Json :=
  opinions (layers.filterMap (·.member? k))

/-- What merging layers gives, by the layers that have an opinion. -/
structure ByKey (layers : List Json) : Prop where
  /-- Without an opinion it is an empty object. -/
  nothing : opinions layers = [] → mergeLayers layers = .obj []
  /-- A last opinion that is no object is taken, without its sentinels. -/
  other : ∀ {v}, (opinions layers).getLast? = some v → v.isObject = false →
    mergeLayers layers = stripUnset v
  /-- A last opinion that is an object makes an object. Its keys are those with an opinion in one
  of the objects at the top, and each value is what these objects hold at the key, merged. -/
  objects : ∀ {v}, (opinions layers).getLast? = some v → v.isObject = true →
    ∃ members, mergeLayers layers = .obj members ∧ KeyMap.Sorted members ∧
      (∀ k, k ∈ KeyMap.keys members ↔
        ∃ l ∈ topObjects layers, ∃ x, l.member? k = some x ∧ isUnset x = false) ∧
      ∀ k x, KeyMap.find? members k = some x → x = mergeLayers (valuesAt (topObjects layers) k)
  /-- What lies below a layer that is no object does not matter. -/
  cut : ∀ {below above v}, layers = below ++ v :: above → v.isObject = false →
    mergeLayers layers = mergeLayers (v :: above)

/-! ## Opinions -/

theorem mem_opinions {layers : List Json} {l : Json} :
    l ∈ opinions layers ↔ l ∈ layers ∧ isUnset l = false := by
  simp [opinions]

/-- A layer without an opinion takes no part. -/
theorem foldl_mergeLayer_opinions (below : Option Json) (layers : List Json) :
    (opinions layers).foldl mergeLayer below = layers.foldl mergeLayer below := by
  induction layers generalizing below with
  | nil => rfl
  | cons l rest ih =>
    cases h : isUnset l with
    | true =>
      have hskip : opinions (l :: rest) = opinions rest := by simp [opinions, h]
      rw [hskip, ih, List.foldl_cons, mergeLayer_of_isUnset below h]
    | false =>
      have hkeep : opinions (l :: rest) = l :: opinions rest := by simp [opinions, h]
      rw [hkeep, List.foldl_cons, List.foldl_cons, ih]

theorem isSome_mergeLayer {below : Option Json} {l : Json}
    (h : below.isSome = true ∨ isUnset l = false) : (mergeLayer below l).isSome = true := by
  cases hunset : isUnset l with
  | true =>
    rw [mergeLayer_of_isUnset below hunset]
    exact h.resolve_right (by simp [hunset])
  | false =>
    cases below with
    | none => rw [mergeLayer_none hunset]; rfl
    | some base => rw [mergeLayer_some base hunset]; rfl

/-- Merging gives a value as soon as one layer has an opinion. -/
theorem isSome_foldl_mergeLayer {below : Option Json} {layers : List Json}
    (h : below.isSome = true ∨ opinions layers ≠ []) :
    (layers.foldl mergeLayer below).isSome = true := by
  induction layers generalizing below with
  | nil => exact h.resolve_right fun hne => hne rfl
  | cons l rest ih =>
    rw [List.foldl_cons]
    apply ih
    cases hunset : isUnset l with
    | true =>
      have hskip : opinions (l :: rest) = opinions rest := by simp [opinions, hunset]
      rwa [mergeLayer_of_isUnset below hunset, ← hskip]
    | false => exact .inl (isSome_mergeLayer (.inr hunset))

/-- Merging gives nothing or what the opinions merge to. -/
theorem foldl_mergeLayer_eq_ite (layers : List Json) :
    layers.foldl mergeLayer none =
      if opinions layers = [] then none else some (mergeLayers layers) := by
  split
  · next h => rw [← foldl_mergeLayer_opinions, h, List.foldl_nil]
  · next h =>
    obtain ⟨v, hv⟩ := Option.isSome_iff_exists.1 (isSome_foldl_mergeLayer (.inr h))
    rw [mergeLayers, hv, Option.getD_some]

/-! ## Objects at the top -/

/-- At a key objects are merged by what they hold there. -/
theorem foldl_layMember {layers : List Json} (k : String) (below : Option Json)
    (h : ∀ l ∈ layers, l.isObject = true ∧ isUnset l = false) :
    layers.foldl (layMember k) below = (valuesAt layers k).foldl mergeLayer below := by
  rw [valuesAt, foldl_mergeLayer_opinions]
  induction layers generalizing below with
  | nil => rfl
  | cons l rest ih =>
    have hrest := fun l' hl' => h l' (List.mem_cons_of_mem _ hl')
    obtain ⟨hobject, hplain⟩ := h l List.mem_cons_self
    rw [List.foldl_cons, ih _ hrest, layMember_of_isObject below hplain hobject]
    cases hk : l.member? k with
    | none =>
      have hskip : (l :: rest).filterMap (·.member? k) = rest.filterMap (·.member? k) :=
        List.filterMap_cons_none hk
      rw [hskip, Option.elim_none]
    | some x =>
      have hkeep : (l :: rest).filterMap (·.member? k) = x :: rest.filterMap (·.member? k) :=
        List.filterMap_cons_some hk
      rw [hkeep, Option.elim_some, List.foldl_cons]

/-- What lies below the objects at the top has no members. -/
theorem member?_foldl_rdropWhile (layers : List Json) (k : String) :
    ((layers.rdropWhile isObject).foldl mergeLayer none).bind (·.member? k) = none := by
  rcases List.eq_nil_or_concat' (layers.rdropWhile isObject) with hnil | ⟨init, v, hconcat⟩
  · rw [hnil]
    rfl
  · -- The last of these layers is no object, or it would belong to the top.
    have hne : layers.rdropWhile isObject ≠ [] := by simp [hconcat]
    have hv : v.isObject = false := by
      have hlast := List.rdropWhile_last_not isObject layers hne
      simp only [hconcat, List.getLast_append_singleton] at hlast
      simpa using hlast
    rw [hconcat, List.foldl_append, List.foldl_cons, List.foldl_nil,
      mergeLayer_of_not_isObject _ hv, Option.bind_some,
      member?_of_not_isObject ((isObject_stripUnset v).trans hv)]

/-- A key has an opinion in one of the objects just when there is something to merge at it. -/
theorem valuesAt_ne_nil_iff {layers : List Json} {k : String} :
    valuesAt layers k ≠ [] ↔
      ∃ l ∈ layers, ∃ x, l.member? k = some x ∧ isUnset x = false := by
  constructor
  · intro h
    obtain ⟨x, hx⟩ := List.exists_mem_of_ne_nil _ h
    obtain ⟨hmem, hplain⟩ := mem_opinions.1 hx
    obtain ⟨l, hl, hk⟩ := List.mem_filterMap.1 hmem
    exact ⟨l, hl, x, hk, hplain⟩
  · rintro ⟨l, hl, x, hk, hplain⟩
    exact List.ne_nil_of_mem (mem_opinions.2 ⟨List.mem_filterMap.2 ⟨l, hl, hk⟩, hplain⟩)

/-- Where the last opinion is an object, merging gives an object with what the objects at the top
have at each key, merged. -/
theorem exists_mergeLayers_obj {layers : List Json} {v : Json} (h : ∀ l ∈ layers, l.Ordered)
    (hlast : (opinions layers).getLast? = some v) (hobject : v.isObject = true) :
    ∃ members, mergeLayers layers = .obj members ∧
      ∀ k, KeyMap.find? members k =
        (valuesAt (topObjects layers) k).foldl mergeLayer none := by
  obtain ⟨init, hinit⟩ := List.getLast?_eq_some_iff.1 hlast
  have hordered : ∀ l ∈ opinions layers, l.Ordered := fun l hl => h l (mem_opinions.1 hl).1
  have hplain : isUnset v = false := (mem_opinions.1 (List.mem_of_getLast? hlast)).2
  obtain ⟨members, hmerge, hmembers⟩ :=
    exists_foldl_mergeLayer_concat none (hinit ▸ hordered) hplain hobject
  rw [← hinit] at hmerge hmembers
  have hresult : mergeLayers layers = .obj members := by
    rw [mergeLayers, ← foldl_mergeLayer_opinions, hmerge, Option.getD_some]
  refine ⟨members, hresult, fun k => ?_⟩
  have htop : ∀ l ∈ topObjects layers, l.isObject = true ∧ isUnset l = false := by
    intro l hl
    have hsuffix : topObjects layers <:+ opinions layers := List.rtakeWhile_suffix _ _
    exact ⟨List.mem_rtakeWhile_imp hl, (mem_opinions.1 (hsuffix.subset hl)).2⟩
  -- The fold at the key, cut where the objects at the top begin.
  have hcut : opinions layers = (opinions layers).rdropWhile isObject ++ topObjects layers :=
    List.rdropWhile_append_rtakeWhile.symm
  have hbelow : ∀ l ∈ (opinions layers).rdropWhile isObject, l.Ordered :=
    fun l hl => hordered l ((List.rdropWhile_prefix _ _).subset hl)
  rw [hmembers, ← foldl_layMember k none htop]
  conv_lhs => rw [hcut]
  rw [List.foldl_append]
  congr 1
  rw [Option.bind_none]
  exact (member?_foldl_mergeLayer k none hbelow).symm.trans (member?_foldl_rdropWhile _ k)

/-! ## The result -/

/-- A layer that is no object replaces whatever is below it. -/
theorem mergeLayers_append_cons (below above : List Json) {v : Json} (h : v.isObject = false) :
    mergeLayers (below ++ v :: above) = mergeLayers (v :: above) := by
  rw [mergeLayers, mergeLayers, List.foldl_append, List.foldl_cons, List.foldl_cons,
    mergeLayer_of_not_isObject _ h, mergeLayer_of_not_isObject _ h]

/-- Merging gives what the layers with an opinion say, key by key. -/
theorem byKey_mergeLayers {layers : List Json} (h : ∀ l ∈ layers, l.Ordered) : ByKey layers where
  nothing hnone := by
    rw [mergeLayers, foldl_mergeLayer_eq_ite, if_pos hnone, Option.getD_none]
  other := by
    intro v hlast hv
    obtain ⟨init, hinit⟩ := List.getLast?_eq_some_iff.1 hlast
    rw [mergeLayers, ← foldl_mergeLayer_opinions, hinit, List.foldl_append, List.foldl_cons,
      List.foldl_nil, mergeLayer_of_not_isObject _ hv, Option.getD_some]
  objects := by
    intro v hlast hobject
    obtain ⟨members, hresult, hfind⟩ := exists_mergeLayers_obj h hlast hobject
    have hvalue : ∀ k, KeyMap.find? members k =
        if valuesAt (topObjects layers) k = [] then none
        else some (mergeLayers (valuesAt (topObjects layers) k)) := by
      intro k
      -- What is left out at a key is left out once for all.
      have hidem : opinions (valuesAt (topObjects layers) k) = valuesAt (topObjects layers) k := by
        simp [valuesAt, opinions]
      rw [hfind, foldl_mergeLayer_eq_ite, hidem]
    refine ⟨members, hresult, ?_, fun k => ?_, fun k x hx => ?_⟩
    · have hsome : layers.foldl mergeLayer none = some (.obj members) := by
        have hne : opinions layers ≠ [] := by
          rintro hnil
          simp [hnil] at hlast
        rw [foldl_mergeLayer_eq_ite, if_neg hne, hresult]
      have hstart : ∀ v ∈ (none : Option Json), v.Ordered := by simp
      have hordered := ordered_foldl_mergeLayer hstart h _ hsome
      exact ((ordered_obj_iff members).1 hordered).1
    · rw [KeyMap.mem_keys_iff, hvalue, ← valuesAt_ne_nil_iff]
      split <;> simp_all
    · rw [hvalue] at hx
      split at hx
      · simp at hx
      · exact (Option.some.inj hx).symm
  cut := by
    intro below above v hlayers hv
    rw [hlayers, mergeLayers_append_cons below above hv]

/-- An object below a scalar, and over it objects that change types, hold sentinels and meet the
sentinel as a layer. -/
theorem byKey_mergeLayers_mixed :
    let layers : List Json :=
      [.obj [("a", .int 1), ("z", .int 9)], .str "cut", .obj [("a", .obj [("p", .int 1)])],
        unset, .obj [("a", unset), ("b", .arr [unset, .int 2])], .obj [("a", .obj [("q", unset)])]]
    (∀ l ∈ layers, l.Ordered) ∧ ByKey layers ∧
      mergeLayers layers = .obj [("a", .obj [("p", .int 1)]), ("b", .arr [.int 2])] := by
  intro layers
  have hordered : ∀ l ∈ layers, l.Ordered := by decide
  exact ⟨hordered, byKey_mergeLayers hordered, rfl⟩

end LayeredAccess.Json
