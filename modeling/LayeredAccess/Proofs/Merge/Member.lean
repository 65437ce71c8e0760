/-
  LayeredAccess.Proofs.Merge.Member

  What merging does to the members of objects, key by key.

  Merging is a fold over the layers. At each key it is again a fold, over what
  the layers hold at the key (`layMember`, `member?_foldl_mergeLayer`): a layer
  without a value at the key leaves alone what is below, any other value is
  merged over it in the same way, and a layer that is no object takes it away.

  Merging ordered layers gives an ordered value (`ordered_foldl_mergeLayer`), and
  where the last layer with an opinion is an object, it gives an object
  (`exists_foldl_mergeLayer_concat`), which its members determine.
-/
import LayeredAccess.Proofs.Merge.Clean

namespace LayeredAccess.Json

/-- Is a value an object? -/
def isObject : Json → Bool
  | .obj _ => true
  | _ => false

/-! ## Laying one layer -/

theorem mergeLayer_of_isUnset (below : Option Json) {v : Json} (h : isUnset v = true) :
    mergeLayer below v = below := if_pos h

theorem mergeLayer_none {v : Json} (h : isUnset v = false) :
    mergeLayer none v = some (stripUnset v) := by
  simp only [mergeLayer, h, Bool.false_eq_true, if_false]

theorem mergeLayer_some (base : Json) {v : Json} (h : isUnset v = false) :
    mergeLayer (some base) v = some (mergeOver base v) := by
  simp only [mergeLayer, h, Bool.false_eq_true, if_false]

/-- A layer that is no object is no sentinel. -/
theorem isUnset_of_not_isObject {v : Json} (h : v.isObject = false) : isUnset v = false := by
  cases v with
  | obj members => simp [isObject] at h
  | _ => rfl

/-- A layer that is no object replaces what is below. -/
theorem mergeLayer_of_not_isObject (below : Option Json) {v : Json} (h : v.isObject = false) :
    mergeLayer below v = some (stripUnset v) := by
  cases v with
  | obj members => simp [isObject] at h
  | _ => cases below <;> rfl

theorem member?_of_not_isObject {v : Json} (h : v.isObject = false) (k : String) :
    v.member? k = none := by
  cases v with
  | obj members => simp [isObject] at h
  | _ => rfl

theorem isObject_stripUnset (v : Json) : (stripUnset v).isObject = v.isObject := by
  cases v <;> rfl

/-! ## Members of what is merged -/

/-- At each key a layer strips what it has there. -/
theorem find?_stripMembers {members : List (String × Json)} (h : KeyMap.Sorted members)
    (k : String) : KeyMap.find? (stripMembers members : KeyMap String Json) k =
      (KeyMap.find? (members : KeyMap String Json) k).elim none (mergeLayer none) := by
  induction members with
  | nil => rfl
  | cons m rest ih =>
    obtain ⟨key, v⟩ := m
    have htail := (List.pairwise_cons.1 h).2
    have hrest := ih htail
    rw [stripMembers, KeyMap.find?_cons]
    by_cases hk : key = k
    · subst hk
      have hnone := KeyMap.find?_tail_eq_none h
      rw [if_pos rfl, Option.elim_some]
      cases hv : isUnset v with
      | true => rw [if_pos rfl, hrest, hnone, mergeLayer_of_isUnset none hv, Option.elim_none]
      | false =>
        rw [if_neg Bool.false_ne_true, KeyMap.find?_cons, if_pos rfl, mergeLayer_none hv]
    · rw [if_neg hk]
      split
      · exact hrest
      · rw [KeyMap.find?_cons, if_neg hk, hrest]

/-- At each key the values of two objects are merged. -/
theorem find?_mergeMembers (members : KeyMap String Json) {above : List (String × Json)}
    (h : KeyMap.Sorted above) (k : String) :
    KeyMap.find? (mergeMembers members above) k =
      (KeyMap.find? (above : KeyMap String Json) k).elim (KeyMap.find? members k)
        (mergeLayer (KeyMap.find? members k)) := by
  induction above generalizing members with
  | nil => rfl
  | cons m rest ih =>
    obtain ⟨key, v⟩ := m
    have htail := (List.pairwise_cons.1 h).2
    rw [mergeMembers, KeyMap.find?_cons]
    by_cases hk : key = k
    · subst hk
      have hnone := KeyMap.find?_tail_eq_none h
      rw [if_pos rfl, Option.elim_some]
      cases hv : isUnset v with
      | true => rw [if_pos rfl, ih _ htail, hnone, Option.elim_none, mergeLayer_of_isUnset _ hv]
      | false =>
        rw [if_neg Bool.false_ne_true]
        split
        · next old hold =>
          rw [ih _ htail, hnone, Option.elim_none, KeyMap.find?_insert, if_pos rfl, hold,
            mergeLayer_some _ hv]
        · next hold =>
          rw [ih _ htail, hnone, Option.elim_none, KeyMap.find?_insert, if_pos rfl, hold,
            mergeLayer_none hv]
    · rw [if_neg hk]
      split
      · exact ih _ htail
      · split
        · rw [ih _ htail, KeyMap.find?_insert, if_neg hk]
        · rw [ih _ htail, KeyMap.find?_insert, if_neg hk]

/-- What a layer makes of the value at a key. -/
def layMember (k : String) (below : Option Json) (layer : Json) : Option Json :=
  if isUnset layer then below
  else if layer.isObject then (layer.member? k).elim below (mergeLayer below)
  else none

theorem layMember_of_isUnset {k : String} (below : Option Json) {v : Json}
    (h : isUnset v = true) : layMember k below v = below := if_pos h

theorem layMember_of_not_isObject {k : String} (below : Option Json) {v : Json}
    (h : v.isObject = false) : layMember k below v = none := by
  simp only [layMember, isUnset_of_not_isObject h, h, Bool.false_eq_true, if_false]

theorem layMember_of_isObject {k : String} (below : Option Json) {v : Json}
    (hplain : isUnset v = false) (h : v.isObject = true) :
    layMember k below v = (v.member? k).elim below (mergeLayer below) := by
  simp only [layMember, hplain, h, Bool.false_eq_true, if_false, if_true]

/-- An object laid over anything gives an object, whose members are merged key by key. -/
theorem exists_mergeLayer_obj (below : Option Json) {above : List (String × Json)}
    (h : KeyMap.Sorted above) (hplain : isUnset (.obj above) = false) :
    ∃ members, mergeLayer below (.obj above) = some (.obj members) ∧
      ∀ k, KeyMap.find? members k = layMember k (below.bind (·.member? k)) (.obj above) := by
  -- Over anything but an object the upper object is only stripped.
  have hstrip : ∀ k, KeyMap.find? (stripMembers above : KeyMap String Json) k =
      layMember k none (.obj above) := by
    intro k
    rw [find?_stripMembers h, layMember_of_isObject none hplain rfl]
    rfl
  cases below with
  | none => exact ⟨stripMembers above, mergeLayer_none hplain, hstrip⟩
  | some base =>
    rw [mergeLayer_some base hplain]
    cases hbase : base.isObject with
    | true =>
      cases base with
      | obj members =>
        refine ⟨mergeMembers members above, by simp [mergeOver, hplain], fun k => ?_⟩
        rw [find?_mergeMembers members h, layMember_of_isObject _ hplain rfl]
        rfl
      | _ => simp [isObject] at hbase
    | false =>
      have hover : mergeOver base (.obj above) = .obj (stripMembers above) := by
        cases base with
        | obj members => simp [isObject] at hbase
        | _ => simp [mergeOver, hplain, stripUnset]
      refine ⟨stripMembers above, by rw [hover], fun k => ?_⟩
      rw [hstrip, Option.bind_some, member?_of_not_isObject hbase]

/-- The member of what is merged is what the layer makes of the member below. -/
theorem member?_mergeLayer (k : String) (below : Option Json) {layer : Json} (h : layer.Ordered) :
    (mergeLayer below layer).bind (·.member? k) =
      layMember k (below.bind (·.member? k)) layer := by
  cases hunset : isUnset layer with
  | true => rw [mergeLayer_of_isUnset below hunset, layMember_of_isUnset _ hunset]
  | false =>
    cases hobject : layer.isObject with
    | true =>
      cases layer with
      | obj above =>
        obtain ⟨members, hmerge, hmembers⟩ :=
          exists_mergeLayer_obj below ((ordered_obj_iff above).1 h).1 hunset
        rw [hmerge]
        exact hmembers k
      | _ => simp [isObject] at hobject
    | false =>
      rw [mergeLayer_of_not_isObject below hobject, Option.bind_some,
        member?_of_not_isObject ((isObject_stripUnset layer).trans hobject),
        layMember_of_not_isObject _ hobject]

/-- The members of what is merged are merged key by key. -/
theorem member?_foldl_mergeLayer (k : String) (below : Option Json) {layers : List Json}
    (h : ∀ l ∈ layers, l.Ordered) :
    (layers.foldl mergeLayer below).bind (·.member? k) =
      layers.foldl (layMember k) (below.bind (·.member? k)) := by
  induction layers generalizing below with
  | nil => rfl
  | cons l rest ih =>
    rw [List.foldl_cons, List.foldl_cons, ih _ fun l hl => h l (List.mem_cons_of_mem _ hl),
      member?_mergeLayer k below (h l List.mem_cons_self)]

/-- Where the last layer is an object with an opinion, merging gives an object. -/
theorem exists_foldl_mergeLayer_concat (below : Option Json) {layers : List Json} {l : Json}
    (h : ∀ l' ∈ layers ++ [l], l'.Ordered) (hplain : isUnset l = false)
    (hobject : l.isObject = true) :
    ∃ members, (layers ++ [l]).foldl mergeLayer below = some (.obj members) ∧
      ∀ k, KeyMap.find? members k =
        (layers ++ [l]).foldl (layMember k) (below.bind (·.member? k)) := by
  have hl : l.Ordered := h l (by simp)
  cases l with
  | obj above =>
    obtain ⟨members, hmerge, -⟩ := exists_mergeLayer_obj (layers.foldl mergeLayer below)
      ((ordered_obj_iff above).1 hl).1 hplain
    have hfold : (layers ++ [obj above]).foldl mergeLayer below = some (.obj members) := by
      rw [List.foldl_append, List.foldl_cons, List.foldl_nil, hmerge]
    refine ⟨members, hfold, fun k => ?_⟩
    rw [← member?_foldl_mergeLayer k below h, hfold]
    rfl
  | _ => simp [isObject] at hobject

/-! ## Key order -/

theorem Ordered.stripUnset {v : Json} (h : v.Ordered) : (Json.stripUnset v).Ordered := by
  match v with
  | .null | .bool _ | .int _ | .double _ | .str _ => trivial
  | .arr items =>
    rw [Json.stripUnset, ordered_arr_iff]
    intro w hw
    obtain ⟨x, hx, -, rfl⟩ := (mem_stripItems items w).1 hw
    exact Ordered.stripUnset ((ordered_arr_iff items).1 h x hx)
  | .obj members =>
    obtain ⟨hsorted, hmembers⟩ := (ordered_obj_iff members).1 h
    rw [Json.stripUnset, ordered_obj_iff]
    refine ⟨sorted_stripMembers hsorted, fun m hm => ?_⟩
    obtain ⟨x, hx, -, heq⟩ := (mem_stripMembers members m).1 hm
    have hlt : sizeOf x < 1 + sizeOf members := sizeOf_snd_lt_of_mem hx
    rw [heq]
    exact Ordered.stripUnset (hmembers _ hx)
termination_by sizeOf v
decreasing_by
  all_goals simp_wf
  · have := List.sizeOf_lt_of_mem hx
    omega
  · assumption

theorem sorted_mergeMembers {members : KeyMap String Json} (h : KeyMap.Sorted members)
    (above : List (String × Json)) : KeyMap.Sorted (mergeMembers members above) := by
  induction above generalizing members with
  | nil => exact h
  | cons m rest ih =>
    obtain ⟨key, v⟩ := m
    rw [mergeMembers]
    split
    · exact ih h
    · split
      · exact ih (KeyMap.sorted_insert _ _ h)
      · exact ih (KeyMap.sorted_insert _ _ h)

theorem Ordered.mergeOver {base v : Json} (hbase : base.Ordered) (h : v.Ordered) :
    (Json.mergeOver base v).Ordered := by
  cases hplain : isUnset v with
  | true =>
    obtain rfl := (isUnset_iff v).1 hplain
    rwa [mergeOver_unset]
  | false =>
    -- Two objects are merged by their members; anything else is stripped.
    rcases mergeOver_cases base hplain with ⟨members, above, rfl, hv, he⟩ | he
    · obtain ⟨-, habove⟩ := (ordered_obj_iff above).1 (hv ▸ h)
      obtain ⟨hsorted, hmembers⟩ := (ordered_obj_iff members).1 hbase
      rw [he, ordered_obj_iff]
      refine ⟨sorted_mergeMembers hsorted above, ?_⟩
      refine mem_mergeMembers hmembers (fun m hm _ => (habove m hm).stripUnset) ?_
      intro m hm _ old hold
      have hlt : sizeOf m.2 < sizeOf v := by
        rw [hv, obj.sizeOf_spec]
        exact sizeOf_snd_lt_of_mem hm
      exact Ordered.mergeOver hold (habove m hm)
    · rw [he]
      exact h.stripUnset
termination_by sizeOf v

theorem ordered_mergeLayer {below : Option Json} {l : Json} (hbelow : ∀ v ∈ below, v.Ordered)
    (hl : l.Ordered) : ∀ v ∈ mergeLayer below l, v.Ordered := by
  intro v hv
  cases hplain : isUnset l with
  | true => exact hbelow v (mergeLayer_of_isUnset below hplain ▸ hv)
  | false =>
    cases below with
    | none =>
      rw [mergeLayer_none hplain, Option.mem_some_iff] at hv
      exact hv ▸ hl.stripUnset
    | some base =>
      rw [mergeLayer_some base hplain, Option.mem_some_iff] at hv
      exact hv ▸ (hbelow base rfl).mergeOver hl

/-- Merging ordered layers gives an ordered value. -/
theorem ordered_foldl_mergeLayer {below : Option Json} {layers : List Json}
    (hbelow : ∀ v ∈ below, v.Ordered) (h : ∀ l ∈ layers, l.Ordered) :
    ∀ v ∈ layers.foldl mergeLayer below, v.Ordered := by
  induction layers generalizing below with
  | nil => exact hbelow
  | cons l rest ih =>
    exact ih (ordered_mergeLayer hbelow (h l List.mem_cons_self))
      fun l hl => h l (List.mem_cons_of_mem _ hl)

end LayeredAccess.Json
