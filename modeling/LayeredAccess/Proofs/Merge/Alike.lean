/-
  LayeredAccess.Proofs.Merge.Alike

  Values that are equal as far as equality of values can tell (`alike_iff_beq`),
  which compares doubles as numbers and takes the two zeros for the same.
  Merging cannot tell such values apart either (`alike_mergeLayers`).
-/
import LayeredAccess.Proofs.Merge.Member

namespace LayeredAccess.Json

/-! ## Alike values -/

mutual

/-- Two values are the same, but for doubles that are equal as numbers. -/
inductive Alike : Json → Json → Prop
  | null : Alike .null .null
  | bool (b : Bool) : Alike (.bool b) (.bool b)
  | int (n : Int) : Alike (.int n) (.int n)
  | double {x y : Float} (h : x = y ∨ (x == y) = true) : Alike (.double x) (.double y)
  | str (s : String) : Alike (.str s) (.str s)
  | arr {vs ws : List Json} (h : ItemsAlike vs ws) : Alike (.arr vs) (.arr ws)
  | obj {vs ws : List (String × Json)} (h : MembersAlike vs ws) : Alike (.obj vs) (.obj ws)

/-- Two lists have alike items. -/
inductive ItemsAlike : List Json → List Json → Prop
  | nil : ItemsAlike [] []
  | cons {v w : Json} {vs ws : List Json} (h : Alike v w) (hs : ItemsAlike vs ws) :
    ItemsAlike (v :: vs) (w :: ws)

/-- Two lists of members have the same keys with alike values. -/
inductive MembersAlike : List (String × Json) → List (String × Json) → Prop
  | nil : MembersAlike [] []
  | cons {k : String} {v w : Json} {vs ws : List (String × Json)} (h : Alike v w)
    (hs : MembersAlike vs ws) : MembersAlike ((k, v) :: vs) ((k, w) :: ws)

end

mutual

theorem Alike.refl : ∀ v : Json, Alike v v
  | .null => .null
  | .bool b => .bool b
  | .int n => .int n
  | .double _ => .double (.inl rfl)
  | .str s => .str s
  | .arr items => .arr (ItemsAlike.refl items)
  | .obj members => .obj (MembersAlike.refl members)

theorem ItemsAlike.refl : ∀ vs : List Json, ItemsAlike vs vs
  | [] => .nil
  | v :: rest => .cons (Alike.refl v) (ItemsAlike.refl rest)

theorem MembersAlike.refl : ∀ vs : List (String × Json), MembersAlike vs vs
  | [] => .nil
  | (_, v) :: rest => .cons (Alike.refl v) (MembersAlike.refl rest)

end

mutual

/-- Equal values are alike. -/
theorem alike_of_same : ∀ {v w : Json}, same v w = true → Alike v w
  | .null, w, h => by cases w <;> simp [same] at h; exact .null
  | .bool a, w, h => by
    cases w <;> simp [same] at h
    exact h ▸ .bool a
  | .int a, w, h => by
    cases w <;> simp [same] at h
    exact h ▸ .int a
  | .double a, w, h => by
    cases w <;> simp only [same, Bool.false_eq_true] at h
    exact .double (.inr h)
  | .str a, w, h => by
    cases w <;> simp [same] at h
    exact h ▸ .str a
  | .arr items, w, h => by
    cases w <;> simp only [same, Bool.false_eq_true] at h
    exact .arr (itemsAlike_of_same h)
  | .obj members, w, h => by
    cases w <;> simp only [same, Bool.false_eq_true] at h
    exact .obj (membersAlike_of_same h)

theorem itemsAlike_of_same : ∀ {vs ws : List Json}, sameItems vs ws = true → ItemsAlike vs ws
  | [], ws, h => by
    cases ws with
    | nil => exact .nil
    | cons => simp [sameItems] at h
  | v :: vs, ws, h => by
    cases ws with
    | nil => simp [sameItems] at h
    | cons w ws =>
      rw [sameItems, Bool.and_eq_true] at h
      exact .cons (alike_of_same h.1) (itemsAlike_of_same h.2)

theorem membersAlike_of_same : ∀ {vs ws : List (String × Json)}, sameMembers vs ws = true →
    MembersAlike vs ws
  | [], ws, h => by
    cases ws with
    | nil => exact .nil
    | cons => simp [sameMembers] at h
  | (k, v) :: vs, ws, h => by
    cases ws with
    | nil => simp [sameMembers] at h
    | cons w ws =>
      obtain ⟨l, w⟩ := w
      rw [sameMembers, Bool.and_eq_true, Bool.and_eq_true, beq_iff_eq] at h
      obtain ⟨⟨rfl, hv⟩, hrest⟩ := h
      exact .cons (alike_of_same hv) (membersAlike_of_same hrest)

end

mutual

theorem same_of_alike : ∀ {v w : Json}, Alike v w → same v v = true → same v w = true
  | .null, _, h, hv | .bool _, _, h, hv | .int _, _, h, hv | .str _, _, h, hv => by
    cases h
    exact hv
  | .double x, _, h, hv => by
    cases h with
    | double h =>
      rcases h with rfl | h
      · exact hv
      · exact h
  | .arr items, _, h, hv => by
    cases h with
    | arr h => exact sameItems_of_itemsAlike h hv
  | .obj members, _, h, hv => by
    cases h with
    | obj h => exact sameMembers_of_membersAlike h hv

theorem sameItems_of_itemsAlike : ∀ {vs ws : List Json}, ItemsAlike vs ws →
    sameItems vs vs = true → sameItems vs ws = true
  | [], _, h, hvs => by
    cases h
    exact hvs
  | v :: rest, _, h, hvs => by
    cases h with
    | cons hv hrest =>
      rw [sameItems, Bool.and_eq_true] at hvs ⊢
      exact ⟨same_of_alike hv hvs.1, sameItems_of_itemsAlike hrest hvs.2⟩

theorem sameMembers_of_membersAlike : ∀ {vs ws : List (String × Json)}, MembersAlike vs ws →
    sameMembers vs vs = true → sameMembers vs ws = true
  | [], _, h, hvs => by
    cases h
    exact hvs
  | (k, v) :: rest, _, h, hvs => by
    cases h with
    | cons hv hrest =>
      rw [sameMembers, Bool.and_eq_true, Bool.and_eq_true] at hvs ⊢
      exact ⟨⟨hvs.1.1, same_of_alike hv hvs.1.2⟩, sameMembers_of_membersAlike hrest hvs.2⟩

end

/-- Alike values are the equal ones, except that of a double that is no number, which is not even
equal to itself, a copy is alike. -/
theorem alike_iff_beq {v w : Json} (hv : (v == v) = true) : Alike v w ↔ (v == w) = true :=
  ⟨fun h => same_of_alike h hv, alike_of_same⟩

/-! ## Members -/

variable {v w : Json} {vs ws : List (String × Json)}

/-- What is found under a key is alike, if there is anything. -/
theorem MembersAlike.find? (h : MembersAlike vs ws) (k : String) :
    Option.Rel Alike (KeyMap.find? vs k) (KeyMap.find? ws k) := by
  induction vs generalizing ws with
  | nil =>
    cases h
    exact .none
  | cons m rest ih =>
    cases h with
    | @cons l v w _ _ hv hrest =>
      rw [KeyMap.find?_cons, KeyMap.find?_cons]
      split
      · exact .some hv
      · exact ih hrest

theorem MembersAlike.insert (h : MembersAlike vs ws) (k : String) (hv : Alike v w) :
    MembersAlike (KeyMap.insert vs k v) (KeyMap.insert ws k w) := by
  induction vs generalizing ws with
  | nil =>
    cases h
    exact .cons hv .nil
  | cons m rest ih =>
    cases h with
    | @cons l v' w' _ _ hv' hrest =>
      simp only [KeyMap.insert]
      split
      · exact .cons hv hrest
      · split
        · exact .cons hv (.cons hv' hrest)
        · exact .cons hv' (ih hrest)

/-! ## Merging -/

/-- Only the sentinel is alike the sentinel. -/
theorem Alike.isUnset_eq (h : Alike v w) : isUnset v = isUnset w := by
  cases h with
  | null | bool | int | double | str | arr => rfl
  | obj hmembers =>
    cases hmembers with
    | nil => rfl
    | cons hvalue hrest =>
      cases hrest with
      | nil => cases hvalue <;> rfl
      | cons => cases hvalue <;> rfl

mutual

theorem alike_stripUnset : ∀ {v w : Json}, Alike v w → Alike (stripUnset v) (stripUnset w)
  | .obj members, _, h => by
    cases h with
    | obj hmembers =>
      rw [stripUnset, stripUnset]
      exact .obj (membersAlike_stripMembers hmembers)
  | .arr items, _, h => by
    cases h with
    | arr hitems =>
      rw [stripUnset, stripUnset]
      exact .arr (itemsAlike_stripItems hitems)
  | .null, _, h | .bool _, _, h | .int _, _, h | .double _, _, h | .str _, _, h => by
    have hself := h
    cases h
    simpa only [stripUnset] using hself

theorem itemsAlike_stripItems : ∀ {vs ws : List Json}, ItemsAlike vs ws →
    ItemsAlike (stripItems vs) (stripItems ws)
  | [], _, h => by
    cases h
    exact .nil
  | v :: rest, _, h => by
    cases h with
    | cons hv hrest =>
      simp only [stripItems, hv.isUnset_eq]
      split
      · exact itemsAlike_stripItems hrest
      · exact .cons (alike_stripUnset hv) (itemsAlike_stripItems hrest)

theorem membersAlike_stripMembers : ∀ {vs ws : List (String × Json)}, MembersAlike vs ws →
    MembersAlike (stripMembers vs) (stripMembers ws)
  | [], _, h => by
    cases h
    exact .nil
  | (k, v) :: rest, _, h => by
    cases h with
    | cons hv hrest =>
      simp only [stripMembers, hv.isUnset_eq]
      split
      · exact membersAlike_stripMembers hrest
      · exact .cons (alike_stripUnset hv) (membersAlike_stripMembers hrest)

end

mutual

theorem alike_mergeOver : ∀ {above above' base base' : Json}, Alike above above' →
    -- Two objects are laid over each other member by member; anything else is replaced.
    Alike base base' → Alike (mergeOver base above) (mergeOver base' above')
  | .obj members, _, base, base', h, hbase => by
    have hunset := h.isUnset_eq
    have hstripped := alike_stripUnset h
    cases h with
    | obj hmembers =>
      have hbelow := hbase
      cases hbase with
      | obj hbase =>
        simp only [mergeOver, hunset]
        split
        · exact hbelow
        · exact .obj (membersAlike_mergeMembers hmembers hbase)
      | null | bool | int | double | str | arr =>
        simp only [mergeOver, hunset]
        split
        · exact hbelow
        · exact hstripped
  | .null, _, _, _, h, _ | .bool _, _, _, _, h, _ | .int _, _, _, _, h, _
  | .double _, _, _, _, h, _ | .str _, _, _, _, h, _ | .arr _, _, _, _, h, _ => by
    have hstripped := alike_stripUnset h
    cases h
    simpa only [mergeOver] using hstripped

theorem membersAlike_mergeMembers : ∀ {above above' members members' : List (String × Json)},
    MembersAlike above above' → MembersAlike members members' →
      MembersAlike (mergeMembers members above) (mergeMembers members' above')
  | [], _, _, _, h, hmembers => by
    cases h
    exact hmembers
  | (k, v) :: rest, _, members, members', h, hmembers => by
    cases h with
    | @cons _ _ w _ ws hv hrest =>
      rw [mergeMembers, mergeMembers, hv.isUnset_eq]
      split
      · exact membersAlike_mergeMembers hrest hmembers
      · have hfound := hmembers.find? k
        generalize KeyMap.find? members k = old, KeyMap.find? members' k = old' at hfound
        cases hfound with
        | some hold =>
          exact membersAlike_mergeMembers hrest (hmembers.insert k (alike_mergeOver hv hold))
        | none => exact membersAlike_mergeMembers hrest (hmembers.insert k (alike_stripUnset hv))

end

/-! ## Layers -/

theorem alike_mergeLayer {below below' : Option Json} (h : Option.Rel Alike below below')
    (hv : Alike v w) : Option.Rel Alike (mergeLayer below v) (mergeLayer below' w) := by
  have hunset := hv.isUnset_eq
  cases hw : isUnset w with
  | true =>
    rw [mergeLayer_of_isUnset _ (hunset.trans hw), mergeLayer_of_isUnset _ hw]
    exact h
  | false =>
    cases h with
    | none =>
      rw [mergeLayer_none (hunset.trans hw), mergeLayer_none hw]
      exact .some (alike_stripUnset hv)
    | some hbelow =>
      rw [mergeLayer_some _ (hunset.trans hw), mergeLayer_some _ hw]
      exact .some (alike_mergeOver hv hbelow)

/-- Alike layers merge into alike values. -/
theorem alike_mergeLayers {layers layers' : List Json} (h : ItemsAlike layers layers') :
    Alike (mergeLayers layers) (mergeLayers layers') := by
  have hfold : ∀ {below below' : Option Json}, Option.Rel Alike below below' →
      Option.Rel Alike (layers.foldl mergeLayer below) (layers'.foldl mergeLayer below') := by
    induction layers generalizing layers' with
    | nil =>
      cases h
      exact fun hbelow => hbelow
    | cons layer rest ih =>
      cases h with
      | cons hlayer hrest => exact fun hbelow => ih hrest (alike_mergeLayer hbelow hlayer)
  have hend := hfold .none
  rw [mergeLayers, mergeLayers]
  generalize layers.foldl mergeLayer none = merged, layers'.foldl mergeLayer none = merged' at hend
  cases hend with
  | none => exact .refl _
  | some hmerged => exact hmerged

theorem ItemsAlike.append {vs ws vs' ws' : List Json} (h : ItemsAlike vs ws)
    (h' : ItemsAlike vs' ws') : ItemsAlike (vs ++ vs') (ws ++ ws') := by
  induction vs generalizing ws with
  | nil =>
    cases h
    exact h'
  | cons v vs ih =>
    cases h with
    | cons hv hrest => exact .cons hv (ih hrest)

/-- Where like things are looked up for the same keys, alike lists are found. -/
theorem ItemsAlike.filterMap {α : Type} {keys : List α} {f g : α → Option Json}
    (h : ∀ k ∈ keys, Option.Rel Alike (f k) (g k)) :
    ItemsAlike (keys.filterMap f) (keys.filterMap g) := by
  induction keys with
  | nil => exact .nil
  | cons k rest ih =>
    have hrest := ih fun j hj => h j (List.mem_cons_of_mem _ hj)
    have hfirst := h k List.mem_cons_self
    rw [List.filterMap_cons, List.filterMap_cons]
    generalize f k = v, g k = w at hfirst
    cases hfirst with
    | none => exact hrest
    | some hv => exact .cons hv hrest

end LayeredAccess.Json
