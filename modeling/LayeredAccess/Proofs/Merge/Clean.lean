/-
  LayeredAccess.Proofs.Merge.Clean

  When merging leaves no sentinel behind.

  Members are left out of an object after it has been found to be no sentinel
  itself. So a sentinel may come about: an object that holds the mark of the
  sentinel beside nothing but sentinels is hollow, and becomes a sentinel when
  the others are gone.

  Layers without hollow objects merge into a value without sentinels
  (`clean_mergeLayers`), and a compiler that is given such layers caches only
  such values (`clean_compileAll`). For a single layer the condition is exact
  (`containsUnset_mergeLayers_singleton`).
-/
import LayeredAccess.Compiler.Basic
import LayeredAccess.Proofs.Json.Ordered

namespace LayeredAccess

namespace Json

/-- The values in an object are smaller than its list of members. -/
theorem sizeOf_snd_lt_of_mem {members : List (String × Json)} {m : String × Json}
    (h : m ∈ members) : sizeOf m.2 < 1 + sizeOf members := by
  have hlt := List.sizeOf_lt_of_mem h
  obtain ⟨k, v⟩ := m
  rw [Prod.mk.sizeOf_spec] at hlt
  show sizeOf v < _
  omega

/-! ## Hollow objects -/

/-- Would the member alone make the sentinel? -/
def isMark (m : String × Json) : Bool := isUnset (.obj [m])

/-- Does an object hold the mark of the sentinel, and beside it nothing but sentinels? -/
def isVoid (members : List (String × Json)) : Bool :=
  members.any isMark && members.all fun m => m.1 == unsetKey || isUnset m.2

/-- Is an object void without being the sentinel? -/
def isHollow (members : List (String × Json)) : Bool :=
  isVoid members && !isUnset (.obj members)

mutual

/-- Does a value hold a hollow object at any depth? -/
def containsHollow : Json → Bool
  | .obj members => isHollow members || membersContainHollow members
  | .arr items => itemsContainHollow items
  | _ => false

/-- Does one of the values hold a hollow object? -/
def itemsContainHollow : List Json → Bool
  | [] => false
  | v :: rest => containsHollow v || itemsContainHollow rest

/-- Does one of the members hold a hollow object? -/
def membersContainHollow : List (String × Json) → Bool
  | [] => false
  | (_, v) :: rest => containsHollow v || membersContainHollow rest

end

theorem isMark_iff (m : String × Json) : isMark m = true ↔ m = (unsetKey, .bool true) := by
  rw [isMark, isUnset_iff, unset]
  simp

theorem isVoid_iff (members : List (String × Json)) : isVoid members = true ↔
    (unsetKey, .bool true) ∈ members ∧
      ∀ m ∈ members, m.1 = unsetKey ∨ isUnset m.2 = true := by
  simp only [isVoid, Bool.and_eq_true, List.any_eq_true, List.all_eq_true, isMark_iff,
    Bool.or_eq_true, beq_iff_eq, exists_eq_right]

/-- The sentinel is void. -/
theorem isVoid_of_isUnset {members : List (String × Json)}
    (h : isUnset (.obj members) = true) : isVoid members = true := by
  rw [isUnset_iff, unset, obj.injEq] at h
  subst h
  decide

/-! ## Solid and clean values -/

/-- No hollow object at any depth. -/
def Solid (v : Json) : Prop := v.containsHollow = false

/-- Neither a sentinel nor a hollow object at any depth. -/
structure Clean (v : Json) : Prop where
  unset_free : v.containsUnset = false
  solid : v.Solid

theorem solid_unset : unset.Solid := by
  rw [Solid]
  decide

theorem itemsContainUnset_eq_false (items : List Json) :
    itemsContainUnset items = false ↔ ∀ v ∈ items, v.containsUnset = false := by
  induction items with
  | nil => simp [itemsContainUnset]
  | cons v rest ih => simp [itemsContainUnset, ih]

theorem membersContainUnset_eq_false (members : List (String × Json)) :
    membersContainUnset members = false ↔ ∀ m ∈ members, m.2.containsUnset = false := by
  induction members with
  | nil => simp [membersContainUnset]
  | cons m rest ih => simp [membersContainUnset, ih]

theorem itemsContainHollow_eq_false (items : List Json) :
    itemsContainHollow items = false ↔ ∀ v ∈ items, v.Solid := by
  induction items with
  | nil => simp [itemsContainHollow]
  | cons v rest ih => simp [itemsContainHollow, Solid, ih]

theorem membersContainHollow_eq_false (members : List (String × Json)) :
    membersContainHollow members = false ↔ ∀ m ∈ members, m.2.Solid := by
  induction members with
  | nil => simp [membersContainHollow]
  | cons m rest ih => simp [membersContainHollow, Solid, ih]

theorem solid_arr_iff (items : List Json) : (arr items).Solid ↔ ∀ v ∈ items, v.Solid := by
  rw [Solid, containsHollow, itemsContainHollow_eq_false]

/-- A solid object is void only as the sentinel. -/
theorem solid_obj_iff (members : List (String × Json)) : (obj members).Solid ↔
    (isVoid members = true → isUnset (.obj members) = true) ∧ ∀ m ∈ members, m.2.Solid := by
  rw [Solid, containsHollow, Bool.or_eq_false_iff, membersContainHollow_eq_false, isHollow]
  cases isVoid members <;> simp

theorem clean_arr_iff (items : List Json) : (arr items).Clean ↔ ∀ v ∈ items, v.Clean := by
  constructor
  · rintro ⟨hunset, hsolid⟩ v hv
    rw [containsUnset, itemsContainUnset_eq_false] at hunset
    exact ⟨hunset v hv, (solid_arr_iff items).1 hsolid v hv⟩
  · intro h
    refine ⟨?_, (solid_arr_iff items).2 fun v hv => (h v hv).solid⟩
    rw [containsUnset, itemsContainUnset_eq_false]
    exact fun v hv => (h v hv).unset_free

/-- A clean object is not even void. -/
theorem clean_obj_iff (members : List (String × Json)) :
    (obj members).Clean ↔ isVoid members = false ∧ ∀ m ∈ members, m.2.Clean := by
  constructor
  · rintro ⟨hunset, hsolid⟩
    rw [containsUnset, Bool.or_eq_false_iff, membersContainUnset_eq_false] at hunset
    obtain ⟨hvoid, hmembers⟩ := (solid_obj_iff members).1 hsolid
    refine ⟨?_, fun m hm => ⟨hunset.2 m hm, hmembers m hm⟩⟩
    cases hv : isVoid members with
    | false => rfl
    | true => simp [hvoid hv] at hunset
  · rintro ⟨hvoid, hmembers⟩
    constructor
    · rw [containsUnset, Bool.or_eq_false_iff, membersContainUnset_eq_false]
      refine ⟨?_, fun m hm => (hmembers m hm).unset_free⟩
      cases hu : isUnset (.obj members) with
      | false => rfl
      | true => simp [isVoid_of_isUnset hu] at hvoid
    · refine (solid_obj_iff members).2 ⟨fun h => ?_, fun m hm => (hmembers m hm).solid⟩
      simp [h] at hvoid

/-- A clean value is not the sentinel. -/
theorem Clean.isUnset_eq_false {v : Json} (h : v.Clean) : isUnset v = false := by
  cases hu : isUnset v with
  | false => rfl
  | true =>
    rw [(isUnset_iff v).1 hu] at h
    have := h.unset_free
    simp [unset, containsUnset, isUnset] at this

/-! ## Stripping -/

/-- Stripping makes no truth value. -/
theorem eq_bool_of_stripUnset {v : Json} {b : Bool} (h : stripUnset v = .bool b) : v = .bool b := by
  cases v <;> simp_all [stripUnset]

theorem mem_stripMembers (members : List (String × Json)) (m : String × Json) :
    m ∈ stripMembers members ↔
      ∃ v, (m.1, v) ∈ members ∧ isUnset v = false ∧ m.2 = stripUnset v := by
  obtain ⟨k, w⟩ := m
  -- By induction on the members; a member that is the sentinel is left out.
  induction members with
  | nil => simp [stripMembers]
  | cons e rest ih =>
    obtain ⟨key, x⟩ := e
    rw [stripMembers]
    cases hx : isUnset x with
    | true =>
      simp only [if_true, ih, List.mem_cons, Prod.mk.injEq]
      constructor
      · rintro ⟨v, hv, hrest⟩
        exact ⟨v, .inr hv, hrest⟩
      · rintro ⟨v, ⟨rfl, rfl⟩ | hv, hplain, hw⟩
        · simp [hx] at hplain
        · exact ⟨v, hv, hplain, hw⟩
    | false =>
      simp only [Bool.false_eq_true, if_false, List.mem_cons, ih, Prod.mk.injEq]
      constructor
      · rintro (⟨rfl, rfl⟩ | ⟨v, hv, hrest⟩)
        · exact ⟨x, .inl ⟨rfl, rfl⟩, hx, rfl⟩
        · exact ⟨v, .inr hv, hrest⟩
      · rintro ⟨v, ⟨rfl, rfl⟩ | hv, hplain, hw⟩
        · exact .inl ⟨rfl, hw⟩
        · exact .inr ⟨v, hv, hplain, hw⟩

theorem mem_stripItems (items : List Json) (w : Json) :
    w ∈ stripItems items ↔ ∃ v ∈ items, isUnset v = false ∧ w = stripUnset v := by
  induction items with
  | nil => simp [stripItems]
  | cons x rest ih =>
    rw [stripItems]
    cases hx : isUnset x with
    | true => simp [ih, hx]
    | false => simp [ih, hx]

/-- An object that is void after stripping was void before, unless a sentinel came about among its
values. -/
theorem isVoid_of_stripMembers {members : List (String × Json)}
    (hvalues : ∀ m ∈ stripMembers members, isUnset m.2 = false)
    (h : isVoid (stripMembers members) = true) : isVoid members = true := by
  rw [isVoid_iff] at h ⊢
  obtain ⟨hmark, hall⟩ := h
  constructor
  · obtain ⟨v, hv, -, hw⟩ := (mem_stripMembers members _).1 hmark
    rwa [eq_bool_of_stripUnset hw.symm] at hv
  · rintro ⟨k, v⟩ hm
    cases hv : isUnset v with
    | true => exact .inr rfl
    | false =>
      have hstripped := (mem_stripMembers members (k, stripUnset v)).2 ⟨v, hm, hv, rfl⟩
      refine (hall _ hstripped).imp id fun hunset => ?_
      simp [hvalues _ hstripped] at hunset

/-- Stripping a solid value that is not the sentinel leaves a clean one. -/
theorem Solid.clean_stripUnset {v : Json} (h : v.Solid) (hplain : isUnset v = false) :
    (stripUnset v).Clean := by
  match v with
  | .null | .bool _ | .int _ | .double _ | .str _ => exact ⟨rfl, rfl⟩
  | .arr items =>
    rw [stripUnset, clean_arr_iff]
    intro w hw
    obtain ⟨x, hx, hu, rfl⟩ := (mem_stripItems items w).1 hw
    exact Solid.clean_stripUnset ((solid_arr_iff items).1 h x hx) hu
  | .obj members =>
    obtain ⟨hvoid, hmembers⟩ := (solid_obj_iff members).1 h
    -- Stripped members are clean by the recursion, which goes down with the size.
    have hvalues : ∀ m ∈ stripMembers members, m.2.Clean := by
      intro m hm
      obtain ⟨x, hx, hu, heq⟩ := (mem_stripMembers members m).1 hm
      rw [heq]
      have hlt : sizeOf x < 1 + sizeOf members := sizeOf_snd_lt_of_mem hx
      exact Solid.clean_stripUnset (hmembers _ hx) hu
    rw [stripUnset, clean_obj_iff]
    refine ⟨?_, hvalues⟩
    -- A member that is a mark can only have come from an object that was one already.
    cases hs : isVoid (stripMembers members) with
    | false => rfl
    | true =>
      have := hvoid (isVoid_of_stripMembers (fun m hm => (hvalues m hm).isUnset_eq_false) hs)
      simp [this] at hplain
termination_by sizeOf v
decreasing_by
  all_goals simp_wf
  · have := List.sizeOf_lt_of_mem hx
    omega
  · assumption

/-! ## Merging -/

@[simp] theorem mergeOver_unset (base : Json) : mergeOver base unset = base := by
  cases base <;> simp [unset, mergeOver, isUnset]

/-- Objects merge member by member; anything else is replaced. -/
theorem mergeOver_cases (base : Json) {v : Json} (h : isUnset v = false) :
    (∃ members above, base = .obj members ∧ v = .obj above ∧
      mergeOver base v = .obj (mergeMembers members above)) ∨
    mergeOver base v = stripUnset v := by
  cases v with
  | obj above =>
    cases base with
    | obj members => exact .inl ⟨members, above, rfl, rfl, by simp [mergeOver, h]⟩
    | _ => exact .inr (by simp [mergeOver, h])
  | _ => exact .inr (by simp [mergeOver])

/-- A truth value that comes of merging is the upper one. -/
theorem eq_bool_of_mergeOver {base v : Json} {b : Bool} (hplain : isUnset v = false)
    (h : mergeOver base v = .bool b) : v = .bool b := by
  rcases mergeOver_cases base hplain with ⟨members, above, -, -, he⟩ | he
  · simp [he] at h
  · exact eq_bool_of_stripUnset (he.symm.trans h)

/-- Merging keeps the keys of both objects. -/
theorem exists_mem_mergeMembers (members : KeyMap String Json) (above : List (String × Json))
    {k : String} {v : Json} (h : (k, v) ∈ members ∨ (k, v) ∈ above ∧ isUnset v = false) :
    ∃ w, (k, w) ∈ mergeMembers members above := by
  induction above generalizing members v with
  | nil =>
    rw [mergeMembers]
    exact ⟨v, h.resolve_right (by simp)⟩
  | cons m rest ih =>
    obtain ⟨key, x⟩ := m
    -- Entering a value at `key` keeps the keys that are there and adds this one.
    have hinsert : isUnset x = false → ∀ y, ∃ w,
        (k, w) ∈ mergeMembers (KeyMap.insert members key y) rest := by
      intro hx y
      rcases h with h | ⟨h, hv⟩
      · by_cases hk : k = key
        · exact ih _ (v := y) (.inl (hk ▸ KeyMap.mem_insert_self members key y))
        · exact ih _ (.inl (KeyMap.mem_insert_of_ne hk h))
      · rcases List.mem_cons.1 h with h | h
        · obtain ⟨rfl, rfl⟩ := Prod.mk.inj h
          exact ih _ (v := y) (.inl (KeyMap.mem_insert_self members k y))
        · exact ih _ (.inr ⟨h, hv⟩)
    rw [mergeMembers]
    split
    · next hx =>
      refine ih _ (v := v) (h.imp id fun ⟨hmem, hv⟩ => ⟨?_, hv⟩)
      refine (List.mem_cons.1 hmem).resolve_left fun he => ?_
      simp [(Prod.mk.inj he).2, hx] at hv
    · next hx =>
      have hx : isUnset x = false := by simpa using hx
      split
      · exact hinsert hx _
      · exact hinsert hx _

/-- A member that comes of merging is one of the lower object, or a member of the upper one,
stripped or laid over a lower value. -/
theorem mem_mergeMembers {P : Json → Prop} {members : KeyMap String Json}
    {above : List (String × Json)}
    (hbelow : ∀ m ∈ members, P m.2)
    (hstrip : ∀ m ∈ above, isUnset m.2 = false → P (stripUnset m.2))
    (hover : ∀ m ∈ above, isUnset m.2 = false → ∀ old, P old → P (mergeOver old m.2)) :
    ∀ m ∈ mergeMembers members above, P m.2 := by
  -- By induction on the members of the upper object, for all lower objects.
  induction above generalizing members with
  | nil => simpa [mergeMembers] using hbelow
  | cons e rest ih =>
    obtain ⟨key, x⟩ := e
    have hrest := fun m (hm : m ∈ rest) => hstrip m (List.mem_cons_of_mem _ hm)
    have hrest' := fun m (hm : m ∈ rest) => hover m (List.mem_cons_of_mem _ hm)
    have hinsert : ∀ y, P y → ∀ m ∈ KeyMap.insert members key y, P m.2 := by
      intro y hy m hm
      rcases KeyMap.mem_insert hm with rfl | hm
      · exact hy
      · exact hbelow m hm
    rw [mergeMembers]
    -- The sentinel leaves the lower object as it is.
    split
    · exact ih hbelow hrest hrest'
    · next hx =>
      have hx : isUnset x = false := by simpa using hx
      split
      -- Under a key that is there the values are laid over each other, under a new one the value is
      -- stripped.
      · next old hold =>
        have hold := hbelow _ (KeyMap.mem_of_find? hold)
        exact ih (hinsert _ (hover _ List.mem_cons_self hx old hold)) hrest hrest'
      · exact ih (hinsert _ (hstrip _ List.mem_cons_self hx)) hrest hrest'

/-- The mark of the sentinel is in one of two objects if it is in what comes of merging them. -/
theorem mark_of_mem_mergeMembers {members : KeyMap String Json} {above : List (String × Json)}
    (h : (unsetKey, .bool true) ∈ mergeMembers members above) :
    (unsetKey, .bool true) ∈ members ∨ (unsetKey, .bool true) ∈ above := by
  induction above generalizing members with
  | nil => rw [mergeMembers] at h; exact .inl h
  | cons e rest ih =>
    obtain ⟨key, x⟩ := e
    -- A mark that is entered at `key` is the upper value there.
    have hinsert : ∀ {y}, (y = .bool true → x = .bool true) →
        (unsetKey, .bool true) ∈ mergeMembers (KeyMap.insert members key y) rest →
        (unsetKey, .bool true) ∈ members ∨ (unsetKey, .bool true) ∈ (key, x) :: rest := by
      intro y hy h
      rcases ih h with h | h
      · rcases KeyMap.mem_insert h with h | h
        · obtain ⟨rfl, hb⟩ := Prod.mk.inj h
          rw [hy hb.symm]
          exact .inr List.mem_cons_self
        · exact .inl h
      · exact .inr (List.mem_cons_of_mem _ h)
    rw [mergeMembers] at h
    split at h
    · exact (ih h).imp id (List.mem_cons_of_mem _)
    · next hx =>
      have hx : isUnset x = false := by simpa using hx
      split at h
      · exact hinsert (eq_bool_of_mergeOver hx) h
      · exact hinsert eq_bool_of_stripUnset h

/-- Two objects of which none is void do not merge into a void one, unless a sentinel came about
among the values. -/
theorem isVoid_mergeMembers {members : KeyMap String Json} {above : List (String × Json)}
    (hvalues : ∀ m ∈ mergeMembers members above, isUnset m.2 = false)
    (hbelow : isVoid members = false) (habove : isVoid above = false) :
    isVoid (mergeMembers members above) = false := by
  cases h : isVoid (mergeMembers members above) with
  | false => rfl
  | true =>
    obtain ⟨hmark, hall⟩ := (isVoid_iff _).1 h
    -- The only key of the merged object is that of the mark.
    have hkey : ∀ {k : String} {v : Json},
        (k, v) ∈ members ∨ (k, v) ∈ above ∧ isUnset v = false → k = unsetKey := by
      intro k v hm
      obtain ⟨w, hw⟩ := exists_mem_mergeMembers members above hm
      exact (hall _ hw).resolve_right (by simp [hvalues _ hw])
    rcases mark_of_mem_mergeMembers hmark with hmark | hmark
    · rw [(isVoid_iff members).2 ⟨hmark, fun m hm => .inl (hkey (.inl hm))⟩] at hbelow
      exact hbelow
    · have hvoid := (isVoid_iff above).2 ⟨hmark, fun m hm => by
        cases hv : isUnset m.2 with
        | true => exact .inr rfl
        | false => exact .inl (hkey (.inr ⟨hm, hv⟩))⟩
      rw [hvoid] at habove
      exact habove

/-- A solid value laid over a clean one gives a clean one. -/
theorem Clean.mergeOver {base v : Json} (hbase : base.Clean) (h : v.Solid) :
    (Json.mergeOver base v).Clean := by
  cases hplain : isUnset v with
  | true =>
    obtain rfl := (isUnset_iff v).1 hplain
    rwa [mergeOver_unset]
  | false =>
    rcases mergeOver_cases base hplain with ⟨members, above, rfl, hv, he⟩ | he
    · obtain ⟨hvoid, hmembers⟩ := (solid_obj_iff above).1 (hv ▸ h)
      obtain ⟨hbelow, hclean⟩ := (clean_obj_iff members).1 hbase
      -- All members are clean by the recursion, which goes down with the size of the upper value.
      have hvalues : ∀ m ∈ mergeMembers members above, m.2.Clean := by
        refine mem_mergeMembers hclean (fun m hm hu => (hmembers m hm).clean_stripUnset hu) ?_
        intro m hm _ old hold
        have hlt : sizeOf m.2 < sizeOf v := by
          rw [hv, obj.sizeOf_spec]
          exact sizeOf_snd_lt_of_mem hm
        exact Clean.mergeOver hold (hmembers m hm)
      rw [he, clean_obj_iff]
      refine ⟨isVoid_mergeMembers (fun m hm => (hvalues m hm).isUnset_eq_false) hbelow ?_, hvalues⟩
      -- An upper object that is a mark stands for the sentinel, which this one is not.
      cases hw : isVoid above with
      | false => rfl
      | true => simp [hv, hvoid hw] at hplain
    · rw [he]
      exact h.clean_stripUnset hplain
termination_by sizeOf v

/-- Solid layers merge into a clean value. -/
theorem clean_mergeLayers {layers : List Json} (h : ∀ l ∈ layers, l.Solid) :
    (mergeLayers layers).Clean := by
  -- By induction on the layers, for whatever has been merged below them.
  have hfold : ∀ below : Option Json, (∀ v, below = some v → v.Clean) →
      ∀ v, layers.foldl mergeLayer below = some v → v.Clean := by
    induction layers with
    | nil => exact fun below hbelow v hv => hbelow v hv
    | cons l rest ih =>
      intro below hbelow
      refine ih (fun l hl => h l (List.mem_cons_of_mem _ hl)) _ ?_
      have hl := h l List.mem_cons_self
      intro v hv
      unfold mergeLayer at hv
      split at hv
      · exact hbelow v hv
      · next hplain =>
        have hplain : isUnset l = false := by simpa using hplain
        split at hv
        · obtain rfl := Option.some.inj hv
          exact hl.clean_stripUnset hplain
        · obtain rfl := Option.some.inj hv
          exact (hbelow _ rfl).mergeOver hl
  rw [mergeLayers]
  cases hv : layers.foldl mergeLayer none with
  | none => exact ⟨rfl, rfl⟩
  | some v => exact hfold none (by simp) v hv

/-! ## When a single layer is clean -/

theorem sorted_stripMembers {members : List (String × Json)} (h : KeyMap.Sorted members) :
    KeyMap.Sorted (stripMembers members) := by
  induction members with
  | nil => exact KeyMap.sorted_nil
  | cons m rest ih =>
    obtain ⟨k, v⟩ := m
    obtain ⟨hhead, htail⟩ := List.pairwise_cons.1 h
    rw [stripMembers]
    split
    · exact ih htail
    · refine List.pairwise_cons.2 ⟨fun e he => ?_, ih htail⟩
      obtain ⟨x, hx, -, -⟩ := (mem_stripMembers rest e).1 he
      exact hhead (e.1, x) hx

/-- Of a void object only the mark is left. -/
theorem stripMembers_eq_mark {members : List (String × Json)} (hsorted : KeyMap.Sorted members)
    (h : isVoid members = true) : stripMembers members = [(unsetKey, .bool true)] := by
  obtain ⟨hmark, hall⟩ := (isVoid_iff members).1 h
  have hmem : (unsetKey, .bool true) ∈ stripMembers members :=
    (mem_stripMembers members _).2 ⟨.bool true, hmark, rfl, rfl⟩
  have hkey : ∀ m ∈ stripMembers members, m.1 = unsetKey := by
    intro m hm
    obtain ⟨v, hv, hplain, -⟩ := (mem_stripMembers members m).1 hm
    exact (hall _ hv).resolve_right (by simp [hplain])
  -- Keys that ascend and are all the same are at most one.
  cases hs : stripMembers members with
  | nil => simp [hs] at hmem
  | cons m rest =>
    have hsorted := sorted_stripMembers hsorted
    rw [hs] at hmem hkey hsorted
    cases rest with
    | nil => rw [List.mem_singleton.1 hmem]
    | cons m' rest =>
      have hlt := List.rel_of_pairwise_cons hsorted (List.mem_cons_self (a := m') (l := rest))
      rw [hkey m List.mem_cons_self, hkey m' (by simp)] at hlt
      exact absurd hlt (String.lt_irrefl _)

/-- A value is solid if stripping it leaves no sentinel. -/
theorem solid_of_stripUnset {v : Json} (hordered : v.Ordered)
    (h : (stripUnset v).containsUnset = false) : v.Solid := by
  match v with
  | .null | .bool _ | .int _ | .double _ | .str _ => rfl
  | .arr items =>
    rw [stripUnset, containsUnset, itemsContainUnset_eq_false] at h
    refine (solid_arr_iff items).2 fun x hx => ?_
    cases hplain : isUnset x with
    | true => exact (isUnset_iff x).1 hplain ▸ solid_unset
    | false =>
      exact solid_of_stripUnset ((ordered_arr_iff items).1 hordered x hx)
        (h _ ((mem_stripItems items _).2 ⟨x, hx, hplain, rfl⟩))
  | .obj members =>
    obtain ⟨hsorted, hmembers⟩ := (ordered_obj_iff members).1 hordered
    rw [stripUnset, containsUnset, Bool.or_eq_false_iff, membersContainUnset_eq_false] at h
    refine (solid_obj_iff members).2 ⟨fun hvoid => ?_, fun m hm => ?_⟩
    -- Stripping a mark would leave the sentinel, against the assumption.
    · have hunset := h.1
      rw [stripMembers_eq_mark hsorted hvoid] at hunset
      exact absurd hunset (by decide)
    · cases hplain : isUnset m.2 with
      | true => exact (isUnset_iff m.2).1 hplain ▸ solid_unset
      | false =>
        have hlt : sizeOf m.2 < 1 + sizeOf members := sizeOf_snd_lt_of_mem hm
        exact solid_of_stripUnset (hmembers m hm)
          (h.2 _ ((mem_stripMembers members (m.1, stripUnset m.2)).2 ⟨m.2, hm, hplain, rfl⟩))
termination_by sizeOf v
decreasing_by
  all_goals simp_wf
  · have := List.sizeOf_lt_of_mem hx
    omega
  · assumption

/-- A single layer merges into a value without sentinels exactly if it is solid. -/
theorem containsUnset_mergeLayers_singleton {l : Json} (h : l.Ordered) :
    (mergeLayers [l]).containsUnset = l.containsHollow := by
  have hmerged : mergeLayers [l] = if isUnset l then .obj [] else stripUnset l := by
    simp only [mergeLayers, List.foldl_cons, List.foldl_nil, mergeLayer]
    split <;> rfl
  -- If the layer is hollow then something is left of it that is hollow, and so the sentinel.
  cases hl : l.containsHollow with
  | false =>
    refine (clean_mergeLayers fun v hv => ?_).unset_free
    rw [List.mem_singleton.1 hv]
    exact hl
  | true =>
    have hplain : isUnset l = false := by
      cases hu : isUnset l with
      | false => rfl
      | true => rw [(isUnset_iff l).1 hu] at hl; exact absurd hl (by decide)
    rw [hmerged, hplain, if_neg Bool.false_ne_true]
    cases hs : (stripUnset l).containsUnset with
    | true => rfl
    | false =>
      have hsolid : l.containsHollow = false := solid_of_stripUnset h hs
      rw [hl] at hsolid
      exact absurd hsolid (by decide)

end Json

/-! ## The cache of a compiler -/

namespace Compiler

/-- Compiles jobs one after the other. -/
def compileAll (c : Compiler) (jobs : List CompileJob) : Compiler :=
  jobs.foldl (fun c job => (c.compile job).2) c

/-- A job with solid layers adds only a clean value. -/
theorem clean_compile {c : Compiler} {job : CompileJob}
    (hcache : ∀ k v, c.get? k = some v → v.Clean) (hlayers : ∀ l ∈ job.layers, l.Solid) :
    ∀ k v, (c.compile job).2.get? k = some v → v.Clean := by
  intro k v hv
  -- A job that lacks a dependency leaves the cache as it is.
  cases hmissing : c.missing job with
  | cons d rest =>
    have hcompile : (c.compile job).2 = { c with failures := c.failures + 1 } := by
      simp only [compile, hmissing]
    rw [hcompile] at hv
    exact hcache k v hv
  | nil =>
    rw [compile_of_missing_nil hmissing] at hv
    have hv : (c.publish job.id (c.merged job)).get? k = some v := hv
    rw [get?_publish] at hv
    split at hv
    · obtain rfl := Option.some.inj hv
      -- The layers are cached values of dependencies, and those of the job.
      refine Json.clean_mergeLayers fun l hl => ?_
      rcases List.mem_append.1 hl with hl | hl
      · obtain ⟨d, -, hd⟩ := List.mem_filterMap.1 hl
        exact (hcache d l hd).solid
      · exact hlayers l hl
    · exact hcache k v hv

/-- Jobs with solid layers leave only clean values in the cache. -/
theorem clean_compileAll {c : Compiler} (jobs : List CompileJob)
    (hcache : ∀ k v, c.get? k = some v → v.Clean)
    (hlayers : ∀ job ∈ jobs, ∀ l ∈ job.layers, l.Solid) :
    ∀ k v, (c.compileAll jobs).get? k = some v → v.Clean := by
  induction jobs generalizing c with
  | nil => exact hcache
  | cons job rest ih =>
    exact ih (clean_compile hcache (hlayers job List.mem_cons_self))
      fun j hj => hlayers j (List.mem_cons_of_mem _ hj)

/-! ## Merge results -/

/-- Where no layer holds a hollow object, merging leaves no sentinel at any depth, and a compiler
caches only values without one. Where the only layer holds one, merging leaves a sentinel, and a
compiler that is new caches it. -/
theorem clean_unless_hollow (layers : List Json) (jobs : List CompileJob) (layer : Json) :
    ((∀ l ∈ layers, l.containsHollow = false) →
      (Json.mergeLayers layers).containsUnset = false) ∧
    ((∀ job ∈ jobs, ∀ l ∈ job.layers, l.containsHollow = false) →
      ∀ k v, (({} : Compiler).compileAll jobs).get? k = some v → v.containsUnset = false) ∧
    (layer.Ordered → layer.containsHollow = true →
      (Json.mergeLayers [layer]).containsUnset = true ∧
      ∀ id, (({} : Compiler).compileAll [{ id, layers := [layer] }]).get? id =
        some (Json.mergeLayers [layer])) := by
  refine ⟨fun h => (Json.clean_mergeLayers h).unset_free, fun h k v hv => ?_,
    fun hordered hl => ⟨?_, fun id => ?_⟩⟩
  · refine (clean_compileAll jobs (fun k v hv => ?_) h k v hv).unset_free
    simp [get?] at hv
  · rw [Json.containsUnset_mergeLayers_singleton hordered, hl]
  · have hmissing : ({} : Compiler).missing { id, layers := [layer] } = [] := rfl
    show (({} : Compiler).compile { id, layers := [layer] }).2.get? id = _
    rw [compile_of_missing_nil hmissing]
    exact (get?_publish _ _ _ _).trans (if_pos rfl)

/-- A member above and a sentinel over it, none of them hollow. -/
theorem clean_unless_hollow_two_layers :
    let below : Json := .obj [("a", .obj [("b", .int 1)])]
    let above : Json := .obj [("a", .obj [("b", Json.unset), ("c", .arr [Json.unset])])]
    (∀ l ∈ [below, above], l.containsHollow = false) ∧
      (Json.mergeLayers [below, above]).containsUnset = false :=
  have hsolid := by decide
  ⟨hsolid, (clean_unless_hollow [_, _] [] .null).1 hsolid⟩

/-- A sentinel beside the mark is removed, and the object around them has become a sentinel. -/
theorem sentinel_of_hollow :
    let inner : Json := .obj [("$unset", .bool true), ("b", Json.unset)]
    let layer : Json := .obj [("a", inner)]
    Json.mergeLayers [layer] = .obj [("a", Json.unset)] ∧
      (Json.mergeLayers [layer]).containsUnset = true ∧
      (({} : Compiler).compileAll [{ id := "n", layers := [layer] }]).get? "n" =
        some (.obj [("a", Json.unset)]) := by
  refine ⟨rfl, by decide, rfl⟩

end Compiler

end LayeredAccess
