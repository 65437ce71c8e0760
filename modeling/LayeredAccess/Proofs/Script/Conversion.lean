/-
  LayeredAccess.Proofs.Script.Conversion

  Nothing is lost on the way from JSON values to the values of scripts
  (`lossless_ofJson`): two values come to one structure just where they are
  equal, what a script finds in a value comes from what stood there, and
  `toJson` leads back.

  Structure (`Identical`) tells the kinds of numbers apart, which the equality
  of scripts does not. It is what can be found at every index and under every
  key, in whatever order entries are listed.
-/
import LayeredAccess.Proofs.Json.Ordered
import LayeredAccess.Script.Value

namespace LayeredAccess.Script.Value

/-! ## Structure -/

/-- Two values are of one structure: of the same kind, and the same wherever something can stand in
them. Where lists and maps were made does not matter, nor does the order of entries. Doubles are
compared as numbers. -/
inductive Identical : Value → Value → Prop
  | null : Identical .null .null
  | bool (b : Bool) : Identical (.bool b) (.bool b)
  | int (n : Int) : Identical (.int n) (.int n)
  | uint (n : Nat) : Identical (.uint n) (.uint n)
  | float {x y : Float} (h : (x == y) = true) : Identical (.float x) (.float y)
  | str (s : String) : Identical (.str s) (.str s)
  | list {p q : Origin} {items others : List Value}
    (h : ∀ i : Nat, Option.Rel Identical (items[i]?) (others[i]?)) :
    Identical (.list p items) (.list q others)
  | map {p q : Origin} {entries others : List (Key × Value)}
    (h : ∀ k, Option.Rel Identical (KeyMap.find? entries k) (KeyMap.find? others k)) :
    Identical (.map p entries) (.map q others)
  | function (name : String) {a b : Value} (h : Identical a b) :
    Identical (.function name a) (.function name b)

/-- Values that hold no double and have no parts. -/
def IsPlain : Value → Prop
  | .null | .bool _ | .int _ | .uint _ | .str _ => True
  | _ => False

variable {x y : Value} {p q : Origin}

/-- A plain value has the structure of no other. -/
theorem identical_iff_eq (hx : x.IsPlain) : Identical x y ↔ x = y := by
  constructor
  · intro h
    cases h with
    | null | bool | int | uint | str => rfl
    | float | list | map | function => exact hx.elim
  · rintro rfl
    cases x with
    | null => exact .null
    | bool b => exact .bool b
    | int n => exact .int n
    | uint n => exact .uint n
    | str s => exact .str s
    | float | list | map | function => exact hx.elim

theorem identical_float_iff {a : Float} :
    Identical (.float a) y ↔ ∃ b, y = .float b ∧ (a == b) = true := by
  constructor
  · intro h
    cases h with
    | float h => exact ⟨_, rfl, h⟩
  · rintro ⟨b, rfl, h⟩
    exact .float h

theorem identical_list_iff {items : List Value} :
    Identical (.list p items) y ↔ ∃ q others, y = .list q others ∧
      ∀ i : Nat, Option.Rel Identical (items[i]?) (others[i]?) := by
  constructor
  · intro h
    cases h with
    | list h => exact ⟨_, _, rfl, h⟩
  · rintro ⟨q, others, rfl, h⟩
    exact .list h

theorem identical_map_iff {entries : List (Key × Value)} :
    Identical (.map p entries) y ↔ ∃ q others, y = .map q others ∧
      ∀ k, Option.Rel Identical (KeyMap.find? entries k) (KeyMap.find? others k) := by
  constructor
  · intro h
    cases h with
    | map h => exact ⟨_, _, rfl, h⟩
  · rintro ⟨q, others, rfl, h⟩
    exact .map h

/-! ## Back to JSON -/

mutual

/-- The JSON value that a value comes from. A function comes from none. -/
def toJson : Value → Json
  | .null => .null
  | .bool b => .bool b
  | .int n => .int n
  | .uint n => .int n
  | .float a => .double a
  | .str s => .str s
  | .list _ items => .arr (toItems items)
  | .map _ entries => .obj (toMembers entries)
  | .function _ _ => .null

/-- The items that values come from. -/
def toItems : List Value → List Json
  | [] => []
  | x :: rest => toJson x :: toItems rest

/-- The members that entries come from. -/
def toMembers : List (Key × Value) → List (String × Json)
  | [] => []
  | (k, x) :: rest => (k.toString, toJson x) :: toMembers rest

end

variable {v w : Json}

/-- An integer is signed or unsigned. -/
theorem ofJson_int_cases (n : Int) :
    (n < signLimit ∧ ofJson (.int n) = .int n) ∨
      (signLimit ≤ n ∧ ofJson (.int n) = .uint n.toNat) := by
  rw [ofJson]
  split
  · next h => exact .inl ⟨h, rfl⟩
  · next h => exact .inr ⟨Int.not_lt.1 h, rfl⟩

mutual

/-- A converted value is read back. -/
theorem toJson_ofJson : ∀ v : Json, (ofJson v).toJson = v
  | .null | .bool _ | .double _ | .str _ => rfl
  | .int n => by
    rcases ofJson_int_cases n with ⟨-, h⟩ | ⟨hn, h⟩
    · rw [h, toJson]
    · rw [h, toJson, Int.toNat_of_nonneg (by omega)]
  | .arr items => by rw [ofJson, toJson, toItems_ofItems items]
  | .obj members => by rw [ofJson, toJson, toMembers_ofMembers members]

theorem toItems_ofItems : ∀ vs : List Json, toItems (ofItems vs) = vs
  | [] => rfl
  | v :: rest => by rw [ofItems, toItems, toJson_ofJson v, toItems_ofItems rest]

theorem toMembers_ofMembers : ∀ vs : List (String × Json), toMembers (ofMembers vs) = vs
  | [] => rfl
  | (k, v) :: rest => by
    rw [ofMembers, toMembers, toJson_ofJson v, toMembers_ofMembers rest, Key.toString]

end

theorem eq_toJson_of_ofJson_eq (h : ofJson v = x) : v = x.toJson := by rw [← h, toJson_ofJson]

/-- Different values come to different values. -/
theorem ofJson_inj : ofJson v = ofJson w ↔ v = w :=
  ⟨fun h => (eq_toJson_of_ofJson_eq h).trans (toJson_ofJson w), congrArg ofJson⟩

/-! ## Kinds -/

/-- Doubles come from doubles only. -/
theorem ofJson_eq_float_iff {a : Float} : ofJson v = .float a ↔ v = .double a :=
  ⟨eq_toJson_of_ofJson_eq, fun h => h ▸ rfl⟩

/-- Signed integers come from those that a word with a sign holds. -/
theorem ofJson_eq_int_iff {n : Int} : ofJson v = .int n ↔ v = .int n ∧ n < signLimit := by
  constructor
  · intro h
    obtain rfl : v = .int n := eq_toJson_of_ofJson_eq h
    rcases ofJson_int_cases n with ⟨hn, -⟩ | ⟨-, hn⟩
    · exact ⟨rfl, hn⟩
    · cases h.symm.trans hn
  · rintro ⟨rfl, hn⟩
    rw [ofJson, if_pos hn]

/-- Unsigned integers come from those beyond it. -/
theorem ofJson_eq_uint_iff {n : Nat} :
    ofJson v = .uint n ↔ v = .int n ∧ (signLimit : Int) ≤ n := by
  constructor
  · intro h
    obtain rfl : v = .int n := eq_toJson_of_ofJson_eq h
    rcases ofJson_int_cases n with ⟨-, hn⟩ | ⟨hn, -⟩
    · cases h.symm.trans hn
    · exact ⟨rfl, hn⟩
  · rintro ⟨rfl, hn⟩
    rw [ofJson, if_neg (Int.not_lt.2 hn), Int.toNat_natCast]

theorem ofJson_eq_list_iff {items : List Value} :
    ofJson v = .list p items ↔ p = [] ∧ ∃ vs, v = .arr vs ∧ items = ofItems vs := by
  constructor
  · intro h
    obtain rfl : v = .arr (toItems items) := eq_toJson_of_ofJson_eq h
    obtain ⟨hp, hitems⟩ := list.inj h
    exact ⟨hp.symm, _, rfl, hitems.symm⟩
  · rintro ⟨rfl, vs, rfl, rfl⟩
    rfl

theorem ofJson_eq_map_iff {entries : List (Key × Value)} :
    ofJson v = .map p entries ↔ p = [] ∧ ∃ vs, v = .obj vs ∧ entries = ofMembers vs := by
  constructor
  · intro h
    obtain rfl : v = .obj (toMembers entries) := eq_toJson_of_ofJson_eq h
    obtain ⟨hp, hentries⟩ := map.inj h
    exact ⟨hp.symm, _, rfl, hentries.symm⟩
  · rintro ⟨rfl, vs, rfl, rfl⟩
    rfl

/-! ## Finding -/

theorem ofItems_eq_map (vs : List Json) : ofItems vs = vs.map ofJson := by
  induction vs with
  | nil => rfl
  | cons v rest ih => rw [ofItems, ih, List.map_cons]

theorem find?_ofMembers_str (vs : List (String × Json)) (s : String) :
    KeyMap.find? (ofMembers vs) (.str s) = (KeyMap.find? vs s).map ofJson := by
  induction vs with
  | nil => rfl
  | cons m rest ih =>
    obtain ⟨key, v⟩ := m
    rw [ofMembers, KeyMap.find?_cons, KeyMap.find?_cons, ih]
    by_cases h : key = s <;> simp [h]

/-- Members have no other keys. -/
theorem find?_ofMembers_eq_none (vs : List (String × Json)) {k : Key} (hk : ∀ s, k ≠ .str s) :
    KeyMap.find? (ofMembers vs) k = none := by
  induction vs with
  | nil => rfl
  | cons m rest ih =>
    obtain ⟨key, v⟩ := m
    rw [ofMembers, KeyMap.find?_cons, if_neg (hk key).symm, ih]

/-! ## Equality -/

theorem rel_map_iff {R : Value → Value → Prop} (a b : Option Json) :
    Option.Rel R (a.map ofJson) (b.map ofJson) ↔
      Option.Rel (fun v w => R (ofJson v) (ofJson w)) a b := by
  cases a <;> cases b <;> simp

/-- Converted members are related under every key just where they are under every text. -/
theorem rel_find?_ofMembers_iff {R : Value → Value → Prop} (vs ws : List (String × Json)) :
    (∀ k, Option.Rel R (KeyMap.find? (ofMembers vs) k) (KeyMap.find? (ofMembers ws) k)) ↔
      ∀ s, Option.Rel (fun v w => R (ofJson v) (ofJson w)) (KeyMap.find? vs s)
        (KeyMap.find? ws s) := by
  constructor
  · intro h s
    have hs := h (.str s)
    rwa [find?_ofMembers_str, find?_ofMembers_str, rel_map_iff] at hs
  · intro h k
    cases k with
    | str s =>
      rw [find?_ofMembers_str, find?_ofMembers_str, rel_map_iff]
      exact h s
    | int | uint | bool =>
      rw [find?_ofMembers_eq_none vs (by simp), find?_ofMembers_eq_none ws (by simp)]
      exact .none

/-- Two lists are related at every index just where the first items are, and the rests are. -/
theorem rel_getElem?_cons_iff {R : Value → Value → Prop} {items others : List Value} :
    (∀ i : Nat, Option.Rel R ((x :: items)[i]?) ((y :: others)[i]?)) ↔
      R x y ∧ ∀ i : Nat, Option.Rel R (items[i]?) (others[i]?) := by
  constructor
  · intro h
    exact ⟨Option.rel_some_some.1 (h 0), fun i => h (i + 1)⟩
  · rintro ⟨hfirst, hrest⟩ (_ | i)
    · exact .some hfirst
    · exact hrest i

theorem isPlain_ofJson_int (n : Int) : (ofJson (.int n)).IsPlain := by
  rcases ofJson_int_cases n with ⟨-, h⟩ | ⟨-, h⟩ <;> rw [h] <;> trivial

/-- For plain values all equalities are one. -/
theorem identical_ofJson_iff_of_isPlain (hv : (ofJson v).IsPlain) :
    Identical (ofJson v) (ofJson w) ↔ Json.same v w = true := by
  rw [identical_iff_eq hv, ofJson_inj]
  cases v with
  | null | bool | int | str => cases w <;> simp [Json.same]
  | double | arr | obj => exact hv.elim

mutual

/-- Values come to one structure just where they are equal. -/
theorem identical_ofJson_iff : ∀ {v w : Json}, v.Ordered → w.Ordered →
    (Identical (ofJson v) (ofJson w) ↔ Json.same v w = true)
  | .null, _, _, _ => identical_ofJson_iff_of_isPlain (v := .null) trivial
  | .bool b, _, _, _ => identical_ofJson_iff_of_isPlain (v := .bool b) trivial
  | .int n, _, _, _ => identical_ofJson_iff_of_isPlain (isPlain_ofJson_int n)
  | .str s, _, _, _ => identical_ofJson_iff_of_isPlain (v := .str s) trivial
  | .double a, w, _, _ => by
    rw [ofJson, identical_float_iff]
    constructor
    · rintro ⟨b, hb, hab⟩
      obtain rfl := ofJson_eq_float_iff.1 hb
      exact hab
    · intro h
      cases w with
      | double b => exact ⟨b, rfl, h⟩
      | _ => cases h
  | .arr items, w, hv, hw => by
    rw [ofJson, identical_list_iff]
    constructor
    · rintro ⟨q, others, hothers, hrel⟩
      -- Only an array comes to a list, so that `w` is one as well.
      obtain ⟨-, ws, rfl, rfl⟩ := ofJson_eq_list_iff.1 hothers
      exact (rel_ofItems_iff hv hw).1 hrel
    · intro h
      cases w with
      | arr ws => exact ⟨[], ofItems ws, rfl, (rel_ofItems_iff hv hw).2 h⟩
      | _ => cases h
  | .obj members, w, hv, hw => by
    rw [ofJson, identical_map_iff]
    constructor
    · rintro ⟨q, others, hothers, hrel⟩
      obtain ⟨-, ws, rfl, rfl⟩ := ofJson_eq_map_iff.1 hothers
      -- Keys of scripts have no order. Texts have, and there both lists are sorted.
      rw [rel_find?_ofMembers_iff] at hrel
      exact (rel_members_iff hv.1 hw.1 hv.2 hw.2).1 hrel
    · intro h
      cases w with
      | obj ws =>
        refine ⟨[], ofMembers ws, rfl, (rel_find?_ofMembers_iff members ws).2 ?_⟩
        exact (rel_members_iff hv.1 hw.1 hv.2 hw.2).2 h
      | _ => cases h

/-- Items come to one structure at every index just where the lists are equal. -/
theorem rel_ofItems_iff : ∀ {vs ws : List Json}, Json.ItemsOrdered vs → Json.ItemsOrdered ws →
    ((∀ i : Nat, Option.Rel Identical ((ofItems vs)[i]?) ((ofItems ws)[i]?)) ↔
      Json.sameItems vs ws = true)
  | [], [], _, _ => ⟨fun _ => rfl, fun _ _ => .none⟩
  -- Where one list ends, the other has nothing more either.
  | [], w :: ws, _, _ => ⟨fun h => by simpa [ofItems] using h 0, nofun⟩
  | v :: vs, [], _, _ => ⟨fun h => by simpa [ofItems] using h 0, nofun⟩
  | v :: vs, w :: ws, hv, hw => by
    rw [ofItems, ofItems, rel_getElem?_cons_iff, identical_ofJson_iff hv.1 hw.1,
      rel_ofItems_iff hv.2 hw.2, Json.sameItems, Bool.and_eq_true]

/-- Members come to one structure under every text just where the lists are equal. -/
theorem rel_members_iff : ∀ {vs ws : List (String × Json)}, KeyMap.Sorted vs → KeyMap.Sorted ws →
    Json.MembersOrdered vs → Json.MembersOrdered ws →
      ((∀ s, Option.Rel (fun v w => Identical (ofJson v) (ofJson w)) (KeyMap.find? vs s)
        (KeyMap.find? ws s)) ↔ Json.sameMembers vs ws = true)
  | [], [], _, _, _, _ => ⟨fun _ => rfl, fun _ _ => .none⟩
  | [], (k, _) :: _, _, _, _, _ => ⟨fun h => by simpa [KeyMap.find?_cons] using h k, nofun⟩
  | (k, _) :: _, [], _, _, _, _ => ⟨fun h => by simpa [KeyMap.find?_cons] using h k, nofun⟩
  | (k, v) :: vs, (l, w) :: ws, hvs, hws, hv, hw => by
    have hvs' := (List.pairwise_cons.1 hvs).2
    have hws' := (List.pairwise_cons.1 hws).2
    rw [KeyMap.rel_find?_cons_iff hvs hws, identical_ofJson_iff hv.1 hw.1,
      rel_members_iff hvs' hws' hv.2 hw.2, Json.sameMembers, Bool.and_eq_true, Bool.and_eq_true,
      beq_iff_eq]

end

theorem sameItems_eq_beq (vs ws : List Json) : Json.sameItems vs ws = (vs == ws) := by
  induction vs generalizing ws with
  | nil => cases ws <;> rfl
  | cons v vs ih =>
    cases ws with
    | nil => rfl
    | cons w ws =>
      rw [Json.sameItems, ih]
      rfl

/-! ## What scripts find -/

/-- The value that a list has at an index. -/
def item? : Value → Nat → Option Value
  | .list _ items, i => items[i]?
  | _, _ => none

/-- The value that a map has under a key. -/
def valueAt? : Value → Key → Option Value
  | .map _ entries, k => lookup? entries k
  | _, _ => none

theorem item?_ofJson (v : Json) (i : Nat) :
    (ofJson v).item? i = (v.asArray?.bind (·[i]?)).map ofJson := by
  cases v with
  | arr items => simp [ofJson, item?, Json.asArray?, ofItems_eq_map]
  | int n => rcases ofJson_int_cases n with ⟨-, h⟩ | ⟨-, h⟩ <;> rw [h] <;> rfl
  | _ => rfl

theorem lookup?_ofMembers_str (vs : List (String × Json)) (s : String) :
    lookup? (ofMembers vs) (.str s) = (KeyMap.find? vs s).map ofJson := by
  rw [lookup?, find?_ofMembers_str]
  cases KeyMap.find? vs s <;> rfl

/-- Scripts find members under texts only. -/
theorem lookup?_ofMembers_eq_none (vs : List (String × Json)) {k : Key} (hk : ∀ s, k ≠ .str s) :
    lookup? (ofMembers vs) k = none := by
  -- An integer key is looked for with the other sign too, and that is an integer again.
  have hother : ∀ j ∈ k.otherSign?, KeyMap.find? (ofMembers vs) j = none := by
    intro j hj
    refine find?_ofMembers_eq_none vs ?_
    rintro s rfl
    cases k <;> simp [Key.otherSign?] at hj
  rw [lookup?, find?_ofMembers_eq_none vs hk]
  exact Option.bind_eq_none_iff.2 hother

theorem valueAt?_ofJson_str (v : Json) (s : String) :
    (ofJson v).valueAt? (.str s) = (v.member? s).map ofJson := by
  cases v with
  | obj members => exact lookup?_ofMembers_str members s
  | int n => rcases ofJson_int_cases n with ⟨-, h⟩ | ⟨-, h⟩ <;> rw [h] <;> rfl
  | _ => rfl

theorem valueAt?_ofJson_eq_none (v : Json) {k : Key} (hk : ∀ s, k ≠ .str s) :
    (ofJson v).valueAt? k = none := by
  cases v with
  | obj members => exact lookup?_ofMembers_eq_none members hk
  | int n => rcases ofJson_int_cases n with ⟨-, h⟩ | ⟨-, h⟩ <;> rw [h] <;> rfl
  | _ => rfl

/-! ## Nothing is lost -/

/-- Scripts can tell of two values and of two lists of arguments whatever there is to tell. -/
structure Lossless (v w : Json) (args others : List Json) : Prop where
  /-- Values come to one structure just where they are equal. -/
  equal : Identical (ofJson v) (ofJson w) ↔ (v == w) = true
  equalArgs : Identical (ofArgs args) (ofArgs others) ↔ (args == others) = true
  /-- The value can be read back, with what equality passes over, such as the sign of a zero. -/
  back : (ofJson v).toJson = v
  backArgs : (ofArgs args).toJson = .arr args
  /-- The integers of a word with a sign have one. -/
  signed : ∀ n, ofJson v = .int n ↔ v = .int n ∧ n < signLimit
  /-- Those beyond it have none. -/
  unsigned : ∀ n : Nat, ofJson v = .uint n ↔ v = .int n ∧ (signLimit : Int) ≤ n
  double : ∀ a, ofJson v = .float a ↔ v = .double a
  /-- At an index stands what stood there, and nothing else. -/
  item : ∀ i : Nat, (ofJson v).item? i = (v.asArray?.bind (·[i]?)).map ofJson
  argument : ∀ i : Nat, (ofArgs args).item? i = (args[i]?).map ofJson
  /-- Under a text stands what stood there, and under no other key is anything. -/
  member : ∀ s, (ofJson v).valueAt? (.str s) = (v.member? s).map ofJson
  foreign : ∀ k, (∀ s, k ≠ .str s) → (ofJson v).valueAt? k = none

/-- Nothing is lost where values and arguments are converted for scripts. -/
theorem lossless_ofJson {args others : List Json} (hv : v.Ordered) (hw : w.Ordered)
    (hargs : ∀ a ∈ args, a.Ordered) (hothers : ∀ a ∈ others, a.Ordered) :
    Lossless v w args others where
  equal := identical_ofJson_iff hv hw
  equalArgs := by
    rw [← sameItems_eq_beq]
    exact identical_ofJson_iff (v := .arr args) (w := .arr others)
      ((Json.ordered_arr_iff args).2 hargs) ((Json.ordered_arr_iff others).2 hothers)
  back := toJson_ofJson v
  backArgs := toJson_ofJson (.arr args)
  signed _ := ofJson_eq_int_iff
  unsigned _ := ofJson_eq_uint_iff
  double _ := ofJson_eq_float_iff
  item := item?_ofJson v
  argument := item?_ofJson (.arr args)
  member := valueAt?_ofJson_str v
  foreign _ := valueAt?_ofJson_eq_none v

/-- Integers on both sides of the sign, and one number as an integer and as a double. -/
theorem lossless_ofJson_numbers :
    let limits : Json := .arr [.int 9223372036854775807, .int 9223372036854775808]
    let v : Json := .obj [("limits", limits), ("share", .int 1)]
    let w : Json := .obj [("limits", limits), ("share", .double 1.0)]
    (v.Ordered ∧ w.Ordered ∧ ∀ a ∈ [limits, w], a.Ordered) ∧ Lossless v w [limits, w] [limits] ∧
      ¬ Identical (ofJson v) (ofJson w) := by
  intro limits v w
  have hordered : v.Ordered ∧ w.Ordered ∧ ∀ a ∈ [limits, w], a.Ordered := by decide
  have hlossless : Lossless v w [limits, w] [limits] :=
    lossless_ofJson hordered.1 hordered.2.1 hordered.2.2 (by decide)
  refine ⟨hordered, hlossless, fun h => ?_⟩
  -- The shares are one number, but of two kinds.
  have hequal : (v == w) = true := hlossless.equal.1 h
  exact Bool.noConfusion hequal

end LayeredAccess.Script.Value
