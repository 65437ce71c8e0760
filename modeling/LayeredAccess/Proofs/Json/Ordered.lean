/-
  LayeredAccess.Proofs.Json.Ordered

  Values whose objects list their members in key order, at every depth. Such an
  object holds no key twice and is determined by what is found in it.

  Every value that is read from a text is ordered (`ordered_of_parse`), and what
  puts values together keeps them so.
-/
import LayeredAccess.Json.Parser
import LayeredAccess.Proofs.KeyMap

namespace LayeredAccess.Json

mutual

/-- Do the keys of the members ascend in every object of a value? -/
def Ordered : Json → Prop
  | .obj members => KeyMap.Sorted members ∧ MembersOrdered members
  | .arr items => ItemsOrdered items
  | _ => True

/-- Do the keys ascend in all the values? -/
def ItemsOrdered : List Json → Prop
  | [] => True
  | v :: rest => v.Ordered ∧ ItemsOrdered rest

/-- Do the keys ascend in the values of all the members? -/
def MembersOrdered : List (String × Json) → Prop
  | [] => True
  | (_, v) :: rest => v.Ordered ∧ MembersOrdered rest

end

mutual

/-- Whether a value is ordered can be computed. -/
def decidableOrdered : (v : Json) → Decidable v.Ordered
  | .obj members =>
    @instDecidableAnd _ _
      (inferInstanceAs (Decidable (List.Pairwise (fun a b => a.1 < b.1) members)))
      (decidableMembersOrdered members)
  | .arr items => decidableItemsOrdered items
  | .null | .bool _ | .int _ | .double _ | .str _ => .isTrue trivial

def decidableItemsOrdered : (items : List Json) → Decidable (ItemsOrdered items)
  | [] => .isTrue trivial
  | v :: rest => @instDecidableAnd _ _ (decidableOrdered v) (decidableItemsOrdered rest)

def decidableMembersOrdered : (members : List (String × Json)) → Decidable (MembersOrdered members)
  | [] => .isTrue trivial
  | (_, v) :: rest => @instDecidableAnd _ _ (decidableOrdered v) (decidableMembersOrdered rest)

end

instance : DecidablePred Ordered := decidableOrdered

theorem ordered_arr_iff (items : List Json) : (arr items).Ordered ↔ ∀ v ∈ items, v.Ordered := by
  rw [Ordered]
  induction items with
  | nil => simp [ItemsOrdered]
  | cons v rest ih => simp [ItemsOrdered, ih]

theorem ordered_obj_iff (members : List (String × Json)) :
    (obj members).Ordered ↔ KeyMap.Sorted members ∧ ∀ m ∈ members, m.2.Ordered := by
  have hmembers : MembersOrdered members ↔ ∀ m ∈ members, m.2.Ordered := by
    induction members with
    | nil => simp [MembersOrdered]
    | cons m rest ih => rw [MembersOrdered, ih, List.forall_mem_cons]
  rw [Ordered, hmembers]

/-- What is found in an ordered object is ordered. -/
theorem Ordered.of_find? {members : KeyMap String Json} (h : (obj members).Ordered) {k : String}
    {v : Json} (hv : KeyMap.find? members k = some v) : v.Ordered :=
  ((ordered_obj_iff members).1 h).2 (k, v) (KeyMap.mem_of_find? hv)

/-- Setting a member keeps an object ordered. -/
theorem Ordered.insert {members : KeyMap String Json} (h : (obj members).Ordered) (k : String)
    {v : Json} (hv : v.Ordered) : (obj (KeyMap.insert members k v)).Ordered := by
  obtain ⟨hsorted, hmembers⟩ := (ordered_obj_iff members).1 h
  refine (ordered_obj_iff _).2 ⟨KeyMap.sorted_insert k v hsorted, fun m hm => ?_⟩
  rcases KeyMap.mem_insert hm with rfl | hm
  · exact hv
  · exact hmembers m hm

theorem ordered_obj_nil : (obj []).Ordered :=
  (ordered_obj_iff []).2 ⟨KeyMap.sorted_nil, by simp⟩

/-- An object that is made of members in any order is ordered. -/
theorem ordered_mkObj {members : List (String × Json)} (h : ∀ m ∈ members, m.2.Ordered) :
    (mkObj members).Ordered := by
  have hfold : ∀ {done : KeyMap String Json}, (obj done).Ordered →
      (obj (members.foldl (fun m e => KeyMap.insert m e.1 e.2) done)).Ordered := by
    induction members with
    | nil => exact fun hdone => hdone
    | cons m rest ih =>
      intro done hdone
      have hrest := fun e he => h e (List.mem_cons_of_mem _ he)
      exact ih hrest (hdone.insert m.1 (h m List.mem_cons_self))
  exact hfold ordered_obj_nil

/-! ## Values that are read -/

/-- The value of a number has no members. -/
theorem ordered_of_value {l : NumberLiteral} {v : Json} (h : l.value = some v) : v.Ordered := by
  have hmap : ∀ {x : Option Float} {signed : Float → Json}, (∀ y, (signed y).Ordered) →
      x.map signed = some v → v.Ordered := by
    intro x signed hsigned hx
    obtain ⟨y, -, rfl⟩ := Option.map_eq_some_iff.1 hx
    exact hsigned y
  -- With or without a sign a double is a double; which one does not matter here.
  unfold NumberLiteral.value at h
  extract_lets signed at h
  have hsigned : ∀ y, (signed y).Ordered := fun _ => trivial
  clear_value signed
  split at h
  · dsimp only at h
    split at h
    · split at h
      · exact Option.some.inj h ▸ hsigned _
      · split at h
        · exact Option.some.inj h ▸ trivial
        · exact hmap hsigned h
    · split at h
      · exact Option.some.inj h ▸ trivial
      · exact hmap hsigned h
  · dsimp only at h
    split at h
    · exact hmap hsigned h
    · split at h
      · exact hmap hsigned h
      · split at h
        · cases h
        · exact Option.some.inj h ▸ hsigned _

/-- The value of a token, if it has one, is ordered. -/
def Token.Ordered : Token → Prop
  | .number v => ∀ w ∈ v, w.Ordered
  | _ => True

theorem ordered_nextToken {c : Char} {rest rest' : List Char} {t : Token}
    (h : nextToken c rest = some (t, rest')) : t.Ordered := by
  have hword : ∀ (t' : Token) {o : Option (List Char)}, t'.Ordered →
      o.map (t', ·) = some (t, rest') → t.Ordered := by
    intro t' o ht' ho
    obtain ⟨cs, -, heq⟩ := Option.map_eq_some_iff.1 ho
    cases heq
    exact ht'
  have hnumber : ∀ {o : Option (NumberLiteral × List Char)},
      (o.map fun p => (Token.number p.1.value, p.2)) = some (t, rest') → t.Ordered := by
    intro o ho
    obtain ⟨p, -, heq⟩ := Option.map_eq_some_iff.1 ho
    cases heq
    exact fun v hv => ordered_of_value hv
  unfold nextToken at h
  -- Only numbers carry values; words and texts are ordered as they are.
  split at h
  case h_7 => exact hword .null trivial h
  case h_8 => exact hword (.bool true) trivial h
  case h_9 => exact hword (.bool false) trivial h
  case h_10 =>
    obtain ⟨p, -, heq⟩ := Option.map_eq_some_iff.1 h
    cases heq
    trivial
  case h_11 | h_12 => exact hnumber h
  all_goals
    cases h
    trivial

theorem ordered_tokens {cs : List Char} {ts : List Token} (h : tokens cs = some ts) :
    ∀ t ∈ ts, t.Ordered := by
  -- By the recursion of the tokeniser, with one token less each time.
  induction cs using tokens.induct generalizing ts with
  | case1 =>
    rw [tokens] at h
    cases h
    nofun
  | case2 c rest hblank ih =>
    rw [tokens, if_pos hblank] at h
    exact ih h
  | case3 c rest hblank hnext =>
    rw [tokens, if_neg hblank, hnext] at h
    cases h
  | case4 c rest hblank t rest' hnext hshorter ih =>
    rw [tokens, if_neg hblank, hnext] at h
    simp only [if_pos hshorter] at h
    obtain ⟨ts', hts', rfl⟩ := Option.map_eq_some_iff.1 h
    exact List.forall_mem_cons.2 ⟨ordered_nextToken hnext, ih hts'⟩
  | case5 c rest hblank t rest' hnext hshorter =>
    rw [tokens, if_neg hblank, hnext] at h
    simp only [if_neg hshorter] at h
    cases h

/-- What an open container has so far is ordered. -/
def Frame.Ordered : Frame → Prop
  | .items done => ∀ v ∈ done, v.Ordered
  | .members done _ => (obj done).Ordered

/-- What is carried to the next token is ordered. -/
def Expected.Ordered : Expected → Prop
  | .value | .valueOrEnd => True
  | .keyOrEnd done | .key done | .colon done _ => (obj done).Ordered
  | .separator v => v.Ordered

variable {mode : Mode} {stack stack' : List Frame} {t : Token} {e e' : Expected}

theorem ordered_scalar? {v : Json} (ht : t.Ordered) (h : scalar? mode t = some v) :
    v.Ordered := by
  cases t with
  | null | bool =>
    cases h
    trivial
  -- A number has been read already, or it is left out and stands for null.
  | number w =>
    cases mode with
    | keep limit => exact ht v h
    | skip =>
      cases w with
      | none =>
        cases h
        trivial
      | some w =>
        cases h
        exact ht _ rfl
  | string =>
    obtain ⟨s, -, rfl⟩ := Option.map_eq_some_iff.1 h
    trivial
  | _ => cases h

theorem ordered_startValue (hstack : ∀ f ∈ stack, f.Ordered) (ht : t.Ordered)
    (h : startValue mode stack t = some (stack', e)) :
    (∀ f ∈ stack', f.Ordered) ∧ e.Ordered := by
  unfold startValue at h
  split at h
  · split at h
    · cases h
      exact ⟨List.forall_mem_cons.2 ⟨fun v hv => absurd hv List.not_mem_nil, hstack⟩, trivial⟩
    · cases h
  · split at h
    · cases h
      exact ⟨hstack, ordered_obj_nil⟩
    · cases h
  · obtain ⟨v, hv, heq⟩ := Option.map_eq_some_iff.1 h
    cases heq
    exact ⟨hstack, ordered_scalar? ht hv⟩

/-- One token leaves ordered what has been read. -/
theorem ordered_readToken (hstack : ∀ f ∈ stack, f.Ordered) (he : e.Ordered) (ht : t.Ordered)
    (h : readToken mode stack e t = some (stack', e')) :
    (∀ f ∈ stack', f.Ordered) ∧ e'.Ordered := by
  unfold readToken at h
  -- A token begins a value, ends one, or is a separator or a key.
  split at h
  case h_1 => exact ordered_startValue hstack ht h
  case h_2 =>
    split at h
    · cases h
      obtain ⟨hdone, hrest⟩ := List.forall_mem_cons.1 hstack
      exact ⟨hrest, (ordered_arr_iff _).2 fun v hv => hdone v (List.mem_reverse.1 hv)⟩
    · cases h
  case h_3 => exact ordered_startValue hstack ht h
  case h_4 =>
    cases h
    exact ⟨hstack, he⟩
  case h_5 | h_6 =>
    obtain ⟨k, -, heq⟩ := Option.map_eq_some_iff.1 h
    cases heq
    exact ⟨hstack, he⟩
  case h_7 =>
    cases h
    exact ⟨List.forall_mem_cons.2 ⟨he, hstack⟩, trivial⟩
  -- A finished value goes into the list or the object that it belongs to.
  case h_8 v =>
    have hv : v.Ordered := he
    split at h
    · cases h
      obtain ⟨hdone, hrest⟩ := List.forall_mem_cons.1 hstack
      exact ⟨List.forall_mem_cons.2 ⟨List.forall_mem_cons.2 ⟨hv, hdone⟩, hrest⟩, trivial⟩
    · cases h
      obtain ⟨hdone, hrest⟩ := List.forall_mem_cons.1 hstack
      refine ⟨hrest, (ordered_arr_iff _).2 fun w hw => ?_⟩
      exact List.forall_mem_cons.2 ⟨hv, hdone⟩ w (List.mem_reverse.1 hw)
    · cases h
      obtain ⟨hdone, hrest⟩ := List.forall_mem_cons.1 hstack
      exact ⟨hrest, Ordered.insert hdone _ hv⟩
    · cases h
      obtain ⟨hdone, hrest⟩ := List.forall_mem_cons.1 hstack
      exact ⟨hrest, Ordered.insert hdone _ hv⟩
    · cases h
  case h_9 => cases h

/-- Reading on from what is ordered gives an ordered value. -/
theorem ordered_readUntilComplete {ts rest : List Token} {v : Json}
    (hstack : ∀ f ∈ stack, f.Ordered) (he : e.Ordered) (hts : ∀ t ∈ ts, t.Ordered)
    (h : readUntilComplete mode stack e ts = some (v, rest)) : v.Ordered := by
  have hcompleted : ∀ {stack : List Frame} {e : Expected} {w : Json},
      e.Ordered → completed? stack e = some w → w.Ordered := by
    intro stack e w he hw
    unfold completed? at hw
    split at hw
    · cases hw
      exact he
    · cases hw
  -- By induction on the tokens, for all stacks, until the value is complete.
  induction ts generalizing stack e with
  | nil =>
    obtain ⟨w, hw, heq⟩ := Option.map_eq_some_iff.1 h
    cases heq
    exact hcompleted he hw
  | cons t ts ih =>
    rw [readUntilComplete] at h
    split at h
    · next w hw =>
      cases h
      exact hcompleted he hw
    · split at h
      · cases h
      · next hread =>
        obtain ⟨ht, hts⟩ := List.forall_mem_cons.1 hts
        obtain ⟨hstack, he⟩ := ordered_readToken hstack he ht hread
        exact ih hstack he hts h

/-- Every value that is read from a text is ordered. -/
theorem ordered_of_parse {text : String} {v : Json} (h : parse text = some v) : v.Ordered := by
  obtain ⟨ts, hts, h⟩ := Option.bind_eq_some_iff.1 h
  obtain ⟨⟨w, rest⟩, hread, h⟩ := Option.bind_eq_some_iff.1 h
  have hw : w.Ordered := by
    have hvalue : Expected.value.Ordered := trivial
    exact ordered_readUntilComplete (by simp) hvalue (ordered_tokens hts) hread
  cases rest with
  | nil =>
    cases h
    exact hw
  | cons t rest => cases h

end LayeredAccess.Json
