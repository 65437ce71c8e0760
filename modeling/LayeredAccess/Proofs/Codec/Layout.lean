/-
  LayeredAccess.Proofs.Codec.Layout

  Records that are stable. A record type is laid out in fields (`Layout`): each
  says how it is read, where the record keeps it, and what is written for it. If
  every field is stable (`Layout.Stable`), so is the record (`Layout.stable`),
  whether it is read from an object or from an array.

  Reading sets the fields one after the other, so in a record that has been read
  each field holds its initial value or one that its decoder has given
  (`Layout.given_of_decode`). Such values are kept. Writing a record whose values
  are kept leaves out only fields that hold their initial value and need not be
  given, so what is written leads back to the record from the initial one
  (`Layout.keeps_of_sound`).
-/
import LayeredAccess.Proofs.Codec.Stable
import Mathlib.Data.List.Pairwise

namespace LayeredAccess.Codec

open Decode Encode

variable {ρ α : Type}

/-- A field of a record. -/
structure Field (ρ : Type) where
  {Value : Type}
  name : String
  /-- Must the field be given? -/
  required : Bool
  decode : Decoder Value
  get : ρ → Value
  set : Value → ρ → ρ
  /-- The member that is written for a value, if there is one. -/
  write : Value → Option (String × Json)
  named : ∀ {a m}, write a = some m → m.1 = name

namespace Field

/-- A field that is always written. -/
def always (name : String) (required : Bool) (decode : Decoder α) (encode : α → Json)
    (get : ρ → α) (set : α → ρ → ρ) : Field ρ where
  name
  required
  decode
  get
  set
  write a := Encode.always name (encode a)
  named := by
    intro a m hm
    obtain rfl := Option.some.inj hm
    rfl

/-- A field that is written where it has a value. -/
def present (name : String) (decode : Decoder α) (encode : α → Json) (get : ρ → Option α)
    (set : Option α → ρ → ρ) : Field ρ where
  name
  required := false
  decode := optional decode
  get
  set
  write := Encode.present name encode
  named := by
    intro a m hm
    obtain ⟨x, -, rfl⟩ := Option.map_eq_some_iff.1 hm
    rfl

/-- A list that is written where it has items. -/
def nonempty (name : String) (decode : Decoder α) (encode : α → Json) (get : ρ → List α)
    (set : List α → ρ → ρ) : Field ρ where
  name
  required := false
  decode := list decode
  get
  set
  write := Encode.nonempty name encode
  named := by
    intro xs m hm
    rw [Encode.nonempty] at hm
    split at hm
    · cases hm
    · obtain rfl := Option.some.inj hm
      rfl

/-- How the field is read. -/
def slot (f : Field ρ) : Slot ρ := ⟨f.name, f.required, fun v => (f.decode v).map f.set⟩

/-- The member that is written for a record's value of the field. -/
def member (f : Field ρ) (r : ρ) : Option (String × Json) := f.write (f.get r)

/-- Two fields have different names, and setting one leaves the other alone. -/
structure Apart (f g : Field ρ) : Prop where
  name : f.name ≠ g.name
  get_set : ∀ a r, g.get (f.set a r) = g.get r
  set_get : ∀ a r, f.get (g.set a r) = f.get r

theorem apart_iff {f g : Field ρ} : f.Apart g ↔
    f.name ≠ g.name ∧ (∀ a r, g.get (f.set a r) = g.get r) ∧ ∀ a r, f.get (g.set a r) = f.get r :=
  ⟨fun h => ⟨h.name, h.get_set, h.set_get⟩, fun ⟨hname, hget, hset⟩ => ⟨hname, hget, hset⟩⟩

instance : Std.Symm (@Apart ρ) :=
  ⟨fun _ _ h => ⟨h.name.symm, h.set_get, h.get_set⟩⟩

/-- The value is the initial one, or one that the decoder makes of a value in key order. -/
def Given (f : Field ρ) (initial : ρ) (a : f.Value) : Prop :=
  a = f.get initial ∨ ∃ v : Json, v.Ordered ∧ f.decode v = .ok a

/-- What is written for a value is read back as the value, and where nothing is written the value
is the one that the field has if it is not given. -/
structure Kept (f : Field ρ) (initial : ρ) (a : f.Value) : Prop where
  written : ∀ {m}, f.write a = some m → m.2.Ordered ∧ f.decode m.2 = .ok a
  left : f.write a = none → f.required = false ∧ a = f.get initial

/-- Every value that the field can be given is kept. -/
structure Stable (f : Field ρ) (initial : ρ) : Prop where
  kept : ∀ {a}, f.Given initial a → f.Kept initial a

section Kinds

variable {name : String} {required : Bool} {decode : Decoder α} {encode : α → Json} {initial : ρ}

theorem kept_always {get : ρ → α} {set : α → ρ → ρ} {a : α} (h : Keeps decode encode a) :
    (always name required decode encode get set).Kept initial a where
  written := by
    intro m hm
    obtain rfl := Option.some.inj hm
    exact ⟨h.ordered, h.reads⟩
  left := nofun

theorem stable_always {get : ρ → α} {set : α → ρ → ρ} (h : Codec.Stable decode encode)
    (hinitial : Keeps decode encode (get initial)) :
    (always name required decode encode get set).Stable initial := by
  refine ⟨fun {a} ha => ?_⟩
  rcases ha with rfl | ⟨v, hv, hread⟩
  · exact kept_always hinitial
  · exact kept_always (h.keeps hv hread)

theorem kept_present {get : ρ → Option α} {set : Option α → ρ → ρ} {a : Option α}
    (hinitial : get initial = none) (h : Keeps (optional decode) (nullable encode) a) :
    (present name decode encode get set).Kept initial a := by
  cases a with
  | none => exact ⟨nofun, fun _ => ⟨rfl, hinitial.symm⟩⟩
  | some x =>
    refine ⟨fun hm => ?_, nofun⟩
    obtain rfl := Option.some.inj hm
    exact ⟨h.ordered, h.reads⟩

theorem stable_present {get : ρ → Option α} {set : Option α → ρ → ρ}
    (h : Codec.Stable (optional decode) (nullable encode)) (hinitial : get initial = none) :
    (present name decode encode get set).Stable initial := by
  refine ⟨fun {a} ha => ?_⟩
  rcases ha with rfl | ⟨v, hv, hread⟩
  · have hnone : Keeps (optional decode) (nullable encode) (get initial) := by
      rw [hinitial]
      exact ⟨trivial, rfl⟩
    exact kept_present hinitial hnone
  · exact kept_present hinitial (h.keeps hv hread)

theorem kept_nonempty {get : ρ → List α} {set : List α → ρ → ρ} {xs : List α}
    (hinitial : get initial = []) (h : Keeps (list decode) (fun xs => .arr (xs.map encode)) xs) :
    (nonempty name decode encode get set).Kept initial xs := by
  cases xs with
  | nil => exact ⟨nofun, fun _ => ⟨rfl, hinitial.symm⟩⟩
  | cons x rest =>
    refine ⟨fun hm => ?_, nofun⟩
    obtain rfl := Option.some.inj hm
    exact ⟨h.ordered, h.reads⟩

theorem stable_nonempty {get : ρ → List α} {set : List α → ρ → ρ}
    (h : Codec.Stable decode encode) (hinitial : get initial = []) :
    (nonempty name decode encode get set).Stable initial := by
  refine ⟨fun {xs} hxs => ?_⟩
  rcases hxs with rfl | ⟨v, hv, hread⟩
  · have hnil : Keeps (list decode) (fun xs => .arr (xs.map encode)) (get initial) := by
      rw [hinitial]
      exact keeps_list nofun
    exact kept_nonempty hinitial hnil
  · exact kept_nonempty hinitial (h.list.keeps hv hread)

end Kinds

end Field

/-! ## Layouts -/

/-- The fields of a record type, and the record that reading starts from. For fields that are
components of a structure the laws hold by computation. -/
structure Layout (ρ : Type) where
  fields : List (Field ρ)
  initial : ρ
  apart : fields.Pairwise Field.Apart := by
    simp [Field.apart_iff, Field.always, Field.present, Field.nonempty]
  get_set : ∀ f ∈ fields, ∀ a r, f.get (f.set a r) = a := by
    simp [Field.always, Field.present, Field.nonempty]
  ext : ∀ r r', (∀ f ∈ fields, f.get r = f.get r') → r = r' := by
    rintro ⟨⟩ ⟨⟩ h
    simpa [Field.always, Field.present, Field.nonempty] using h

namespace Layout

variable (L : Layout ρ)

/-- How the fields are read. -/
def slots : List (Slot ρ) := L.fields.map Field.slot

def decode (typeName : String) : Decoder ρ := Decode.record typeName L.slots L.initial

def encode (r : ρ) : Json := Encode.record (L.fields.map (·.member r))

/-- Every field is stable. -/
def Stable : Prop := ∀ f ∈ L.fields, f.Stable L.initial

/-- Every field of a record holds a value that it can be given. -/
def Given (r : ρ) : Prop := ∀ f ∈ L.fields, f.Given L.initial (f.get r)

/-- Every field of a record holds a value that is kept. -/
def Sound (r : ρ) : Prop := ∀ f ∈ L.fields, f.Kept L.initial (f.get r)

variable {L} {r r' : ρ}

/-- Fields of one name are the same. -/
theorem eq_of_name {f g : Field ρ} (hf : f ∈ L.fields) (hg : g ∈ L.fields) (h : f.name = g.name) :
    f = g := by
  by_contra hne
  exact (L.apart.forall hf hg hne).name h

/-- The slot of a field is found by its name. -/
theorem find?_slots {f : Field ρ} (hf : f ∈ L.fields) :
    L.slots.find? (·.name == f.name) = some f.slot := by
  rw [slots, List.find?_map]
  cases hfind : L.fields.find? ((·.name == f.name) ∘ Field.slot) with
  | none => exact absurd (List.find?_eq_none.1 hfind f hf) (by simp [Field.slot])
  | some g =>
    -- The first field of the name is the only one.
    have hname : g.name = f.name := by simpa [Field.slot] using List.find?_some hfind
    rw [eq_of_name (List.mem_of_find?_eq_some hfind) hf hname, Option.map_some]

/-! ## Reading -/

/-- Reading a field gives it a value and leaves the others alone. -/
theorem Given.read (hr : L.Given r) {f : Field ρ} (hf : f ∈ L.fields) {v : Json}
    (hv : v.Ordered) {change : ρ → ρ} (hread : f.slot.read v = .ok change) :
    L.Given (change r) := by
  obtain ⟨a, ha, rfl⟩ := exists_of_map (x := f.decode v) (f := f.set) hread
  intro g hg
  -- The field holds what has been read, every other one what it held before.
  by_cases hfg : f = g
  · subst hfg
    rw [L.get_set f hf]
    exact .inr ⟨v, hv, ha⟩
  · rw [(L.apart.forall hf hg hfg).get_set]
    exact hr g hg

theorem Given.readMember (hr : L.Given r) {m : String × Json} (hm : m.2.Ordered)
    (hread : readMember L.slots r m = .ok r') : L.Given r' := by
  rw [Decode.readMember] at hread
  split at hread
  · next slot hslot =>
    obtain ⟨f, hf, rfl⟩ := List.mem_map.1 (List.mem_of_find?_eq_some hslot)
    obtain ⟨change, hchange, rfl⟩ := exists_of_map hread
    exact hr.read hf hm hchange
  · obtain rfl := Except.ok.inj hread
    exact hr

theorem Given.foldlM_readMember (hr : L.Given r) {members : KeyMap String Json}
    (hmembers : ∀ m ∈ members, m.2.Ordered)
    (hfold : members.foldlM (Decode.readMember L.slots) r = .ok r') : L.Given r' := by
  induction members generalizing r with
  | nil =>
    obtain rfl := Except.ok.inj hfold
    exact hr
  | cons m rest ih =>
    rw [List.foldlM_cons] at hfold
    obtain ⟨s, hm, hrest⟩ := exists_of_bind hfold
    have hs : L.Given s := hr.readMember (hmembers m List.mem_cons_self) hm
    exact ih hs (fun e he => hmembers e (List.mem_cons_of_mem _ he)) hrest

theorem Given.readItems (hr : L.Given r) {fields : List (Field ρ)} (hfields : fields ⊆ L.fields)
    {items : List Json} (hitems : ∀ v ∈ items, v.Ordered)
    (hread : readItems (fields.map Field.slot) items r = .ok r') : L.Given r' := by
  induction fields generalizing items r with
  | nil =>
    obtain rfl := Except.ok.inj hread
    exact hr
  | cons f rest ih =>
    cases items with
    | nil =>
      obtain rfl := Except.ok.inj hread
      exact hr
    | cons v items =>
      rw [List.map_cons, Decode.readItems] at hread
      obtain ⟨change, hchange, hrest⟩ := exists_of_bind hread
      have hchanged : L.Given (change r) :=
        hr.read (hfields List.mem_cons_self) (hitems v List.mem_cons_self) hchange
      exact ih hchanged (fun f hf => hfields (List.mem_cons_of_mem _ hf))
        (fun w hw => hitems w (List.mem_cons_of_mem _ hw)) hrest

/-- Each field of a record that has been read, from an object or from an array, holds a value
that it can be given. -/
theorem given_of_decode {typeName : String} {v : Json} (hv : v.Ordered)
    (hread : L.decode typeName v = .ok r) : L.Given r := by
  have hinitial : L.Given L.initial := fun _ _ => .inl rfl
  cases v with
  | obj members =>
    have hmembers : readMembers L.slots L.initial members = .ok r := hread
    obtain ⟨s, hfold, hmissing⟩ := exists_of_bind hmembers
    have hs : L.Given s :=
      hinitial.foldlM_readMember ((Json.ordered_obj_iff members).1 hv).2 hfold
    -- The check for missing fields gives the same record, if it gives one.
    split at hmissing
    · cases hmissing
    · exact Except.ok.inj hmissing ▸ hs
  | arr items =>
    have hitems : readArray typeName L.slots L.initial items = .ok r := hread
    obtain ⟨s, hread, hlength⟩ := exists_of_bind hitems
    have hs : L.Given s :=
      hinitial.readItems (List.Subset.refl _) ((Json.ordered_arr_iff items).1 hv) hread
    -- So do the checks of the length.
    simp only at hlength
    split at hlength
    · cases hlength
    · split at hlength
      · cases hlength
      · exact Except.ok.inj hlength ▸ hs
  | _ => cases hread

/-! ## Writing -/

/-- The members that are written for a record. -/
def written (L : Layout ρ) (r : ρ) : List (String × Json) := L.fields.filterMap (·.member r)

theorem encode_eq (L : Layout ρ) (r : ρ) : L.encode r = Json.mkObj (L.written r) := by
  rw [encode, Encode.record, List.filterMap_map]
  rfl

theorem mem_written {m : String × Json} :
    m ∈ L.written r ↔ ∃ f ∈ L.fields, f.write (f.get r) = some m := List.mem_filterMap

/-- No key is written twice. -/
theorem nodup_written (L : Layout ρ) (r : ρ) : (KeyMap.keys (L.written r)).Nodup := by
  rw [KeyMap.keys, written, List.Nodup, List.pairwise_map, List.pairwise_filterMap]
  refine L.apart.imp ?_
  intro f g hapart m hm n hn heq
  apply hapart.name
  rw [← f.named hm, ← g.named hn, heq]

/-- An object holds just the members that are written. -/
theorem mem_ofList_written {m : String × Json} :
    m ∈ KeyMap.ofList (L.written r) ↔ ∃ f ∈ L.fields, f.write (f.get r) = some m :=
  (KeyMap.mem_ofList_iff (nodup_written L r)).trans mem_written

/-- Reading members that have been written sets their fields. -/
theorem exists_foldlM_readMember (hr : L.Sound r) {members : List (String × Json)}
    (hmembers : ∀ m ∈ members, ∃ f ∈ L.fields, f.write (f.get r) = some m) (start : ρ) :
    ∃ r', members.foldlM (readMember L.slots) start = .ok r' ∧
      ∀ f ∈ L.fields, f.get r' =
        if f.name ∈ members.map (·.1) then f.get r else f.get start := by
  -- By induction on the members, for all records that the reading may start from.
  induction members generalizing start with
  | nil => exact ⟨start, rfl, fun f _ => (if_neg (by simp)).symm⟩
  | cons m rest ih =>
    obtain ⟨f, hf, hwrite⟩ := hmembers m List.mem_cons_self
    have hname : m.1 = f.name := f.named hwrite
    have hread : f.decode m.2 = .ok (f.get r) := ((hr f hf).written hwrite).2
    have hstep : readMember L.slots start m = .ok (f.set (f.get r) start) := by
      have hslot : f.slot.read m.2 = .ok (f.set (f.get r)) := by
        show (f.decode m.2).map f.set = _
        rw [hread]
        rfl
      rw [readMember, hname, find?_slots hf]
      simp only [hslot]
      rfl
    obtain ⟨r', hfold, hget⟩ := ih (fun e he => hmembers e (List.mem_cons_of_mem _ he))
      (f.set (f.get r) start)
    refine ⟨r', ?_, fun g hg => ?_⟩
    · rw [List.foldlM_cons, hstep]
      exact hfold
    · -- A field that the rest sets again gets the same value, since all come from one record.
      rw [hget g hg]
      simp only [List.map_cons, List.mem_cons, hname]
      by_cases hrest : g.name ∈ rest.map (·.1)
      · rw [if_pos hrest, if_pos (.inr hrest)]
      · rw [if_neg hrest]
        by_cases hfg : f = g
        · subst hfg
          rw [if_pos (.inl rfl), L.get_set f hf]
        · have hne : g.name ≠ f.name := (L.apart.forall hf hg hfg).name.symm
          rw [if_neg (by simp [hne, hrest]), (L.apart.forall hf hg hfg).get_set]

/-- A field that must be given is written. -/
theorem missing?_written (hr : L.Sound r) :
    missing? L.slots (KeyMap.ofList (L.written r)) = none := by
  rw [missing?, Option.map_eq_none_iff, List.find?_eq_none]
  intro slot hslot hmissing
  obtain ⟨f, hf, rfl⟩ := List.mem_map.1 hslot
  simp only [Bool.and_eq_true, Bool.not_eq_true'] at hmissing
  obtain ⟨hrequired, hlacks⟩ := hmissing
  cases hwrite : f.write (f.get r) with
  | none =>
    -- Only a field that need not be given is left out.
    have hfree : f.required = false := ((hr f hf).left hwrite).1
    exact Bool.noConfusion (hrequired.symm.trans hfree)
  | some m =>
    have hm : m ∈ KeyMap.ofList (L.written r) := mem_ofList_written.2 ⟨f, hf, hwrite⟩
    have hfind : KeyMap.find? (KeyMap.ofList (L.written r)) m.1 = some m.2 :=
      KeyMap.find?_of_mem (KeyMap.sorted_ofList _) hm
    have hhas : KeyMap.contains (KeyMap.ofList (L.written r)) f.name = true := by
      rw [KeyMap.contains, ← f.named hwrite, hfind, Option.isSome_some]
    exact Bool.noConfusion (hlacks.symm.trans hhas)

/-- A sound record is written in key order and read back. -/
theorem keeps_of_sound (hr : L.Sound r) (typeName : String) :
    Keeps (L.decode typeName) L.encode r where
  ordered := by
    rw [encode_eq]
    refine Json.ordered_mkObj fun m hm => ?_
    obtain ⟨f, hf, hwrite⟩ := mem_written.1 hm
    exact ((hr f hf).written hwrite).1
  reads := by
    obtain ⟨r', hfold, hget⟩ :=
      exists_foldlM_readMember hr (fun _ => mem_ofList_written.1) L.initial
    have hsame : r' = r := by
      refine L.ext r' r fun f hf => ?_
      rw [hget f hf]
      split
      · rfl
      · next hlacks =>
        -- The field has not been written, so it holds its initial value.
        cases hwrite : f.write (f.get r) with
        | none => exact ((hr f hf).left hwrite).2.symm
        | some m =>
          have hm : m ∈ KeyMap.ofList (L.written r) := mem_ofList_written.2 ⟨f, hf, hwrite⟩
          exact absurd (List.mem_map.2 ⟨m, hm, f.named hwrite⟩) hlacks
    rw [encode_eq]
    show readMembers L.slots L.initial (KeyMap.ofList (L.written r)) = .ok r
    rw [readMembers, hfold, missing?_written hr, hsame]
    rfl

/-- A record of stable fields is stable. -/
theorem stable (h : L.Stable) (typeName : String) :
    Codec.Stable (L.decode typeName) L.encode := by
  refine ⟨fun hv hread => ?_⟩
  have hsound : L.Sound _ := fun f hf => (h f hf).kept (given_of_decode hv hread f hf)
  exact keeps_of_sound hsound typeName

end Layout

end LayeredAccess.Codec
