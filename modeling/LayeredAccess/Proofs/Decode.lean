/-
  LayeredAccess.Proofs.Decode

  Reading what has been written. `Reads` follows the members of an object
  through the slots of a record: if every member has a slot that can read it,
  the record is read, and the first member that its slot refuses is reported.
-/
import LayeredAccess.Decode
import LayeredAccess.Encode

namespace LayeredAccess.Decode

section Steps

variable {ε α β : Type} {x : Except ε α} {b : β}

/-- A step and what follows succeed only if the step does. -/
theorem exists_of_bind {f : α → Except ε β} (h : x >>= f = .ok b) :
    ∃ a, x = .ok a ∧ f a = .ok b := by
  cases x with
  | error e => cases h
  | ok a => exact ⟨a, rfl, h⟩

theorem exists_of_map {f : α → β} (h : x.map f = .ok b) : ∃ a, x = .ok a ∧ f a = b := by
  cases x with
  | error e => cases h
  | ok a => exact ⟨a, rfl, Except.ok.inj h⟩

end Steps

/-! ## Single values -/

/-- A list is read if each of its items is. -/
theorem mapM_map {α : Type} {decode : Decoder α} {encode : α → Json} {items : List α}
    (h : ∀ a ∈ items, decode (encode a) = .ok a) :
    (items.map encode).mapM decode = .ok items := by
  induction items with
  | nil => rfl
  | cons a rest ih =>
    rw [List.map_cons, List.mapM_cons, h a List.mem_cons_self,
      ih fun b hb => h b (List.mem_cons_of_mem _ hb)]
    rfl

theorem texts_ofStrings (items : List String) : texts (.ofStrings items) = .ok items := by
  have htext : ∀ s ∈ items, text (.str s) = .ok s := fun _ _ => rfl
  exact mapM_map htext

theorem list_any (items : List Json) : list any (.arr items) = .ok items := by
  have hany : ∀ v ∈ items, any (id v) = .ok v := fun _ _ => rfl
  have hitems := mapM_map hany
  rw [List.map_id] at hitems
  exact hitems

/-- Numbers of 64 bits are read, larger ones are refused. -/
theorem word64_of_lt {n : Nat} (h : n < wordLimit) : word64 (.int n) = .ok n := by
  have hrange : (0 : Int) ≤ n ∧ (n : Int) < wordLimit := ⟨by omega, by omega⟩
  rw [word64, natural, if_pos hrange, Int.toNat_natCast]

theorem word64_of_le {n : Nat} (h : wordLimit ≤ n) :
    word64 (.int n) = .error (.outOfRange n "u64") := by
  have hrange : ¬ ((0 : Int) ≤ n ∧ (n : Int) < wordLimit) := by omega
  rw [word64, natural, if_neg hrange]

/-! ## Records -/

section Slots

variable {ρ α : Type} {name : String} {decode : Decoder α} {set : α → ρ → ρ} {v : Json} {a : α}

theorem read_required (h : decode v = .ok a) :
    (required name decode set).read v = .ok (set a) := by
  show (decode v).map set = _
  rw [h]
  rfl

theorem read_defaulted (h : decode v = .ok a) :
    (defaulted name decode set).read v = .ok (set a) := by
  show (decode v).map set = _
  rw [h]
  rfl

theorem read_defaulted_error {e : DecodeError} (h : decode v = .error e) :
    (defaulted name decode set).read v = .error e := by
  show (decode v).map set = _
  rw [h]
  rfl

end Slots

variable {ρ : Type} {fields : List (Slot ρ)} {members : KeyMap String Json} {r r' : ρ}

/-- Reading members one after the other leads from one record to another. -/
inductive Reads (fields : List (Slot ρ)) : KeyMap String Json → ρ → ρ → Prop
  | nil {r : ρ} : Reads fields [] r r
  | cons {slot : Slot ρ} {name : String} {v : Json} {rest : KeyMap String Json} {change : ρ → ρ}
      {r r' : ρ} : fields.find? (·.name == name) = some slot → slot.read v = .ok change →
      Reads fields rest (change r) r' → Reads fields ((name, v) :: rest) r r'

theorem Reads.foldlM_eq (h : Reads fields members r r') :
    members.foldlM (readMember fields) r = .ok r' := by
  induction h with
  | nil => rfl
  | cons hslot hread _ ih =>
    rw [List.foldlM_cons, readMember, hslot]
    simp only [hread]
    exact ih

/-- A record is read if all members can be read and none is missing. -/
theorem Reads.readMembers_eq (h : Reads fields members r r')
    (hmissing : missing? fields members = none) : readMembers fields r members = .ok r' := by
  rw [readMembers, h.foldlM_eq, hmissing]
  rfl

/-- A member that its slot refuses is reported, whatever follows. -/
theorem Reads.readMembers_error (h : Reads fields members r r') {slot : Slot ρ} {name : String}
    {v : Json} {e : DecodeError} (hslot : fields.find? (·.name == name) = some slot)
    (hread : slot.read v = .error e) (rest : KeyMap String Json) :
    readMembers fields r (members ++ (name, v) :: rest) = .error e := by
  have hmember : readMember fields r' (name, v) = .error e := by
    rw [readMember, hslot]
    simp only [hread]
    rfl
  rw [readMembers, List.foldlM_append, h.foldlM_eq]
  show Except.bind (List.foldlM (readMember fields) r' ((name, v) :: rest)) _ = _
  rw [List.foldlM_cons, hmember]
  rfl

end LayeredAccess.Decode
