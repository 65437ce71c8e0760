/-
  LayeredAccess.Proofs.Codec.Stable

  Codecs that are stable: whatever the decoder lets in is written in key order,
  and what is written is read back as it was (`Stable`).

  A decoder lets in more than its encoder writes: numbers that are in range only,
  names in several forms, `null` for what is absent. The law is therefore stated
  for the values that come out of the decoder, and a codec that is made of others
  asks for theirs only on such values: on the items of a list that has been read,
  on an optional value that was not `null`.
-/
import LayeredAccess.Compiler.Envelope
import LayeredAccess.Config
import LayeredAccess.Entitlement.Codec
import LayeredAccess.Proofs.Decode
import LayeredAccess.Proofs.Json.Ordered

namespace LayeredAccess

open Decode Encode

namespace Codec

variable {α β : Type} {decode : Decoder α} {encode : α → Json}

/-- A value is written in key order and read back. -/
structure Keeps (decode : Decoder α) (encode : α → Json) (a : α) : Prop where
  ordered : (encode a).Ordered
  reads : decode (encode a) = .ok a

/-- Whatever the decoder makes of a value in key order is written in key order and read back. -/
structure Stable (decode : Decoder α) (encode : α → Json) : Prop where
  keeps : ∀ {v : Json} {a : α}, v.Ordered → decode v = .ok a → Keeps decode encode a

/-- A codec that reads back whatever it writes is stable. -/
theorem Stable.of_keeps (h : ∀ a, Keeps decode encode a) : Stable decode encode :=
  ⟨fun _ _ => h _⟩

/-! ## Single values -/

theorem stable_text : Stable text .str := .of_keeps fun _ => ⟨trivial, rfl⟩

theorem stable_boolean : Stable boolean .bool := .of_keeps fun _ => ⟨trivial, rfl⟩

/-- A value that is taken as it is keeps its order. -/
theorem stable_any : Stable any itself := by
  refine ⟨fun {v a} hv h => ?_⟩
  obtain rfl : v = a := Except.ok.inj h
  exact ⟨hv, rfl⟩

/-- What is read as a number of 64 bits is one. -/
theorem lt_of_word64 {v : Json} {n : Nat} (h : word64 v = .ok n) : n < wordLimit := by
  cases v with
  | int i =>
    simp only [word64, natural] at h
    split at h
    · next hi =>
      obtain rfl := Except.ok.inj h
      omega
    · cases h
  | _ => cases h

theorem stable_word64 : Stable word64 fun n => .int n :=
  ⟨fun _ h => ⟨trivial, word64_of_lt (lt_of_word64 h)⟩⟩

/-- Every set of flags is kept, its bits without a name included. -/
theorem keeps_flags (f : Flags) : Keeps Flags.decode Flags.encode f := by
  refine ⟨trivial, ?_⟩
  have hlt : f.bits.toNat < 256 := f.bits.toNat_lt
  have hnatural : natural "u8" 256 (.int f.bits.toNat) = .ok f.bits.toNat := by
    rw [natural, if_pos ⟨by omega, by omega⟩, Int.toNat_natCast]
  rw [Flags.decode, Flags.encode, byte, hnatural]
  show Except.ok (Flags.mk (UInt8.ofNat f.bits.toNat)) = .ok f
  rw [UInt8.ofNat_toNat]

theorem stable_flags : Stable Flags.decode Flags.encode := .of_keeps keeps_flags

theorem stable_compileMode : Stable CompileMode.decode CompileMode.encode :=
  .of_keeps fun mode => ⟨trivial, by cases mode <;> rfl⟩

theorem stable_compilerEvent : Stable CompilerEvent.decode CompilerEvent.encode :=
  .of_keeps fun event => ⟨trivial, by cases event <;> rfl⟩

/-! ## Lists -/

/-- Each item of a list that has been read comes from an item that has been read. -/
theorem exists_of_mapM {items : List Json} {xs : List α} (h : items.mapM decode = .ok xs) :
    ∀ x ∈ xs, ∃ v ∈ items, decode v = .ok x := by
  induction items generalizing xs with
  | nil =>
    obtain rfl : [] = xs := Except.ok.inj h
    simp
  | cons v rest ih =>
    rw [List.mapM_cons] at h
    obtain ⟨a, hv, htail⟩ := exists_of_bind h
    obtain ⟨as, hrest, heq⟩ := exists_of_bind htail
    obtain rfl : a :: as = xs := Except.ok.inj heq
    rw [List.forall_mem_cons]
    refine ⟨⟨v, List.mem_cons_self, hv⟩, fun x hx => ?_⟩
    obtain ⟨w, hw, hread⟩ := ih hrest x hx
    exact ⟨w, List.mem_cons_of_mem _ hw, hread⟩

/-- A list of values that are kept is kept. -/
theorem keeps_list {xs : List α} (h : ∀ x ∈ xs, Keeps decode encode x) :
    Keeps (list decode) (fun xs => .arr (xs.map encode)) xs where
  ordered := by
    rw [Json.ordered_arr_iff]
    intro w hw
    obtain ⟨x, hx, rfl⟩ := List.mem_map.1 hw
    exact (h x hx).ordered
  reads := mapM_map fun x hx => (h x hx).reads

theorem Stable.list (h : Stable decode encode) :
    Stable (list decode) fun xs => .arr (xs.map encode) := by
  refine ⟨fun {v xs} hv hread => ?_⟩
  cases v with
  | arr items =>
    refine keeps_list fun x hx => ?_
    obtain ⟨w, hw, hx⟩ := exists_of_mapM hread x hx
    exact h.keeps ((Json.ordered_arr_iff items).1 hv w hw) hx
  | _ => cases hread

theorem stable_texts : Stable texts .ofStrings := stable_text.list

/-! ## Values that may be absent -/

/-- What may be absent is kept where no value that is present is written as `null`. -/
theorem Stable.optional (h : Stable decode encode)
    (hnull : ∀ {v a}, v ≠ .null → decode v = .ok a → encode a ≠ .null) :
    Stable (optional decode) (nullable encode) := by
  refine ⟨fun {v a} hv hread => ?_⟩
  by_cases hne : v = .null
  · subst hne
    obtain rfl : none = a := Except.ok.inj hread
    exact ⟨trivial, rfl⟩
  · -- Away from `null` the value is read as it would be if it had to be there. That holds of
    -- what is written too, since a value that was present is not written as `null`.
    have hpresent : ∀ {w : Json}, w ≠ .null →
        Decode.optional decode w = (decode w).map some := by
      intro w hw
      cases w with
      | null => exact absurd rfl hw
      | _ => rfl
    rw [hpresent hne] at hread
    obtain ⟨x, hx, rfl⟩ := exists_of_map hread
    refine ⟨(h.keeps hv hx).ordered, ?_⟩
    show Decode.optional decode (encode x) = _
    rw [hpresent (hnull hne hx), (h.keeps hv hx).reads]
    rfl

theorem stable_optional_text : Stable (optional text) (nullable .str) :=
  stable_text.optional fun _ _ => nofun

theorem stable_optional_texts : Stable (optional texts) (nullable .ofStrings) :=
  stable_texts.optional fun _ _ => nofun

theorem stable_optional_any : Stable (optional any) (nullable itself) := by
  refine stable_any.optional ?_
  intro v a hne h
  obtain rfl : v = a := Except.ok.inj h
  exact hne

end Codec

end LayeredAccess
