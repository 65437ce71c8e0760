/-
  LayeredAccess.Proofs.Codec.Uuid

  Identifiers are stable: whichever of its forms an identifier is read from, it
  is written in lower case with hyphens, and read back from that form.

  The forms are told apart by their length in bytes. What is written has 36
  bytes, which is the length of no other form.
-/
import LayeredAccess.Proofs.Codec.Stable
import Mathlib.Data.String.Basic

namespace LayeredAccess

open Decode Encode

namespace Uuid

/-! ## Digits -/

/-- A digit that has been read reads as itself, and is one byte long. -/
theorem hexDigit?_of_hexDigit? {c d : Char} (h : hexDigit? c = some d) :
    hexDigit? d = some d ∧ d.utf8Size = 1 := by
  have hshort : ∀ {e : Char}, e.toNat < 128 → e.utf8Size = 1 :=
    fun he => Char.utf8Size_eq_one_iff.2 (Nat.le_of_lt_succ he)
  have hread := h
  rw [hexDigit?] at h
  split at h
  · next hc =>
    obtain rfl := Option.some.inj h
    have hle : c ≤ '9' := by
      simp only [Char.isDigit, Bool.and_eq_true, decide_eq_true_eq] at hc
      exact hc.2
    exact ⟨hread, hshort (Nat.lt_of_le_of_lt hle (by decide))⟩
  · split at h
    · next hc =>
      obtain rfl := Option.some.inj h
      simp only [Bool.and_eq_true, decide_eq_true_eq] at hc
      exact ⟨hread, hshort (Nat.lt_of_le_of_lt hc.2 (by decide))⟩
    · split at h
      · next hc =>
        obtain rfl := Option.some.inj h
        simp only [Bool.and_eq_true, decide_eq_true_eq] at hc
        -- A capital is one of six.
        have hge : 65 ≤ c.toNat := hc.1
        have hle : c.toNat ≤ 70 := hc.2
        have hmem : c.toNat ∈ [65, 66, 67, 68, 69, 70] := by
          simp only [List.mem_cons, List.not_mem_nil, or_false]
          omega
        have hlower : ∀ n ∈ [65, 66, 67, 68, 69, 70],
            hexDigit? (Char.ofNat n).toLower = some (Char.ofNat n).toLower ∧
              (Char.ofNat n).toLower.utf8Size = 1 := by decide
        have hlow := hlower c.toNat hmem
        rwa [Char.ofNat_toNat] at hlow
      · cases h

/-- The digits of a text are as many as its characters, and read as themselves. -/
theorem digits_of_mapM {cs ds : List Char} (h : cs.mapM hexDigit? = some ds) :
    ds.length = cs.length ∧ ∀ d ∈ ds, hexDigit? d = some d ∧ d.utf8Size = 1 := by
  induction cs generalizing ds with
  | nil =>
    obtain rfl : [] = ds := Option.some.inj h
    exact ⟨rfl, nofun⟩
  | cons c rest ih =>
    rw [List.mapM_cons] at h
    obtain ⟨d, hd, htail⟩ := Option.bind_eq_some_iff.1 h
    obtain ⟨es, hes, heq⟩ := Option.bind_eq_some_iff.1 htail
    obtain rfl : d :: es = ds := Option.some.inj heq
    obtain ⟨hlength, hdigits⟩ := ih hes
    exact ⟨by rw [List.length_cons, hlength, List.length_cons],
      List.forall_mem_cons.2 ⟨hexDigit?_of_hexDigit? hd, hdigits⟩⟩

/-- An identifier has 32 digits, each of which reads as itself. -/
structure Proper (u : Uuid) : Prop where
  length : u.digits.length = 32
  digits : ∀ d ∈ u.digits, hexDigit? d = some d ∧ d.utf8Size = 1

theorem proper_of_ofDigits? {cs : List Char} {u : Uuid} (h : ofDigits? cs = some u) :
    u.Proper := by
  rw [ofDigits?] at h
  split at h
  · next hlength =>
    obtain ⟨ds, hds, rfl⟩ := Option.map_eq_some_iff.1 h
    obtain ⟨hsame, hdigits⟩ := digits_of_mapM hds
    exact ⟨hsame.trans hlength, hdigits⟩
  · cases h

theorem Proper.ofDigits?_digits {u : Uuid} (h : u.Proper) : ofDigits? u.digits = some u := by
  have hself : ∀ ds : List Char, (∀ d ∈ ds, hexDigit? d = some d) →
      ds.mapM hexDigit? = some ds := by
    intro ds hds
    induction ds with
    | nil => rfl
    | cons d rest ih =>
      rw [List.mapM_cons, hds d List.mem_cons_self,
        ih fun e he => hds e (List.mem_cons_of_mem _ he)]
      rfl
  rw [ofDigits?, if_pos h.length, hself _ fun d hd => (h.digits d hd).1, Option.map_some]

/-! ## Forms -/

/-- Whichever form an identifier is read from, it has its 32 digits. -/
theorem proper_of_ofString? {s : String} {u : Uuid} (h : ofString? s = some u) : u.Proper := by
  have hhyphenated : ∀ {cs : List Char}, ofHyphenated? cs = some u → u.Proper := by
    intro cs hcs
    rw [ofHyphenated?] at hcs
    split at hcs
    · exact proper_of_ofDigits? hcs
    · cases hcs
  -- By the length of the text: bare digits, braces, a prefix, or hyphens only.
  simp only [ofString?] at h
  split at h
  · exact proper_of_ofDigits? h
  · split at h
    · exact hhyphenated h
    · split at h
      · exact hhyphenated h
      · exact hhyphenated h

/-- Reading groups with hyphens between them reads the digits of the groups. -/
theorem ofHyphenated?_groups {a b c d e : List Char} (ha : a.length = 8) (hb : b.length = 4)
    (hc : c.length = 4) (hd : d.length = 4) (he : e.length = 12) :
    ofHyphenated? (a ++ '-' :: b ++ '-' :: c ++ '-' :: d ++ '-' :: e) =
      ofDigits? (a ++ b ++ c ++ d ++ e) := by
  simp [ofHyphenated?, List.drop_append, List.drop_eq_nil_of_le, ha, hb, hc, hd, he]

/-- What is written has the length of the form with hyphens only. -/
theorem utf8ByteSize_toString {u : Uuid} (h : u.Proper) : u.toString.utf8ByteSize = 36 := by
  -- A text of single bytes has as many bytes as characters.
  have hbytes : ∀ cs : List Char, (∀ c ∈ cs, c.utf8Size = 1) →
      (String.ofList cs).utf8ByteSize = cs.length := by
    intro cs hcs
    rw [String.utf8ByteSize_ofList]
    induction cs with
    | nil => rfl
    | cons c rest ih =>
      rw [String.utf8Len_cons, ih fun d hd => hcs d (List.mem_cons_of_mem _ hd),
        hcs c List.mem_cons_self, List.length_cons]
  have hdigit : ∀ c ∈ hyphenate u.digits, c.utf8Size = 1 := by
    intro c hc
    simp only [hyphenate, List.mem_append, List.mem_cons] at hc
    -- All characters are digits of the number, or hyphens between them.
    have hmem : c ∈ u.digits ∨ c = '-' := by
      rcases hc with (((hc | hc | hc) | hc | hc) | hc | hc) | hc | hc
      all_goals first
        | exact .inr hc
        | exact .inl (List.mem_of_mem_take hc)
        | exact .inl (List.mem_of_mem_drop hc)
        | exact .inl (List.mem_of_mem_drop (List.mem_of_mem_take hc))
    rcases hmem with hc | rfl
    · exact (h.digits c hc).2
    · decide
  rw [toString, hbytes _ hdigit, hyphenate]
  simp [h.length]

/-- What is written is read back. -/
theorem Proper.ofString?_toString {u : Uuid} (h : u.Proper) : ofString? u.toString = some u := by
  have hgroups : ofHyphenated? (hyphenate u.digits) = ofDigits? u.digits := by
    rw [hyphenate, ofHyphenated?_groups]
    · -- The groups are the digits.
      have hjoin : ∀ i n, (u.digits.drop i).take n ++ u.digits.drop (i + n) = u.digits.drop i := by
        intro i n
        rw [← List.drop_drop, List.take_append_drop]
      have hdigits : u.digits.take 8 ++ (u.digits.drop 8).take 4 ++ (u.digits.drop 12).take 4
          ++ (u.digits.drop 16).take 4 ++ u.digits.drop 20 = u.digits := by
        rw [List.append_assoc, hjoin 16 4, List.append_assoc, hjoin 12 4, List.append_assoc,
          hjoin 8 4, List.take_append_drop]
      rw [hdigits]
    all_goals simp [h.length]
  have hread : ofHyphenated? u.toString.toList = some u := by
    rw [toString, String.toList_ofList, hgroups, h.ofDigits?_digits]
  -- Of the lengths that tell the forms apart 36 is none.
  rw [ofString?, utf8ByteSize_toString h]
  exact hread

end Uuid

namespace Codec

theorem stable_uuid : Stable Uuid.decode Uuid.encode := by
  refine ⟨fun {v u} hv hread => ⟨trivial, ?_⟩⟩
  cases v with
  | str s =>
    rw [Uuid.decode] at hread
    split at hread
    · next w hw =>
      obtain rfl := Except.ok.inj hread
      have hproper := Uuid.proper_of_ofString? hw
      rw [Uuid.encode, Uuid.decode, hproper.ofString?_toString]
    · cases hread
  | _ => cases hread

end Codec

end LayeredAccess
