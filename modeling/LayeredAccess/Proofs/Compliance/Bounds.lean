/-
  LayeredAccess.Proofs.Compliance.Bounds

  Bounds of integers. The rules compare doubles, so a bound is exact but for
  integers that share their nearest double with it: these count as equal to the
  bound. Only integers from 2^53 on share a double with others
  (`bounds_integers`).
-/
import LayeredAccess.Compliance.Builtin
import LayeredAccess.Proofs.Decimal.Doubles

namespace LayeredAccess.Compliance.Builtin

open Decimal

variable {a b v : Int}

/-! ## Integers as doubles -/

theorem standsFor_of_inIntegerRange (h : Json.inIntegerRange a = true) :
    StandsFor (Float.ofInt a) (nearestDouble a) := by
  apply standsFor_ofInt
  simp only [Json.inIntegerRange, signLimit, wordLimit, Bool.and_eq_true, decide_eq_true_iff] at h
  omega

/-- Integers are at most as great as others if they are so as doubles, or become one double. -/
theorem ofInt_le_iff (ha : Json.inIntegerRange a = true) (hb : Json.inIntegerRange b = true) :
    Float.ofInt a ≤ Float.ofInt b ↔ a ≤ b ∨ nearestDouble a = nearestDouble b := by
  rw [(standsFor_of_inIntegerRange ha).le_iff (standsFor_of_inIntegerRange hb)]
  constructor
  · intro hle
    by_cases hab : a ≤ b
    · exact .inl hab
    · have hge : nearestDouble b ≤ nearestDouble a := nearestDouble_mono (by omega)
      right
      omega
  · rintro (hab | heq)
    · exact nearestDouble_mono hab
    · exact Int.le_of_eq heq

theorem ofInt_lt_iff (ha : Json.inIntegerRange a = true) (hb : Json.inIntegerRange b = true) :
    Float.ofInt a < Float.ofInt b ↔ a < b ∧ nearestDouble a ≠ nearestDouble b := by
  rw [(standsFor_of_inIntegerRange ha).lt_iff (standsFor_of_inIntegerRange hb)]
  constructor
  · intro hlt
    refine ⟨?_, Int.ne_of_lt hlt⟩
    by_contra hge
    have hle := nearestDouble_mono (Int.not_lt.1 hge)
    omega
  · rintro ⟨hlt, hne⟩
    have hle := nearestDouble_mono (Int.le_of_lt hlt)
    omega

/-! ## Bounds -/

/-- The rules read integers as doubles, so they never fail on one. -/
theorem min_int (args : List Json) :
    min (.int v) (.int b :: args) =
      .ok (if isInclusive (.int b :: args) then decide (Float.ofInt b ≤ Float.ofInt v)
        else decide (Float.ofInt b < Float.ofInt v)) := by
  rfl

theorem max_int (args : List Json) :
    max (.int v) (.int b :: args) =
      .ok (if isInclusive (.int b :: args) then decide (Float.ofInt v ≤ Float.ofInt b)
        else decide (Float.ofInt v < Float.ofInt b)) := by
  rfl

/-- What the rules for bounds say of an integer and an integer bound. -/
structure BoundsIntegers (v b : Int) : Prop where
  min_inclusive : ∀ args, args = [.int b] ∨ args = [.int b, .bool true] →
    min (.int v) args = .ok (decide (b ≤ v ∨ nearestDouble b = nearestDouble v))
  min_exclusive :
    min (.int v) [.int b, .bool false] = .ok (decide (b < v ∧ nearestDouble b ≠ nearestDouble v))
  max_inclusive : ∀ args, args = [.int b] ∨ args = [.int b, .bool true] →
    max (.int v) args = .ok (decide (v ≤ b ∨ nearestDouble v = nearestDouble b))
  max_exclusive :
    max (.int v) [.int b, .bool false] = .ok (decide (v < b ∧ nearestDouble v ≠ nearestDouble b))
  /-- The doubles are the nearest ones. -/
  isNearest : IsNearest v (nearestDouble v) ∧ IsNearest b (nearestDouble b)
  /-- Integers that share a double are not nearer to zero than 2^53. -/
  far : v ≠ b → nearestDouble v = nearestDouble b → 2 ^ 53 ≤ v.natAbs ∧ 2 ^ 53 ≤ b.natAbs

/-- The rules for bounds are exact, but for integers that share their nearest double. -/
theorem bounds_integers (hv : Json.inIntegerRange v = true) (hb : Json.inIntegerRange b = true) :
    BoundsIntegers v b where
  min_inclusive args hargs := by
    -- Both sides are compared as the integers that they stand for.
    simp only [← ofInt_le_iff hb hv]
    rcases hargs with rfl | rfl
    · exact min_int []
    · exact min_int [.bool true]
  min_exclusive := by
    simp only [← ofInt_lt_iff hb hv]
    exact min_int [.bool false]
  max_inclusive args hargs := by
    simp only [← ofInt_le_iff hv hb]
    rcases hargs with rfl | rfl
    · exact max_int []
    · exact max_int [.bool true]
  max_exclusive := by
    simp only [← ofInt_lt_iff hv hb]
    exact max_int [.bool false]
  isNearest := ⟨isNearest_nearestDouble v, isNearest_nearestDouble b⟩
  far hne heq :=
    ⟨le_natAbs_of_nearestDouble_eq heq hne, le_natAbs_of_nearestDouble_eq heq.symm hne.symm⟩

/-- An integer and a bound, one below it, that share a double. -/
theorem bounds_integers_beyond :
    Json.inIntegerRange 9007199254740993 = true ∧ Json.inIntegerRange 9007199254740992 = true ∧
    BoundsIntegers 9007199254740993 9007199254740992 ∧
    nearestDouble 9007199254740993 = nearestDouble 9007199254740992 :=
  ⟨by decide, by decide, bounds_integers (by decide) (by decide), by decide⟩

/-- An integer above a bound counts as within it. -/
theorem max_accepts_beyond :
    max (.int 9007199254740993) [.int 9007199254740992] = .ok true ∧
      ¬ (9007199254740993 : Int) ≤ 9007199254740992 :=
  ⟨rfl, by decide⟩

end LayeredAccess.Compliance.Builtin
