/-
  LayeredAccess.Proofs.Decimal.Nearest

  The double nearest to an integer. A double has 53 binary digits, so beyond
  2^53 only some integers are doubles, and a larger integer takes the nearest
  of them: the even one of two that are equally near (`IsNearest`).

  Being nearest is all that is used of it: rounding keeps the order of integers
  (`nearestDouble_mono`) and leaves alone what is a double
  (`nearestDouble_eq_self`).
-/
import Mathlib.Tactic.Ring

namespace LayeredAccess.Decimal

/-! ## Rounding -/

/-- The quotient by a power of two, rounded to the nearest number, and to the even one of two. -/
def halfEven (n k : Nat) : Nat :=
  if 2 * (n % 2 ^ k) < 2 ^ k then n / 2 ^ k
  else if 2 * (n % 2 ^ k) = 2 ^ k then n / 2 ^ k + n / 2 ^ k % 2
  else n / 2 ^ k + 1

/-- The number of binary digits behind the first 53. -/
def excess (n : Nat) : Nat := n.log2 - 52

def nearestNat (n : Nat) : Nat := halfEven n (excess n) * 2 ^ excess n

/-- The double nearest to an integer. -/
def nearestDouble (n : Int) : Int := n.sign * nearestNat n.natAbs

/-- Is an integer a double? -/
def IsDouble (d : Int) : Prop := ∃ m k : Nat, m < 2 ^ 53 ∧ d.natAbs = m * 2 ^ k

/-- No double is nearer to an integer; of two that are equally near it is the one that is an even
multiple of the distance between them. -/
structure IsNearest (n d : Int) : Prop where
  isDouble : IsDouble d
  le : ∀ d', IsDouble d' → (n - d).natAbs ≤ (n - d').natAbs
  even : ∀ d', IsDouble d' → d' ≠ d → (n - d').natAbs = (n - d).natAbs → 2 * (d' - d) ∣ d

/-! ## Natural numbers -/

/-- The quotient is rounded down, or up. -/
theorem halfEven_cases (n k : Nat) :
    (halfEven n k = n / 2 ^ k ∧ 2 * (n % 2 ^ k) ≤ 2 ^ k ∧
      (2 * (n % 2 ^ k) = 2 ^ k → n / 2 ^ k % 2 = 0)) ∨
    (halfEven n k = n / 2 ^ k + 1 ∧ 2 ^ k ≤ 2 * (n % 2 ^ k) ∧
      (2 * (n % 2 ^ k) = 2 ^ k → n / 2 ^ k % 2 = 1)) := by
  unfold halfEven
  split
  · omega
  · split
    · omega
    · omega

/-- A rounded quotient is nearest, and even if there are two. -/
theorem halfEven_spec (n k j : Nat) :
    ((n : Int) - (halfEven n k * 2 ^ k : Nat)).natAbs ≤ ((n : Int) - (j * 2 ^ k : Nat)).natAbs ∧
      (j ≠ halfEven n k →
        ((n : Int) - (j * 2 ^ k : Nat)).natAbs = ((n : Int) - (halfEven n k * 2 ^ k : Nat)).natAbs →
          halfEven n k % 2 = 0 ∧ (j = halfEven n k + 1 ∨ j + 1 = halfEven n k)) := by
  have hdiv := Nat.div_add_mod' n (2 ^ k)
  have hmod := Nat.mod_lt n (Nat.two_pow_pos k)
  have hround := halfEven_cases n k
  generalize n / 2 ^ k = q at *
  generalize n % 2 ^ k = r at *
  generalize 2 ^ k = p at *
  -- The multiples around the number are `q * p` and `q * p + p`; any other is beyond them.
  have hnext : (q + 1) * p = q * p + p := Nat.succ_mul q p
  have hj : j * p + p ≤ q * p ∨ j = q ∨ j = q + 1 ∨ q * p + p + p ≤ j * p := by
    rcases Nat.lt_trichotomy j q with hlt | heq | hgt
    · exact .inl (Nat.succ_mul j p ▸ Nat.mul_le_mul_right p hlt)
    · exact .inr (.inl heq)
    · rcases Nat.eq_or_lt_of_le hgt with heq | hlt
      · exact .inr (.inr (.inl heq.symm))
      · have hle := Nat.mul_le_mul_right p hlt
        rw [Nat.succ_mul, hnext] at hle
        exact .inr (.inr (.inr hle))
  rcases hround with ⟨heq, hround⟩ | ⟨heq, hround⟩
  · rw [heq]
    rcases hj with hj | rfl | rfl | hj
    · omega
    · omega
    · rw [hnext]
      omega
    · omega
  · rw [heq, hnext]
    rcases hj with hj | rfl | rfl | hj
    · omega
    · omega
    · rw [hnext]
      omega
    · omega

/-- With 53 digits in front a rounded quotient has 53 digits at most, or it is the next power of
two. -/
theorem halfEven_le (n : Nat) : halfEven n (excess n) ≤ 2 ^ 53 := by
  have hdigits : n / 2 ^ excess n < 2 ^ 53 := by
    rw [Nat.div_lt_iff_lt_mul (Nat.two_pow_pos _), ← Nat.pow_add]
    apply Nat.lt_of_lt_of_le (Nat.lt_log2_self (n := n))
    exact Nat.pow_le_pow_right (by decide) (by unfold excess; omega)
  rcases halfEven_cases n (excess n) with ⟨heq, -⟩ | ⟨heq, -⟩
  · omega
  · omega

/-- What is behind the first 53 digits does not count for those in front. -/
theorem two_pow_mul_excess_le {n : Nat} (h : 52 ≤ n.log2) : 2 ^ 52 * 2 ^ excess n ≤ n := by
  have hlog : 52 + excess n = n.log2 := by
    unfold excess
    omega
  have hne : n ≠ 0 := by
    rintro rfl
    simp at h
  rw [← Nat.pow_add, hlog]
  exact Nat.log2_self_le hne

theorem two_pow_mul_succ (k : Nat) : 2 ^ 53 * 2 ^ k = 2 ^ 52 * 2 ^ (k + 1) := by
  rw [← Nat.pow_add, ← Nat.pow_add, Nat.add_comm k 1, ← Nat.add_assoc]

/-- A double is a multiple of a power of two, or has no 53 digits in front of it. -/
theorem eq_mul_or_lt {m : Nat} (hm : m < 2 ^ 53) (j k : Nat) :
    (∃ i, m * 2 ^ j = i * 2 ^ k) ∨ (j < k ∧ m * 2 ^ j < 2 ^ 52 * 2 ^ k) := by
  rcases Nat.lt_or_ge j k with hlt | hge
  · refine .inr ⟨hlt, ?_⟩
    calc m * 2 ^ j < 2 ^ 53 * 2 ^ j := Nat.mul_lt_mul_of_pos_right hm (Nat.two_pow_pos j)
      _ = 2 ^ 52 * 2 ^ (j + 1) := two_pow_mul_succ j
      _ ≤ 2 ^ 52 * 2 ^ k := Nat.mul_le_mul_left _ (Nat.pow_le_pow_right (by decide) hlt)
  · refine .inl ⟨m * 2 ^ (j - k), ?_⟩
    rw [Nat.mul_assoc, ← Nat.pow_add, Nat.sub_add_cancel hge]

theorem isDouble_nearestNat (n : Nat) : IsDouble (nearestNat n) := by
  rcases Nat.lt_or_eq_of_le (halfEven_le n) with hlt | heq
  · exact ⟨halfEven n (excess n), excess n, hlt, rfl⟩
  · refine ⟨2 ^ 52, excess n + 1, by decide, ?_⟩
    rw [Int.natAbs_natCast, nearestNat, heq, two_pow_mul_succ]

/-- Doubles of the size of a number are multiples of the same power of two as the number that it is
rounded to. Those that are smaller, or negative, are not as near as the smallest of this size, or as
zero. -/
theorem eq_mul_or_farther (n : Nat) {d' : Int} (h : IsDouble d') :
    (∃ i : Nat, d' = (i * 2 ^ excess n : Nat)) ∨
      ((n : Int) - nearestNat n).natAbs < ((n : Int) - d').natAbs := by
  obtain ⟨m, j, hm, hd'⟩ := h
  -- The number that is rounded to is at least as near as the smallest of its size, and as zero.
  have hleast := (halfEven_spec n (excess n) (2 ^ 52)).1
  have hzero : ((n : Int) - nearestNat n).natAbs ≤ n := by
    simpa [nearestNat] using (halfEven_spec n (excess n) 0).1
  rw [← nearestNat] at hleast
  -- A double of the other sign is farther than zero is.
  rcases Int.natAbs_eq d' with heq | heq
  · rw [hd'] at heq
    -- A double of smaller size lies below the smallest of this size.
    rcases eq_mul_or_lt hm j (excess n) with ⟨i, hi⟩ | ⟨hlt, hsmall⟩
    · exact .inl ⟨i, by rw [heq, hi]⟩
    · have hfront : 2 ^ 52 * 2 ^ excess n ≤ n := by
        apply two_pow_mul_excess_le
        unfold excess at hlt
        omega
      omega
  · rcases Nat.eq_zero_or_pos d'.natAbs with hnone | hpos
    · exact .inl ⟨0, by omega⟩
    · right
      omega

/-- An even multiple is a multiple of twice the distance to its neighbours. -/
theorem two_mul_sub_dvd {i j : Nat} (p : Nat) (heven : j % 2 = 0) (h : i = j + 1 ∨ i + 1 = j) :
    2 * (((i * p : Nat) : Int) - (j * p : Nat)) ∣ (j * p : Nat) := by
  obtain ⟨c, rfl⟩ := Nat.dvd_of_mod_eq_zero heven
  rcases h with rfl | h
  · refine ⟨c, ?_⟩
    push_cast
    ring
  · have hi : (i : Int) = 2 * c - 1 := by omega
    refine ⟨-c, ?_⟩
    push_cast
    rw [hi]
    ring

theorem isNearest_nearestNat (n : Nat) : IsNearest n (nearestNat n) where
  isDouble := isDouble_nearestNat n
  le d' hd' := by
    rcases eq_mul_or_farther n hd' with ⟨i, rfl⟩ | hlt
    · exact (halfEven_spec n (excess n) i).1
    · exact Nat.le_of_lt hlt
  even d' hd' hne heq := by
    rcases eq_mul_or_farther n hd' with ⟨i, rfl⟩ | hlt
    · have hi : i ≠ halfEven n (excess n) := by
        rintro rfl
        exact hne rfl
      obtain ⟨heven, hneighbour⟩ := (halfEven_spec n (excess n) i).2 hi heq
      exact two_mul_sub_dvd _ heven hneighbour
    · omega

/-! ## Integers -/

theorem IsDouble.neg {d : Int} (h : IsDouble d) : IsDouble (-d) := by
  obtain ⟨m, k, hm, hd⟩ := h
  exact ⟨m, k, hm, by rw [Int.natAbs_neg, hd]⟩

/-- Rounding does not depend on the sign. -/
theorem IsNearest.neg {n d : Int} (h : IsNearest n d) : IsNearest (-n) (-d) := by
  refine ⟨h.isDouble.neg, fun d' hd' => ?_, fun d' hd' hne heq => ?_⟩
  · have hle := h.le (-d') hd'.neg
    omega
  · have heven := h.even (-d') hd'.neg (by omega) (by omega)
    have hswap : 2 * (-d' - d) = -(2 * (d' - -d)) := by omega
    rw [hswap, Int.neg_dvd] at heven
    exact Int.dvd_neg.2 heven

theorem nearestDouble_natCast (n : Nat) : nearestDouble n = nearestNat n := by
  rcases Nat.eq_zero_or_pos n with rfl | hpos
  · rfl
  · rw [nearestDouble, Int.natAbs_natCast, Int.sign_eq_one_of_pos (by omega), Int.one_mul]

theorem nearestDouble_neg (n : Int) : nearestDouble (-n) = -nearestDouble n := by
  rw [nearestDouble, nearestDouble, Int.sign_neg, Int.natAbs_neg, Int.neg_mul]

/-- Rounding gives the nearest double. -/
theorem isNearest_nearestDouble (n : Int) : IsNearest n (nearestDouble n) := by
  rcases Int.natAbs_eq n with heq | heq
  · rw [heq, nearestDouble_natCast]
    exact isNearest_nearestNat n.natAbs
  · rw [heq, nearestDouble_neg, nearestDouble_natCast]
    exact (isNearest_nearestNat n.natAbs).neg

variable {a b n : Int}

/-- Rounding keeps the order. -/
theorem nearestDouble_mono (h : a ≤ b) : nearestDouble a ≤ nearestDouble b := by
  have ha := (isNearest_nearestDouble a).le (nearestDouble b) (isNearest_nearestDouble b).isDouble
  have hb := (isNearest_nearestDouble b).le (nearestDouble a) (isNearest_nearestDouble a).isDouble
  -- If the order were turned round, both would lie in the middle of the two doubles.
  by_contra hlt
  have hab : a = b := by omega
  rw [hab] at hlt
  exact hlt (Int.le_refl _)

/-- A double is nearest to itself. -/
theorem nearestDouble_eq_self (h : IsDouble n) : nearestDouble n = n := by
  have hle := (isNearest_nearestDouble n).le n h
  omega

theorem isDouble_of_natAbs_le (h : n.natAbs ≤ 2 ^ 53) : IsDouble n := by
  rcases Nat.lt_or_eq_of_le h with hlt | heq
  · exact ⟨n.natAbs, 0, hlt, by rw [Nat.pow_zero, Nat.mul_one]⟩
  · exact ⟨2 ^ 52, 1, by decide, heq⟩

/-- Integers of at most 2^53 are rounded to themselves, and the others keep beyond them. -/
theorem nearestDouble_eq_self_of_natAbs_le (h : n.natAbs ≤ 2 ^ 53) : nearestDouble n = n :=
  nearestDouble_eq_self (isDouble_of_natAbs_le h)

/-- Rounding makes two integers equal only if both are beyond 2^53, or are that. -/
theorem le_natAbs_of_nearestDouble_eq (h : nearestDouble a = nearestDouble b) (hne : a ≠ b) :
    2 ^ 53 ≤ a.natAbs := by
  by_contra hlt
  have ha : nearestDouble a = a := nearestDouble_eq_self_of_natAbs_le (by omega)
  have hhigh : nearestDouble (2 ^ 53) = 2 ^ 53 := nearestDouble_eq_self_of_natAbs_le (by decide)
  have hlow : nearestDouble (-2 ^ 53) = -2 ^ 53 := nearestDouble_eq_self_of_natAbs_le (by decide)
  rcases Nat.lt_or_ge (2 ^ 53) b.natAbs with hb | hb
  · rcases Int.natAbs_eq b with heq | heq
    · have hmono : nearestDouble (2 ^ 53) ≤ nearestDouble b := nearestDouble_mono (by omega)
      omega
    · have hmono : nearestDouble b ≤ nearestDouble (-2 ^ 53) := nearestDouble_mono (by omega)
      omega
  · have hb : nearestDouble b = b := nearestDouble_eq_self_of_natAbs_le hb
    omega

/-- Beyond 2^53 neighbours are rounded to the same double. -/
example : nearestDouble (2 ^ 53 + 1) = 2 ^ 53 := by decide

end LayeredAccess.Decimal
