/-
  LayeredAccess.Proofs.Decimal.Doubles

  Integers as doubles, bit by bit. The mantissa of a double is shifted to its 53
  digits, with a round bit and a sticky bit that tell of the digits that are
  lost, and is rounded by them. So an integer becomes the nearest double
  (`standsFor_ofInt`), and doubles are compared as the integers that they stand
  for.
-/
import LayeredAccess.Proofs.Decimal.Nearest

namespace LayeredAccess.Decimal

open Float.Model Float.Model.UnpackedFloat

/-! ## Shifted mantissas -/

/-- What the round bit and the sticky bit tell of a remainder. -/
def Tells (roundBit stickyBit : Bool) (remainder power : Nat) : Prop :=
  match roundBit, stickyBit with
  | false, false => remainder = 0
  | false, true => 0 < remainder ∧ 2 * remainder < power
  | true, false => 2 * remainder = power
  | true, true => power < 2 * remainder

/-- A shift divides by a power of two, and tells of the remainder. -/
theorem shiftRight_spec (n k : Nat) :
    let em := ExtendedMantissa.ofMantissaAndAccuracy n .exact >>> k
    em.mantissa = n / 2 ^ k ∧ Tells em.roundBit em.stickyBit (n % 2 ^ k) (2 ^ k) := by
  -- By one digit after the other: the last digit of the quotient becomes the round bit.
  induction k with
  | zero =>
    rw [Nat.pow_zero, Nat.div_one, Nat.mod_one]
    exact ⟨rfl, rfl⟩
  | succ k ih =>
    intro em
    have hstep : em =
        (ExtendedMantissa.ofMantissaAndAccuracy n .exact >>> k).shiftRightOne := rfl
    generalize ExtendedMantissa.ofMantissaAndAccuracy n .exact >>> k = before at ih hstep
    obtain ⟨hmantissa, htells⟩ := ih
    have hmod : n % 2 ^ (k + 1) = n % 2 ^ k + 2 ^ k * (n / 2 ^ k % 2) := by
      rw [Nat.pow_succ, Nat.mod_mul]
    have hlt := Nat.mod_lt n (Nat.two_pow_pos k)
    rw [hstep, ExtendedMantissa.shiftRightOne, hmod, Nat.pow_succ, hmantissa]
    refine ⟨Nat.div_div_eq_div_mul _ _ _, ?_⟩
    generalize n % 2 ^ k = r at *
    generalize 2 ^ k = p at *
    rcases Nat.mod_two_eq_zero_or_one (n / p) with hlast | hlast
    all_goals
      rw [hlast]
      cases hround : before.roundBit
      all_goals
        cases hsticky : before.stickyBit
        all_goals
          simp only [hround, hsticky, Tells] at htells
          simp [Tells]
          omega

/-- A shifted mantissa is rounded to the nearest number, and to the even one of two. -/
theorem roundedMantissa_shiftRight (n k : Nat) :
    (ExtendedMantissa.ofMantissaAndAccuracy n .exact >>> k).roundedMantissa = halfEven n k := by
  obtain ⟨hmantissa, htells⟩ := shiftRight_spec n k
  generalize ExtendedMantissa.ofMantissaAndAccuracy n .exact >>> k = em at *
  obtain ⟨mantissa, roundBit, stickyBit⟩ := em
  dsimp only at hmantissa htells
  have hpos := Nat.two_pow_pos k
  rw [halfEven, ← hmantissa]
  cases roundBit <;> cases stickyBit <;> simp only [Tells] at htells
  · rw [if_pos (by omega)]
    rfl
  · rw [if_pos htells.2]
    rfl
  · rw [if_neg (by omega), if_pos htells]
    rfl
  · rw [if_neg (by omega), if_neg (by omega)]
    rfl

/-! ## Rounding to 53 digits -/

theorem log2_mul_two_pow {n : Nat} (hn : n ≠ 0) (t : Nat) : (n * 2 ^ t).log2 = n.log2 + t := by
  have hne : n * 2 ^ t ≠ 0 := Nat.mul_ne_zero hn (Nat.two_pow_pos t).ne'
  rw [Nat.log2_eq_iff hne]
  have hlow := Nat.log2_self_le hn
  have hhigh := Nat.lt_log2_self (n := n)
  constructor
  · rw [Nat.pow_add]
    exact Nat.mul_le_mul_right _ hlow
  · rw [Nat.add_right_comm, Nat.pow_add]
    exact Nat.mul_lt_mul_of_pos_right hhigh (Nat.two_pow_pos t)

/-- A power of two makes no difference for rounding. -/
theorem halfEven_mul_two_pow (n k t : Nat) : halfEven (n * 2 ^ t) (k + t) = halfEven n k := by
  have hpos := Nat.two_pow_pos t
  rw [halfEven, halfEven, Nat.pow_add, Nat.mul_div_mul_right _ _ hpos, Nat.mul_mod_mul_right,
    ← Nat.mul_assoc]
  simp only [Nat.mul_lt_mul_right hpos, Nat.mul_left_inj hpos.ne']

/-- The target is reached by as many shifts as there are digits behind the first 53. -/
theorem shiftToTargetExponent_exact {n : Nat} (hn : 52 ≤ n.log2) {e : Int} (he : -1074 ≤ e) :
    shiftToTargetExponent Format.binary64 n e .exact =
      (ExtendedMantissa.ofMantissaAndAccuracy n .exact >>> excess n, e + excess n) := by
  have htarget : (Format.binary64.targetExponent (totalExponent n e) - e).toNat = excess n := by
    have hbits : Format.binary64.mantissaBits = 53 := rfl
    simp only [Format.targetExponent, totalExponent, hbits, Format.minExponent, excess]
    omega
  rw [shiftToTargetExponent, shiftToExponent, htarget]

/-- A number of 53 digits or more has 53 digits when it is rounded, or is the next power of two. -/
theorem le_halfEven {n : Nat} (hn : 52 ≤ n.log2) : 2 ^ 52 ≤ halfEven n (excess n) := by
  have hdigits : 2 ^ 52 ≤ n / 2 ^ excess n := by
    rw [Nat.le_div_iff_mul_le (Nat.two_pow_pos _)]
    exact two_pow_mul_excess_le hn
  rcases halfEven_cases n (excess n) with ⟨heq, -⟩ | ⟨heq, -⟩
  · omega
  · omega

/-- A zero, or 53 digits with the place of the last one, that stand for an integer. -/
inductive Represents : UnpackedFloat → Int → Prop where
  | zero (s : Sign) : Represents (.zero s) 0
  | finite (s : Sign) {m j d : Nat} (hm : 0 < m) (hlow : 2 ^ 52 ≤ m) (hhigh : m < 2 ^ 53)
    (hj : j ≤ 1023) (hd : d * 2 ^ 52 = m * 2 ^ j) :
    Represents (.finite s m ((j : Int) - 52) hm) (s.apply d)

theorem halfEven_zero (n : Nat) : halfEven n 0 = n := by
  simp [halfEven, Nat.mod_one]

/-- What has been rounded is shifted to 53 digits once more. -/
theorem represents_of_shifted (s : Sign) {n m j d : Nat} {e e' e'' : Int}
    {rounded shifted : ExtendedMantissa}
    (hrounded : shiftToTargetExponent Format.binary64 n e .exact = (rounded, e'))
    (hm : rounded.roundedMantissa = m)
    (hshifted : shiftToTargetExponent Format.binary64 m e' .exact = (shifted, e''))
    (hlow : 2 ^ 52 ≤ shifted.mantissa) (hhigh : shifted.mantissa < 2 ^ 53) (hj : j ≤ 1023)
    (hd : d * 2 ^ 52 = shifted.mantissa * 2 ^ j) (he : e'' = j - 52) :
    Represents (roundWithAccuracy Format.binary64 s n e .exact) (s.apply d) := by
  subst hm he
  rw [roundWithAccuracy, hrounded]
  dsimp only
  rw [hshifted]
  dsimp only
  rw [dif_neg (by omega)]
  exact .finite s _ hlow hhigh hj hd

/-- What is rounded to 53 digits stands for the rounded number. -/
theorem represents_roundWithAccuracy (s : Sign) {n j d : Nat} (hn : 52 ≤ n.log2) {e : Int}
    (he : -1074 ≤ e) (hj : e + excess n = j - 52) (hlast : j ≤ 1023)
    (hcarry : halfEven n (excess n) = 2 ^ 53 → j < 1023)
    (hd : d * 2 ^ 52 = halfEven n (excess n) * 2 ^ j) :
    Represents (roundWithAccuracy Format.binary64 s n e .exact) (s.apply d) := by
  have hrounded := shiftToTargetExponent_exact hn he
  have hm := roundedMantissa_shiftRight n (excess n)
  have hlow := le_halfEven hn
  have hhigh := halfEven_le n
  generalize halfEven n (excess n) = m at *
  have hdigits : 52 ≤ m.log2 := by
    rwa [Nat.le_log2 (by omega)]
  have hshifted := shiftToTargetExponent_exact hdigits
    (show -1074 ≤ e + (excess n : Int) by omega)
  have hmantissa := (shiftRight_spec m (excess m)).1
  -- Rounding up may have given one digit more, and then the last digit is zero.
  rcases Nat.lt_or_eq_of_le hhigh with hlt | rfl
  · have hnone : excess m = 0 := by
      have hlog : m.log2 < 53 := (Nat.log2_lt (by omega)).2 hlt
      unfold excess
      omega
    rw [hnone, Nat.pow_zero, Nat.div_one] at hmantissa
    rw [hnone] at hshifted
    apply represents_of_shifted s hrounded hm hshifted
    · rwa [hmantissa]
    · rwa [hmantissa]
    · exact hlast
    · rwa [hmantissa]
    · omega
  · have hone : excess (2 ^ 53) = 1 := by
      rw [excess, Nat.log2_two_pow]
    rw [hone] at hmantissa hshifted
    apply represents_of_shifted s hrounded hm hshifted
    · rw [hmantissa]
      decide
    · rw [hmantissa]
      decide
    · exact hcarry rfl
    · rw [hmantissa, hd, two_pow_mul_succ]
      rfl
    · omega

/-! ## Packing -/

/-- The first of the 53 digits is not stored, as it is a one. -/
theorem toNat_one_append {m : Nat} (hlow : 2 ^ 52 ≤ m) (hhigh : m < 2 ^ 53) :
    (1#1 ++ BitVec.ofNat 52 m).toNat = m := by
  have hrest : (BitVec.ofNat 52 m).toNat = m - 2 ^ 52 := by
    rw [BitVec.toNat_ofNat]
    omega
  have hlt : m - 2 ^ 52 < 2 ^ 52 := by omega
  rw [BitVec.toNat_append, hrest, ← Nat.shiftLeft_add_eq_or_of_lt hlt, Nat.shiftLeft_eq]
  show 1 * 2 ^ 52 + (m - 2 ^ 52) = m
  omega

/-- The sign is stored ahead of the other bits. -/
theorem sign_packComponents (s : Sign) (e : BitVec 11) (m : BitVec 52) :
    Sign.ofBitVec (unpackSign (packComponents Format.binary64 s e m)) = s := by
  have hfirst : unpackSign (packComponents Format.binary64 s e m) =
      BitVec.extractLsb' 63 1 (s.toBitVec ++ e ++ m) := rfl
  rw [hfirst, BitVec.extractLsb'_append_eq_of_le (by decide),
    BitVec.extractLsb'_append_eq_of_le (by decide)]
  cases s <;> rfl

/-- What is stored is the sign, the exponent and the digits behind the first. -/
theorem pack_finite (s : Sign) {m j : Nat} (hm : 0 < m) (hlog : m.log2 = 52) (hj : j ≤ 1023) :
    UnpackedFloat.pack Format.binary64 (.finite s m ((j : Int) - 52) hm) =
      packComponents Format.binary64 s (BitVec.ofNat 11 (j + 1023)) (BitVec.ofNat 52 m) := by
  have hbiased : ((j : Int) - 52 + Format.binary64.exponentBias +
      Format.binary64.mantissaBitsWithoutImplicit).toNat = j + 1023 := by
    show ((j : Int) - 52 + 1023 + 52).toNat = j + 1023
    omega
  show (if 2 ^ 11 ≤ _ + 1 then _ else if m.log2 + 1 = 53 then
    packComponents Format.binary64 s (BitVec.ofNat 11 _) (BitVec.ofNat 52 m) else _) = _
  rw [hbiased, if_neg (by omega), if_pos (by rw [hlog])]

/-- A double is stored as it is. -/
theorem unpack_pack {u : UnpackedFloat} {d : Int} (h : Represents u d) :
    (Float.Model.pack u).unpack = u := by
  show UnpackedFloat.unpack Format.binary64 (UnpackedFloat.pack Format.binary64 u) = u
  cases h with
  | zero s => cases s <;> rfl
  | @finite s m j d hm hlow hhigh hj hd =>
    rw [pack_finite s hm ((Nat.log2_eq_iff (by omega)).2 ⟨hlow, hhigh⟩) hj]
    -- The exponent is neither that of infinity nor that of zero.
    have hexponent : (BitVec.ofNat 11 (j + 1023)).toNat = j + 1023 := by
      rw [BitVec.toNat_ofNat]
      omega
    have hinfinity : BitVec.ofNat 11 (j + 1023) ≠ -1#11 := by
      intro h
      have hnat := congrArg BitVec.toNat h
      rw [hexponent, show (-1#11).toNat = 2047 from rfl] at hnat
      omega
    have hzero : BitVec.ofNat 11 (j + 1023) ≠ 0#11 := by
      intro h
      have hnat := congrArg BitVec.toNat h
      rw [hexponent, show (0#11).toNat = 0 from rfl] at hnat
      omega
    -- Unpacking is opened before the bits are looked at.
    generalize hbits : packComponents Format.binary64 s _ _ = bits
    show (if unpackExponent bits = -1#11 then _ else if unpackExponent bits = 0#11 then _ else
      finite (Sign.ofBitVec (unpackSign bits)) (1#1 ++ unpackMantissa bits).toNat
        (((unpackExponent bits).toNat : Int) - (1023 + 52)) _) = _
    subst hbits
    rw [if_neg (by rwa [unpackExponent_packComponents]),
      if_neg (by rwa [unpackExponent_packComponents]), finite.injEq, sign_packComponents,
      unpackMantissa_packComponents, unpackExponent_packComponents, toNat_one_append hlow hhigh,
      hexponent]
    exact ⟨rfl, rfl, by omega⟩

/-! ## Comparing -/

theorem Represents.neg {u : UnpackedFloat} {d : Int} (h : Represents u d) :
    Represents u.neg (-d) := by
  cases h with
  | zero s => exact .zero (-s)
  | @finite s m j d hm hlow hhigh hj hd =>
    have hopposite : -s.apply d = (-s).apply d := by
      cases s
      · exact Int.neg_neg _
      · rfl
    rw [hopposite]
    exact .finite (-s) hm hlow hhigh hj hd

theorem pos_of_digits {m j d : Nat} (hm : 0 < m) (hd : d * 2 ^ 52 = m * 2 ^ j) : 0 < d := by
  have hpos := Nat.mul_pos hm (Nat.two_pow_pos j)
  rw [← hd] at hpos
  exact Nat.pos_of_mul_pos_right hpos

/-- Of two numbers with 53 digits the one whose last digit is further in front is the greater. -/
theorem lt_of_place_lt {m m' j j' d d' : Nat} (hhigh : m < 2 ^ 53) (hlow' : 2 ^ 52 ≤ m')
    (hd : d * 2 ^ 52 = m * 2 ^ j) (hd' : d' * 2 ^ 52 = m' * 2 ^ j') (hj : j < j') : d < d' := by
  have hlt : d * 2 ^ 52 < d' * 2 ^ 52 := calc
    d * 2 ^ 52 = m * 2 ^ j := hd
    _ < 2 ^ 53 * 2 ^ j := Nat.mul_lt_mul_of_pos_right hhigh (Nat.two_pow_pos j)
    _ = 2 ^ 52 * 2 ^ (j + 1) := two_pow_mul_succ j
    _ ≤ 2 ^ 52 * 2 ^ j' := Nat.mul_le_mul_left _ (Nat.pow_le_pow_right (by decide) hj)
    _ ≤ m' * 2 ^ j' := Nat.mul_le_mul_right _ hlow'
    _ = d' * 2 ^ 52 := hd'.symm
  exact Nat.lt_of_mul_lt_mul_right hlt

/-- Positive doubles are compared by the places of their last digits, and then by the digits. -/
theorem compare_digits {m m' j j' d d' : Nat} (hlow : 2 ^ 52 ≤ m) (hhigh : m < 2 ^ 53)
    (hlow' : 2 ^ 52 ≤ m') (hhigh' : m' < 2 ^ 53) (hd : d * 2 ^ 52 = m * 2 ^ j)
    (hd' : d' * 2 ^ 52 = m' * 2 ^ j') :
    (compare ((j : Int) - 52) (j' - 52)).then (compare m m') = compare (d : Int) d' := by
  -- By the places of the last digits; only if these are the same do the digits decide.
  rcases Nat.lt_trichotomy j j' with hj | rfl | hj
  · have hlt := lt_of_place_lt hhigh hlow' hd hd' hj
    rw [Std.compare_eq_lt.2 (show (j : Int) - 52 < j' - 52 by omega),
      Std.compare_eq_lt.2 (show (d : Int) < d' by omega)]
    rfl
  · have hsame : ∀ {m m' d d' : Nat}, d * 2 ^ 52 = m * 2 ^ j → d' * 2 ^ 52 = m' * 2 ^ j → m < m' →
        d < d' := by
      intro m m' d d' hd hd' hm
      have hlt := Nat.mul_lt_mul_of_pos_right hm (Nat.two_pow_pos j)
      rw [← hd, ← hd'] at hlt
      exact Nat.lt_of_mul_lt_mul_right hlt
    rw [Std.compare_self, Ordering.then]
    rcases Nat.lt_trichotomy m m' with hm | rfl | hm
    · rw [Std.compare_eq_lt.2 hm,
        Std.compare_eq_lt.2 (show (d : Int) < d' by have := hsame hd hd' hm; omega)]
    · obtain rfl : d = d' := Nat.eq_of_mul_eq_mul_right (by decide) (hd.trans hd'.symm)
      rw [Std.compare_self, Std.compare_self]
    · rw [Std.compare_eq_gt.2 hm,
        Std.compare_eq_gt.2 (show (d' : Int) < d by have := hsame hd' hd hm; omega)]
  · have hlt := lt_of_place_lt hhigh' hlow hd' hd hj
    rw [Std.compare_eq_gt.2 (show (j' : Int) - 52 < j - 52 by omega),
      Std.compare_eq_gt.2 (show (d' : Int) < d by omega)]
    rfl

theorem swap_compare (a b : Int) : (compare a b).swap = compare (-a) (-b) := by
  rcases Int.lt_trichotomy a b with hlt | rfl | hgt
  · rw [Std.compare_eq_lt.2 hlt, Std.compare_eq_gt.2 (show -b < -a by omega)]
    rfl
  · rw [Std.compare_self, Std.compare_self]
    rfl
  · rw [Std.compare_eq_gt.2 hgt, Std.compare_eq_lt.2 (show -a < -b by omega)]
    rfl

/-- Doubles are compared as the integers that they stand for. -/
theorem compare_of_represents {u u' : UnpackedFloat} {d d' : Int} (h : Represents u d)
    (h' : Represents u' d') : u.compare u' = some (compare d d') := by
  -- Zero has no digits, so numbers of different sign or size are compared by that alone.
  cases h with
  | zero s =>
    cases h' with
    | zero s' => rfl
    | @finite s' m' j' d' hm' hlow' hhigh' hj' hd' =>
      have hpos := pos_of_digits hm' hd'
      cases s' with
      | negative =>
        have hgt : compare 0 (-(d' : Int)) = .gt := Std.compare_eq_gt.2 (by omega)
        exact congrArg some hgt.symm
      | positive =>
        have hlt : compare 0 (d' : Int) = .lt := Std.compare_eq_lt.2 (by omega)
        exact congrArg some hlt.symm
  | @finite s m j d hm hlow hhigh hj hd =>
    have hpos := pos_of_digits hm hd
    cases h' with
    | zero s' =>
      cases s with
      | negative =>
        have hlt : compare (-(d : Int)) 0 = .lt := Std.compare_eq_lt.2 (by omega)
        exact congrArg some hlt.symm
      | positive =>
        have hgt : compare (d : Int) 0 = .gt := Std.compare_eq_gt.2 (by omega)
        exact congrArg some hgt.symm
    | @finite s' m' j' d' hm' hlow' hhigh' hj' hd' =>
      have hpos' := pos_of_digits hm' hd'
      -- Negative numbers are compared the other way round.
      have hdigits := compare_digits hlow hhigh hlow' hhigh' hd hd'
      cases s with
      | negative =>
        cases s' with
        | negative =>
          have hswap := swap_compare d d'
          rw [← hdigits] at hswap
          exact congrArg some hswap
        | positive =>
          have hlt : compare (-(d : Int)) d' = .lt := Std.compare_eq_lt.2 (by omega)
          exact congrArg some hlt.symm
      | positive =>
        cases s' with
        | negative =>
          have hgt : compare (d : Int) (-(d' : Int)) = .gt := Std.compare_eq_gt.2 (by omega)
          exact congrArg some hgt.symm
        | positive => exact congrArg some hdigits

/-! ## Integers as doubles -/

/-- Does a double stand for an integer? -/
def StandsFor (x : Float) (d : Int) : Prop := Represents x.toModel.unpack d

theorem standsFor_pack {u : UnpackedFloat} {d : Int} (h : Represents u d) :
    StandsFor (.ofModel (.pack u)) d := by
  show Represents (Float.Model.pack u).unpack d
  rwa [unpack_pack h]

variable {x y : Float} {a b : Int}

theorem StandsFor.neg (h : StandsFor x a) : StandsFor x.neg (-a) :=
  standsFor_pack (Represents.neg h)

theorem StandsFor.le_iff (hx : StandsFor x a) (hy : StandsFor y b) : x ≤ y ↔ a ≤ b := by
  have hcompare := compare_of_represents hx hy
  show (decide (x.toModel ≤ y.toModel) = true) ↔ a ≤ b
  rw [decide_eq_true_iff]
  show (x.toModel.unpack.compare y.toModel.unpack).any (·.isLE) = true ↔ a ≤ b
  rw [hcompare]
  exact Std.isLE_compare

theorem StandsFor.lt_iff (hx : StandsFor x a) (hy : StandsFor y b) : x < y ↔ a < b := by
  have hcompare := compare_of_represents hx hy
  show (decide (x.toModel < y.toModel) = true) ↔ a < b
  rw [decide_eq_true_iff]
  show (x.toModel.unpack.compare y.toModel.unpack == some .lt) = true ↔ a < b
  rw [hcompare, beq_iff_eq, Option.some_inj]
  exact Std.compare_eq_lt

/-- A double times one is itself. -/
theorem Represents.mul_one {u : UnpackedFloat} {d : Int} (h : Represents u d) :
    Represents (UnpackedFloat.mul Format.binary64 u
      (.finite .positive (2 ^ 52) (-52) (by decide))) d := by
  cases h with
  | zero s => exact .zero _
  | @finite s m j d hm hlow hhigh hj hd =>
    -- The product has as many more digits as the one has, and these are cut off again.
    have hsign : s * .positive = s := by cases s <;> rfl
    have hlog : m.log2 = 52 := (Nat.log2_eq_iff (by omega)).2 ⟨hlow, hhigh⟩
    have hexcess : excess (m * 2 ^ 52) = 0 + 52 := by
      rw [excess, log2_mul_two_pow (by omega), hlog]
    have hround : halfEven (m * 2 ^ 52) (excess (m * 2 ^ 52)) = m := by
      rw [hexcess, halfEven_mul_two_pow, halfEven_zero]
    show Represents (roundWithAccuracy Format.binary64 (s * .positive) (m * 2 ^ 52)
      ((j : Int) - 52 + -52) .exact) (s.apply d)
    rw [hsign]
    apply represents_roundWithAccuracy s (j := j)
    · rw [log2_mul_two_pow (by omega)]
      omega
    · omega
    · rw [hexcess]
      omega
    · exact hj
    · intro hcarry
      omega
    · rw [hround, hd]

theorem StandsFor.mul_one (h : StandsFor x a) :
    StandsFor (x * Float.ofBits 0x3FF0000000000000) a := by
  have hone : (Float.ofBits 0x3FF0000000000000).toModel.unpack =
      .finite .positive (2 ^ 52) (-52) (by decide) := rfl
  show StandsFor (.ofModel (.pack (UnpackedFloat.mul Format.binary64 x.toModel.unpack
    (Float.ofBits 0x3FF0000000000000).toModel.unpack))) a
  rw [hone]
  exact standsFor_pack (Represents.mul_one h)

/-- A number of up to 53 digits is filled up to 53. -/
theorem represents_ofNat {n : Nat} (hn : n < 2 ^ 53) :
    Represents (UnpackedFloat.ofNat Format.binary64 n) n := by
  rcases Nat.eq_zero_or_pos n with rfl | hpos
  · exact .zero .positive
  · have hgt : compare (n : Int) 0 = .gt := Std.compare_eq_gt.2 (by omega)
    have hlog : n.log2 < 53 := (Nat.log2_lt (by omega)).2 hn
    -- The exponent goes down until there are 53 digits; nothing is lost.
    have hfill : decreaseExponent n 0 (Format.binary64.targetExponent (totalExponent n 0)) =
        (n * 2 ^ (52 - n.log2), (n.log2 : Int) - 52) := by
      have htarget : Format.binary64.targetExponent (totalExponent n 0) = (n.log2 : Int) - 52 := by
        have hbits : Format.binary64.mantissaBits = 53 := rfl
        simp only [Format.targetExponent, totalExponent, hbits, Format.minExponent]
        omega
      have hshift : (0 - ((n.log2 : Int) - 52)).toNat = 52 - n.log2 := by omega
      rw [decreaseExponent, htarget, hshift, Nat.shiftLeft_eq]
      exact Prod.ext rfl (by show (0 : Int) - ((52 - n.log2 : Nat) : Int) = _; omega)
    have hfull : (n * 2 ^ (52 - n.log2)).log2 = 52 := by
      rw [log2_mul_two_pow (by omega)]
      omega
    have hnone : excess (n * 2 ^ (52 - n.log2)) = 0 := by rw [excess, hfull]
    rw [UnpackedFloat.ofNat, UnpackedFloat.ofInt, UnpackedFloat.normalize, hgt]
    simp only [UnpackedFloat.round, Int.toNat_natCast, hfill]
    apply represents_roundWithAccuracy .positive (j := n.log2)
    · exact hfull.ge
    · omega
    · rw [hnone]
      omega
    · omega
    · intro hcarry
      omega
    · rw [hnone, halfEven_zero, Nat.mul_assoc, ← Nat.pow_add, Nat.sub_add_cancel (by omega)]

theorem ofScientific_zero {n : Nat} (hn : n ≠ 0) :
    UnpackedFloat.ofScientific Format.binary64 n 0 =
      roundWithAccuracy Format.binary64 .positive (n * 2 ^ 53) (-53) .exact := by
  have hsmall : ¬ (0 : Int) < -((2 : Int) ^ 11 + n.log2) := by omega
  rw [UnpackedFloat.ofScientific, dif_neg hn, if_neg (by decide), if_neg hsmall,
    if_pos (by decide)]
  show roundWithAccuracy Format.binary64 .positive (n <<< 53 * 1) (-53 + 0) .exact = _
  rw [Nat.shiftLeft_eq, Nat.mul_one, Int.add_zero]

/-- A greater number is rounded. -/
theorem represents_ofScientific {n : Nat} (hlow : 2 ^ 53 ≤ n) (hhigh : n < 2 ^ 65) :
    Represents (UnpackedFloat.ofScientific Format.binary64 n 0) (nearestNat n) := by
  -- There are more than 53 digits, but not so many that the exponent runs out.
  have hlog : 53 ≤ n.log2 := (Nat.le_log2 (by omega)).2 hlow
  have hlog' : n.log2 < 65 := (Nat.log2_lt (by omega)).2 hhigh
  have hexcess : excess (n * 2 ^ 53) = excess n + 53 := by
    rw [excess, excess, log2_mul_two_pow (by omega)]
    omega
  have hround : halfEven (n * 2 ^ 53) (excess (n * 2 ^ 53)) = halfEven n (excess n) := by
    rw [hexcess, halfEven_mul_two_pow]
  rw [ofScientific_zero (by omega)]
  apply represents_roundWithAccuracy .positive (j := excess n + 52)
  · rw [log2_mul_two_pow (by omega)]
    omega
  · omega
  · rw [hexcess]
    omega
  · unfold excess
    omega
  · unfold excess
    omega
  · rw [hround, nearestNat, Nat.mul_assoc, ← Nat.pow_add]

theorem standsFor_ofNat {n : Nat} (hn : n < 2 ^ 65) : StandsFor (Float.ofNat n) (nearestNat n) := by
  show StandsFor (Float.ofScientific n false 0) (nearestNat n)
  rcases Nat.lt_or_ge n (2 ^ 53) with hlt | hge
  · have hword : n.toUInt64.toNat = n := by
      show n % 2 ^ 64 = n
      omega
    have hexact : (nearestNat n : Int) = n := by
      rw [← nearestDouble_natCast, nearestDouble_eq_self_of_natAbs_le (by omega)]
    rw [Float.ofScientific, dif_pos ⟨hlt, by decide⟩, hexact]
    apply StandsFor.mul_one (standsFor_pack _)
    rw [UnpackedFloat.ofUInt64, hword]
    exact represents_ofNat hlt
  · rw [Float.ofScientific, dif_neg (by omega)]
    exact standsFor_pack (represents_ofScientific hge hn)

/-- An integer becomes the nearest double. -/
theorem standsFor_ofInt {n : Int} (hn : n.natAbs < 2 ^ 65) :
    StandsFor (Float.ofInt n) (nearestDouble n) := by
  cases n with
  | ofNat n =>
    show StandsFor (Float.ofNat n) (nearestDouble (n : Int))
    rw [nearestDouble_natCast]
    exact standsFor_ofNat hn
  | negSucc n =>
    show StandsFor (Float.ofNat (n + 1)).neg (nearestDouble (-((n + 1 : Nat) : Int)))
    rw [nearestDouble_neg, nearestDouble_natCast]
    exact (standsFor_ofNat hn).neg

end LayeredAccess.Decimal
