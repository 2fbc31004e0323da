import BranchingStory.Number.Shortest
import BranchingStory.Proofs.Decimals

/-
  This file is about the numbers that round to a double: they
  lie in an interval around it, half a unit to either side,
  and a quarter below a power of two.  Each number in the
  interval is rounded to the bits of the double.

  Key definitions include:
    * `Finite.low`
    * `Finite.high`
    * `Finite.Attracts`
    * `Finite.IsRounded`

  Key theorems include:
    * `ratioLog_of_between`
    * `roundQuotient_of_near`
    * `nearestBits_of_attracts`
    * `nearestDouble_of_attracts`
-/

------------------------------------------------------------
-- Logarithms
------------------------------------------------------------

namespace BranchingStory

variable {num den : Nat}
variable {r : ℚ}

/- A ratio lies between two powers of two around its size. -/
theorem log2_sub_bounds
    (hDen : 0 < den)
    (hRatio : (num : ℚ) = r * den)
    (hPositive : 0 < r) :
    (2 : ℚ) ^ ((num.log2 : Int) - den.log2 - 1) < r ∧
      r < 2 ^ ((num.log2 : Int) - den.log2 + 1) := by
  have hDen' : (0 : ℚ) < den := by exact_mod_cast hDen
  have hNum : num ≠ 0 := by
    rintro rfl
    have hProduct : 0 < r * den := by positivity
    rw [← hRatio] at hProduct
    simp at hProduct
  rcases log2_bounds hNum with ⟨hNumLow, hNumHigh⟩
  rcases log2_bounds hDen.ne' with ⟨hDenLow, hDenHigh⟩
  rw [hRatio] at hNumLow hNumHigh
  constructor
  · rw [← mul_lt_mul_iff_left₀ hDen']
    refine lt_of_lt_of_le ?_ hNumLow
    calc
      (2 : ℚ) ^ ((num.log2 : Int) - den.log2 - 1) * den
          < 2 ^ ((num.log2 : Int) - den.log2 - 1) *
              2 ^ ((den.log2 : Int) + 1) := by
        gcongr
      _ = 2 ^ (num.log2 : Int) := by
        rw [← zpow_add₀ (by norm_num)]
        congr 1
        ring
  · rw [← mul_lt_mul_iff_left₀ hDen']
    refine lt_of_lt_of_le hNumHigh ?_
    calc
      (2 : ℚ) ^ ((num.log2 : Int) + 1)
          = 2 ^ ((num.log2 : Int) - den.log2 + 1) *
              2 ^ (den.log2 : Int) := by
        rw [← zpow_add₀ (by norm_num)]
        congr 1
        ring
      _ ≤ 2 ^ ((num.log2 : Int) - den.log2 + 1) * den := by
        gcongr

/-
  The logarithm of a ratio: the ratio is not below that power
  of two, but below the next one.
-/
theorem ratioLog_of_between
    {k : Int}
    (hDen : 0 < den)
    (hRatio : (num : ℚ) = r * den)
    (hLow : 2 ^ k ≤ r)
    (hHigh : r < 2 ^ (k + 1)) :
    ratioLog num den = k := by
  have hTwo : (1 : ℚ) < 2 := by norm_num
  have hDen' : (0 : ℚ) < den := by exact_mod_cast hDen
  have hPositive : 0 < r :=
    lt_of_lt_of_le (by positivity) hLow
  rcases log2_sub_bounds hDen hRatio hPositive with
    ⟨hBelow, hAbove⟩
  have hSize : (num.log2 : Int) - den.log2 - 1 < k + 1 :=
    (zpow_lt_zpow_iff_right₀ hTwo).mp
      (lt_trans hBelow hHigh)
  have hSize' : k < (num.log2 : Int) - den.log2 + 1 :=
    (zpow_lt_zpow_iff_right₀ hTwo).mp
      (lt_of_le_of_lt hLow hAbove)
  have hTest (t : Int) :
      shiftUp den t ≤ shiftUp num (-t) ↔ (2 : ℚ) ^ t ≤ r := by
    rw [shiftUp_le_iff, hRatio, mul_comm,
      mul_le_mul_iff_left₀ hDen']
  rw [ratioLog]
  rcases (by omega :
      (num.log2 : Int) - den.log2 = k ∨
        (num.log2 : Int) - den.log2 = k + 1) with hLog | hLog
  · rw [hLog]
    exact if_pos ((hTest k).mpr hLow)
  · rw [hLog]
    rw [if_neg fun hAtLeast =>
      absurd ((hTest (k + 1)).mp hAtLeast) (not_le.mpr hHigh)]
    exact Int.add_sub_cancel k 1

end BranchingStory

------------------------------------------------------------
-- Rounding
------------------------------------------------------------

namespace BranchingStory

/-
  A quotient is rounded to a number that it is less than one
  half away from.  At one half, even numbers win.
-/
theorem roundQuotient_of_near
    {a b m : Nat}
    {x : ℚ}
    (hSome : 0 < b)
    (hQuotient : (a : ℚ) = x * b)
    (hNear :
      (m - 1 / 2 < x ∧ x < m + 1 / 2) ∨
        (m % 2 = 0 ∧ m - 1 / 2 ≤ x ∧ x ≤ m + 1 / 2)) :
    roundQuotient a b = m := by
  have hSome' : (0 : ℚ) < b := by exact_mod_cast hSome
  -- the distances as whole numbers, in halves of the divisor
  have hWhole :
      (2 * m * b < 2 * a + b ∧ 2 * a < 2 * m * b + b) ∨
        (m % 2 = 0 ∧ 2 * m * b ≤ 2 * a + b ∧
          2 * a ≤ 2 * m * b + b) := by
    simp only [← Nat.cast_le (α := ℚ), ← Nat.cast_lt (α := ℚ)]
    push_cast
    rw [hQuotient]
    rcases hNear with ⟨hLow, hHigh⟩ | ⟨hEven, hLow, hHigh⟩
    · left
      constructor
      · nlinarith
      · nlinarith
    · refine Or.inr ⟨hEven, ?_, ?_⟩
      · nlinarith
      · nlinarith
  have hSplit := Nat.div_add_mod a b
  have hRest := Nat.mod_lt a hSome
  rw [roundQuotient]
  generalize a / b = q at *
  generalize a % b = t at *
  subst hSplit
  rcases Nat.lt_trichotomy q m with hBelow | rfl | hAbove
  · have hProduct : b * (q + 1) ≤ b * m :=
      Nat.mul_le_mul_left b hBelow
    rw [Nat.mul_add] at hProduct
    rw [Nat.mul_assoc 2 m, Nat.mul_comm m] at hWhole
    rcases Nat.lt_or_ge (q + 1) m with hFar | hNext
    · have hFarProduct : b * (q + 2) ≤ b * m :=
        Nat.mul_le_mul_left b hFar
      rw [Nat.mul_add] at hFarProduct
      omega
    · obtain rfl : m = q + 1 := by omega
      rw [Nat.mul_add] at hWhole
      split
      · omega
      · split
        · omega
        · rfl
  · rw [Nat.mul_assoc 2 q, Nat.mul_comm q] at hWhole
    split
    · rfl
    · split
      · omega
      · omega
  · have hProduct : b * (m + 1) ≤ b * q :=
      Nat.mul_le_mul_left b hAbove
    rw [Nat.mul_add] at hProduct
    rw [Nat.mul_assoc 2 m, Nat.mul_comm m] at hWhole
    have hNone : t = 0 ∧ q = m + 1 := by
      refine ⟨by omega, ?_⟩
      by_contra hOther
      have hFarProduct : b * (m + 2) ≤ b * q :=
        Nat.mul_le_mul_left b (by omega)
      rw [Nat.mul_add] at hFarProduct
      omega
    omega

end BranchingStory

------------------------------------------------------------
-- The Interval Of A Double
------------------------------------------------------------

namespace BranchingStory

namespace Finite

/-
  Whether a significand and an exponent are those of a double
  other than zero: the significand has 53 bits, or the exponent
  is the lowest one.
-/
structure IsRounded
    (f : Finite) : Prop where
  some : 0 < f.significand
  bits : f.significand < 2 ^ 53
  lowest : -1074 ≤ f.exponent
  highest : f.exponent ≤ 971
  normal : 2 ^ 52 ≤ f.significand ∨ f.exponent = -1074

/- The bits of a finite double without its sign. -/
def bits
    (f : Finite) : Nat :=
  if f.significand < 2 ^ 52 then f.significand
  else
    (f.exponent + 1075).toNat * 2 ^ 52 +
      (f.significand - 2 ^ 52)

/- The value of a finite double without its sign. -/
def size
    (f : Finite) : ℚ :=
  f.significand * 2 ^ f.exponent

/-
  The lower end of the numbers that round to a finite double:
  half a unit below it, or a quarter where the next double is
  only half as far away.
-/
def low
    (f : Finite) : ℚ :=
  if f.significand = 2 ^ 52 ∧ -1074 < f.exponent then
    (f.significand - 1 / 4) * 2 ^ f.exponent
  else (f.significand - 1 / 2) * 2 ^ f.exponent

/- The upper end of these numbers: half a unit above it. -/
def high
    (f : Finite) : ℚ :=
  (f.significand + 1 / 2) * 2 ^ f.exponent

/-
  Whether a number rounds to a finite double.  The ends of the
  interval do if the significand is even.
-/
def Attracts
    (f : Finite)
    (r : ℚ) : Prop :=
  (f.low < r ∧ r < f.high) ∨
    (f.significand % 2 = 0 ∧ f.low ≤ r ∧ r ≤ f.high)

variable {f : Finite}
variable {r : ℚ}

/- The lower end is not below half a unit. -/
theorem le_low
    (f : Finite) :
    (f.significand - 1 / 2) * 2 ^ f.exponent ≤ f.low := by
  rw [low]
  split
  · gcongr
    norm_num
  · exact le_refl _

/- What rounds to a double lies between the two ends. -/
theorem Attracts.between
    (hNear : f.Attracts r) :
    f.low ≤ r ∧ r ≤ f.high := by
  rcases hNear with ⟨hLow, hHigh⟩ | ⟨_, hLow, hHigh⟩
  · exact ⟨hLow.le, hHigh.le⟩
  · exact ⟨hLow, hHigh⟩

/- What rounds to a double is at least one half of a unit. -/
theorem Attracts.half_le
    (hRounded : f.IsRounded)
    (hNear : f.Attracts r) :
    2 ^ (f.exponent - 1) ≤ r := by
  have hSome : (1 : ℚ) ≤ f.significand := by
    exact_mod_cast hRounded.some
  calc
    (2 : ℚ) ^ (f.exponent - 1) = 1 / 2 * 2 ^ f.exponent := by
      rw [zpow_sub_one₀ (by norm_num)]
      ring
    _ ≤ (f.significand - 1 / 2) * 2 ^ f.exponent := by
      gcongr
      linarith
    _ ≤ f.low := le_low f
    _ ≤ r := hNear.between.1

/- What rounds to a double is positive. -/
theorem Attracts.pos
    (hRounded : f.IsRounded)
    (hNear : f.Attracts r) :
    0 < r :=
  lt_of_lt_of_le (by positivity) (hNear.half_le hRounded)

/- In units of a double, no number is a half away from it. -/
theorem Attracts.scaled
    (hNear : f.Attracts r) :
    (f.significand - 1 / 2 < r / 2 ^ f.exponent ∧
        r / 2 ^ f.exponent < f.significand + 1 / 2) ∨
      (f.significand % 2 = 0 ∧
        f.significand - 1 / 2 ≤ r / 2 ^ f.exponent ∧
        r / 2 ^ f.exponent ≤ f.significand + 1 / 2) := by
  have hUnit : (0 : ℚ) < 2 ^ f.exponent := by positivity
  rw [lt_div_iff₀ hUnit, div_lt_iff₀ hUnit,
    le_div_iff₀ hUnit, div_le_iff₀ hUnit]
  rcases hNear with ⟨hLow, hHigh⟩ | ⟨hEven, hLow, hHigh⟩
  · exact Or.inl ⟨lt_of_le_of_lt (le_low f) hLow, hHigh⟩
  · exact Or.inr ⟨hEven, (le_low f).trans hLow, hHigh⟩

/- What rounds to a double is below the next power of two. -/
theorem Attracts.lt_two_pow
    (hRounded : f.IsRounded)
    (hNear : f.Attracts r) :
    r < 2 ^ (f.exponent + 53) := by
  have hBits : (f.significand : ℚ) + 1 ≤ 2 ^ 53 := by
    exact_mod_cast hRounded.bits
  calc
    r ≤ f.high := hNear.between.2
    _ < 2 ^ 53 * 2 ^ f.exponent := by
      rw [high]
      gcongr
      linarith
    _ = 2 ^ (f.exponent + 53) := by
      rw [add_comm, zpow_add₀ (by norm_num)]
      rfl

/- A double of the usual precision is at least 2 ^ 52 units. -/
theorem Attracts.two_pow_le
    (hNormal : 2 ^ 52 < f.significand)
    (hNear : f.Attracts r) :
    2 ^ (f.exponent + 52) ≤ r := by
  have hBits : (2 : ℚ) ^ 52 + 1 ≤ f.significand := by
    exact_mod_cast hNormal
  calc
    (2 : ℚ) ^ (f.exponent + 52)
        = 2 ^ 52 * 2 ^ f.exponent := by
      rw [add_comm, zpow_add₀ (by norm_num)]
      rfl
    _ ≤ (f.significand - 1 / 2) * 2 ^ f.exponent := by
      gcongr
      linarith
    _ ≤ f.low := le_low f
    _ ≤ r := hNear.between.1

end Finite

end BranchingStory

------------------------------------------------------------
-- Rounding To A Double
------------------------------------------------------------

namespace BranchingStory

variable {num den : Nat}
variable {r : ℚ}
variable {f : Finite}

/- The quotient that is rounded is the ratio in some unit. -/
theorem shiftUp_ratio
    (hRatio : (num : ℚ) = r * den)
    (e : Int) :
    (shiftUp num (-e) : ℚ) = r / 2 ^ e * shiftUp den e := by
  have hUnit : (2 : ℚ) ^ e ≠ 0 := by positivity
  rw [shiftUp, shiftUp, Nat.pow_eq, Nat.pow_eq]
  push_cast
  rw [hRatio, pow_toNat_eq e]
  field_simp

/- A ratio is rounded in the unit of its size. -/
theorem nearestBits_of_log
    (hDen : 0 < den)
    (hRatio : (num : ℚ) = r * den)
    {e : Int}
    {m : Nat}
    (hUnit : max (ratioLog num den - 52) (-1074) = e)
    (hNear :
      (m - 1 / 2 < r / 2 ^ e ∧ r / 2 ^ e < m + 1 / 2) ∨
        (m % 2 = 0 ∧ m - 1 / 2 ≤ r / 2 ^ e ∧
          r / 2 ^ e ≤ m + 1 / 2)) :
    nearestBits num den =
      min
        (if m < 2 ^ 52 then m
        else (e + 1075).toNat * 2 ^ 52 + (m - 2 ^ 52))
        infinityBits := by
  have hShifted : 0 < shiftUp den e := by
    rw [shiftUp]
    exact Nat.mul_pos hDen (Nat.pow_pos (by decide))
  have hQuotient :=
    roundQuotient_of_near hShifted (shiftUp_ratio hRatio e)
      hNear
  rw [nearestBits]
  simp only [hUnit, hQuotient, Nat.pow_eq]

/- Doubles that are finite have bits below infinity. -/
theorem Finite.IsRounded.bits_le
    (hRounded : f.IsRounded) :
    f.bits ≤ infinityBits := by
  rcases hRounded with ⟨_, hBits, hLowest, hHighest, _⟩
  rw [Finite.bits, infinityBits, Nat.pow_eq]
  split
  · omega
  · omega

/-
  Every ratio in the interval of a double is rounded to the
  bits of the double.
-/
theorem nearestBits_of_attracts
    (hRounded : f.IsRounded)
    (hDen : 0 < den)
    (hRatio : (num : ℚ) = r * den)
    (hNear : f.Attracts r) :
    nearestBits num den = f.bits := by
  have hTwo : (1 : ℚ) < 2 := by norm_num
  have hPower {j k : Int} (hLess : (2 : ℚ) ^ j < 2 ^ k) : j < k :=
    (zpow_lt_zpow_iff_right₀ hTwo).mp hLess
  have hLowest := hRounded.lowest
  have hHighest := hRounded.highest
  rcases exists_mem_Ico_zpow (hNear.pos hRounded) hTwo with
    ⟨k, hFrom, hBelow⟩
  have hLog := ratioLog_of_between hDen hRatio hFrom hBelow
  have hSize : k < f.exponent + 53 :=
    hPower (lt_of_le_of_lt hFrom (hNear.lt_two_pow hRounded))
  by_cases hSame : max (k - 52) (-1074) = f.exponent
  · -- the ratio is rounded in the unit of the double
    rw [← hLog] at hSame
    rw [nearestBits_of_log hDen hRatio hSame hNear.scaled]
    exact Nat.min_eq_left hRounded.bits_le
  · -- it is below a power of two, where the unit is a half
    have hExponent : f.exponent ≠ -1074 := by omega
    have hPowerOfTwo : f.significand = 2 ^ 52 := by
      refine le_antisymm ?_ (hRounded.normal.resolve_right
        hExponent)
      refine Nat.le_of_not_lt fun hMore => hSame ?_
      have hAtLeast :=
        hPower (lt_of_le_of_lt (hNear.two_pow_le hMore) hBelow)
      omega
    have hLow : (2 ^ 52 - 1 / 4) * 2 ^ f.exponent ≤ r := by
      have hEnd := hNear.between.1
      rw [Finite.low, if_pos ⟨hPowerOfTwo, by omega⟩,
        hPowerOfTwo] at hEnd
      exact_mod_cast hEnd
    have hDouble :
        (2 : ℚ) ^ f.exponent = 2 * 2 ^ (f.exponent - 1) := by
      rw [← zpow_one_add₀ (by norm_num)]
      congr 1
      ring
    have hHalf : (0 : ℚ) < 2 ^ (f.exponent - 1) := by positivity
    have hNext : k = f.exponent + 51 := by
      have hAtLeast : f.exponent + 51 < k + 1 := by
        refine hPower (lt_of_lt_of_le ?_ (hLow.trans hBelow.le))
        rw [add_comm, zpow_add₀ (by norm_num)]
        gcongr
        norm_num
      omega
    have hUnit :
        max (ratioLog num den - 52) (-1074) = f.exponent - 1 := by
      rw [hLog]
      omega
    rw [nearestBits_of_log (m := 2 ^ 53) hDen hRatio hUnit]
    · rw [Finite.bits, hPowerOfTwo, infinityBits, Nat.pow_eq]
      simp only [Nat.lt_irrefl, if_false]
      rw [if_neg (by decide)]
      omega
    · refine Or.inr ⟨by decide, ?_, ?_⟩
      · rw [le_div_iff₀ hHalf]
        rw [hDouble] at hLow
        push_cast
        linarith
      · rw [div_le_iff₀ hHalf]
        have hTop :
            (2 : ℚ) ^ (k + 1) =
              2 ^ 53 * 2 ^ (f.exponent - 1) := by
          rw [← zpow_natCast, ← zpow_add₀ (by norm_num), hNext]
          congr 1
          push_cast
          ring
        rw [hTop] at hBelow
        push_cast
        linarith

end BranchingStory

------------------------------------------------------------
-- Bits
------------------------------------------------------------

namespace BranchingStory

variable {x : Float}
variable {f : Finite}

/- The parts of a finite double make up its bits. -/
theorem parts_of_finite?
    (hFinite : finite? x = some f) :
    f.significand < 2 ^ 53 ∧
      (-1074 ≤ f.exponent ∧ f.exponent ≤ 971) ∧
      (2 ^ 52 ≤ f.significand ∨ f.exponent = -1074) ∧
      x.toBits.toNat =
        (if f.negative then 2 ^ 63 else 0) + f.bits := by
  unfold finite? at hFinite
  simp only [Nat.pow_eq] at hFinite
  have hBits := x.toBits.toNat_lt
  generalize x.toBits.toNat = bits at hFinite hBits ⊢
  have hSign :
      (if decide (2 ^ 63 ≤ bits) = true then 2 ^ 63 else 0) =
        bits / 2 ^ 63 * 2 ^ 63 := by
    simp only [decide_eq_true_eq]
    split <;> omega
  split at hFinite
  · cases hFinite
  · split at hFinite
    · cases hFinite
      dsimp only [Finite.bits]
      rw [hSign]
      refine ⟨by omega, by omega, .inr rfl, ?_⟩
      rw [if_pos (by omega)]
      omega
    · cases hFinite
      dsimp only [Finite.bits]
      rw [hSign]
      refine ⟨by omega, by omega, .inl (by omega), ?_⟩
      rw [if_neg (by omega)]
      omega

/- A finite double other than zero. -/
theorem isRounded_of_finite?
    (hFinite : finite? x = some f)
    (hSome : f.significand ≠ 0) :
    f.IsRounded := by
  rcases parts_of_finite? hFinite with
    ⟨hBits, ⟨hLowest, hHighest⟩, hNormal, _⟩
  exact ⟨Nat.pos_of_ne_zero hSome, hBits, hLowest, hHighest,
    hNormal⟩

/- A double is told by its bits. -/
theorem ofBits_of_finite?
    (hFinite : finite? x = some f) :
    Float.ofBits (UInt64.ofNat
        ((if f.negative then Nat.pow 2 63 else 0) + f.bits)) =
      x := by
  rw [Nat.pow_eq, ← (parts_of_finite? hFinite).2.2.2,
    UInt64.ofNat_toNat, Float.ofBits_toBits]

/- Zero is rounded to itself, with its sign. -/
theorem nearestDouble_zero
    (hFinite : finite? x = some f)
    (hZero : f.significand = 0) :
    nearestDouble f.negative 0 1 = x := by
  have hBits : f.bits = 0 := by
    rw [Finite.bits, hZero, if_pos (by decide)]
  have hBack := ofBits_of_finite? hFinite
  rw [hBits] at hBack
  exact hBack

/-
  Every ratio in the interval of a double is rounded to the
  double itself.
-/
theorem nearestDouble_of_attracts
    {num den : Nat}
    {r : ℚ}
    (hFinite : finite? x = some f)
    (hSome : f.significand ≠ 0)
    (hDen : 0 < den)
    (hRatio : (num : ℚ) = r * den)
    (hNear : f.Attracts r) :
    nearestDouble f.negative num den = x := by
  have hRounded := isRounded_of_finite? hFinite hSome
  have hNum : num ≠ 0 := by
    rintro rfl
    have hPositive := hNear.pos hRounded
    have hProduct : 0 < r * den := by positivity
    rw [← hRatio] at hProduct
    simp at hProduct
  rw [nearestDouble]
  simp only [if_neg hNum,
    nearestBits_of_attracts hRounded hDen hRatio hNear]
  exact ofBits_of_finite? hFinite

end BranchingStory
