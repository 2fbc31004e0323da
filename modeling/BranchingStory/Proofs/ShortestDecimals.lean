import BranchingStory.Proofs.RoundingIntervals

/-
  This file is about the shortest decimal of a double.  It is
  in the interval of the numbers that round to the double, as
  seventeen digits are always enough to come near it.

  Key definitions include:
    * `Decimal.value`

  Key theorems include:
    * `decimalPoint_bounds`
    * `holds_iff_attracts`
    * `exists_nearest?`
    * `attracts_shortestDecimal`
-/

------------------------------------------------------------
-- Powers Of Ten
------------------------------------------------------------

namespace BranchingStory

/- A power of ten with its negative part on the other side. -/
theorem ten_pow_toNat_eq
    (k : Int) :
    (10 : ℚ) ^ k.toNat = 10 ^ k * 10 ^ (-k).toNat := by
  rw [← zpow_natCast, ← zpow_natCast,
    ← zpow_add₀ (by norm_num)]
  congr 1
  omega

/- Scaled numbers compare as the numbers themselves do. -/
theorem scaleTen_le_iff
    (a b : Nat)
    (k : Int) :
    scaleTen a (-k) ≤ scaleTen b k ↔
      (a : ℚ) ≤ b * 10 ^ k := by
  have hPositive : (0 : ℚ) < 10 ^ (-k).toNat := by positivity
  rw [scaleTen, scaleTen, Nat.pow_eq, Nat.pow_eq,
    ← Nat.cast_le (α := ℚ)]
  push_cast
  rw [ten_pow_toNat_eq k, ← mul_assoc,
    mul_le_mul_iff_left₀ hPositive]

/- The same of numbers that are scaled the other way. -/
theorem le_scaleTen_iff
    (a b : Nat)
    (k : Int) :
    scaleTen b k ≤ scaleTen a (-k) ↔
      (b : ℚ) * 10 ^ k ≤ a := by
  have hPositive : (0 : ℚ) < 10 ^ (-k).toNat := by positivity
  rw [scaleTen, scaleTen, Nat.pow_eq, Nat.pow_eq,
    ← Nat.cast_le (α := ℚ)]
  push_cast
  rw [ten_pow_toNat_eq k, ← mul_assoc,
    mul_le_mul_iff_left₀ hPositive]

end BranchingStory

------------------------------------------------------------
-- The Place Of The Point
------------------------------------------------------------

namespace BranchingStory

/- The power of ten that is estimated from a power of two. -/
def guessTen
    (k : Int) : Int :=
  (k * 30103).fdiv 100000

/-
  Whether an estimate is off by less than two: the powers of
  two next to the given one lie between the powers of ten.
-/
def guessIsNear
    (k : Int) : Bool :=
  let g := guessTen k
  decide (10 ^ (g - 2).toNat * 2 ^ (1 - k).toNat ≤
    2 ^ (k - 1).toNat * 10 ^ (2 - g).toNat) &&
  decide (2 ^ (k + 1).toNat * 10 ^ (-2 - g).toNat ≤
    10 ^ (g + 2).toNat * 2 ^ (-1 - k).toNat)

/- All powers of two among the doubles are estimated well. -/
theorem guessIsNear_of_double :
    ((List.range 2200).all fun n =>
      guessIsNear ((n : Int) - 1100)) = true := by
  decide +kernel

/- An estimate for a double is off by less than two. -/
theorem guessTen_bounds
    {k : Int}
    (hLow : -1100 ≤ k)
    (hHigh : k < 1100) :
    (10 : ℚ) ^ (guessTen k - 2) ≤ 2 ^ (k - 1) ∧
      (2 : ℚ) ^ (k + 1) ≤ 10 ^ (guessTen k + 2) := by
  have hNear :=
    List.all_eq_true.mp guessIsNear_of_double
      (k + 1100).toNat (by rw [List.mem_range]; omega)
  rw [show (((k + 1100).toNat : Nat) : Int) - 1100 = k by omega,
    guessIsNear] at hNear
  simp only [Bool.and_eq_true, decide_eq_true_eq,
    ← Nat.cast_le (α := ℚ)] at hNear
  push_cast at hNear
  rcases hNear with ⟨hBelow, hAbove⟩
  have hCross (i j : Int) :
      (10 : ℚ) ^ i ≤ 2 ^ j ↔
        (10 : ℚ) ^ i.toNat * 2 ^ (-j).toNat ≤
          2 ^ j.toNat * 10 ^ (-i).toNat := by
    have hPositive :
        (0 : ℚ) < 10 ^ (-i).toNat * 2 ^ (-j).toNat := by
      positivity
    rw [ten_pow_toNat_eq i, pow_toNat_eq j,
      ← mul_le_mul_iff_left₀ hPositive]
    ring_nf
  have hCross' (i j : Int) :
      (2 : ℚ) ^ j ≤ 10 ^ i ↔
        (2 : ℚ) ^ j.toNat * 10 ^ (-i).toNat ≤
          10 ^ i.toNat * 2 ^ (-j).toNat := by
    have hPositive :
        (0 : ℚ) < 10 ^ (-i).toNat * 2 ^ (-j).toNat := by
      positivity
    rw [ten_pow_toNat_eq i, pow_toNat_eq j,
      ← mul_le_mul_iff_left₀ hPositive]
    ring_nf
  rw [hCross, hCross', Int.neg_sub, Int.neg_sub]
  refine ⟨hBelow, ?_⟩
  rwa [show -(guessTen k + 2) = -2 - guessTen k by omega,
    show -(k + 1) = -1 - k by omega]

variable {num den : Nat}
variable {r : ℚ}

/-
  The place of the point of a ratio: the ratio is below that
  power of ten, but not below the one before it.
-/
theorem decimalPoint_bounds
    (hDen : 0 < den)
    (hRatio : (num : ℚ) = r * den)
    (hLow : 2 ^ (-1074 : Int) ≤ r)
    (hHigh : r < 2 ^ (1024 : Int)) :
    10 ^ (decimalPoint num den - 1) ≤ r ∧
      r < 10 ^ decimalPoint num den := by
  have hTwo : (1 : ℚ) < 2 := by norm_num
  have hDen' : (0 : ℚ) < den := by exact_mod_cast hDen
  rcases log2_sub_bounds hDen hRatio
      (lt_of_lt_of_le (by positivity) hLow) with
    ⟨hAtLeast, hAtMost⟩
  have hSize :=
    (zpow_lt_zpow_iff_right₀ hTwo).mp
      (lt_trans hAtLeast hHigh)
  have hSize' :=
    (zpow_lt_zpow_iff_right₀ hTwo).mp
      (lt_of_le_of_lt hLow hAtMost)
  rcases guessTen_bounds
      (k := (num.log2 : Int) - den.log2) (by omega)
      (by omega) with
    ⟨hBelow, hAbove⟩
  have hTest (k : Int) :
      decide (scaleTen num (-k) < scaleTen den k) = true ↔
        r < 10 ^ k := by
    rw [decide_eq_true_eq, ← not_le, le_scaleTen_iff, hRatio,
      mul_comm, mul_le_mul_iff_left₀ hDen', not_le]
  have hFrom := hBelow.trans hAtLeast.le
  have hUpTo := lt_of_lt_of_le hAtMost hAbove
  rw [decimalPoint]
  dsimp only
  rw [← guessTen]
  generalize guessTen ((num.log2 : Int) - den.log2) = g at *
  split
  · next hFirst =>
      refine ⟨?_, (hTest _).mp hFirst⟩
      rw [sub_sub]
      exact hFrom
  · next hFirst =>
      rw [hTest, not_lt] at hFirst
      split
      · next hSecond => exact ⟨hFirst, (hTest _).mp hSecond⟩
      · next hSecond =>
          rw [hTest, not_lt] at hSecond
          split
          · next hThird =>
              refine ⟨?_, (hTest _).mp hThird⟩
              rw [add_sub_cancel_right]
              exact hSecond
          · next hThird =>
              rw [hTest, not_lt] at hThird
              refine ⟨?_, hUpTo⟩
              rw [show g + 2 - 1 = g + 1 by ring]
              exact hThird

end BranchingStory

------------------------------------------------------------
-- The Interval
------------------------------------------------------------

namespace BranchingStory

variable {f : Finite}
variable {k : Int}
variable {n : Nat}

namespace Interval

/- The denominator of an interval is positive. -/
theorem denominator_pos
    (f : Finite) :
    0 < (around f).denominator := by
  change 0 < 1 * 2 ^ _
  positivity

/- A shifted number in units of the denominator. -/
theorem shiftUp_around
    (f : Finite)
    (a : Nat) :
    (shiftUp a (f.exponent - 2) : ℚ) =
      a / 4 * 2 ^ f.exponent * (around f).denominator := by
  change ((a * Nat.pow 2 _ : Nat) : ℚ) =
    _ * ((1 * Nat.pow 2 _ : Nat) : ℚ)
  rw [Nat.pow_eq, Nat.pow_eq]
  push_cast
  rw [pow_toNat_eq, zpow_sub₀ (by norm_num)]
  ring

/- The value, in units of the denominator. -/
theorem value_around
    (f : Finite) :
    ((around f).value : ℚ) =
      f.size * (around f).denominator := by
  change (shiftUp (4 * f.significand) (f.exponent - 2) : ℚ) = _
  rw [shiftUp_around, Finite.size]
  push_cast
  ring

/- The upper end, in units of the denominator. -/
theorem high_around
    (f : Finite) :
    ((around f).high : ℚ) =
      f.high * (around f).denominator := by
  change
    (shiftUp (4 * f.significand + 2) (f.exponent - 2) : ℚ) = _
  rw [shiftUp_around, Finite.high]
  push_cast
  ring

/- The lower end, in units of the denominator. -/
theorem low_around
    (hSome : 0 < f.significand) :
    ((around f).low : ℚ) =
      f.low * (around f).denominator := by
  have hGap :
      (around f).low =
        shiftUp (4 * f.significand -
          if f.significand = 2 ^ 52 ∧ -1074 < f.exponent then 1
          else 2) (f.exponent - 2) := rfl
  rw [hGap, shiftUp_around, Finite.low]
  split
  · rw [Nat.cast_sub (by omega)]
    push_cast
    ring
  · rw [Nat.cast_sub (by omega)]
    push_cast
    ring

end Interval

/-
  A whole number of units lies in the interval of a double if
  it rounds to the double.
-/
theorem holds_iff_attracts
    (hSome : 0 < f.significand) :
    (Interval.around f).holds k n = true ↔
      f.Attracts (n * 10 ^ k) := by
  have hDen : (0 : ℚ) < (Interval.around f).denominator := by
    exact_mod_cast Interval.denominator_pos f
  have hPoint :
      ((n * (Interval.around f).denominator : Nat) : ℚ) *
          10 ^ k =
        n * 10 ^ k * (Interval.around f).denominator := by
    push_cast
    ring
  have hFrom :
      scaleTen (Interval.around f).low (-k) ≤
          scaleTen (n * (Interval.around f).denominator) k ↔
        f.low ≤ n * 10 ^ k := by
    rw [scaleTen_le_iff, Interval.low_around hSome, hPoint,
      mul_le_mul_iff_left₀ hDen]
  have hUpTo :
      scaleTen (n * (Interval.around f).denominator) k ≤
          scaleTen (Interval.around f).high (-k) ↔
        n * 10 ^ k ≤ f.high := by
    rw [le_scaleTen_iff, Interval.high_around, hPoint,
      mul_le_mul_iff_left₀ hDen]
  have hAfter :
      scaleTen (Interval.around f).low (-k) <
          scaleTen (n * (Interval.around f).denominator) k ↔
        f.low < n * 10 ^ k := by
    rw [← not_le, le_scaleTen_iff, Interval.low_around hSome,
      hPoint, mul_le_mul_iff_left₀ hDen, not_le]
  have hBefore :
      scaleTen (n * (Interval.around f).denominator) k <
          scaleTen (Interval.around f).high (-k) ↔
        n * 10 ^ k < f.high := by
    rw [← not_le, scaleTen_le_iff, Interval.high_around,
      hPoint, mul_le_mul_iff_left₀ hDen, not_le]
  have hClosed :
      (Interval.around f).closed = true ↔
        f.significand % 2 = 0 :=
    decide_eq_true_iff
  rw [Interval.holds, Finite.Attracts]
  split
  · next hEven =>
      rw [Bool.and_eq_true, decide_eq_true_eq,
        decide_eq_true_eq, hFrom, hUpTo]
      constructor
      · rintro ⟨hLow, hHigh⟩
        exact Or.inr ⟨hClosed.mp hEven, hLow, hHigh⟩
      · rintro (⟨hLow, hHigh⟩ | ⟨_, hLow, hHigh⟩)
        · exact ⟨hLow.le, hHigh.le⟩
        · exact ⟨hLow, hHigh⟩
  · next hOdd =>
      rw [Bool.and_eq_true, decide_eq_true_eq,
        decide_eq_true_eq, hAfter, hBefore]
      refine ⟨Or.inl, ?_⟩
      rintro (hInside | ⟨hEven, _⟩)
      · exact hInside
      · exact absurd (hClosed.mpr hEven) hOdd

end BranchingStory

------------------------------------------------------------
-- Neighbours On A Grid
------------------------------------------------------------

namespace BranchingStory

variable {f : Finite}
variable {k : Int}

namespace Interval

/- The point of a grid that is not above a double. -/
def floorTen
    (i : Interval)
    (k : Int) : Nat :=
  scaleTen i.value (-k) / scaleTen i.denominator k

/- A double lies between a point of a grid and the next one. -/
theorem floorTen_bounds
    (f : Finite)
    (k : Int) :
    ((around f).floorTen k : ℚ) * 10 ^ k ≤ f.size ∧
      f.size < ((around f).floorTen k + 1 : Nat) * 10 ^ k := by
  have hDen : (0 : ℚ) < (around f).denominator := by
    exact_mod_cast denominator_pos f
  have hUnit : 0 < scaleTen (around f).denominator k :=
    Nat.mul_pos (denominator_pos f) (Nat.pow_pos (by decide))
  have hScale (n : Nat) :
      n * scaleTen (around f).denominator k =
        scaleTen (n * (around f).denominator) k :=
    (Nat.mul_assoc _ _ _).symm
  have hPoint (n : Nat) :
      ((n * (around f).denominator : Nat) : ℚ) * 10 ^ k =
        n * 10 ^ k * (around f).denominator := by
    push_cast
    ring
  have hBelow :
      (around f).floorTen k *
          scaleTen (around f).denominator k ≤
        scaleTen (around f).value (-k) :=
    Nat.div_mul_le_self _ _
  have hAbove :
      scaleTen (around f).value (-k) <
        ((around f).floorTen k + 1) *
          scaleTen (around f).denominator k := by
    rw [Nat.mul_comm]
    exact Nat.lt_mul_div_succ _ hUnit
  rw [hScale, le_scaleTen_iff, hPoint, value_around,
    mul_le_mul_iff_left₀ hDen] at hBelow
  rw [hScale, ← Nat.not_le, le_scaleTen_iff, hPoint,
    value_around, mul_le_mul_iff_left₀ hDen, not_le] at hAbove
  exact ⟨hBelow, hAbove⟩

/- The digits of a double on a grid, by their number. -/
theorem floorTen_digits
    {n : Nat}
    (hFrom : (10 : ℚ) ^ (k + n) ≤ f.size)
    (hBelow : f.size < 10 ^ (k + n + 1)) :
    10 ^ n ≤ (around f).floorTen k ∧
      (around f).floorTen k < 10 ^ (n + 1) := by
  have hUnit : (0 : ℚ) < 10 ^ k := by positivity
  rcases floorTen_bounds f k with ⟨hFloor, hNext⟩
  rw [zpow_add₀ (by norm_num), zpow_natCast, mul_comm] at hFrom
  rw [add_assoc, zpow_add₀ (by norm_num), mul_comm,
    ← Nat.cast_succ, zpow_natCast] at hBelow
  have hLess := lt_of_le_of_lt hFrom hNext
  have hMore := lt_of_le_of_lt hFloor hBelow
  rw [mul_lt_mul_iff_left₀ hUnit] at hLess hMore
  constructor
  · exact Nat.le_of_lt_succ (by exact_mod_cast hLess)
  · exact_mod_cast hMore

/- What is nearest is next to the double, and rounds to it. -/
theorem nearest?_eq_some
    (hSome : 0 < f.significand)
    {n : Nat}
    (hNearest : (around f).nearest? k = some n) :
    f.Attracts (n * 10 ^ k) ∧
      (n = (around f).floorTen k ∨
        n = (around f).floorTen k + 1) := by
  have hHolds (m : Nat) :=
    holds_iff_attracts (k := k) (n := m) hSome
  have hRounded :
      roundQuotient (scaleTen (around f).value (-k))
          (scaleTen (around f).denominator k) =
          (around f).floorTen k ∨
        roundQuotient (scaleTen (around f).value (-k))
          (scaleTen (around f).denominator k) =
          (around f).floorTen k + 1 := by
    rw [roundQuotient, floorTen]
    split
    · exact Or.inl rfl
    · split
      · omega
      · exact Or.inr rfl
  rw [nearest?, ← floorTen] at hNearest
  split at hNearest
  · cases hNearest
  · next hBelow _ =>
      cases hNearest
      exact ⟨(hHolds _).mp hBelow, Or.inl rfl⟩
  · next _ hAbove =>
      cases hNearest
      exact ⟨(hHolds _).mp hAbove, Or.inr rfl⟩
  · next hBelow hAbove =>
      cases hNearest
      rcases hRounded with hSame | hSame
      · rw [hSame]
        exact ⟨(hHolds _).mp hBelow, Or.inl rfl⟩
      · rw [hSame]
        exact ⟨(hHolds _).mp hAbove, Or.inr rfl⟩

/-
  Of two neighbours on a grid with seventeen digits, one rounds
  to the double between them.
-/
theorem attracts_neighbour
    (hRounded : f.IsRounded)
    {n : Nat}
    (hBelow : (n : ℚ) * 10 ^ k ≤ f.size)
    (hAbove : f.size < (n + 1 : Nat) * 10 ^ k)
    (hGrid : (10 : ℚ) ^ (k + 16) ≤ f.size) :
    f.Attracts (n * 10 ^ k) ∨
      f.Attracts ((n + 1 : Nat) * 10 ^ k) := by
  have hUnit : (0 : ℚ) < 2 ^ f.exponent := by positivity
  have hBits : (f.significand : ℚ) ≤ 2 ^ 53 := by
    exact_mod_cast hRounded.bits.le
  have hTop :
      (f.significand : ℚ) * 2 ^ f.exponent ≤
        2 ^ 53 * 2 ^ f.exponent := by
    gcongr
  rw [zpow_add₀ (by norm_num), Finite.size] at hGrid
  rw [Finite.size] at hBelow hAbove
  have hStep : (n + 1 : Nat) * (10 : ℚ) ^ k =
      n * 10 ^ k + 10 ^ k := by
    push_cast
    ring
  rw [hStep] at hAbove ⊢
  simp only [Finite.Attracts, Finite.high, Finite.low]
  split
  · next hPower =>
      rw [hPower.1] at hBelow hAbove hGrid ⊢
      push_cast at hBelow hAbove hGrid ⊢
      refine Or.inr (Or.inl ⟨?_, ?_⟩)
      · linarith
      · linarith
  · rcases lt_or_ge
        ((f.significand - 1 / 2) * (2 : ℚ) ^ f.exponent)
        (n * 10 ^ k) with hNear | hFar
    · refine Or.inl (Or.inl ⟨hNear, ?_⟩)
      linarith
    · refine Or.inr (Or.inl ⟨?_, ?_⟩)
      · linarith
      · linarith

/-
  On a grid with seventeen digits one of the neighbours rounds
  to the double.
-/
theorem exists_nearest?
    (hRounded : f.IsRounded)
    (hGrid : (10 : ℚ) ^ (k + 16) ≤ f.size) :
    ∃ n, (around f).nearest? k = some n := by
  have hHolds (m : Nat) :=
    holds_iff_attracts (k := k) (n := m) hRounded.some
  rcases floorTen_bounds f k with ⟨hBelow, hAbove⟩
  have hOne :
      (around f).holds k ((around f).floorTen k) = true ∨
        (around f).holds k ((around f).floorTen k + 1) =
          true := by
    rw [hHolds, hHolds]
    exact attracts_neighbour hRounded hBelow hAbove hGrid
  rw [nearest?, ← floorTen]
  split
  · next hNone hNone' => simp [hNone, hNone'] at hOne
  · exact ⟨_, rfl⟩
  · exact ⟨_, rfl⟩
  · exact ⟨_, rfl⟩

end Interval

end BranchingStory

------------------------------------------------------------
-- The Shortest Decimal
------------------------------------------------------------

namespace BranchingStory

/- The value of a decimal. -/
def Decimal.value
    (d : Decimal) : ℚ :=
  d.digits * 10 ^ (d.point - (digitsOf d.digits).length)

/- The number of the digits of a number. -/
theorem length_toDigits_eq_iff
    {m n : Nat}
    (hSome : 0 < m) :
    (Nat.toDigits 10 m).length = n + 1 ↔
      10 ^ n ≤ m ∧ m < 10 ^ (n + 1) := by
  have hMost := lt_length_toDigits_iff (Nat.succ_pos n) m
  have hPositive : 0 < (Nat.toDigits 10 m).length :=
    Nat.length_toDigits_pos
  rw [Nat.pow_eq] at hMost
  rcases Nat.eq_zero_or_pos n with rfl | hMore
  · omega
  · have hLeast := lt_length_toDigits_iff hMore m
    rw [Nat.pow_eq] at hLeast
    omega

variable {f : Finite}

/- A double lies within the range of all doubles. -/
theorem Finite.IsRounded.size_bounds
    (hRounded : f.IsRounded) :
    2 ^ (-1074 : Int) ≤ f.size ∧
      f.size < 2 ^ (1024 : Int) := by
  have hTwo : (1 : ℚ) ≤ 2 := by norm_num
  have hSome : (1 : ℚ) ≤ f.significand := by
    exact_mod_cast hRounded.some
  have hBits : (f.significand : ℚ) < 2 ^ 53 := by
    exact_mod_cast hRounded.bits
  rw [Finite.size]
  constructor
  · calc
      (2 : ℚ) ^ (-1074 : Int) ≤ 2 ^ f.exponent :=
        zpow_le_zpow_right₀ hTwo hRounded.lowest
      _ ≤ f.significand * 2 ^ f.exponent :=
        le_mul_of_one_le_left (by positivity) hSome
  · calc
      (f.significand : ℚ) * 2 ^ f.exponent
          < 2 ^ 53 * 2 ^ f.exponent := by
        gcongr
      _ ≤ 2 ^ 53 * 2 ^ (971 : Int) := by
        gcongr
        exact hRounded.highest
      _ = 2 ^ (1024 : Int) := by
        rw [← zpow_natCast, ← zpow_add₀ (by norm_num)]
        rfl

/-
  The shortest decimal of a double has digits, and it rounds to
  the double.
-/
theorem attracts_shortestDecimal
    (hRounded : f.IsRounded) :
    0 < (shortestDecimal f).digits ∧
      f.Attracts (shortestDecimal f).value := by
  rcases hRounded.size_bounds with ⟨hLowest, hHighest⟩
  rcases decimalPoint_bounds (Interval.denominator_pos f)
      (Interval.value_around f) hLowest hHighest with
    ⟨hFrom, hBelow⟩
  rw [shortestDecimal]
  generalize
    decimalPoint (Interval.around f).value
      (Interval.around f).denominator = p at *
  split
  · next d n hFound =>
      rcases List.exists_of_findSome?_eq_some hFound with
        ⟨n', hMem, hNearest⟩
      rw [Option.map_eq_some_iff] at hNearest
      rcases hNearest with ⟨d', hNearest, hPair⟩
      cases hPair
      rcases Interval.nearest?_eq_some hRounded.some
          hNearest with
        ⟨hNear, hNeighbour⟩
      rw [List.mem_range'_1] at hMem
      obtain ⟨j, rfl⟩ : ∃ j, n = j + 1 :=
        ⟨n - 1, by omega⟩
      rcases Interval.floorTen_digits (n := j)
          (k := p - (j + 1 : Nat)) (f := f)
          (by convert hFrom using 2; push_cast; ring)
          (by convert hBelow using 2; push_cast; ring) with
        ⟨hLeast, hMost⟩
      split
      · next hPower =>
          -- all nines and one more: a power of ten
          refine ⟨Nat.one_pos, ?_⟩
          have hLength : (digitsOf 1).length = 1 := by decide
          have hValue :
              Decimal.value ⟨1, p + 1⟩ =
                d * 10 ^ (p - (j + 1 : Nat)) := by
            rw [Decimal.value, hLength, hPower, Nat.pow_eq]
            push_cast
            rw [one_mul, ← zpow_natCast,
              ← zpow_add₀ (by norm_num)]
            congr 1
            push_cast
            ring
          rw [hValue]
          exact hNear
      · next hOther =>
          rw [Nat.pow_eq] at hOther
          have hPositive : 0 < 10 ^ j := by positivity
          have hSome : 0 < d := by omega
          have hLength : (digitsOf d).length = j + 1 :=
            (length_toDigits_eq_iff hSome).mpr
              ⟨by omega, by omega⟩
          refine ⟨hSome, ?_⟩
          rw [Decimal.value, hLength]
          exact hNear
  · next hNone =>
      -- seventeen digits are enough
      rw [List.findSome?_eq_none_iff] at hNone
      have hLast := hNone 17 (by decide)
      rw [Option.map_eq_none_iff] at hLast
      rcases Interval.exists_nearest? (k := p - (17 : Nat))
          hRounded (by convert hFrom using 2; push_cast; ring)
        with ⟨n, hSome⟩
      rw [hLast] at hSome
      cases hSome

end BranchingStory
