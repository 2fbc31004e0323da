import BranchingStory.Proofs.Decimals

/-
  This file finds the integers that have a double: those that
  are less than half a unit above the largest double.

  Key definitions include:
    * `floatLimit`

  Key theorems include:
    * `roundQuotient_lt_iff`
    * `nearestBits_lt_iff`
    * `doubleOfInt?_eq_none_iff`
-/

------------------------------------------------------------
-- Rounding To Whole Numbers
------------------------------------------------------------

namespace BranchingStory

/-
  A quotient is rounded to less than an even number if it is
  more than one half below it.  A tie goes to the even number.
-/
theorem roundQuotient_lt_iff
    {num den k : Nat}
    (hDen : 0 < den)
    (hEven : k % 2 = 0)
    (hSome : 0 < k) :
    roundQuotient num den < k ↔ 2 * num < (2 * k - 1) * den := by
  have hSplit := Nat.div_add_mod num den
  have hRest := Nat.mod_lt num hDen
  rw [roundQuotient]
  generalize num / den = q at *
  generalize num % den = r at *
  subst hSplit
  rcases Nat.lt_trichotomy (q + 1) k with hBelow | hNext | hAbove
  · have hBound : den * (q + 2) ≤ den * k :=
      Nat.mul_le_mul_left den hBelow
    have hLess : 2 * (den * q + r) < (2 * k - 1) * den := by
      rw [Nat.sub_mul, Nat.mul_assoc 2 k, Nat.mul_comm k]
      rw [Nat.mul_add] at hBound
      omega
    refine ⟨fun _ => hLess, fun _ => ?_⟩
    split
    · omega
    · split
      · omega
      · omega
  · subst hNext
    have hLess :
        2 * (den * q + r) < (2 * (q + 1) - 1) * den ↔
          2 * r < den := by
      rw [show 2 * (q + 1) - 1 = 2 * q + 1 by omega,
        Nat.add_mul, Nat.mul_assoc 2 q, Nat.mul_comm q]
      omega
    rw [hLess]
    split
    · omega
    · split
      · omega
      · omega
  · have hBound : den * k ≤ den * q :=
      Nat.mul_le_mul_left den (by omega)
    have hNotLess :
        ¬ 2 * (den * q + r) < (2 * k - 1) * den := by
      rw [Nat.sub_mul, Nat.mul_assoc 2 k, Nat.mul_comm k]
      omega
    refine ⟨fun hLess => ?_, fun hLess => absurd hLess hNotLess⟩
    split at hLess
    · omega
    · split at hLess
      · omega
      · omega

end BranchingStory

------------------------------------------------------------
-- Integers Beyond The Doubles
------------------------------------------------------------

namespace BranchingStory

/-
  The least size of the integers that are rounded to more than
  the largest double: half a unit above it.
-/
def floatLimit : Nat :=
  2 ^ 1024 - 2 ^ 970

/- A shift to the left multiplies by a power of two. -/
theorem shiftUp_natCast
    (n k : Nat) :
    shiftUp n (k : Int) = n * 2 ^ k := rfl

/- The bits of a double, up to those of infinity. -/
theorem nearestBits_eq
    {n : Nat}
    (hSome : n ≠ 0) :
    nearestBits n 1 =
      let e : Int := (n.log2 : Int) - 52
      let m := roundQuotient (shiftUp n (-e)) (shiftUp 1 e)
      min
        (if m < 2 ^ 52 then m
        else (n.log2 + 1023) * 2 ^ 52 + (m - 2 ^ 52))
        (2047 * 2 ^ 52) := by
  have hLog : ratioLog n 1 = n.log2 := by
    have hExact : (n : ℚ) = n * (1 : Nat) * 2 ^ (0 : Int) := by
      simp
    rw [ratioLog_eq Nat.one_pos (Nat.pos_of_ne_zero hSome)
      hExact, Int.add_zero]
  have hExponent :
      max ((n.log2 : Int) - 52) (-1074) =
        (n.log2 : Int) - 52 := by omega
  have hBiased :
      ((n.log2 : Int) - 52 + 1075).toNat = n.log2 + 1023 := by
    omega
  rw [nearestBits, hLog, hExponent]
  simp only [hBiased, infinityBits, Nat.pow_eq]

/-
  The significand of an integer has 53 bits, except that
  rounding can take it to the next power of two.
-/
theorem significand_bounds
    {n : Nat}
    (hSome : n ≠ 0) :
    let e : Int := (n.log2 : Int) - 52
    let m := roundQuotient (shiftUp n (-e)) (shiftUp 1 e)
    2 ^ 52 ≤ m ∧ m < 2 ^ 53 + 2 := by
  intro e m
  rcases log2_bounds hSome with ⟨hLow, hHigh⟩
  have hScale (k : Nat) :
      shiftUp (2 ^ k) e ≤ shiftUp n (-e) ↔
        (2 : ℚ) ^ ((k : Int) + e) ≤ n := by
    rw [shiftUp_le_iff, zpow_add₀ (by norm_num), zpow_natCast,
      Nat.cast_pow, Nat.cast_ofNat]
  have hPower (k : Nat) :
      shiftUp (2 ^ k) e = 2 ^ k * shiftUp 1 e := by
    rw [shiftUp, shiftUp, Nat.one_mul]
  have hUnit : 0 < shiftUp 1 e := by
    rw [shiftUp]
    exact Nat.mul_pos Nat.one_pos (Nat.pow_pos (by decide))
  have hAtLeast : 2 ^ 52 * shiftUp 1 e ≤ shiftUp n (-e) := by
    rw [← hPower, hScale,
      show ((52 : Nat) : Int) + e = n.log2 by omega]
    exact hLow
  have hLess : shiftUp n (-e) < 2 ^ 53 * shiftUp 1 e := by
    rw [← hPower, ← Nat.not_le, hScale,
      show ((53 : Nat) : Int) + e = n.log2 + 1 by omega]
    exact not_le.mpr hHigh
  constructor
  · refine Nat.not_lt.mp fun hSmall => ?_
    have hNum :=
      (roundQuotient_lt_iff hUnit (by decide)
        (by decide)).mp hSmall
    omega
  · refine (roundQuotient_lt_iff hUnit (by decide)
      (by decide)).mpr ?_
    omega

/- An integer is rounded to a double unless it is too large. -/
theorem nearestBits_lt_iff
    {n : Nat}
    (hSome : n ≠ 0) :
    nearestBits n 1 < infinityBits ↔ n < floatLimit := by
  rcases significand_bounds hSome with ⟨hLow, hHigh⟩
  rw [nearestBits_eq hSome, infinityBits, Nat.pow_eq,
    floatLimit]
  dsimp only
  generalize hQuotient : roundQuotient _ _ = m at hLow hHigh ⊢
  rw [if_neg (Nat.not_lt.mpr hLow)]
  rcases Nat.lt_trichotomy n.log2 1023 with
    hSmall | hLast | hLarge
  · have hNumber : n < 2 ^ 1023 := by
      rw [← Nat.log2_lt hSome]
      exact hSmall
    omega
  · -- Among the largest doubles the significand decides.
    have hExponent : (n.log2 : Int) - 52 = (971 : Nat) := by
      omega
    have hNum : shiftUp n (-(971 : Nat)) = n := Nat.mul_one n
    rw [hExponent, hNum, shiftUp_natCast,
      Nat.one_mul] at hQuotient
    have hRounded :
        roundQuotient n (2 ^ 971) < 2 ^ 53 ↔
          2 * n < (2 * 2 ^ 53 - 1) * 2 ^ 971 :=
      roundQuotient_lt_iff (by positivity) (by decide)
        (by decide)
    rw [hQuotient] at hRounded
    omega
  · have hNumber : ¬ n < 2 ^ 1024 := by
      rw [← Nat.log2_lt hSome]
      omega
    omega

/-
  A double that is rounded is finite unless its bits are those
  of infinity.
-/
theorem isSome_finite?_nearestDouble
    (negative : Bool)
    (num den : Nat) :
    (finite? (nearestDouble negative num den)).isSome = true ↔
      num = 0 ∨ nearestBits num den < infinityBits := by
  have hInfinity : infinityBits = 2047 * 2 ^ 52 := rfl
  have hBound : nearestBits num den ≤ infinityBits :=
    Nat.min_le_right _ _
  have hBits :
      (if num = 0 then 0 else nearestBits num den) <
          infinityBits ↔
        num = 0 ∨ nearestBits num den < infinityBits := by
    split
    · next hZero => simp [hZero, hInfinity]
    · next hSome => simp [hSome]
  rw [nearestDouble, ← hBits]
  have hBound' :
      (if num = 0 then 0 else nearestBits num den) ≤
        infinityBits := by
    split
    · exact Nat.zero_le _
    · exact hBound
  generalize (if num = 0 then 0 else nearestBits num den) =
    bits at *
  have hSign :
      (if negative then Nat.pow 2 63 else 0) = 0 ∨
        (if negative then Nat.pow 2 63 else 0) = 2 ^ 63 := by
    cases negative
    · exact Or.inl rfl
    · exact Or.inr rfl
  generalize (if negative then Nat.pow 2 63 else 0) = sign at *
  rw [finite?, toBits_ofBits (by omega) (by omega), hInfinity]
  simp only [Nat.pow_eq]
  split
  · simp only [Option.isSome_none, Bool.false_eq_true,
      false_iff]
    omega
  · split
    · simp only [Option.isSome_some, true_iff]
      omega
    · simp only [Option.isSome_some, true_iff]
      omega

/-
  The integers that lie beyond the range of doubles are those
  from the limit on.
-/
theorem doubleOfInt?_eq_none_iff
    (n : Int) :
    doubleOfInt? n = none ↔ floatLimit ≤ n.natAbs := by
  have hFinite :
      (finite? (nearestDouble (decide (n < 0))
          n.natAbs 1)).isSome = true ↔
        n.natAbs < floatLimit := by
    rw [isSome_finite?_nearestDouble]
    rcases Nat.eq_zero_or_pos n.natAbs with hZero | hSome
    · rw [hZero]
      simp only [true_or, true_iff, floatLimit]
      omega
    · rw [nearestBits_lt_iff hSome.ne']
      exact or_iff_right hSome.ne'
  rw [doubleOfInt?, ← Nat.not_lt, ← hFinite]
  split
  · next hSome => simp [hSome]
  · next hNone => simp [hNone]

end BranchingStory
