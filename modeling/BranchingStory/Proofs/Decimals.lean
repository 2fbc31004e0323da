import BranchingStory.Proofs.Numerals
import Mathlib

/-
  This file writes doubles as exact decimals, without an
  exponent, and shows that they are read back to the bit.

  Key definitions include:
    * `Finite.places`
    * `Finite.scaled`
    * `Finite.decimal`
    * `decimalOf`

  Key theorems include:
    * `ratioLog_eq`
    * `nearestBits_exact`
    * `readDouble?_decimalOf`
-/

------------------------------------------------------------
-- Shifts
------------------------------------------------------------

namespace BranchingStory

/- A power of two with its negative part on the other side. -/
theorem pow_toNat_eq
    (k : Int) :
    (2 : ℚ) ^ k.toNat = 2 ^ k * 2 ^ (-k).toNat := by
  rw [← zpow_natCast, ← zpow_natCast,
    ← zpow_add₀ (by norm_num)]
  congr 1
  omega

/- Shifted numbers compare as the numbers themselves do. -/
theorem shiftUp_le_iff
    (a b : Nat)
    (k : Int) :
    shiftUp a k ≤ shiftUp b (-k) ↔
      (a : ℚ) * 2 ^ k ≤ b := by
  have hPositive : (0 : ℚ) < 2 ^ (-k).toNat := by positivity
  rw [shiftUp, shiftUp, Nat.pow_eq, Nat.pow_eq,
    ← Nat.cast_le (α := ℚ)]
  push_cast
  rw [pow_toNat_eq k, ← mul_assoc,
    mul_le_mul_iff_left₀ hPositive]

/- A product of shifted numbers is one of the numbers. -/
theorem shiftUp_eq_iff
    (a b m : Nat)
    (k : Int) :
    shiftUp b (-k) = m * shiftUp a k ↔
      (b : ℚ) = m * a * 2 ^ k := by
  have hPositive : (0 : ℚ) < 2 ^ (-k).toNat := by positivity
  rw [shiftUp, shiftUp, Nat.pow_eq, Nat.pow_eq,
    ← Nat.cast_inj (R := ℚ)]
  push_cast
  rw [pow_toNat_eq k, ← mul_assoc, ← mul_assoc,
    mul_left_inj' hPositive.ne']

end BranchingStory

------------------------------------------------------------
-- Exact Ratios
------------------------------------------------------------

namespace BranchingStory

variable {num den m : Nat}
variable {e : Int}

/- A number lies between two powers of two. -/
theorem log2_bounds
    {n : Nat}
    (hSome : n ≠ 0) :
    (2 : ℚ) ^ (n.log2 : Int) ≤ n ∧
      (n : ℚ) < 2 ^ ((n.log2 : Int) + 1) := by
  constructor
  · rw [zpow_natCast]
    exact_mod_cast Nat.log2_self_le hSome
  · have hLess : n < 2 ^ (n.log2 + 1) := Nat.lt_log2_self
    exact_mod_cast hLess

/- The logarithm of a ratio that is known exactly. -/
theorem ratioLog_eq
    (hDen : 0 < den)
    (hM : 0 < m)
    (hExact : (num : ℚ) = m * den * 2 ^ e) :
    ratioLog num den = m.log2 + e := by
  have hTwo : (1 : ℚ) < 2 := by norm_num
  have hPower : (0 : ℚ) < 2 ^ e := by positivity
  have hNum : num ≠ 0 := by
    rintro rfl
    have hProduct : (0 : ℚ) < m * den * 2 ^ e := by positivity
    rw [← hExact] at hProduct
    simp at hProduct
  rcases log2_bounds hNum with ⟨hNumLow, hNumHigh⟩
  rcases log2_bounds hDen.ne' with ⟨hDenLow, hDenHigh⟩
  rcases log2_bounds hM.ne' with ⟨hMLow, hMHigh⟩
  have hLow :
      (m.log2 : Int) + den.log2 + e < num.log2 + 1 := by
    rw [← zpow_lt_zpow_iff_right₀ hTwo]
    refine lt_of_le_of_lt ?_ hNumHigh
    rw [hExact, zpow_add₀ (by norm_num),
      zpow_add₀ (by norm_num)]
    gcongr
  have hHigh :
      (num.log2 : Int) <
        ((m.log2 : Int) + 1) + (den.log2 + 1) + e := by
    rw [← zpow_lt_zpow_iff_right₀ hTwo]
    refine lt_of_le_of_lt hNumLow ?_
    rw [hExact, zpow_add₀ (by norm_num),
      zpow_add₀ (by norm_num)]
    gcongr
  -- The test tells the two cases that are left apart.
  have hTest (t : Int)
      (hShift : (num.log2 : Int) - den.log2 = t + e) :
      shiftUp den ((num.log2 : Int) - den.log2) ≤
          shiftUp num (-((num.log2 : Int) - den.log2)) ↔
        (2 : ℚ) ^ t ≤ m := by
    have hPositive : (0 : ℚ) < den * 2 ^ e := by positivity
    have hLeft :
        (den : ℚ) * 2 ^ (t + e) = 2 ^ t * (den * 2 ^ e) := by
      rw [zpow_add₀ (by norm_num), mul_left_comm]
    rw [shiftUp_le_iff, hExact, hShift, hLeft, mul_assoc,
      mul_le_mul_iff_left₀ hPositive]
  rw [ratioLog]
  rcases (by omega :
      (num.log2 : Int) - den.log2 = (m.log2 : Int) + e ∨
        (num.log2 : Int) - den.log2 = (m.log2 + 1 : Int) + e)
    with hShift | hShift
  · rw [if_pos ((hTest _ hShift).mpr hMLow), hShift]
  · rw [if_neg fun hAbove =>
      absurd ((hTest _ hShift).mp hAbove) (not_le.mpr hMHigh),
      hShift]
    omega

/- An exact quotient is not rounded. -/
theorem roundQuotient_mul
    (m : Nat)
    {q : Nat}
    (hSome : 0 < q) :
    roundQuotient (m * q) q = m := by
  rw [roundQuotient, Nat.mul_div_cancel _ hSome,
    Nat.mul_mod_left, if_pos (by omega)]

/-
  A ratio that is a double exactly is rounded to its bits.
  The significand has 53 bits, or the exponent is the lowest.
-/
theorem nearestBits_exact
    (hDen : 0 < den)
    (hM : 0 < m)
    (hExact : (num : ℚ) = m * den * 2 ^ e)
    (hBits : m < 2 ^ 53)
    (hRange : -1074 ≤ e ∧ e ≤ 971)
    (hNormal : 2 ^ 52 ≤ m ∨ e = -1074) :
    nearestBits num den =
      if m < 2 ^ 52 then m
      else (e + 1075).toNat * 2 ^ 52 + (m - 2 ^ 52) := by
  have hExponent : max (ratioLog num den - 52) (-1074) = e := by
    rw [ratioLog_eq hDen hM hExact]
    rcases hNormal with hLarge | hLowest
    · have hLog : m.log2 = 52 := by
        rw [Nat.log2_eq_iff hM.ne']
        exact ⟨hLarge, hBits⟩
      rw [hLog]
      omega
    · have hLog : m.log2 < 53 := (Nat.log2_lt hM.ne').mpr hBits
      omega
  have hShifted : 0 < shiftUp den e := by
    rw [shiftUp]
    exact Nat.mul_pos hDen (Nat.pow_pos (by decide))
  have hQuotient :
      roundQuotient (shiftUp num (-e)) (shiftUp den e) = m := by
    rw [(shiftUp_eq_iff den num m e).mpr hExact]
    exact roundQuotient_mul m hShifted
  rw [nearestBits]
  simp only [hExponent, hQuotient, infinityBits, Nat.pow_eq]
  split
  · omega
  · omega

end BranchingStory

------------------------------------------------------------
-- Bits Of Doubles
------------------------------------------------------------

namespace BranchingStory

/- A double that is not negative is finite, or infinity. -/
theorem finite?_of_le
    {x : Float}
    (hNumber : x.toBits.toNat ≤ infinityBits) :
    (finite? x = none ∧ x.toBits.toNat = infinityBits) ∨
      ∃ f, finite? x = some f ∧ f.negative = false := by
  unfold finite?
  simp only [Nat.pow_eq, infinityBits] at *
  split
  · exact Or.inl ⟨rfl, by omega⟩
  · split
    · exact Or.inr ⟨_, rfl, decide_eq_false (by omega)⟩
    · exact Or.inr ⟨_, rfl, decide_eq_false (by omega)⟩

/-
  A finite double that is not negative: its bits follow from
  its significand and its exponent.
-/
theorem bits_of_finite?
    {x : Float}
    {f : Finite}
    (hFinite : finite? x = some f)
    (hPositive : f.negative = false) :
    f.significand < 2 ^ 53 ∧
      (-1074 ≤ f.exponent ∧ f.exponent ≤ 971) ∧
      (2 ^ 52 ≤ f.significand ∨ f.exponent = -1074) ∧
      x.toBits.toNat =
        if f.significand < 2 ^ 52 then f.significand
        else
          (f.exponent + 1075).toNat * 2 ^ 52 +
            (f.significand - 2 ^ 52) := by
  unfold finite? at hFinite
  simp only [Nat.pow_eq] at hFinite
  have hBits := x.toBits.toNat_lt
  generalize x.toBits.toNat = bits at hFinite hBits ⊢
  split at hFinite
  · cases hFinite
  · split at hFinite
    · cases hFinite
      rw [decide_eq_false_iff_not] at hPositive
      dsimp only
      refine ⟨by omega, by omega, .inr rfl, ?_⟩
      rw [if_pos (by omega)]
      omega
    · cases hFinite
      rw [decide_eq_false_iff_not] at hPositive
      dsimp only
      refine ⟨by omega, by omega, .inl (by omega), ?_⟩
      rw [if_neg (by omega)]
      omega

end BranchingStory

------------------------------------------------------------
-- Decimals
------------------------------------------------------------

namespace BranchingStory

/- The last digits of a number, as many as are asked for. -/
def lastDigits : Nat → Nat → List Char
  | 0, _ => []
  | k + 1, n =>
      Nat.digitChar (n / 10 ^ k % 10) :: lastDigits k n

@[simp] theorem length_lastDigits
    (k n : Nat) :
    (lastDigits k n).length = k := by
  induction k with
  | zero => rfl
  | succ k ih => rw [lastDigits, List.length_cons, ih]

/- A digit as it is written, and its value. -/
theorem digitChar_of_lt
    {d : Nat}
    (hDigit : d < 10) :
    d.digitChar.isDigit = true ∧
      d.digitChar.toNat - '0'.toNat = d := by
  have hAll :
      ∀ d < 10, d.digitChar.isDigit = true ∧
        d.digitChar.toNat - '0'.toNat = d := by
    decide
  exact hAll d hDigit

theorem isDigit_of_mem_lastDigits
    (k n : Nat) :
    ∀ c ∈ lastDigits k n, c.isDigit = true := by
  induction k with
  | zero => simp [lastDigits]
  | succ k ih =>
      rw [lastDigits, List.forall_mem_cons]
      exact ⟨(digitChar_of_lt (Nat.mod_lt _ (by decide))).1, ih⟩

/- Digits in front count as many units as places follow. -/
theorem ofDigitChars_lastDigits
    (k n a : Nat) :
    Nat.ofDigitChars 10 (lastDigits k n) a =
      a * 10 ^ k + n % 10 ^ k := by
  induction k generalizing a with
  | zero => simp [lastDigits, Nat.mod_one]
  | succ k ih =>
      rw [lastDigits, Nat.ofDigitChars_cons,
        (digitChar_of_lt (Nat.mod_lt _ (by decide))).2, ih,
        Nat.mod_pow_succ]
      ring

namespace Finite

/- The number of digits after the point, at least one. -/
def places
    (x : Finite) : Nat :=
  (-x.exponent).toNat + 1

/- The value of a finite double in units of its last place. -/
def scaled
    (x : Finite) : Nat :=
  shiftUp x.significand x.exponent *
    5 ^ (-x.exponent).toNat * 10

/-
  A finite double written out in full, its sign left aside.
  Two divides ten, so that the digits come to an end.
-/
def decimal
    (x : Finite) : List Char :=
  Nat.toDigits 10 (x.scaled / 10 ^ x.places) ++
    '.' :: lastDigits x.places x.scaled

end Finite

/-
  A double that is not negative, written without an exponent.
  Infinity is written as a number that lies above all doubles.
-/
def decimalOf
    (x : Float) : List Char :=
  match finite? x with
  | some f => f.decimal
  | none => Nat.toDigits 10 (10 ^ 400) ++ ['.', '0']

/- A decimal has digits on both sides of its point. -/
theorem digits_of_decimalOf
    (x : Float) :
    ∃ whole fraction,
      decimalOf x = whole ++ '.' :: fraction ∧
        whole ≠ [] ∧ fraction ≠ [] ∧
        (∀ c ∈ whole, c.isDigit = true) ∧
        ∀ c ∈ fraction, c.isDigit = true := by
  rw [decimalOf]
  split
  · next f _ =>
      refine ⟨_, _, rfl, Nat.toDigits_ne_nil, ?_,
        isDigit_of_mem_decimal _,
        isDigit_of_mem_lastDigits _ _⟩
      rw [← List.length_pos_iff, length_lastDigits]
      exact Nat.succ_pos _
  · refine ⟨Nat.toDigits 10 (10 ^ 400), ['0'], rfl,
      Nat.toDigits_ne_nil, List.cons_ne_nil _ _,
      isDigit_of_mem_decimal _, ?_⟩
    rw [List.forall_mem_singleton]
    decide

end BranchingStory

------------------------------------------------------------
-- Reading Decimals
------------------------------------------------------------

namespace BranchingStory

variable {whole fraction : List Char}

/- The digits before a point are taken up to the point. -/
theorem takeDigits_point
    (hWhole : ∀ c ∈ whole, c.isDigit = true)
    (afterDigit : Bool)
    (rest : List Char) :
    takeDigits afterDigit (whole ++ '.' :: rest) =
      (whole.map fun c => c.toNat - '0'.toNat,
        '.' :: rest) := by
  have hPoint (c : Char)
      (hHead : ('.' :: rest).head? = some c) :
      isDigit c = false ∧ c ≠ '_' := by
    cases hHead
    decide
  rw [takeDigits_append
    (fun c hMem => isDigit_of_decimal (hWhole c hMem)) hPoint,
    digitValues_of_isDigit hWhole]

/- What a sign is followed by lacks no point of the text. -/
theorem contains_takeSign
    (cs : List Char) :
    (takeSign cs).2.contains '.' = cs.contains '.' := by
  unfold takeSign
  split <;> simp

/- Without the blanks at its start, a text ends in blanks. -/
theorem dropWhile_eq_trimNumber
    (cs : List Char) :
    ∃ gap, cs.dropWhile isNumberBlank = trimNumber cs ++ gap ∧
      ∀ c ∈ gap, isNumberBlank c = true := by
  refine
    ⟨((cs.dropWhile isNumberBlank).reverse.takeWhile
      isNumberBlank).reverse, ?_, ?_⟩
  · rw [trimNumber, ← List.reverse_append,
      List.takeWhile_append_dropWhile, List.reverse_reverse]
  · intro c hMem
    rw [List.mem_reverse] at hMem
    exact List.all_eq_true.mp List.all_takeWhile c hMem

/- The blanks around a number have no point. -/
theorem contains_trimNumber
    (cs : List Char) :
    (trimNumber cs).contains '.' = cs.contains '.' := by
  rcases dropWhile_eq_trimNumber cs with ⟨gap, hDrop, hGap⟩
  have hNone {gap : List Char}
      (hGap : ∀ c ∈ gap, isNumberBlank c = true) :
      gap.contains '.' = false := by
    rw [← Bool.not_eq_true, List.contains_iff_mem]
    intro hMem
    exact absurd (hGap '.' hMem) (by decide)
  have hStart :
      (cs.takeWhile isNumberBlank).contains '.' = false :=
    hNone fun c hMem =>
      List.all_eq_true.mp List.all_takeWhile c hMem
  have hSplit :
      cs.takeWhile isNumberBlank ++ (trimNumber cs ++ gap) =
        cs := by
    rw [← hDrop, List.takeWhile_append_dropWhile]
  conv_rhs => rw [← hSplit]
  simp only [List.contains_append, hStart, hNone hGap,
    Bool.false_or, Bool.or_false]

/- A text with a point names no number: it is a decimal. -/
theorem readDouble?_of_point
    {cs : List Char}
    (hPoint : '.' ∈ cs) :
    readDouble? cs =
      readDecimal? (takeSign (trimNumber cs)).1
        (takeSign (trimNumber cs)).2 := by
  have hName {name : String}
      (hNone : '.' ∉ name.toList) :
      String.ofList ((takeSign (trimNumber cs)).2.map
        Char.toLower) ≠ name := by
    rintro rfl
    apply hNone
    rw [← List.contains_iff_mem, ← contains_trimNumber,
      ← contains_takeSign, List.contains_iff_mem] at hPoint
    rw [String.toList_ofList]
    exact List.mem_map.mpr ⟨'.', hPoint, by decide⟩
  rw [readDouble?]
  dsimp only
  rw [if_neg (not_or.mpr ⟨hName (by decide),
    hName (by decide)⟩), if_neg (hName (by decide))]

/- Digits and points are read as a decimal, without a sign. -/
theorem readDouble?_of_dotted
    {cs : List Char}
    (hDotted : ∀ c ∈ cs, isDigit c = true ∨ c = '.')
    (hPoint : '.' ∈ cs) :
    readDouble? cs = readDecimal? false cs := by
  have hPlain : ∀ c ∈ cs, isNumberBlank c = false := by
    intro c hMem
    rcases hDotted c hMem with hDigit | rfl
    · exact not_isNumberBlank_of_isDigit hDigit
    · decide
  have hSign : takeSign cs = (false, cs) :=
    takeSign_of_notMem
      (fun hMem => absurd (hDotted _ hMem) (by decide))
      (fun hMem => absurd (hDotted _ hMem) (by decide))
  rw [readDouble?_of_point hPoint, trimNumber,
    trimmed_of_none hPlain, hSign]

/- A decimal without sign and exponent is read as its digits. -/
theorem readDouble?_of_isDigit
    (hWhole : ∀ c ∈ whole, c.isDigit = true)
    (hFraction : ∀ c ∈ fraction, c.isDigit = true)
    (hSome : whole ≠ []) :
    readDouble? (whole ++ '.' :: fraction) =
      some (scaledDouble false
        (Nat.ofDigitChars 10 (whole ++ fraction) 0)
        (-fraction.length)) := by
  have hDotted :
      ∀ c ∈ whole ++ '.' :: fraction,
        isDigit c = true ∨ c = '.' := by
    intro c hMem
    rw [List.mem_append, List.mem_cons] at hMem
    rcases hMem with hMem | rfl | hMem
    · exact Or.inl (isDigit_of_decimal (hWhole c hMem))
    · exact Or.inr rfl
    · exact Or.inl (isDigit_of_decimal (hFraction c hMem))
  rw [readDouble?_of_dotted hDotted (by simp), readDecimal?,
    takeDigits_point hWhole]
  simp only [takeFraction, takeDigits_of_isDigit hFraction,
    List.isEmpty_map, List.isEmpty_eq_false_iff.mpr hSome,
    Bool.false_and, Bool.false_eq_true, if_false,
    readExponent?, Option.map_some, List.length_map, zero_sub]
  rw [← List.map_append, ofDigits, List.foldl_map,
    Nat.ofDigitChars_eq_foldl]

end BranchingStory

------------------------------------------------------------
-- Reading What Is Written In Full
------------------------------------------------------------

namespace BranchingStory

variable {x : Float}
variable {f : Finite}

namespace Finite

/- A unit of the last place is a whole number of doubles. -/
theorem scaled_eq
    (f : Finite) :
    (f.scaled : ℚ) =
      f.significand * (10 ^ f.places : Nat) *
        2 ^ f.exponent := by
  have hTen (k : Nat) : (10 : ℚ) ^ k = 2 ^ k * 5 ^ k := by
    rw [← mul_pow]
    norm_num
  rw [scaled, shiftUp, places, Nat.pow_eq]
  push_cast
  rw [pow_toNat_eq, pow_succ, hTen]
  ring

/- The digits of a decimal are those of the value. -/
theorem ofDigitChars_decimal
    (f : Finite) :
    Nat.ofDigitChars 10
        (Nat.toDigits 10 (f.scaled / 10 ^ f.places) ++
          lastDigits f.places f.scaled) 0 =
      f.scaled := by
  rw [Nat.ofDigitChars_append, Nat.ofDigitChars_ten_toDigits,
    ofDigitChars_lastDigits, Nat.div_add_mod']

/- Three binary places are less than a decimal one. -/
theorem two_pow_le
    {k n : Nat}
    (hPlaces : k ≤ 3 * n) :
    2 ^ k ≤ 10 ^ n :=
  calc
    2 ^ k ≤ 2 ^ (3 * n) :=
      Nat.pow_le_pow_right (by decide) hPlaces
    _ = 8 ^ n := Nat.pow_mul 2 3 n
    _ ≤ 10 ^ n := Nat.pow_le_pow_left (by decide) n

section Lengths

variable {n : Nat}

/- Large doubles are far from the end of what is read. -/
theorem length_scaled_le
    (hBits : f.significand < 2 ^ 53)
    (hRange : f.exponent ≤ 971)
    (hReach : 1074 ≤ 3 * n) :
    (Nat.toDigits 10 f.scaled).length ≤ n + f.places := by
  have hBound : f.scaled < 10 ^ (n + f.places) := by
    rw [scaled, shiftUp, places, Nat.pow_eq, Nat.mul_assoc,
      Nat.pow_add]
    refine Nat.mul_lt_mul_of_lt_of_le ?_ ?_
      (Nat.mul_pos (Nat.pow_pos (by decide)) (by decide))
    · calc
        f.significand * 2 ^ f.exponent.toNat
            < 2 ^ 53 * 2 ^ f.exponent.toNat :=
          Nat.mul_lt_mul_of_pos_right hBits (by positivity)
        _ = 2 ^ (53 + f.exponent.toNat) :=
          (Nat.pow_add 2 53 _).symm
        _ ≤ 10 ^ n := two_pow_le (by omega)
    · rw [Nat.pow_succ]
      exact Nat.mul_le_mul_right 10
        (Nat.pow_le_pow_left (by decide) _)
  exact Nat.le_of_not_lt fun hLong =>
    (lt_length_toDigits_iff (by rw [places]; omega) _).mp
      hLong hBound

/- Small doubles are far from the end of what is read. -/
theorem places_le
    (hRange : -1074 ≤ f.exponent)
    (hSome : 0 < f.significand)
    (hReach : 1074 ≤ 3 * n) :
    f.places ≤ (Nat.toDigits 10 f.scaled).length + n := by
  have hTen (k : Nat) : 10 ^ k = 2 ^ k * 5 ^ k := by
    rw [← Nat.mul_pow]
  generalize hLength :
      (Nat.toDigits 10 f.scaled).length = m
  have hBelow : f.scaled < 10 ^ m := by
    have hNone : ¬ m < (Nat.toDigits 10 f.scaled).length := by
      omega
    have hDigits : 0 < m := by
      rw [← hLength]
      exact Nat.length_toDigits_pos
    rwa [lt_length_toDigits_iff hDigits, not_not] at hNone
  refine Nat.le_of_not_lt fun hFew => ?_
  rw [places] at hFew
  refine absurd hBelow (Nat.not_lt.mpr ?_)
  refine Nat.le_of_mul_le_mul_right ?_
    (Nat.pow_pos (by decide) : 0 < 10 ^ n)
  calc
    10 ^ m * 10 ^ n = 10 ^ (m + n) :=
      (Nat.pow_add 10 m n).symm
    _ ≤ 10 ^ (-f.exponent).toNat :=
      Nat.pow_le_pow_right (by decide) (by omega)
    _ = 5 ^ (-f.exponent).toNat *
        2 ^ (-f.exponent).toNat := by
      rw [hTen, Nat.mul_comm]
    _ ≤ f.scaled * 10 ^ n := by
      refine Nat.mul_le_mul ?_ (two_pow_le (by omega))
      rw [scaled, shiftUp, Nat.pow_eq]
      refine le_trans ?_
        (Nat.le_mul_of_pos_right _ (by decide))
      exact Nat.le_mul_of_pos_left _ (by positivity)

end Lengths

end Finite

/- A number above all doubles is read as infinity. -/
theorem readDouble?_of_far
    {n : Nat}
    (hFar : 400 ≤ n) :
    readDouble? (Nat.toDigits 10 (10 ^ n) ++ ['.', '0']) =
      some (infinity false) := by
  have hValue :
      Nat.ofDigitChars 10
          (Nat.toDigits 10 (10 ^ n) ++ ['0']) 0 =
        10 ^ (n + 1) := by
    rw [Nat.ofDigitChars_append, Nat.ofDigitChars_ten_toDigits,
      Nat.ofDigitChars_cons, Nat.ofDigitChars_nil,
      Nat.sub_self, Nat.add_zero, Nat.pow_succ, Nat.mul_comm]
  have hLong :
      n + 1 < (Nat.toDigits 10 (10 ^ (n + 1))).length :=
    (lt_length_toDigits_iff (Nat.succ_pos n) _).mpr
      (Nat.lt_irrefl _)
  rw [readDouble?_of_isDigit (isDigit_of_mem_decimal _)
    (by simp) Nat.toDigits_ne_nil, hValue, scaledDouble,
    if_neg (Nat.pow_pos (by decide)).ne']
  simp only [List.length_singleton]
  rw [if_pos (by omega)]

/- A double that is not negative is read back to the bit. -/
theorem readDouble?_decimalOf
    (hNumber : x.toBits.toNat ≤ infinityBits) :
    readDouble? (decimalOf x) = some x := by
  have hBack (bits : Nat) (hBits : x.toBits.toNat = bits) :
      Float.ofBits (UInt64.ofNat (0 + bits)) = x := by
    rw [Nat.zero_add, ← hBits, UInt64.ofNat_toNat,
      Float.ofBits_toBits]
  rw [decimalOf]
  rcases finite?_of_le hNumber with
    ⟨hFinite, hInfinite⟩ | ⟨f, hFinite, hPositive⟩
  · rw [hFinite]
    dsimp only
    rw [readDouble?_of_far (Nat.le_refl 400), infinity]
    simp only [Bool.false_eq_true, if_false]
    rw [hBack _ hInfinite]
  · rw [hFinite]
    rcases bits_of_finite? hFinite hPositive with
      ⟨hBits, hRange, hNormal, hValue⟩
    dsimp only
    rw [Finite.decimal,
      readDouble?_of_isDigit (isDigit_of_mem_decimal _)
        (isDigit_of_mem_lastDigits _ _) Nat.toDigits_ne_nil,
      f.ofDigitChars_decimal, length_lastDigits,
      scaledDouble]
    rcases Nat.eq_zero_or_pos f.significand with
      hZero | hSome
    · have hNone : f.scaled = 0 := by
        simp [Finite.scaled, shiftUp, hZero]
      rw [hZero, if_pos (by decide)] at hValue
      rw [if_pos hNone, nearestDouble]
      simp only [if_true, Bool.false_eq_true, if_false]
      rw [hBack _ hValue]
    · have hDigits : f.scaled ≠ 0 := by
        simp [Finite.scaled, shiftUp, hSome.ne']
      have hReach : 1074 ≤ 3 * 400 := by decide
      have hLength :=
        Finite.length_scaled_le hBits hRange.2 hReach
      have hPlaces := Finite.places_le hRange.1 hSome hReach
      simp only
      rw [if_neg hDigits, if_neg (by omega),
        if_neg (by omega), nearestDouble]
      simp only [Int.neg_neg, Int.toNat_natCast,
        Int.toNat_neg_natCast, Nat.pow_zero, Nat.mul_one,
        Nat.pow_eq, if_neg hDigits, Bool.false_eq_true,
        if_false]
      rw [nearestBits_exact (Nat.pow_pos (by decide)) hSome
        f.scaled_eq hBits hRange hNormal, hBack _ hValue]

end BranchingStory

------------------------------------------------------------
-- Doubles That Are Not Negative
------------------------------------------------------------

namespace BranchingStory

open Float.Model Float.Model.UnpackedFloat in
/-
  Bits up to those of infinity, with a sign or without one,
  stand for themselves.
-/
theorem toBits_ofBits
    {bits : Nat}
    (hSize : bits < 2 ^ 64)
    (hBits : bits % 2 ^ 63 ≤ infinityBits) :
    (Float.ofBits (UInt64.ofNat bits)).toBits.toNat = bits := by
  rw [infinityBits, Nat.pow_eq] at hBits
  have hNat : (UInt64.ofNat bits).toBitVec.toNat = bits := by
    simp
    omega
  generalize hVector : (UInt64.ofNat bits).toBitVec = b at hNat
  -- All ones in the exponent leave no bit to the fraction.
  have hNumber : @isNaNBits Format.binary64 b = false := by
    rw [isNaNBits, decide_eq_false_iff_not]
    rintro ⟨hExponent, hFraction⟩
    refine hFraction (BitVec.eq_of_toNat_eq ?_)
    have hOnes := congrArg BitVec.toNat hExponent
    rw [unpackExponent_def, BitVec.extractLsb'_toNat, hNat]
      at hOnes
    rw [unpackMantissa_def, BitVec.extractLsb'_toNat, hNat]
    change bits >>> 52 % 2 ^ 11 = 2047 at hOnes
    change bits >>> 0 % 2 ^ 52 = 0
    rw [Nat.shiftRight_eq_div_pow] at *
    omega
  have hSame := @pack_unpack Format.binary64 b
  rw [hNumber] at hSame
  change ((unpack Format.binary64
    (UInt64.ofNat bits).toBitVec).pack _).toNat = bits
  rw [hVector, hSame]
  exact hNat

/- A decimal without a sign is read as no negative double. -/
theorem toBits_readDecimal?
    {cs : List Char}
    {x : Float}
    (hRead : readDecimal? false cs = some x) :
    x.toBits.toNat ≤ infinityBits := by
  have hBits {bits : Nat} (hBound : bits ≤ infinityBits) :
      (Float.ofBits (UInt64.ofNat (0 + bits))).toBits.toNat ≤
        infinityBits := by
    rw [infinityBits, Nat.pow_eq] at hBound
    rw [Nat.zero_add,
      toBits_ofBits (by omega) (by
        rw [infinityBits, Nat.pow_eq]
        omega)]
    exact hBound
  have hNearest (num den : Nat) :
      (nearestDouble false num den).toBits.toNat ≤
        infinityBits := by
    rw [nearestDouble]
    refine hBits ?_
    split
    · exact Nat.zero_le _
    · exact Nat.min_le_right _ _
  rw [readDecimal?] at hRead
  dsimp only at hRead
  split at hRead
  · cases hRead
  · rcases Option.map_eq_some_iff.mp hRead with ⟨e, _, rfl⟩
    rw [scaledDouble]
    dsimp only
    split
    · exact hNearest 0 1
    · split
      · exact hBits (Nat.le_refl _)
      · split
        · exact hNearest 0 1
        · exact hNearest _ _

end BranchingStory
