import BranchingStory.Proofs.ShortestDecimals

/-
  This file shows that every double is read back from its text,
  to the bit.  The text is a numeral: a whole part, a fraction
  and an exponent.

  Key definitions include:
    * `Numeral`
    * `Numeral.text`
    * `Numeral.double`
    * `Decimal.numeral`
    * `Finite.numeral`

  Key theorems include:
    * `Numeral.readDecimal?_text`
    * `Decimal.numeral_value`
    * `Finite.double_numeral`
    * `eq_of_finite?_none`
    * `readDouble?_doubleText`
-/

------------------------------------------------------------
-- Numerals
------------------------------------------------------------

namespace BranchingStory

/-
  A decimal number as it is written: the digits before and
  after its point, and its exponent, with a sign if negative.
-/
structure Numeral where
  whole : List Char
  fraction : List Char
  exponent : Option (Bool × List Char)

namespace Numeral

/- The fraction with its point, if there is one. -/
def fractionText
    (n : Numeral) : List Char :=
  if n.fraction.isEmpty then [] else '.' :: n.fraction

/- The exponent with its letter and sign, if there is one. -/
def exponentText
    (n : Numeral) : List Char :=
  match n.exponent with
  | none => []
  | some (negative, ds) =>
      'e' :: (if negative then '-' else '+') :: ds

/- The text of a numeral. -/
def text
    (n : Numeral) : List Char :=
  n.whole ++ (n.fractionText ++ n.exponentText)

/- The digits of a numeral, read as a whole number. -/
def digits
    (n : Numeral) : Nat :=
  Nat.ofDigitChars 10 (n.whole ++ n.fraction) 0

/- The number that the exponent stands for. -/
def power
    (n : Numeral) : Int :=
  match n.exponent with
  | none => 0
  | some (negative, ds) =>
      if negative then -(Nat.ofDigitChars 10 ds 0 : Int)
      else Nat.ofDigitChars 10 ds 0

/- The power of ten that the digits count. -/
def scale
    (n : Numeral) : Int :=
  n.power - n.fraction.length

/- The double nearest to a numeral with a sign. -/
def double
    (negative : Bool)
    (n : Numeral) : Float :=
  scaledDouble negative n.digits n.scale

/-
  Whether a numeral is written in digits, at least one of them
  before the point, and no zero in front of others.
-/
structure IsPlain
    (n : Numeral) : Prop where
  whole : ∀ c ∈ n.whole, c.isDigit = true
  fraction : ∀ c ∈ n.fraction, c.isDigit = true
  exponent : ∀ p, n.exponent = some p →
    p.2 ≠ [] ∧ ∀ c ∈ p.2, c.isDigit = true
  nonempty : n.whole ≠ []
  leading : n.whole = ['0'] ∨ n.whole.head? ≠ some '0'

/- Whether a numeral has a fraction or an exponent as well. -/
structure IsFloat
    (n : Numeral) : Prop extends n.IsPlain where
  broken : n.fraction ≠ [] ∨ n.exponent ≠ none

variable {n : Numeral}

/- Digits of decimals are taken up to what is no digit. -/
theorem takeDigits_run
    {cs rest : List Char}
    (hDigits : ∀ c ∈ cs, c.isDigit = true)
    (hStop : ∀ c, rest.head? = some c →
      isDigit c = false ∧ c ≠ '_')
    (afterDigit : Bool) :
    takeDigits afterDigit (cs ++ rest) =
      (cs.map fun c => c.toNat - '0'.toNat, rest) := by
  rw [takeDigits_append
    (fun c hMem => isDigit_of_decimal (hDigits c hMem)) hStop,
    digitValues_of_isDigit hDigits]

/- Digits by their values stand for the same number. -/
theorem ofDigits_map
    (cs : List Char) :
    ofDigits (cs.map fun c => c.toNat - '0'.toNat) =
      Nat.ofDigitChars 10 cs 0 := by
  rw [ofDigits, List.foldl_map, Nat.ofDigitChars_eq_foldl]

/- An exponent begins with no digit. -/
theorem head_exponentText
    (n : Numeral) :
    ∀ c, n.exponentText.head? = some c →
      isDigit c = false ∧ c ≠ '_' := by
  intro c hHead
  rw [exponentText] at hHead
  split at hHead
  · cases hHead
  · cases hHead
    decide

/- What follows the whole part begins with no digit. -/
theorem head_fractionText
    (n : Numeral) :
    ∀ c, (n.fractionText ++ n.exponentText).head? =
        some c →
      isDigit c = false ∧ c ≠ '_' := by
  intro c hHead
  rw [fractionText] at hHead
  split at hHead
  · exact n.head_exponentText c hHead
  · cases hHead
    decide

/- The fraction of a numeral is taken up to its exponent. -/
theorem takeFraction_text
    (hPlain : n.IsPlain) :
    takeFraction (n.fractionText ++ n.exponentText) =
      (n.fraction.map fun c => c.toNat - '0'.toNat,
        n.exponentText) := by
  rw [fractionText]
  split
  · next hNone =>
      rw [List.isEmpty_iff.mp hNone, exponentText]
      split
      · rfl
      · rfl
  · exact takeDigits_run hPlain.fraction n.head_exponentText
      false

/- The exponent of a numeral is read to the end. -/
theorem readExponent?_text
    (hPlain : n.IsPlain) :
    readExponent? n.exponentText = some n.power := by
  rw [exponentText, power]
  split
  · rfl
  · next negative ds hSome =>
      rcases hPlain.exponent _ hSome with ⟨hDigits, hAll⟩
      have hSign :
          takeSign ((if negative then '-' else '+') :: ds) =
            (negative, ds) := by
        cases negative
        · rfl
        · rfl
      have hValues :
          ds.map (fun c => c.toNat - '0'.toNat) ≠ [] := by
        rwa [Ne, List.map_eq_nil_iff]
      rw [readExponent?, if_pos (Or.inl rfl), hSign]
      dsimp only
      rw [takeDigits_of_isDigit hAll]
      generalize hTaken :
        ds.map (fun c => c.toNat - '0'.toNat) = vs at hValues
      rw [← ofDigits_map, hTaken]
      cases vs with
      | nil => exact absurd rfl hValues
      | cons v vs => rfl

/- A numeral is read as the double nearest to it. -/
theorem readDecimal?_text
    (hPlain : n.IsPlain)
    (negative : Bool) :
    readDecimal? negative n.text =
      some (n.double negative) := by
  rw [readDecimal?, text,
    takeDigits_run hPlain.whole n.head_fractionText]
  dsimp only
  rw [takeFraction_text hPlain]
  simp only [readExponent?_text hPlain, List.isEmpty_map,
    List.isEmpty_eq_false_iff.mpr hPlain.nonempty,
    Bool.false_and, Bool.false_eq_true, if_false,
    Option.map_some, List.length_map]
  rw [← List.map_append, ofDigits_map]
  rfl

end Numeral

end BranchingStory

namespace BranchingStory

namespace Numeral

variable {n : Numeral}

/- The sign in front of a number, if it is negative. -/
def signText
    (negative : Bool) : List Char :=
  if negative then ['-'] else []

/- A numeral begins with a digit. -/
theorem exists_text_eq
    (hPlain : n.IsPlain) :
    ∃ c rest, n.text = c :: rest ∧ c.isDigit = true := by
  cases hWhole : n.whole with
  | nil => exact absurd hWhole hPlain.nonempty
  | cons c cs =>
      refine ⟨c, cs ++ (n.fractionText ++ n.exponentText),
        ?_, hPlain.whole c (by simp [hWhole])⟩
      rw [text, hWhole]
      rfl

/- A numeral is written in digits, a point, and an exponent. -/
theorem mem_text
    (hPlain : n.IsPlain)
    {c : Char}
    (hMem : c ∈ n.text) :
    c.isDigit = true ∨ c ∈ ['.', 'e', '-', '+'] := by
  rw [text, List.mem_append, List.mem_append] at hMem
  rcases hMem with hMem | hMem | hMem
  · exact Or.inl (hPlain.whole c hMem)
  · rw [fractionText] at hMem
    split at hMem
    · cases hMem
    · rcases List.mem_cons.mp hMem with rfl | hMem
      · exact Or.inr (by decide)
      · exact Or.inl (hPlain.fraction c hMem)
  · rw [exponentText] at hMem
    split at hMem
    · cases hMem
    · next negative ds hSome =>
        rcases List.mem_cons.mp hMem with rfl | hMem
        · exact Or.inr (by decide)
        · rcases List.mem_cons.mp hMem with rfl | hMem
          · right
            cases negative
            · decide
            · decide
          · exact Or.inl ((hPlain.exponent _ hSome).2 c hMem)

/- A numeral with its sign is read to the end. -/
theorem readDouble?_text
    (hPlain : n.IsPlain)
    (negative : Bool) :
    readDouble? (signText negative ++ n.text) =
      some (n.double negative) := by
  rcases exists_text_eq hPlain with ⟨c, rest, hText, hDigit⟩
  have hNoBlank :
      ∀ c ∈ signText negative ++ n.text,
        isNumberBlank c = false := by
    intro c hMem
    rcases List.mem_append.mp hMem with hMem | hMem
    · cases negative with
      | false => cases hMem
      | true =>
          rw [List.mem_singleton.mp hMem]
          decide
    · rcases mem_text hPlain hMem with hDigit | hOther
      · exact not_isNumberBlank_of_isDigit
          (isDigit_of_decimal hDigit)
      · have hNone :
            (['.', 'e', '-', '+'].all fun c =>
              !isNumberBlank c) = true := by
          decide
        simpa using List.all_eq_true.mp hNone c hOther
  have hSign :
      takeSign (signText negative ++ n.text) =
        (negative, n.text) := by
    cases negative with
    | true => rfl
    | false =>
        rw [hText]
        refine takeSign_cons ?_ ?_
        · rintro rfl
          cases hDigit
        · rintro rfl
          cases hDigit
  have hName {name : String}
      (hOther : (name.toList.head?.any Char.isDigit) = false) :
      String.ofList (n.text.map Char.toLower) ≠ name := by
    rintro rfl
    have hUpper : ¬ c.isUpper = true := by
      rw [Char.isDigit_iff_toNat] at hDigit
      rw [Char.isUpper, decide_eq_true_eq]
      rintro ⟨hFrom, _⟩
      change 65 ≤ c.toNat at hFrom
      exact absurd (hFrom.trans hDigit.2) (by decide)
    rw [String.toList_ofList, hText, List.map_cons,
      Char.toLower_eq_of_not_isUpper hUpper, List.head?_cons,
      Option.any_some, hDigit] at hOther
    cases hOther
  rw [readDouble?, trimNumber, trimmed_of_none hNoBlank, hSign]
  dsimp only
  rw [if_neg (not_or.mpr ⟨hName (by decide),
    hName (by decide)⟩), if_neg (hName (by decide))]
  exact readDecimal?_text hPlain negative

end Numeral

end BranchingStory

------------------------------------------------------------
-- Decimals As Numerals
------------------------------------------------------------

namespace BranchingStory

namespace Decimal

/- The numeral that a decimal is written as. -/
def numeral
    (d : Decimal) : Numeral :=
  let ds := digitsOf d.digits
  let zeros (n : Int) := List.replicate n.toNat '0'
  if -4 < d.point ∧ d.point ≤ 16 then
    if d.point ≤ 0 then ⟨['0'], zeros (-d.point) ++ ds, none⟩
    else if ds.length ≤ d.point then
      ⟨ds ++ zeros (d.point - ds.length), ['0'], none⟩
    else
      ⟨ds.take d.point.toNat, ds.drop d.point.toNat, none⟩
  else
    let e := d.point - 1
    let size := digitsOf e.natAbs
    ⟨ds.take 1, ds.drop 1,
      some (decide (e < 0), zeros (2 - size.length) ++ size)⟩

/- The digits of a decimal are decimal digits, at least one. -/
theorem digitsOf_spec
    (n : Nat) :
    digitsOf n ≠ [] ∧ ∀ c ∈ digitsOf n, c.isDigit = true :=
  ⟨Nat.toDigits_ne_nil, isDigit_of_mem_decimal n⟩

/- A decimal is written as its numeral. -/
theorem text_numeral
    (d : Decimal) :
    d.numeral.text = d.text := by
  rcases digitsOf_spec d.digits with ⟨hSome, _⟩
  rw [numeral, text]
  dsimp only
  split
  · split
    · simp [Numeral.text, Numeral.fractionText,
        Numeral.exponentText, hSome]
    · split
      · simp [Numeral.text, Numeral.fractionText,
          Numeral.exponentText]
      · next hLess =>
          have hRest :
              (digitsOf d.digits).drop d.point.toNat ≠ [] := by
            rw [Ne, List.drop_eq_nil_iff]
            omega
          simp [Numeral.text, Numeral.fractionText,
            Numeral.exponentText, hRest]
  · cases hDigits : digitsOf d.digits with
    | nil => exact absurd hDigits hSome
    | cons c cs =>
        cases cs with
        | nil =>
            simp [Numeral.text, Numeral.fractionText,
              Numeral.exponentText]
        | cons c' cs =>
            simp [Numeral.text, Numeral.fractionText,
              Numeral.exponentText]

/- Zeros are digits. -/
theorem isDigit_of_mem_zeros
    {n : Nat}
    {c : Char}
    (hMem : c ∈ List.replicate n '0') :
    c.isDigit = true := by
  rw [List.eq_of_mem_replicate hMem]
  decide

/- The digits of a positive number do not begin with zero. -/
theorem head_digitsOf
    {n : Nat}
    (hSome : 0 < n) :
    (digitsOf n).head? ≠ some '0' := by
  induction n using Nat.strongRecOn with
  | ind n ih =>
      rw [digitsOf]
      rcases Nat.lt_or_ge n 10 with hDigit | hMore
      · rw [Nat.toDigits_of_lt_base hDigit]
        have hNone :
            ∀ d < 10, 0 < d → [d.digitChar].head? ≠ some '0' := by
          decide
        exact hNone n hDigit hSome
      · rw [Nat.toDigits_of_base_le (by decide) hMore,
          List.head?_append_of_ne_nil _ Nat.toDigits_ne_nil]
        exact ih (n / 10) (by omega) (by omega)

/- A decimal other than zero is written as a float. -/
theorem isFloat_numeral
    {d : Decimal}
    (hSome : 0 < d.digits) :
    d.numeral.IsFloat := by
  rcases digitsOf_spec d.digits with ⟨hDigits, hAll⟩
  have hZeros (n : Nat) :
      ∀ c ∈ List.replicate n '0', c.isDigit = true :=
    fun c hMem => isDigit_of_mem_zeros hMem
  have hBoth {as bs : List Char}
      (hLeft : ∀ c ∈ as, c.isDigit = true)
      (hRight : ∀ c ∈ bs, c.isDigit = true) :
      ∀ c ∈ as ++ bs, c.isDigit = true := by
    intro c hMem
    rcases List.mem_append.mp hMem with hMem | hMem
    · exact hLeft c hMem
    · exact hRight c hMem
  have hTake (k : Nat) :
      ∀ c ∈ (digitsOf d.digits).take k, c.isDigit = true :=
    fun c hMem => hAll c (List.mem_of_mem_take hMem)
  have hDrop (k : Nat) :
      ∀ c ∈ (digitsOf d.digits).drop k, c.isDigit = true :=
    fun c hMem => hAll c (List.mem_of_mem_drop hMem)
  have hLead := head_digitsOf hSome
  rcases List.exists_cons_of_ne_nil hDigits with
    ⟨first, others, hCons⟩
  rw [hCons, List.head?_cons] at hLead
  rw [numeral]
  dsimp only
  split
  · split
    · exact {
        whole := by simp
        fraction := hBoth (hZeros _) hAll
        exponent := by simp
        nonempty := List.cons_ne_nil _ _
        leading := Or.inl rfl
        broken := Or.inl (by simp [hDigits]) }
    · split
      · exact {
          whole := hBoth hAll (hZeros _)
          fraction := by simp
          exponent := by simp
          nonempty := by simp [hDigits]
          leading := Or.inr (by rw [hCons]; exact hLead)
          broken := Or.inl (List.cons_ne_nil _ _) }
      · next hPoint hMore =>
          obtain ⟨k, hK⟩ : ∃ k, d.point.toNat = k + 1 :=
            ⟨d.point.toNat - 1, by omega⟩
          exact {
            whole := hTake _
            fraction := hDrop _
            exponent := by simp
            nonempty := by
              rw [hK, hCons]
              exact List.cons_ne_nil _ _
            leading := Or.inr (by rw [hK, hCons]; exact hLead)
            broken := Or.inl (by
              rw [Ne, List.drop_eq_nil_iff]
              omega) }
  · exact {
      whole := hTake _
      fraction := hDrop _
      exponent := by
        intro p hSize
        cases hSize
        exact ⟨by simp [(digitsOf_spec _).1],
          hBoth (hZeros _) (digitsOf_spec _).2⟩
      nonempty := by rw [hCons]; exact List.cons_ne_nil _ _
      leading := Or.inr (by rw [hCons]; exact hLead)
      broken := Or.inr (by simp) }

/- Zeros multiply by powers of ten. -/
theorem ofDigitChars_zeros
    (k a : Nat) :
    Nat.ofDigitChars 10 (List.replicate k '0') a =
      a * 10 ^ k := by
  induction k generalizing a with
  | zero => simp
  | succ k ih =>
      rw [List.replicate_succ, Nat.ofDigitChars_cons, ih,
        Nat.sub_self, Nat.add_zero]
      ring

/- The exponent of a decimal is read as it is. -/
theorem power_of_size
    (whole fraction : List Char)
    (e : Int) :
    Numeral.power
        ⟨whole, fraction,
          some (decide (e < 0),
            List.replicate
              (2 - ((digitsOf e.natAbs).length : Int)).toNat
              '0' ++ digitsOf e.natAbs)⟩ = e := by
  rw [Numeral.power]
  dsimp only
  rw [Nat.ofDigitChars_append, ofDigitChars_zeros,
    Nat.zero_mul, digitsOf, Nat.ofDigitChars_ten_toDigits]
  split
  · next hNegative =>
      rw [decide_eq_true_eq] at hNegative
      omega
  · next hPositive =>
      rw [decide_eq_true_eq] at hPositive
      omega

/- The value of a decimal is that of its numeral. -/
theorem numeral_value
    (d : Decimal) :
    (d.numeral.digits : ℚ) * 10 ^ d.numeral.scale =
      d.value := by
  have hDigits :
      Nat.ofDigitChars 10 (digitsOf d.digits) 0 = d.digits :=
    Nat.ofDigitChars_ten_toDigits
  rw [value, numeral, Numeral.scale, Numeral.digits]
  dsimp only
  split
  · split
    · dsimp only
      rw [Nat.ofDigitChars_append, Nat.ofDigitChars_append,
        ofDigitChars_zeros]
      change
        ((Nat.ofDigitChars 10 (digitsOf d.digits) (0 * _) :
          Nat) : ℚ) * _ = _
      rw [Nat.zero_mul, hDigits]
      congr 2
      change
        (0 : Int) -
            ((List.replicate _ '0' ++ digitsOf d.digits).length :
              Int) = _
      rw [List.length_append, List.length_replicate]
      omega
    · split
      · dsimp only
        rw [Nat.ofDigitChars_append, Nat.ofDigitChars_append,
          ofDigitChars_zeros, hDigits, Nat.ofDigitChars_cons,
          Nat.ofDigitChars_nil, Nat.sub_self, Nat.add_zero]
        change _ * (10 : ℚ) ^ ((0 : Int) - (1 : Nat)) = _
        obtain ⟨k, hK⟩ :
            ∃ k : Nat,
              d.point - ((digitsOf d.digits).length : Int) = k :=
          ⟨(d.point - (digitsOf d.digits).length).toNat,
            by omega⟩
        rw [hK, Int.toNat_natCast, zpow_natCast]
        push_cast
        rw [zpow_neg_one]
        ring
      · dsimp only
        rw [List.take_append_drop, hDigits]
        congr 2
        change
          (0 : Int) -
              (((digitsOf d.digits).drop d.point.toNat).length :
                Int) = _
        rw [List.length_drop]
        omega
  · rw [power_of_size]
    dsimp only
    rw [List.take_append_drop, hDigits, List.length_drop]
    have hLength :=
      List.length_pos_iff.mpr (digitsOf_spec d.digits).1
    congr 2
    omega

end Decimal

end BranchingStory

------------------------------------------------------------
-- Doubles
------------------------------------------------------------

namespace BranchingStory

variable {x : Float}
variable {f : Finite}

/-
  Digits and a power of ten that round to a double are not far
  out of range, so that their double is the nearest one.
-/
theorem scaledDouble_of_attracts
    (hFinite : finite? x = some f)
    (hSome : f.significand ≠ 0)
    {digits : Nat}
    {scale : Int}
    (hNear : f.Attracts (digits * 10 ^ scale)) :
    scaledDouble f.negative digits scale = x := by
  have hTen : (1 : ℚ) < 10 := by norm_num
  have hRounded := isRounded_of_finite? hFinite hSome
  have hUnit : (0 : ℚ) < 10 ^ scale := by positivity
  have hDigits : digits ≠ 0 := by
    rintro rfl
    have hPositive := hNear.pos hRounded
    simp at hPositive
  rw [scaledDouble, if_neg hDigits]
  dsimp only
  obtain ⟨n, hLength⟩ :
      ∃ n, (Nat.toDigits 10 digits).length = n + 1 :=
    ⟨(Nat.toDigits 10 digits).length - 1, by
      have hPositive : 0 < (Nat.toDigits 10 digits).length :=
        Nat.length_toDigits_pos
      omega⟩
  rcases (length_toDigits_eq_iff
      (Nat.pos_of_ne_zero hDigits)).mp hLength with
    ⟨hLeast, hMost⟩
  rw [← Nat.cast_le (α := ℚ)] at hLeast
  rw [← Nat.cast_lt (α := ℚ)] at hMost
  push_cast at hLeast hMost
  have hSmall : (n : Int) + scale < 399 := by
    refine (zpow_lt_zpow_iff_right₀ hTen).mp ?_
    calc
      (10 : ℚ) ^ ((n : Int) + scale)
          = 10 ^ n * 10 ^ scale := by
        rw [zpow_add₀ (by norm_num), zpow_natCast]
      _ ≤ digits * 10 ^ scale := by gcongr
      _ < 2 ^ (f.exponent + 53) := hNear.lt_two_pow hRounded
      _ ≤ 2 ^ (1024 : Int) := by
        gcongr
        · norm_num
        · have hHighest := hRounded.highest
          omega
      _ ≤ 10 ^ (399 : Int) := by
        exact_mod_cast Finite.two_pow_le
          (show 1024 ≤ 3 * 399 by decide)
  have hLarge : -400 < (n : Int) + 1 + scale := by
    refine (zpow_lt_zpow_iff_right₀ hTen).mp ?_
    calc
      (10 : ℚ) ^ (-400 : Int) ≤ 2 ^ (-1075 : Int) := by
        rw [zpow_neg, zpow_neg]
        gcongr
        exact_mod_cast Finite.two_pow_le
          (show 1075 ≤ 3 * 400 by decide)
      _ ≤ 2 ^ (f.exponent - 1) := by
        gcongr
        · norm_num
        · have hLowest := hRounded.lowest
          omega
      _ ≤ digits * 10 ^ scale := hNear.half_le hRounded
      _ < 10 ^ (n + 1) * 10 ^ scale := by gcongr
      _ = 10 ^ ((n : Int) + 1 + scale) := by
        rw [zpow_add₀ (by norm_num), ← zpow_natCast,
          Nat.cast_succ]
  rw [hLength, if_neg (by omega), if_neg (by omega)]
  refine nearestDouble_of_attracts hFinite hSome
    (Nat.pow_pos (by decide)) ?_ hNear
  rw [Nat.pow_eq, Nat.pow_eq]
  push_cast
  rw [ten_pow_toNat_eq scale]
  ring

/- The numeral of a finite double, without its sign. -/
def Finite.numeral
    (f : Finite) : Numeral :=
  if f.significand = 0 then ⟨['0'], ['0'], none⟩
  else (shortestDecimal f).numeral

/- A finite double is written as the numeral of a float. -/
theorem isFloat_of_finite?
    (hFinite : finite? x = some f) :
    f.numeral.IsFloat := by
  rw [Finite.numeral]
  split
  · exact {
      whole := by simp
      fraction := by simp
      exponent := by simp
      nonempty := List.cons_ne_nil _ _
      leading := Or.inl rfl
      broken := Or.inl (List.cons_ne_nil _ _) }
  · next hSome =>
      exact Decimal.isFloat_numeral
        (attracts_shortestDecimal
          (isRounded_of_finite? hFinite hSome)).1

/- The text of a finite double is its numeral with its sign. -/
theorem doubleText_of_finite?
    (hFinite : finite? x = some f) :
    (doubleText x).toList =
      Numeral.signText f.negative ++ f.numeral.text := by
  have hText :
      f.numeral.text =
        if f.significand = 0 then ['0', '.', '0']
        else (shortestDecimal f).text := by
    rw [Finite.numeral]
    split
    · rfl
    · exact Decimal.text_numeral _
  rw [doubleText, hFinite]
  dsimp only
  rw [String.toList_ofList, hText, Numeral.signText]
  cases f.negative
  · rfl
  · rfl

/- The numeral of a finite double stands for the double. -/
theorem double_numeral
    (hFinite : finite? x = some f) :
    f.numeral.double f.negative = x := by
  rw [Numeral.double, Finite.numeral]
  split
  · next hZero =>
      have hDigits : Numeral.digits ⟨['0'], ['0'], none⟩ = 0 := by
        decide
      rw [hDigits, scaledDouble, if_pos rfl]
      exact nearestDouble_zero hFinite hZero
  · next hSome =>
      have hRounded := isRounded_of_finite? hFinite hSome
      refine scaledDouble_of_attracts hFinite hSome ?_
      rw [Decimal.numeral_value]
      exact (attracts_shortestDecimal hRounded).2

open Float.Model Float.Model.UnpackedFloat in
/-
  A double that is not finite is one of the infinities, or the
  one that stands for no number.
-/
theorem eq_of_finite?_none
    (hFinite : finite? x = none) :
    x = notANumber ∨ ∃ negative, x = infinity negative := by
  have hSize := x.toBits.toNat_lt
  have hBack : Float.ofBits x.toBits = x := Float.ofBits_toBits x
  have hBiased : x.toBits.toNat / 2 ^ 52 % 2 ^ 11 = 2047 := by
    rw [finite?] at hFinite
    simp only [Nat.pow_eq] at hFinite
    split at hFinite
    · next hOnes => exact hOnes
    · split at hFinite
      · cases hFinite
      · cases hFinite
  by_cases hFraction : x.toBits.toNat % 2 ^ 52 = 0
  · right
    refine ⟨decide (2 ^ 63 ≤ x.toBits.toNat), ?_⟩
    rw [infinity, infinityBits]
    simp only [Nat.pow_eq, decide_eq_true_eq]
    conv_lhs =>
      rw [← hBack, ← UInt64.ofNat_toNat (x := x.toBits)]
    congr 2
    split
    · omega
    · omega
  · left
    have hExponent :
        @unpackExponent Format.binary64 x.toBits.toBitVec =
          -1#11 := by
      apply BitVec.eq_of_toNat_eq
      rw [unpackExponent_def, BitVec.extractLsb'_toNat]
      change x.toBits.toNat >>> 52 % 2 ^ 11 = 2047
      rw [Nat.shiftRight_eq_div_pow]
      exact hBiased
    have hMantissa :
        @unpackMantissa Format.binary64 x.toBits.toBitVec ≠
          0#52 := by
      intro hZero
      have hBits := congrArg BitVec.toNat hZero
      rw [unpackMantissa_def, BitVec.extractLsb'_toNat] at hBits
      change x.toBits.toNat >>> 0 % 2 ^ 52 = 0 at hBits
      rw [Nat.shiftRight_zero] at hBits
      exact hFraction hBits
    have hSame : x.toBits = notANumber.toBits := by
      apply UInt64.toBitVec_inj.mp
      exact (x.toModel.valid.eq_packedNaN hExponent
        hMantissa).trans (by decide +kernel)
    rw [← hBack, hSame, Float.ofBits_toBits]

/- Every double is read back from its text, to the bit. -/
theorem readDouble?_doubleText
    (x : Float) :
    readDouble? (doubleText x).toList = some x := by
  cases hFinite : finite? x with
  | some f =>
      rw [doubleText_of_finite? hFinite,
        Numeral.readDouble?_text
          (isFloat_of_finite? hFinite).toIsPlain,
        double_numeral hFinite]
  | none =>
      rcases eq_of_finite?_none hFinite with
        rfl | ⟨negative, rfl⟩
      · decide +kernel
      · cases negative
        · decide +kernel
        · decide +kernel

end BranchingStory
