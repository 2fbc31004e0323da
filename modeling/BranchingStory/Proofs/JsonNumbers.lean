import BranchingStory.Json.Reader
import BranchingStory.Json.Writer
import BranchingStory.Proofs.DoubleTexts

/-
  This file shows that every number is read back from its JSON
  text, whatever follows it that does not go on with the
  number: integers unless they are too long, and doubles to the
  bit.

  Key definitions include:
    * `EndsJsonNumber`

  Key theorems include:
    * `readJsonNumber?_text`
    * `readJsonNumber?_int`
    * `readJsonNumber?_float`
-/

------------------------------------------------------------
-- Parts Of Numbers
------------------------------------------------------------

namespace BranchingStory

variable {cs ds rest : List Char}

/-
  Whether a text does not go on with a number: it neither
  begins with a digit, nor with a point or the letter of an
  exponent.
-/
def EndsJsonNumber
    (rest : List Char) : Prop :=
  ∀ c, rest.head? = some c →
    c.isDigit = false ∧ c ≠ '.' ∧ c ≠ 'e' ∧ c ≠ 'E'

/- Digits are taken up to what is no digit. -/
theorem takeWhile_isDigit
    (hDigits : ∀ c ∈ ds, c.isDigit = true)
    (hStop : ∀ c, rest.head? = some c → c.isDigit = false) :
    (ds ++ rest).takeWhile Char.isDigit = ds ∧
      (ds ++ rest).dropWhile Char.isDigit = rest := by
  rw [List.takeWhile_append_of_pos hDigits,
    List.dropWhile_append_of_pos hDigits]
  cases rest with
  | nil => simp
  | cons c rest =>
      have hNone := hStop c rfl
      rw [List.takeWhile_cons_of_neg (by simp [hNone]),
        List.dropWhile_cons_of_neg (by simp [hNone]),
        List.append_nil]
      exact ⟨rfl, rfl⟩

/- The whole part of a number is taken up to its end. -/
theorem takeJsonWhole?_append
    (hDigits : ∀ c ∈ ds, c.isDigit = true)
    (hSome : ds ≠ [])
    (hLeading : ds = ['0'] ∨ ds.head? ≠ some '0')
    (hStop : ∀ c, rest.head? = some c → c.isDigit = false) :
    takeJsonWhole? (ds ++ rest) = some (ds, rest) := by
  rcases hLeading with rfl | hLeading
  · rfl
  · cases ds with
    | nil => exact absurd rfl hSome
    | cons c ds =>
        have hOther : c ≠ '0' := by
          rintro rfl
          exact hLeading rfl
        have hTake := takeWhile_isDigit hDigits hStop
        rw [List.cons_append] at hTake ⊢
        have hDigit := hDigits c List.mem_cons_self
        unfold takeJsonWhole?
        split
        · next hCons =>
            exact absurd (List.cons.inj hCons).1 hOther
        · next hCons =>
            cases hCons
            rw [if_pos hDigit, hTake.1, hTake.2]
        · next hCons => cases hCons

namespace Numeral

variable {n : Numeral}

/- What follows a fraction is no digit and no point. -/
theorem head_exponentText_append
    (n : Numeral)
    (hEnds : EndsJsonNumber rest) :
    ∀ c, (n.exponentText ++ rest).head? = some c →
      c.isDigit = false ∧ c ≠ '.' := by
  intro c hHead
  rw [exponentText] at hHead
  split at hHead
  · exact ⟨(hEnds c hHead).1, (hEnds c hHead).2.1⟩
  · cases hHead
    decide

/- What follows a whole part is no digit. -/
theorem head_fractionText_append
    (n : Numeral)
    (hEnds : EndsJsonNumber rest) :
    ∀ c, (n.fractionText ++ (n.exponentText ++ rest)).head? =
        some c →
      c.isDigit = false := by
  intro c hHead
  rw [fractionText] at hHead
  split at hHead
  · exact (n.head_exponentText_append hEnds c hHead).1
  · cases hHead
    decide

/- The fraction of a number is taken up to its end. -/
theorem takeJsonFraction_text
    (hPlain : n.IsPlain)
    (hEnds : EndsJsonNumber rest) :
    takeJsonFraction
        (n.fractionText ++ (n.exponentText ++ rest)) =
      (n.fractionText, n.exponentText ++ rest) := by
  have hNext := n.head_exponentText_append hEnds
  rw [fractionText]
  split
  · rw [List.nil_append]
    unfold takeJsonFraction
    split
    · next hCons =>
        rw [hCons] at hNext
        exact absurd rfl (hNext '.' rfl).2
    · rfl
  · next hSome =>
      have hTake :=
        takeWhile_isDigit hPlain.fraction
          fun c hHead => (hNext c hHead).1
      cases hFraction : n.fraction with
      | nil => simp [hFraction] at hSome
      | cons c cs =>
          rw [hFraction] at hTake
          have hDigit : c.isDigit = true :=
            hPlain.fraction c (by simp [hFraction])
          rw [List.cons_append] at hTake
          rw [List.cons_append, List.cons_append,
            takeJsonFraction, if_pos hDigit, hTake.1, hTake.2]

/- The exponent of a number is taken up to its end. -/
theorem takeJsonExponent_text
    (hPlain : n.IsPlain)
    (hEnds : EndsJsonNumber rest) :
    takeJsonExponent (n.exponentText ++ rest) =
      (n.exponentText, rest) := by
  rw [exponentText]
  split
  · rw [List.nil_append]
    cases rest with
    | nil => rfl
    | cons c rest =>
        rcases hEnds c rfl with ⟨_, _, hSmall, hLarge⟩
        simp [takeJsonExponent, hSmall, hLarge]
  · next negative ds hSome =>
      rcases hPlain.exponent _ hSome with ⟨hDigits, hAll⟩
      have hTake :=
        takeWhile_isDigit hAll fun c hHead => (hEnds c hHead).1
      cases negative
      · simp [takeJsonExponent, hTake.1, hTake.2, hDigits]
      · simp [takeJsonExponent, hTake.1, hTake.2, hDigits]

/- A numeral is read as a number, up to its end. -/
theorem readJsonNumber?_text
    (hPlain : n.IsPlain)
    (hEnds : EndsJsonNumber rest)
    (negative : Bool)
    {v : Json}
    (hNumber :
      jsonNumber (signText negative ++ n.whole)
        (n.fractionText ++ n.exponentText) = .ok v) :
    readJsonNumber? (signText negative ++ (n.text ++ rest)) =
      some (.ok (v, rest)) := by
  have hWhole :
      takeJsonWhole? (n.text ++ rest) =
        some (n.whole,
          n.fractionText ++ (n.exponentText ++ rest)) := by
    rw [text, List.append_assoc, List.append_assoc]
    exact takeJsonWhole?_append hPlain.whole hPlain.nonempty
      hPlain.leading (n.head_fractionText_append hEnds)
  cases negative with
  | true =>
      change jsonNumber ('-' :: n.whole) _ = _ at hNumber
      change readJsonNumber? ('-' :: (n.text ++ rest)) = _
      unfold readJsonNumber?
      simp [hWhole, takeJsonFraction_text hPlain hEnds,
        takeJsonExponent_text hPlain hEnds, hNumber]
      rfl
  | false =>
      change jsonNumber n.whole _ = _ at hNumber
      change readJsonNumber? (n.text ++ rest) = _
      rcases exists_text_eq hPlain with
        ⟨c, others, hText, hDigit⟩
      unfold readJsonNumber?
      split
      next sign body hSign =>
      split at hSign
      · next hCons =>
          rw [hText] at hCons
          rw [(List.cons.inj hCons).1] at hDigit
          cases hDigit
      · cases hSign
        simp [hWhole, takeJsonFraction_text hPlain hEnds,
          takeJsonExponent_text hPlain hEnds, hNumber]
        rfl

end Numeral

end BranchingStory

------------------------------------------------------------
-- Integers And Doubles
------------------------------------------------------------

namespace BranchingStory

variable {rest : List Char}

/- The numeral of an integer, without its sign. -/
def intNumeral
    (n : Int) : Numeral :=
  ⟨digitsOf n.natAbs, [], none⟩

/- An integer is written as its numeral with its sign. -/
theorem toString_intNumeral
    (n : Int) :
    (toString n).toList =
      Numeral.signText (decide (n < 0)) ++
        (intNumeral n).text := by
  have hText : (intNumeral n).text = digitsOf n.natAbs :=
    List.append_nil _
  rw [toList_toString, hText, Numeral.signText]
  simp only [decide_eq_true_eq]
  split
  · rfl
  · rfl

/- An integer is written in digits. -/
theorem isPlain_intNumeral
    (n : Int) :
    (intNumeral n).IsPlain := by
  rcases Decimal.digitsOf_spec n.natAbs with ⟨hSome, hAll⟩
  refine ⟨hAll, by simp [intNumeral], by simp [intNumeral],
    hSome, ?_⟩
  rcases Nat.eq_zero_or_pos n.natAbs with hZero | hPositive
  · left
    rw [intNumeral, hZero]
    rfl
  · exact Or.inr (Decimal.head_digitsOf hPositive)

/- An integer is read back unless it is too long. -/
theorem readJsonNumber?_int
    {n : Int}
    (hShort : isShortInt n = true)
    (hEnds : EndsJsonNumber rest) :
    readJsonNumber? ((toString n).toList ++ rest) =
      some (.ok (.int n, rest)) := by
  have hRead := readInt?_toString n
  rw [if_pos hShort, readInt?, toString_intNumeral] at hRead
  rw [toString_intNumeral, List.append_assoc]
  refine Numeral.readJsonNumber?_text (isPlain_intNumeral n)
    hEnds _ ?_
  have hText : (intNumeral n).text = (intNumeral n).whole :=
    List.append_nil _
  have hNone :
      (intNumeral n).fractionText ++
        (intNumeral n).exponentText = [] := rfl
  rw [hText] at hRead
  rw [jsonNumber, hNone, List.isEmpty_nil, if_pos rfl]
  cases hInt : readInt
      (Numeral.signText (decide (n < 0)) ++
        (intNumeral n).whole) with
  | error fault =>
      rw [hInt] at hRead
      cases hRead
  | ok m =>
      rw [hInt] at hRead
      cases hRead
      rfl

/- A finite double is read back, to the bit. -/
theorem readJsonNumber?_float
    {x : Float}
    {f : Finite}
    (hFinite : finite? x = some f)
    (hEnds : EndsJsonNumber rest) :
    readJsonNumber? ((doubleText x).toList ++ rest) =
      some (.ok (.float x, rest)) := by
  have hFloat := isFloat_of_finite? hFinite
  have hRead := readDouble?_doubleText x
  rw [doubleText_of_finite? hFinite] at hRead ⊢
  rw [List.append_assoc]
  refine Numeral.readJsonNumber?_text hFloat.toIsPlain hEnds
    f.negative ?_
  have hBroken :
      (f.numeral.fractionText ++
        f.numeral.exponentText).isEmpty = false := by
    rw [List.isEmpty_eq_false_iff, Ne, List.append_eq_nil_iff]
    rintro ⟨hFraction, hExponent⟩
    rcases hFloat.broken with hBroken | hBroken
    · rw [Numeral.fractionText, if_neg (by simpa using hBroken)]
        at hFraction
      cases hFraction
    · rw [Numeral.exponentText] at hExponent
      split at hExponent
      · next hNone => exact hBroken hNone
      · cases hExponent
  rw [jsonNumber, hBroken]
  simp only [Bool.false_eq_true, if_false]
  rw [List.append_assoc]
  rw [Numeral.text] at hRead
  rw [hRead]

end BranchingStory
