import BranchingStory.Number.Numeral
import BranchingStory.Proofs.Characters
import Mathlib.Data.Nat.Basic

/-
  This file shows that integers can be told by their written
  form: what is written is read back, unless it is too long,
  and nothing else is ever read back.

  Key theorems include:
    * `readInt_of_digits`
    * `readInt?_toString`
    * `toString_injective`
    * `isShortInt_of_readInt?`
-/

------------------------------------------------------------
-- Digits
------------------------------------------------------------

namespace BranchingStory

/- A digit of a decimal has its distance from zero as value. -/
theorem digitValue?_of_isDigit
    {c : Char}
    (hDigit : c.isDigit = true) :
    digitValue? c = some (c.toNat - '0'.toNat) := by
  rw [Char.isDigit_iff_toNat] at hDigit
  unfold digitValue?
  have hRange : (48 ≤ c.toNat && c.toNat ≤ 57) = true := by
    rw [Bool.and_eq_true, decide_eq_true_eq,
      decide_eq_true_eq]
    exact hDigit
  simp only [hRange, if_true]
  rfl

/- A digit of a decimal is a digit. -/
theorem isDigit_of_decimal
    {c : Char}
    (hDigit : c.isDigit = true) :
    isDigit c = true := by
  rw [isDigit, digitValue?_of_isDigit hDigit]
  rfl

/- A digit is no blank around a number. -/
theorem not_isNumberBlank_of_isDigit
    {c : Char}
    (hDigit : isDigit c = true) :
    isNumberBlank c = false := by
  rw [isNumberBlank, Bool.and_eq_false_iff]
  exact Or.inl (isBlank_of_isDigit hDigit)

/- Digits are taken up to where they are followed by others. -/
theorem takeDigits_append
    {cs rest : List Char}
    (hDigits : ∀ c ∈ cs, isDigit c = true)
    (hStop : ∀ c, rest.head? = some c →
      isDigit c = false ∧ c ≠ '_')
    (afterDigit : Bool) :
    takeDigits afterDigit (cs ++ rest) =
      (cs.filterMap digitValue?, rest) := by
  induction cs generalizing afterDigit with
  | nil =>
      cases rest with
      | nil => rfl
      | cons c rest =>
          rcases hStop c rfl with ⟨hOther, hScore⟩
          rw [isDigit, Option.isSome_eq_false_iff,
            Option.isNone_iff_eq_none] at hOther
          rw [List.nil_append, takeDigits, hOther]
          simp [hScore]
  | cons c cs ih =>
      rw [List.forall_mem_cons] at hDigits
      rcases Option.isSome_iff_exists.mp hDigits.1 with
        ⟨d, hValue⟩
      rw [List.cons_append, takeDigits, hValue,
        List.filterMap_cons, hValue, ih hDigits.2]

/- A text of digits is taken as the values of its digits. -/
theorem takeDigits_of_digits
    {cs : List Char}
    (hDigits : ∀ c ∈ cs, isDigit c = true)
    (afterDigit : Bool) :
    takeDigits afterDigit cs =
      (cs.filterMap digitValue?, []) := by
  have hStop : ∀ c, ([] : List Char).head? = some c →
      isDigit c = false ∧ c ≠ '_' := by
    rintro c ⟨⟩
  have hTake := takeDigits_append hDigits hStop afterDigit
  rwa [List.append_nil] at hTake

/- Each digit of a text has a value. -/
theorem length_digitValues
    {cs : List Char}
    (hDigits : ∀ c ∈ cs, isDigit c = true) :
    (cs.filterMap digitValue?).length = cs.length := by
  induction cs with
  | nil => rfl
  | cons c cs ih =>
      rw [List.forall_mem_cons] at hDigits
      rcases Option.isSome_iff_exists.mp hDigits.1 with
        ⟨d, hValue⟩
      rw [List.filterMap_cons, hValue, List.length_cons,
        List.length_cons, ih hDigits.2]

/- The values of the digits of a decimal. -/
theorem digitValues_of_isDigit
    {cs : List Char}
    (hDigits : ∀ c ∈ cs, c.isDigit = true) :
    cs.filterMap digitValue? =
      cs.map fun c => c.toNat - '0'.toNat := by
  induction cs with
  | nil => rfl
  | cons c cs ih =>
      rw [List.forall_mem_cons] at hDigits
      rw [List.filterMap_cons,
        digitValue?_of_isDigit hDigits.1, ih hDigits.2,
        List.map_cons]

/- The digits of a decimal are taken as their values. -/
theorem takeDigits_of_isDigit
    {cs : List Char}
    (hDigits : ∀ c ∈ cs, c.isDigit = true)
    (afterDigit : Bool) :
    takeDigits afterDigit cs =
      (cs.map fun c => c.toNat - '0'.toNat, []) := by
  rw [← digitValues_of_isDigit hDigits]
  exact takeDigits_of_digits
    (fun c hMem => isDigit_of_decimal (hDigits c hMem)) _

/- The value of a digit has one digit. -/
theorem digitValue?_lt
    {c : Char}
    {d : Nat}
    (hValue : digitValue? c = some d) :
    d < 10 := by
  unfold digitValue? at hValue
  simp only [Bool.and_eq_true, decide_eq_true_eq] at hValue
  split at hValue
  · cases hValue
    omega
  · split at hValue
    · cases hValue
    · rcases Option.map_eq_some_iff.mp hValue with
        ⟨z, hZero, rfl⟩
      have hNear := List.find?_some hZero
      rw [Bool.and_eq_true, decide_eq_true_eq,
        decide_eq_true_eq] at hNear
      omega

/- All values that are taken have one digit. -/
theorem takeDigits_lt
    (afterDigit : Bool)
    (cs : List Char) :
    ∀ d ∈ (takeDigits afterDigit cs).1, d < 10 := by
  induction cs generalizing afterDigit with
  | nil =>
      intro d hMem
      cases hMem
  | cons c cs ih =>
      intro d hMem
      rw [takeDigits] at hMem
      split at hMem
      · next v hValue =>
          rcases List.mem_cons.mp hMem with rfl | hRest
          · exact digitValue?_lt hValue
          · exact ih true d hRest
      · split at hMem
        · exact ih false d hMem
        · cases hMem

/- Digits stand for less than a power of ten. -/
theorem ofDigits_lt
    {ds : List Nat}
    (hDigits : ∀ d ∈ ds, d < 10) :
    ofDigits ds < Nat.pow 10 ds.length := by
  have hGeneral :
      ∀ (ds : List Nat) (n : Nat), (∀ d ∈ ds, d < 10) →
        ds.foldl (fun n d => 10 * n + d) n <
          (n + 1) * 10 ^ ds.length := by
    intro ds
    induction ds with
    | nil =>
        intro n _
        simp
    | cons d ds ih =>
        intro n hAll
        rw [List.forall_mem_cons] at hAll
        rw [List.foldl_cons, List.length_cons]
        calc
          ds.foldl (fun n d => 10 * n + d) (10 * n + d)
              < (10 * n + d + 1) * 10 ^ ds.length :=
            ih (10 * n + d) hAll.2
          _ ≤ ((n + 1) * 10) * 10 ^ ds.length :=
            Nat.mul_le_mul_right _ (by omega)
          _ = (n + 1) * 10 ^ (ds.length + 1) := by
            rw [Nat.pow_succ, Nat.mul_assoc,
              Nat.mul_comm 10]
  simpa [ofDigits] using hGeneral ds 0 hDigits

/- Few digits stand for less than a power of ten. -/
theorem ofDigits_lt_of_length_le
    {ds : List Nat}
    {bound : Nat}
    (hDigits : ∀ d ∈ ds, d < 10)
    (hLength : ds.length ≤ bound) :
    ofDigits ds < Nat.pow 10 bound :=
  Nat.lt_of_lt_of_le (ofDigits_lt hDigits)
    (Nat.pow_le_pow_right (by decide) hLength)

end BranchingStory

------------------------------------------------------------
-- Reading What Is Written
------------------------------------------------------------

namespace BranchingStory

/- A text that does not begin with a sign has none. -/
theorem takeSign_cons
    {cs : List Char}
    {c : Char}
    (hMinus : c ≠ '-')
    (hPlus : c ≠ '+') :
    takeSign (c :: cs) = (false, c :: cs) := by
  unfold takeSign
  split
  · next hCons => exact absurd (List.cons.inj hCons).1 hMinus
  · next hCons => exact absurd (List.cons.inj hCons).1 hPlus
  · rfl

/- A text without signs has no sign in front. -/
theorem takeSign_of_notMem
    {cs : List Char}
    (hMinus : '-' ∉ cs)
    (hPlus : '+' ∉ cs) :
    takeSign cs = (false, cs) := by
  cases cs with
  | nil => rfl
  | cons c cs =>
      refine takeSign_cons ?_ ?_
      · rintro rfl
        exact hMinus List.mem_cons_self
      · rintro rfl
        exact hPlus List.mem_cons_self

/-
  A text of digits is read unless there are too many, with or
  without a sign in front.
-/
theorem readInt_of_digits
    {cs : List Char}
    (hDigits : ∀ c ∈ cs, isDigit c = true)
    (hSome : cs ≠ []) :
    readInt cs =
        (if maxDigits < cs.length then
          .error (.tooLong cs.length)
        else .ok (ofDigits (cs.filterMap digitValue?))) ∧
      readInt ('-' :: cs) =
        if maxDigits < cs.length then
          .error (.tooLong cs.length)
        else .ok (-(ofDigits (cs.filterMap digitValue?))) := by
  have hLength := length_digitValues hDigits
  have hPlain (c : Char) (hMem : c ∈ cs) :
      isNumberBlank c = false :=
    not_isNumberBlank_of_isDigit (hDigits c hMem)
  have hTrim : trimNumber cs = cs := trimmed_of_none hPlain
  have hTrimSigned : trimNumber ('-' :: cs) = '-' :: cs := by
    refine trimmed_of_none ?_
    rw [List.forall_mem_cons]
    exact ⟨by decide, hPlain⟩
  have hSign : takeSign cs = (false, cs) :=
    takeSign_of_notMem
      (fun hMem => absurd (hDigits _ hMem) (by decide))
      (fun hMem => absurd (hDigits _ hMem) (by decide))
  cases hValues : cs.filterMap digitValue? with
  | nil =>
      rw [hValues] at hLength
      exact absurd (List.length_eq_zero_iff.mp hLength.symm)
        hSome
  | cons d ds =>
      rw [hValues] at hLength
      unfold readInt
      rw [hTrim, hTrimSigned, hSign, takeSign]
      simp [takeDigits_of_digits hDigits, hValues, hLength]

/- A decimal is read unless it is too long. -/
theorem readInt?_of_isDigit
    {cs : List Char}
    (hDigits : ∀ c ∈ cs, c.isDigit = true)
    (hSome : cs ≠ []) :
    readInt? cs =
        (if maxDigits < cs.length then none
        else some (Nat.ofDigitChars 10 cs 0 : Int)) ∧
      readInt? ('-' :: cs) =
        if maxDigits < cs.length then none
        else some (-(Nat.ofDigitChars 10 cs 0 : Int)) := by
  have hValue :
      ofDigits (cs.filterMap digitValue?) =
        Nat.ofDigitChars 10 cs 0 := by
    rw [digitValues_of_isDigit hDigits, ofDigits,
      List.foldl_map, Nat.ofDigitChars_eq_foldl]
  rcases readInt_of_digits
      (fun c hMem => isDigit_of_decimal (hDigits c hMem))
      hSome with
    ⟨hRead, hReadSigned⟩
  rw [readInt?, readInt?, hRead, hReadSigned, hValue]
  split
  · exact ⟨rfl, rfl⟩
  · exact ⟨rfl, rfl⟩

/- Long decimals stand for numbers that are large. -/
theorem lt_length_toDigits_iff
    {bound : Nat}
    (hBound : 0 < bound)
    (m : Nat) :
    bound < (Nat.toDigits 10 m).length ↔
      ¬ m < Nat.pow 10 bound := by
  rw [← Nat.not_le, not_iff_not]
  exact Nat.length_toDigits_le_iff (by decide) hBound

/- An integer is written as its digits after its sign. -/
theorem toList_toString
    (n : Int) :
    (toString n).toList =
      if n < 0 then '-' :: Nat.toDigits 10 n.natAbs
      else Nat.toDigits 10 n.natAbs := by
  cases n with
  | ofNat m =>
      change (Nat.repr m).toList = _
      have hNatural : ¬ Int.ofNat m < 0 :=
        Int.not_lt.mpr (Int.natCast_nonneg m)
      rw [Nat.toList_repr, if_neg hNatural]
      rfl
  | negSucc m =>
      change ("-" ++ Nat.repr (m + 1)).toList = _
      rw [String.toList_append, Nat.toList_repr,
        if_pos (Int.negSucc_lt_zero m)]
      rfl

/- All characters of a decimal are digits. -/
theorem isDigit_of_mem_decimal
    (m : Nat) :
    ∀ c ∈ Nat.toDigits 10 m, c.isDigit = true :=
  fun _ hMem =>
    Nat.isDigit_of_mem_toDigits (by decide) (by decide) hMem

/- An integer is read back unless it is too long. -/
theorem readInt?_toString
    (n : Int) :
    readInt? (toString n).toList =
      if isShortInt n then some n else none := by
  have hRead :=
    readInt?_of_isDigit (isDigit_of_mem_decimal n.natAbs)
      Nat.toDigits_ne_nil
  have hLength :=
    lt_length_toDigits_iff (show 0 < maxDigits by decide)
  simp only [hLength, ite_not,
    Nat.ofDigitChars_ten_toDigits] at hRead
  rw [toList_toString, isShortInt]
  simp only [decide_eq_true_eq]
  split
  · next hNegative =>
      have hValue : -(n.natAbs : Int) = n := by omega
      rw [hRead.2, hValue]
  · next hNatural =>
      have hValue : (n.natAbs : Int) = n := by omega
      rw [hRead.1, hValue]

/- Integers are told by their written form, however long. -/
theorem toString_injective :
    Function.Injective (toString : Int → String) := by
  intro m n hSame
  have hChars := congrArg String.toList hSame
  rw [toList_toString, toList_toString] at hChars
  have hDigits
      (hDecimals : Nat.toDigits 10 m.natAbs =
        Nat.toDigits 10 n.natAbs) :
      m.natAbs = n.natAbs := by
    have hValues :=
      congrArg (Nat.ofDigitChars 10 · 0) hDecimals
    simpa using hValues
  have hSign (k : Nat) (cs : List Char) :
      Nat.toDigits 10 k ≠ '-' :: cs := by
    intro hMinus
    exact absurd
      (isDigit_of_mem_decimal k '-'
        (hMinus ▸ List.mem_cons_self))
      (by decide)
  split at hChars
  · split at hChars
    · have hAbs := hDigits (List.cons.inj hChars).2
      omega
    · exact absurd hChars.symm (hSign _ _)
  · split at hChars
    · exact absurd hChars (hSign _ _)
    · have hAbs := hDigits hChars
      omega

/- An integer that is read is short enough to be written. -/
theorem isShortInt_of_readInt?
    {cs : List Char}
    {n : Int}
    (hRead : readInt? cs = some n) :
    isShortInt n = true := by
  unfold readInt? readInt at hRead
  generalize takeSign (trimNumber cs) = p at hRead
  rcases p with ⟨negative, body⟩
  simp only at hRead
  have hDigits := takeDigits_lt false body
  generalize takeDigits false body = q at hRead hDigits
  rcases q with ⟨ds, rest⟩
  have hShort (hLength : ¬ maxDigits < ds.length) :
      ofDigits ds < Nat.pow 10 maxDigits :=
    ofDigits_lt_of_length_le hDigits
      (Nat.le_of_not_lt hLength)
  split at hRead
  · cases hRead
  · cases hRead
  · next hSame =>
      cases hSame
      split at hRead
      · cases hRead
      · next hLength =>
          split at hRead
          · cases hRead
            rw [isShortInt, decide_eq_true_eq]
            split
            · rw [Int.natAbs_neg]
              exact hShort hLength
            · exact hShort hLength
          · cases hRead

end BranchingStory
