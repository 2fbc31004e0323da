import BranchingStory.Expr.Eval
import BranchingStory.Proofs.Decimals
import BranchingStory.Proofs.Derivations

/-
  This file compares the two ways in which numbers are read:
  as a declared value, which is one text with a sign, and as an
  expression, where the sign is an operator and the rest is a
  token.  A text that is read in both ways stands for the same
  number: what may follow a number token in an expression never
  goes on with the digits of a declared number.

  Key definitions include:
    * `EndsDigits`
    * `readMagnitude?`

  Key theorems include:
    * `unpack_neg`
    * `neg_ofBits`
    * `readDecimal?_neg`
    * `numberOfText?_eq`
    * `readMagnitude?_append`
    * `endsDigits_of_spelled`
    * `numbers_agree`
-/

------------------------------------------------------------
-- Negative Doubles
------------------------------------------------------------

namespace BranchingStory

section HighestBit

open Float.Model Float.Model.UnpackedFloat

variable {b c : BitVec 64}

/- The sign of a double is its highest bit. -/
theorem toNat_unpackSign
    (b : BitVec 64) :
    (@unpackSign Format.binary64 b).toNat =
      b.toNat / 2 ^ 63 % 2 := by
  rw [unpackSign_def, BitVec.extractLsb'_toNat]
  change b.toNat >>> 63 % 2 ^ 1 = _
  rw [Nat.shiftRight_eq_div_pow]

/- The exponent of a double is below its highest bit. -/
theorem unpackExponent_highestBit
    (hBit : c.toNat = 2 ^ 63 + b.toNat) :
    @unpackExponent Format.binary64 c =
      @unpackExponent Format.binary64 b := by
  apply BitVec.eq_of_toNat_eq
  rw [unpackExponent_def, unpackExponent_def,
    BitVec.extractLsb'_toNat, BitVec.extractLsb'_toNat, hBit]
  change
    (2 ^ 63 + b.toNat) >>> 52 % 2 ^ 11 =
      b.toNat >>> 52 % 2 ^ 11
  rw [Nat.shiftRight_eq_div_pow, Nat.shiftRight_eq_div_pow]
  omega

/- The mantissa of a double is below its highest bit. -/
theorem unpackMantissa_highestBit
    (hBit : c.toNat = 2 ^ 63 + b.toNat) :
    @unpackMantissa Format.binary64 c =
      @unpackMantissa Format.binary64 b := by
  apply BitVec.eq_of_toNat_eq
  rw [unpackMantissa_def, unpackMantissa_def,
    BitVec.extractLsb'_toNat, BitVec.extractLsb'_toNat, hBit]
  change
    (2 ^ 63 + b.toNat) >>> 0 % 2 ^ 52 =
      b.toNat >>> 0 % 2 ^ 52
  rw [Nat.shiftRight_zero, Nat.shiftRight_zero]
  omega

/- Two doubles that differ in the highest bit differ in sign. -/
theorem unpack_neg
    (hPlus : b.toNat < 2 ^ 63)
    (hBit : c.toNat = 2 ^ 63 + b.toNat) :
    (UnpackedFloat.unpack Format.binary64 b).neg =
      UnpackedFloat.unpack Format.binary64 c := by
  have hPositive :
      Sign.ofBitVec (@unpackSign Format.binary64 b) =
        .positive := by
    have hZero : @unpackSign Format.binary64 b = 0#1 := by
      apply BitVec.eq_of_toNat_eq
      rw [toNat_unpackSign]
      change b.toNat / 2 ^ 63 % 2 = 0
      omega
    rw [hZero]
    rfl
  have hNegative :
      Sign.ofBitVec (@unpackSign Format.binary64 c) =
        .negative := by
    have hOne : @unpackSign Format.binary64 c = 1#1 := by
      apply BitVec.eq_of_toNat_eq
      rw [toNat_unpackSign, hBit]
      change (2 ^ 63 + b.toNat) / 2 ^ 63 % 2 = 1
      omega
    rw [hOne]
    rfl
  unfold UnpackedFloat.unpack
  dsimp only
  rw [hPositive, hNegative]
  simp only [unpackExponent_highestBit hBit,
    unpackMantissa_highestBit hBit]
  split
  · split <;> rfl
  · split
    · split <;> rfl
    · rfl

end HighestBit

/- To change the sign of a double is to set its highest bit. -/
theorem neg_ofBits
    {bits : Nat}
    (hBits : bits ≤ infinityBits) :
    -Float.ofBits (UInt64.ofNat bits) =
      Float.ofBits (UInt64.ofNat (2 ^ 63 + bits)) := by
  rw [infinityBits, Nat.pow_eq] at hBits
  have hPlus :
      (Float.ofBits (UInt64.ofNat bits)).toBits.toNat =
        bits := by
    refine toBits_ofBits (by omega) ?_
    rw [infinityBits, Nat.pow_eq]
    omega
  have hMinus :
      (UInt64.ofNat (2 ^ 63 + bits)).toBitVec.toNat =
        2 ^ 63 + bits := by
    simp
    omega
  rw [← UInt64.toNat_toBitVec] at hPlus
  change
    Float.ofModel (Float.Model.pack
      (Float.Model.UnpackedFloat.unpack
        Float.Model.Format.binary64
        (Float.ofBits
          (UInt64.ofNat bits)).toBits.toBitVec).neg) =
      Float.ofModel (Float.Model.pack
        (Float.Model.UnpackedFloat.unpack
          Float.Model.Format.binary64
          (UInt64.ofNat (2 ^ 63 + bits)).toBitVec))
  rw [unpack_neg (by omega) (by rw [hMinus, hPlus])]

/- A ratio with a sign is rounded as the one without it. -/
theorem nearestDouble_neg
    (num den : Nat) :
    nearestDouble true num den = -nearestDouble false num den := by
  rw [nearestDouble, nearestDouble]
  simp only [if_true, Bool.false_eq_true, if_false,
    Nat.zero_add]
  rw [neg_ofBits, Nat.pow_eq]
  split
  · exact Nat.zero_le _
  · exact Nat.min_le_right _ _

/- The negative infinity is the positive one with a sign. -/
theorem infinity_neg :
    infinity true = -infinity false := by
  rw [infinity, infinity]
  simp only [if_true, Bool.false_eq_true, if_false,
    Nat.zero_add]
  rw [neg_ofBits (Nat.le_refl _), Nat.pow_eq]

/- Digits with a sign stand for what they do without it. -/
theorem scaledDouble_neg
    (digits : Nat)
    (exponent : Int) :
    scaledDouble true digits exponent =
      -scaledDouble false digits exponent := by
  rw [scaledDouble, scaledDouble]
  split
  · exact nearestDouble_neg 0 1
  · dsimp only
    split
    · exact infinity_neg
    · split
      · exact nearestDouble_neg 0 1
      · exact nearestDouble_neg _ _

/- A decimal with a sign is read as the one without it. -/
theorem readDecimal?_neg
    (cs : List Char) :
    readDecimal? true cs =
      (readDecimal? false cs).map fun x => -x := by
  rw [readDecimal?, readDecimal?]
  dsimp only
  split
  · rfl
  · rw [Option.map_map]
    congr 1
    funext e
    exact scaledDouble_neg _ _

end BranchingStory

------------------------------------------------------------
-- Digits And What Follows Them
------------------------------------------------------------

namespace BranchingStory

variable {cs ds rest : List Char}

/-
  Whether a text does not go on with digits: it neither begins
  with a digit, nor with a point, an underscore or the letter
  of an exponent.
-/
def EndsDigits
    (rest : List Char) : Prop :=
  ∀ c, rest.head? = some c →
    isDigit c = false ∧ c ∉ ['.', '_', 'e', 'E']

/- A fraction is only read after a point. -/
theorem takeFraction_of_ends
    (hEnds : EndsDigits rest) :
    takeFraction rest = ([], rest) := by
  cases rest with
  | nil => rfl
  | cons c rest =>
      have hPoint : c ≠ '.' := by
        rintro rfl
        exact (hEnds '.' rfl).2 (by decide)
      unfold takeFraction
      split
      · next hCons => exact absurd (List.cons.inj hCons).1 hPoint
      · rfl

/- An exponent is only read after its letter. -/
theorem readExponent?_of_ends
    (hEnds : EndsDigits rest) :
    readExponent? rest =
      if rest = [] then some 0 else none := by
  cases rest with
  | nil => rfl
  | cons c rest =>
      have hLetter : ¬ (c = 'e' ∨ c = 'E') := by
        rintro (rfl | rfl)
        · exact (hEnds 'e' rfl).2 (by decide)
        · exact (hEnds 'E' rfl).2 (by decide)
      rw [readExponent?, if_neg hLetter, if_neg (by simp)]

/-
  A decimal is not read if anything follows its digits that
  does not go on with them.
-/
theorem readDecimal?_append
    (negative : Bool)
    (hDotted : IsDotted isDigit cs)
    (hEnds : EndsDigits rest) :
    readDecimal? negative (cs ++ rest) =
      if rest = [] then readDecimal? negative cs else none := by
  by_cases hRest : rest = []
  · rw [hRest, List.append_nil, if_pos rfl]
  · have hStop (c : Char) (hHead : rest.head? = some c) :
        isDigit c = false ∧ c ≠ '_' := by
      refine ⟨(hEnds c hHead).1, ?_⟩
      rintro rfl
      exact (hEnds '_' hHead).2 (by decide)
    have hNone : readExponent? rest = none := by
      rw [readExponent?_of_ends hEnds, if_neg hRest]
    rw [if_neg hRest, readDecimal?]
    cases hDotted with
    | run hRun =>
        rw [takeDigits_append hRun.2 hStop]
        dsimp only
        rw [takeFraction_of_ends hEnds]
        simp only [hNone, Option.map_none, ite_self]
    | @pair cs ds hFirst hSecond =>
        have hPoint (c : Char)
            (hHead : ('.' :: (ds ++ rest)).head? = some c) :
            isDigit c = false ∧ c ≠ '_' := by
          cases hHead
          decide
        rw [List.append_assoc, List.cons_append,
          takeDigits_append hFirst.2 hPoint]
        dsimp only
        rw [takeFraction, takeDigits_append hSecond.2 hStop]
        simp only [hNone, Option.map_none, ite_self]

end BranchingStory

------------------------------------------------------------
-- Declared Numbers
------------------------------------------------------------

namespace BranchingStory

variable {cs rest : List Char}
variable {v : Value}

/-
  The value of a number text without blanks, given whether a
  sign stood in front of it that is a minus sign.
-/
def readMagnitude?
    (negative : Bool)
    (body : List Char) : Option Value :=
  if body.contains '.' then
    (readDecimal? negative body).map .float
  else
    match takeDigits false body with
    | (d :: ds, []) =>
        if maxDigits < (d :: ds).length then none
        else
          some (.int (if negative then -(ofDigits (d :: ds))
            else ofDigits (d :: ds)))
    | _ => none

/- A number is read without its blanks, from its sign on. -/
theorem numberOfText?_eq
    (cs : List Char) :
    numberOfText? cs =
      readMagnitude? (takeSign (trimNumber cs)).1
        (takeSign (trimNumber cs)).2 := by
  rw [numberOfText?, readMagnitude?, contains_takeSign,
    contains_trimNumber]
  split
  · next hPoint =>
      rw [readDouble?_of_point (List.contains_iff_mem.mp hPoint)]
  · rw [readInt?, readInt]
    dsimp only
    generalize takeDigits false (takeSign (trimNumber cs)).2 = p
    rcases p with ⟨_ | ⟨d, ds⟩, _ | ⟨c, rest⟩⟩
    · rfl
    · rfl
    · dsimp only
      split
      · rfl
      · rfl
    · dsimp only
      split
      · rfl
      · rfl
      · next hPair =>
          cases hPair
          split
          · rfl
          · rfl

/- A number is not empty: it begins with a digit or a point. -/
theorem head_of_readMagnitude?
    {negative : Bool}
    (hRead : readMagnitude? negative cs = some v) :
    ∃ c rest, cs = c :: rest ∧
      (isDigit c = true ∨ c = '.') := by
  cases cs with
  | nil => cases hRead
  | cons c cs =>
      refine ⟨c, cs, rfl, ?_⟩
      by_contra hOther
      rw [not_or, Bool.not_eq_true, isDigit,
        Option.isSome_eq_false_iff,
        Option.isNone_iff_eq_none] at hOther
      have hTake :
          takeDigits false (c :: cs) = ([], c :: cs) := by
        rw [takeDigits, hOther.1]
        rfl
      have hFraction :
          takeFraction (c :: cs) = ([], c :: cs) := by
        unfold takeFraction
        split
        · next hCons =>
            exact absurd (List.cons.inj hCons).1 hOther.2
        · rfl
      rw [readMagnitude?, readDecimal?, hTake] at hRead
      dsimp only at hRead
      rw [hFraction] at hRead
      split at hRead
      · cases hRead
      · cases hRead

/-
  A number is not read if anything follows its digits that
  does not go on with them.
-/
theorem readMagnitude?_append
    (negative : Bool)
    (hDotted : IsDotted isDigit cs)
    (hEnds : EndsDigits rest) :
    readMagnitude? negative (cs ++ rest) =
      if rest = [] then readMagnitude? negative cs
      else none := by
  by_cases hRest : rest = []
  · rw [hRest, List.append_nil, if_pos rfl]
  · rw [if_neg hRest, readMagnitude?]
    split
    · rw [readDecimal?_append negative hDotted hEnds,
        if_neg hRest, Option.map_none]
    · next hPoint =>
        rw [List.contains_iff_mem, List.mem_append, not_or]
          at hPoint
        have hRun := hDotted.isRun hPoint.1
        have hStop (c : Char) (hHead : rest.head? = some c) :
            isDigit c = false ∧ c ≠ '_' := by
          refine ⟨(hEnds c hHead).1, ?_⟩
          rintro rfl
          exact (hEnds '_' hHead).2 (by decide)
        rw [takeDigits_append hRun.2 hStop]
        split
        · next hPair =>
            exact absurd (congrArg Prod.snd hPair) hRest
        · rfl

/-
  A declared number has the value of its digits as a token, or
  the opposite one after a minus sign.
-/
theorem readMagnitude?_numeral
    {negative : Bool}
    {s : String}
    (hDotted : IsDotted isDigit s.toList)
    (hRead : readMagnitude? negative s.toList = some v) :
    (if negative then negate (numeralValue s)
      else .ok (numeralValue s)) = .ok v := by
  rw [readMagnitude?] at hRead
  rw [numeralValue]
  split at hRead
  · next hPoint =>
      rcases Option.map_eq_some_iff.mp hRead with ⟨x, hX, rfl⟩
      rw [readDouble?_of_dotted hDotted.accept_or_point
        (List.contains_iff_mem.mp hPoint), if_pos hPoint]
      cases negative with
      | false =>
          rw [hX]
          rfl
      | true =>
          rw [readDecimal?_neg] at hX
          rcases Option.map_eq_some_iff.mp hX with ⟨y, hY, rfl⟩
          rw [hY]
          rfl
  · next hPoint =>
      rw [if_neg hPoint]
      rw [List.contains_iff_mem] at hPoint
      rw [takeDigits_of_digits (hDotted.isRun hPoint).2]
        at hRead
      split at hRead
      · next d ds hPair =>
          rw [(Prod.mk.inj hPair).1]
          split at hRead
          · cases hRead
          · cases hRead
            cases negative <;> rfl
      · cases hRead

end BranchingStory

------------------------------------------------------------
-- Numbers In Expressions
------------------------------------------------------------

namespace BranchingStory

variable {cs : List Char}
variable {ts : List Token}
variable {t : Token}
variable {v : Value}

/- What ends digits may be cut off after a few characters. -/
theorem EndsDigits.of_append
    {cs rest : List Char}
    (hEnds : EndsDigits (cs ++ rest)) :
    EndsDigits cs := by
  intro c hHead
  apply hEnds
  rw [List.head?_append, hHead]
  rfl

/- Only numbers begin with a digit, and nothing with a point. -/
theorem Token.exists_number
    {c : Char}
    (hWritten : t.IsWritten)
    (hChars : t.chars = c :: cs)
    (hHead : isDigit c = true ∨ c = '.') :
    ∃ s, t = .number s := by
  have hOther {d : Char} {ds : List Char}
      (hNone : isDigit d = false ∧ d ≠ '.')
      (hCons : d :: ds = c :: cs) : False := by
    rw [(List.cons.inj hCons).1] at hNone
    rcases hHead with hDigit | hPoint
    · rw [hNone.1] at hDigit
      cases hDigit
    · exact hNone.2 hPoint
  cases t with
  | number s => exact ⟨s, rfl⟩
  | quoted s =>
      rw [chars, text, String.toList_append,
        String.toList_append] at hChars
      exact (hOther (by decide) hChars).elim
  | arrow => exact (hOther (by decide) hChars).elim
  | symbol s =>
      cases s <;> exact (hOther (by decide) hChars).elim
  | name s =>
      rcases hWritten.1.head with ⟨d, ds, hCons, hWord⟩
      refine (hOther ⟨hWritten.2 d ?_, ?_⟩
        (hCons.symm.trans hChars)).elim
      · rw [hCons]
        rfl
      · rintro rfl
        exact absurd hWord (by decide)

/- What begins neither as a word nor as a quote is a sign. -/
theorem Token.arrow_or_symbol
    {c : Char}
    (hWritten : t.IsWritten)
    (hChars : t.chars = c :: cs)
    (hSign : isDigit c = false ∧ isWordChar c = false ∧
      c ≠ '"') :
    t = .arrow ∨ ∃ s, t = .symbol s := by
  rcases hSign with ⟨hDigit, hWord, hQuote⟩
  cases t with
  | number s =>
      rcases IsDotted.head hWritten with ⟨d, ds, hCons, hD⟩
      cases hCons.symm.trans hChars
      rw [hDigit] at hD
      cases hD
  | quoted s =>
      rw [chars, text, String.toList_append,
        String.toList_append] at hChars
      exact absurd (List.cons.inj hChars).1.symm hQuote
  | arrow => exact Or.inl rfl
  | symbol s => exact Or.inr ⟨s, rfl⟩
  | name s =>
      rcases hWritten.1.head with ⟨d, ds, hCons, hD⟩
      cases hCons.symm.trans hChars
      rw [hWord] at hD
      cases hD

/- A token that begins with a minus sign is it, or an arrow. -/
theorem Token.minus_or_arrow
    (hWritten : t.IsWritten)
    (hChars : t.chars = '-' :: cs) :
    t = .symbol .minus ∧ cs = [] ∨
      t = .arrow ∧ cs = ['>'] := by
  rcases arrow_or_symbol hWritten hChars (by decide) with
    rfl | ⟨s, rfl⟩
  · exact Or.inr ⟨rfl, (List.cons.inj hChars).2.symm⟩
  · refine Or.inl ?_
    cases s <;> cases hChars
    exact ⟨rfl, rfl⟩

/- A token that begins with a plus sign is nothing but it. -/
theorem Token.eq_of_plus
    (hWritten : t.IsWritten)
    (hChars : t.chars = '+' :: cs) :
    t = .symbol .plus := by
  rcases arrow_or_symbol hWritten hChars (by decide) with
    rfl | ⟨s, rfl⟩
  · cases hChars
  · cases s <;> cases hChars
    rfl

/- A token that joins operands does not go on with digits. -/
theorem Joins.endsDigits
    {l : Level}
    {op : BinaryOp}
    (hJoins : Joins l t op)
    (hWritten : t.IsWritten) :
    EndsDigits t.chars := by
  have hWord {s word : String} {w : Char} {ws : List Char}
      (hFirst : word.toList = w :: ws)
      (hOther : w ∉ ['.', '_', 'e'])
      (hLower : lowerWord s = word)
      (hWritten : (Token.name s).IsWritten) :
      EndsDigits s.toList := by
    intro c hHead
    refine ⟨hWritten.2 c hHead, fun hMem => hOther ?_⟩
    rcases List.head?_eq_some_iff.mp hHead with ⟨cs, hCons⟩
    rw [← hLower, lowerWord, String.toList_ofList, hCons,
      List.map_cons] at hFirst
    rw [← (List.cons.inj hFirst).1]
    fin_cases hMem <;> decide
  cases hJoins with
  | orWord hLower =>
      exact hWord rfl (by decide) hLower hWritten
  | andWord hLower =>
      exact hWord rfl (by decide) hLower hWritten
  | _ =>
      rintro c ⟨⟩
      decide

/-
  What is spelled by no tokens, or begins with one that joins
  operands, does not go on with digits.
-/
theorem endsDigits_of_spelled
    (hSpelled : Spelled ts cs)
    (hFirst : ∀ t ts', ts = t :: ts' →
      ∃ l op, Joins l t op) :
    EndsDigits cs := by
  have hBlank {c : Char} (hBlank : isBlank c = true) :
      isDigit c = false ∧ c ∉ ['.', '_', 'e', 'E'] := by
    constructor
    · rw [← Bool.not_eq_true]
      intro hDigit
      rw [isBlank_of_isDigit hDigit] at hBlank
      cases hBlank
    · intro hMem
      fin_cases hMem <;> exact absurd hBlank (by decide)
  cases hSpelled with
  | nil hGap =>
      intro c hHead
      exact hBlank (hGap c (List.mem_of_head? hHead))
  | @cons gap cs' t ts' hGap hWritten hRest =>
      intro c hHead
      rcases gap with _ | ⟨g, gap⟩
      · rcases hFirst t ts' rfl with ⟨l, op, hJoins⟩
        have hSome := Token.chars_ne_nil hWritten
        rw [List.nil_append, List.head?_append_of_ne_nil _
          hSome] at hHead
        exact hJoins.endsDigits hWritten c hHead
      · cases hHead
        exact hBlank (hGap _ List.mem_cons_self)

/- Nothing but blanks is spelled by no tokens. -/
theorem Spelled.eq_nil
    (hSpelled : Spelled ts cs)
    (hBlank : ∀ c ∈ cs, isBlank c = true) :
    ts = [] := by
  cases hSpelled with
  | nil hGap => rfl
  | @cons gap cs' t ts' hGap hWritten hRest =>
      rcases Token.chars_head hWritten with
        ⟨c, ds, hChars, hSolid, _⟩
      have hMem : c ∈ gap ++ (t.chars ++ cs') := by
        rw [hChars]
        simp
      rw [hBlank c hMem] at hSolid
      cases hSolid

/- A text that does not begin with a blank begins with a token. -/
theorem Spelled.of_solid
    {c : Char}
    (hSpelled : Spelled ts (c :: cs))
    (hSolid : isBlank c = false) :
    ∃ t ts' rest, ts = t :: ts' ∧ t.IsWritten ∧
      c :: cs = t.chars ++ rest ∧ Spelled ts' rest := by
  have hNone {gap : List Char} (hGap : c ∈ gap)
      (hBlank : ∀ c ∈ gap, isBlank c = true) : False := by
    rw [hBlank c hGap] at hSolid
    cases hSolid
  generalize hText : c :: cs = text at hSpelled
  cases hSpelled with
  | nil hGap =>
      exact (hNone (by rw [← hText]; simp) hGap).elim
  | @cons gap rest t ts' hGap hWritten hRest =>
      cases gap with
      | nil => exact ⟨t, ts', rest, rfl, hWritten, rfl, hRest⟩
      | cons g gap =>
          cases hText
          exact (hNone List.mem_cons_self hGap).elim

/- A phrase is the whole of what it begins, if it stops there. -/
theorem Phrase.eq_of_append
    {l : Level}
    {p q : Phrase l}
    (hTokens : p.tokens = q.tokens ++ ts)
    (hStops : Stops l ts) :
    p = q ∧ ts = [] := by
  have hSame := p.isDetermined q [] ts Stops.nil hStops (by
    rw [List.append_nil, hTokens])
  exact ⟨hSame.1, hSame.2.symm⟩

/-
  A phrase that begins with a number is nothing but the number,
  if the text is one that can be declared: no operator goes on
  with the digits.
-/
theorem number_of_declared
    {p q : Phrase .or}
    {s : String}
    {negative : Bool}
    {rest body gap : List Char}
    (hTokens : p.tokens = q.tokens ++ ts)
    (hSpelled : Spelled ts rest)
    (hDotted : IsDotted isDigit s.toList)
    (hText : s.toList ++ rest = body ++ gap)
    (hGap : ∀ c ∈ gap, isNumberBlank c = true)
    (hRead : readMagnitude? negative body = some v) :
    p = q ∧
      (if negative then negate (numeralValue s)
        else .ok (numeralValue s)) = .ok v := by
  have hEnds : EndsDigits rest := by
    refine endsDigits_of_spelled hSpelled ?_
    rintro t ts' rfl
    by_contra hNone
    have hStops : Stops .or (t :: ts') :=
      Stops.cons_of_not_joins fun l op hJoins =>
        hNone ⟨l, op, hJoins⟩
    cases (Phrase.eq_of_append hTokens hStops).2
  have hBlank (c : Char) (hMem : c ∈ gap) :
      isBlank c = true :=
    (Bool.and_eq_true_iff.mp (hGap c hMem)).1
  -- The digits do not reach into the blanks.
  have hBody : ∃ more, body = s.toList ++ more ∧
      rest = more ++ gap := by
    rcases List.append_eq_append_iff.mp hText with
      ⟨more, hBody, hRest⟩ | ⟨more, hDigits, hGapEq⟩
    · exact ⟨more, hBody, hRest⟩
    · cases more with
      | nil =>
          rw [List.append_nil] at hDigits
          exact ⟨[], by rw [List.append_nil, hDigits],
            hGapEq.symm⟩
      | cons c more =>
          have hGapHead := hGap c (by rw [hGapEq]; simp)
          rcases hDotted.accept_or_point c
              (by rw [hDigits]; simp) with hDigit | rfl
          · rw [not_isNumberBlank_of_isDigit hDigit]
              at hGapHead
            cases hGapHead
          · exact absurd hGapHead (by decide)
  rcases hBody with ⟨more, rfl, rfl⟩
  rw [readMagnitude?_append negative hDotted
    hEnds.of_append] at hRead
  split at hRead
  · next hMore =>
      cases hMore
      have hNone := hSpelled.eq_nil hBlank
      rw [hNone, List.append_nil] at hTokens
      exact ⟨Phrase.tokens_injective hTokens,
        readMagnitude?_numeral hDotted hRead⟩
  · cases hRead

/-
  A number with blanks in front is declared from the first
  character on that is not blank.
-/
theorem readMagnitude?_of_declared
    {gap : List Char}
    {c : Char}
    (hGap : ∀ c ∈ gap, isBlank c = true)
    (hSolid : isBlank c = false)
    (hRead : numberOfText? (gap ++ c :: cs) = some v) :
    ∃ text gap', c :: cs = text ++ gap' ∧
      (∀ c ∈ gap', isNumberBlank c = true) ∧
      readMagnitude? (takeSign text).1 (takeSign text).2 =
        some v := by
  rw [numberOfText?_eq] at hRead
  rcases dropWhile_eq_trimNumber (gap ++ c :: cs) with
    ⟨gap', hDrop, hGap'⟩
  have hStart : (c :: cs).dropWhile isNumberBlank = c :: cs := by
    rw [List.dropWhile_cons, isNumberBlank, hSolid]
    rfl
  rw [List.dropWhile_append, hStart] at hDrop
  refine ⟨trimNumber (gap ++ c :: cs), gap', ?_, hGap', hRead⟩
  split at hDrop
  · exact hDrop
  · -- The text begins with a blank that is none of a number.
    cases hLeft : gap.dropWhile isNumberBlank with
    | nil => simp [hLeft] at *
    | cons g gs =>
        have hBlank : isBlank g = true := by
          refine hGap g ?_
          have hSub := List.dropWhile_sublist isNumberBlank
            (l := gap)
          exact hSub.subset (by rw [hLeft]; simp)
        have hPlain (d : Char) (hSolid : isBlank d = false) :
            g ≠ d := by
          rintro rfl
          rw [hBlank] at hSolid
          cases hSolid
        rw [hLeft, List.cons_append] at hDrop
        cases hText : trimNumber (gap ++ c :: cs) with
        | nil =>
            rw [hText] at hRead
            cases hRead
        | cons y ys =>
            rw [hText, List.cons_append, List.cons.injEq]
              at hDrop
            rw [hText, ← hDrop.1, takeSign_cons
              (hPlain '-' (by decide)) (hPlain '+' (by decide))]
              at hRead
            rcases head_of_readMagnitude? hRead with
              ⟨d, rest, hCons, hDigit | hPoint⟩
            · rw [← (List.cons.inj hCons).1] at hDigit
              rw [isBlank_of_isDigit hDigit] at hBlank
              cases hBlank
            · rw [← (List.cons.inj hCons).1] at hPoint
              exact absurd hPoint (hPlain '.' (by decide))

section

variable {line : Nat}
variable {p : Phrase .or}
variable {rest body gap : List Char}

/- A number that is declared without a sign is one token. -/
theorem literal_of_declared
    {s : String}
    (hTokens : p.tokens = .number s :: ts)
    (hSpelled : Spelled ts rest)
    (hDotted : IsDotted isDigit s.toList)
    (hText : s.toList ++ rest = body ++ gap)
    (hGap : ∀ c ∈ gap, isNumberBlank c = true)
    (hRead : readMagnitude? false body = some v) :
    p.expr line = .literal v := by
  have hWhole : p.tokens =
      ((Phrase.number s).atLevel .or).tokens ++ ts := by
    rw [hTokens, Phrase.tokens_atLevel]
    rfl
  rcases number_of_declared hWhole hSpelled hDotted hText hGap
      hRead with
    ⟨rfl, hValue⟩
  cases hValue
  rw [Phrase.expr_atLevel, Phrase.expr]

/- A number that is declared after a minus sign is negated. -/
theorem negation_of_declared
    (hTokens : p.tokens = .symbol .minus :: ts)
    (hSpelled : Spelled ts rest)
    (hText : rest = body ++ gap)
    (hGap : ∀ c ∈ gap, isNumberBlank c = true)
    (hRead : readMagnitude? true body = some v) :
    ∃ w, p.expr line = .unary .negate (.literal w) ∧
      negate w = .ok v := by
  rcases head_of_readMagnitude? hRead with
    ⟨c, cs, rfl, hHead⟩
  have hSolid : isBlank c = false := by
    rcases hHead with hDigit | rfl
    · exact isBlank_of_isDigit hDigit
    · decide
  rw [List.cons_append] at hText
  rw [hText] at hSpelled
  rcases hSpelled.of_solid hSolid with
    ⟨t, ts', rest', rfl, hWritten, hChars, hRest⟩
  rcases Token.chars_head hWritten with ⟨d, ds, hCons, _⟩
  rw [hCons, List.cons_append, List.cons.injEq] at hChars
  rw [← hChars.1] at hCons
  rcases Token.exists_number hWritten hCons hHead with
    ⟨s, rfl⟩
  have hWhole : p.tokens =
      (Phrase.negate
        ((Phrase.number s).atLevel .negation)).atOr.tokens ++
        ts' := by
    rw [hTokens, Phrase.tokens_atOr, Phrase.tokens,
      Phrase.tokens_atLevel]
    rfl
  have hNumber : s.toList ++ rest' = c :: cs ++ gap := by
    change s.toList = _ at hCons
    rw [hCons, List.cons_append, List.cons_append, hChars.2]
  rcases number_of_declared hWhole hRest hWritten hNumber hGap
      hRead with
    ⟨rfl, hValue⟩
  refine ⟨numeralValue s, ?_, hValue⟩
  rw [Phrase.expr_atOr, Phrase.expr, Phrase.expr_atLevel,
    Phrase.expr]

/-
  A text that can both be declared as a number and read as an
  expression is read as the same number: as a token, or as the
  negation of a token that has the opposite value.
-/
theorem numbers_agree
    (hSpelled : Spelled p.tokens cs)
    (hRead : numberOfText? cs = some v) :
    p.expr line = .literal v ∨
      ∃ w, p.expr line = .unary .negate (.literal w) ∧
        negate w = .ok v := by
  rcases p.tokens_head with ⟨t, ts, hTokens, _⟩
  rw [hTokens] at hSpelled
  cases hSpelled with
  | @cons gap rest _ _ hGap hWritten hRest =>
      rcases Token.chars_head hWritten with
        ⟨c, cs, hChars, hSolid, _⟩
      rw [hChars, List.cons_append] at hRead
      rcases readMagnitude?_of_declared hGap hSolid hRead with
        ⟨_ | ⟨d, body⟩, gap', hText, hGap', hValue⟩
      · cases hValue
      rw [List.cons_append, List.cons.injEq] at hText
      rcases hText with ⟨rfl, hText⟩
      by_cases hMinus : c = '-'
      · cases hMinus
        change readMagnitude? true body = _ at hValue
        rcases Token.minus_or_arrow hWritten hChars with
          ⟨rfl, rfl⟩ | ⟨rfl, rfl⟩
        · exact Or.inr (negation_of_declared hTokens hRest
            hText hGap' hValue)
        · -- What follows the minus sign is no part of an arrow.
          rcases head_of_readMagnitude? hValue with
            ⟨d, ds, rfl, hHead⟩
          cases hText
          exact absurd hHead (by decide)
      · by_cases hPlus : c = '+'
        · cases hPlus
          cases Token.eq_of_plus hWritten hChars
          cases p.head_of_joins hTokens .plus
        · rw [takeSign_cons hMinus hPlus] at hValue
          rcases head_of_readMagnitude? hValue with
            ⟨d, ds, hBody, hHead⟩
          cases hBody
          rcases Token.exists_number hWritten hChars hHead with
            ⟨s, rfl⟩
          change s.toList = _ at hChars
          refine Or.inl (literal_of_declared hTokens hRest
            hWritten ?_ hGap' hValue)
          rw [hChars, List.cons_append, hText]
          rfl

end

end BranchingStory
