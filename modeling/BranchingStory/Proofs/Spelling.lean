import BranchingStory.Proofs.Characters
import BranchingStory.Proofs.Outcomes
import BranchingStory.Expr.Token
import Mathlib.Data.List.TakeWhile

/-
  This file says how the tokens of a text are written in it:
  one after the other, with nothing but blanks around them.

  Key definitions include:
    * `IsQuotable`
    * `IsDotted`
    * `Token.chars`
    * `Token.IsWritten`
    * `Spelled`
    * `Lexes`

  Key theorems include:
    * `nextToken?_spells`
    * `nextToken?_of_isWritten`
    * `spelled_of_tokens`
    * `Lexes.token`
    * `Lexes.spaced`
-/

------------------------------------------------------------
-- Quoted Texts
------------------------------------------------------------

namespace BranchingStory

/-
  Whether a text can stand between quotes: each quote and each
  backslash in it is escaped, and no line feed is.
-/
inductive IsQuotable : List Char → Prop where
  | nil : IsQuotable []
  | cons {c : Char} {cs : List Char} (hQuote : c ≠ '"')
      (hEscape : c ≠ '\\') (hRest : IsQuotable cs) :
      IsQuotable (c :: cs)
  | escaped {c : Char} {cs : List Char} (hBreak : c ≠ '\n')
      (hRest : IsQuotable cs) : IsQuotable ('\\' :: c :: cs)

/- What can stand between quotes is taken up to the quote. -/
theorem takeQuoted_of_isQuotable
    {body : List Char}
    (hBody : IsQuotable body)
    (rest : List Char) :
    takeQuoted (body ++ '"' :: rest) = some (body, rest) := by
  induction hBody with
  | nil => rfl
  | @cons c cs hQuote hEscape _ ih =>
      rw [List.cons_append, takeQuoted, ih]
      · rfl
      · exact hQuote
      · intro hLast
        exact absurd hLast hEscape
      · intro c' cs' hLast
        exact absurd hLast hEscape
  | @escaped c cs hBreak _ ih =>
      rw [List.cons_append, List.cons_append, takeQuoted,
        if_neg hBreak, ih]
      rfl

/- What is taken up to a quote can stand between quotes. -/
theorem isQuotable_of_takeQuoted
    {cs body rest : List Char}
    (hTake : takeQuoted cs = some (body, rest)) :
    IsQuotable body ∧ cs = body ++ '"' :: rest := by
  fun_induction takeQuoted cs generalizing body with
  | case1 => cases hTake
  | case2 rest =>
      cases hTake
      exact ⟨.nil, rfl⟩
  | case3 => cases hTake
  | case4 => cases hTake
  | case5 c cs hBreak ih =>
      rcases Option.map_eq_some_iff.mp hTake with
        ⟨⟨body', rest'⟩, hMore, hPair⟩
      cases hPair
      rcases ih hMore with ⟨hBody, hCs⟩
      refine ⟨.escaped hBreak hBody, ?_⟩
      rw [hCs]
      rfl
  | case6 c cs hQuote hLast hEscape ih =>
      rcases Option.map_eq_some_iff.mp hTake with
        ⟨⟨body', rest'⟩, hMore, hPair⟩
      cases hPair
      rcases ih hMore with ⟨hBody, hCs⟩
      have hPlain : c ≠ '\\' := by
        rintro rfl
        cases cs with
        | nil => exact hLast rfl rfl
        | cons c' cs => exact hEscape c' cs rfl rfl
      refine ⟨.cons hQuote hPlain hBody, ?_⟩
      rw [hCs]
      rfl

end BranchingStory

------------------------------------------------------------
-- Words And Numbers
------------------------------------------------------------

namespace BranchingStory

/- Whether a text is a run of accepted characters. -/
def IsRun
    (accept : Char → Bool)
    (cs : List Char) : Prop :=
  cs ≠ [] ∧ ∀ c ∈ cs, accept c = true

/- A name is a run of characters of words. -/
theorem isRun_of_isName
    {cs : List Char}
    (hName : isName cs = true) :
    IsRun isWordChar cs := by
  rw [isName, Bool.and_eq_true, Bool.not_eq_true',
    List.isEmpty_eq_false_iff] at hName
  exact ⟨hName.1, List.all_eq_true.mp hName.2⟩

/-
  Whether a text is a run of accepted characters, or two such
  runs with a point in between.
-/
inductive IsDotted
    (accept : Char → Bool) : List Char → Prop where
  | run {cs : List Char} (hRun : IsRun accept cs) :
      IsDotted accept cs
  | pair {cs ds : List Char} (hFirst : IsRun accept cs)
      (hSecond : IsRun accept ds) :
      IsDotted accept (cs ++ '.' :: ds)

namespace IsDotted

variable {accept : Char → Bool}
variable {cs : List Char}

/- A run with or without a point begins as a run. -/
theorem head
    (hDotted : IsDotted accept cs) :
    ∃ c rest, cs = c :: rest ∧ accept c = true := by
  have hFirst {cs : List Char} (hRun : IsRun accept cs) :
      ∃ c rest, cs = c :: rest ∧ accept c = true := by
    rcases List.exists_cons_of_ne_nil hRun.1 with
      ⟨c, rest, rfl⟩
    exact ⟨c, rest, rfl, hRun.2 c List.mem_cons_self⟩
  cases hDotted with
  | run hRun => exact hFirst hRun
  | @pair cs ds hRun _ =>
      rcases hFirst hRun with ⟨c, rest, rfl, hAccept⟩
      exact ⟨c, rest ++ '.' :: ds, rfl, hAccept⟩

/- What a run with or without a point is made of. -/
theorem accept_or_point
    (hDotted : IsDotted accept cs) :
    ∀ c ∈ cs, accept c = true ∨ c = '.' := by
  intro c hMem
  cases hDotted with
  | run hRun => exact Or.inl (hRun.2 c hMem)
  | pair hFirst hSecond =>
      rw [List.mem_append, List.mem_cons] at hMem
      rcases hMem with hMem | rfl | hMem
      · exact Or.inl (hFirst.2 c hMem)
      · exact Or.inr rfl
      · exact Or.inl (hSecond.2 c hMem)

/- Without a point there is only one run. -/
theorem isRun
    (hDotted : IsDotted accept cs)
    (hPoint : '.' ∉ cs) :
    IsRun accept cs := by
  cases hDotted with
  | run hRun => exact hRun
  | pair _ _ => exact absurd (by simp) hPoint

end IsDotted

/- A run with or without a point is the start of a text. -/
theorem takeDotted_append
    (accept : Char → Bool)
    (cs : List Char) :
    (takeDotted accept cs).1 ++ (takeDotted accept cs).2 =
      cs := by
  have hSplit : cs.takeWhile accept ++ cs.dropWhile accept =
      cs := List.takeWhile_append_dropWhile
  unfold takeDotted
  dsimp only
  split
  · next c rest hRest =>
      have hTail :
          (c :: rest).takeWhile accept ++
            (c :: rest).dropWhile accept = c :: rest :=
        List.takeWhile_append_dropWhile
      split
      · rw [List.append_assoc, List.cons_append, hTail,
          ← hRest, hSplit]
      · rw [← hRest, hSplit]
  · exact hSplit

/- A run that begins with an accepted character is dotted. -/
theorem takeDotted_isDotted
    {accept : Char → Bool}
    {c : Char}
    (cs : List Char)
    (hFirst : accept c = true) :
    IsDotted accept (takeDotted accept (c :: cs)).1 := by
  have hRun {c : Char} {cs : List Char}
      (hFirst : accept c = true) :
      IsRun accept ((c :: cs).takeWhile accept) := by
    refine ⟨by simp [hFirst], ?_⟩
    intro c' hMem
    exact List.all_eq_true.mp List.all_takeWhile c' hMem
  unfold takeDotted
  dsimp only
  split
  · next c' rest _ =>
      split
      · next hSecond => exact .pair (hRun hFirst) (hRun hSecond)
      · exact .run (hRun hFirst)
  · exact .run (hRun hFirst)

/- What is taken begins as the text does. -/
theorem takeDotted_head
    {accept : Char → Bool}
    {c : Char}
    (cs : List Char)
    (hFirst : accept c = true) :
    (takeDotted accept (c :: cs)).1.head? = some c := by
  rcases (takeDotted_isDotted cs hFirst).head with
    ⟨c', rest, hSame, _⟩
  have hStart := takeDotted_append accept (c :: cs)
  rw [hSame, List.cons_append, List.cons.injEq] at hStart
  rw [hSame, List.head?_cons, hStart.1]

/- A run is taken up to the first character after it. -/
theorem takeWhile_of_isRun
    {accept : Char → Bool}
    {cs rest : List Char}
    (hRun : IsRun accept cs)
    (hStop : ∀ c, rest.head? = some c → accept c = false) :
    (cs ++ rest).takeWhile accept = cs ∧
      (cs ++ rest).dropWhile accept = rest := by
  have hNone :
      rest.takeWhile accept = [] ∧
        rest.dropWhile accept = rest := by
    cases rest with
    | nil => exact ⟨rfl, rfl⟩
    | cons c rest =>
        have hOther := hStop c rfl
        rw [List.takeWhile_cons, List.dropWhile_cons, hOther]
        exact ⟨rfl, rfl⟩
  rw [List.takeWhile_append_of_pos hRun.2,
    List.dropWhile_append_of_pos hRun.2, hNone.1, hNone.2,
    List.append_nil]
  exact ⟨rfl, rfl⟩

/-
  A run with or without a point is taken as a whole, unless
  what follows it goes on with it.
-/
theorem takeDotted_of_isDotted
    {accept : Char → Bool}
    {cs rest : List Char}
    (hPoint : accept '.' = false)
    (hDotted : IsDotted accept cs)
    (hStop : ∀ c, rest.head? = some c →
      accept c = false ∧ c ≠ '.') :
    takeDotted accept (cs ++ rest) = (cs, rest) := by
  have hOther := fun c hHead => (hStop c hHead).1
  rw [takeDotted]
  cases hDotted with
  | run hRun =>
      rcases takeWhile_of_isRun hRun hOther with
        ⟨hTake, hDrop⟩
      simp only [hTake, hDrop]
      split
      · exact absurd rfl (hStop '.' rfl).2
      · rfl
  | @pair cs ds hFirst hSecond =>
      rcases List.exists_cons_of_ne_nil hSecond.1 with
        ⟨c, ds, rfl⟩
      have hHead := hSecond.2 c List.mem_cons_self
      have hBefore :
          ∀ c', ('.' :: (c :: ds ++ rest)).head? = some c' →
            accept c' = false := by
        rintro c' ⟨⟩
        exact hPoint
      rcases takeWhile_of_isRun hFirst hBefore with
        ⟨hTake, hDrop⟩
      rcases takeWhile_of_isRun hSecond hOther with
        ⟨hTake', hDrop'⟩
      rw [List.append_assoc, List.cons_append]
      simp only [hTake, hDrop]
      rw [List.cons_append] at hTake' hDrop' ⊢
      simp only [hHead, if_true, hTake', hDrop']

end BranchingStory

------------------------------------------------------------
-- Tokens
------------------------------------------------------------

namespace BranchingStory

/- The characters that a token is written with. -/
def Token.chars
    (t : Token) : List Char :=
  t.text.toList

/- Whether a token is one that can be written. -/
def Token.IsWritten : Token → Prop
  | .number s => IsDotted isDigit s.toList
  | .quoted s => IsQuotable s.toList
  | .name s =>
      IsDotted isWordChar s.toList ∧
        ∀ c, s.toList.head? = some c → isDigit c = false
  | _ => True

/- A sign is taken as it is written. -/
theorem takeSymbol?_append
    {cs rest : List Char}
    {s : Symbol}
    (hTake : takeSymbol? cs = some (s, rest)) :
    cs = s.text.toList ++ rest := by
  unfold takeSymbol? at hTake
  split at hTake <;> cases hTake <;> rfl

/- The first token of a text is written at its start. -/
theorem nextToken?_spells
    {cs rest : List Char}
    {t : Token}
    (hNext : nextToken? cs = some (t, rest)) :
    cs = t.chars ++ rest ∧ t.IsWritten := by
  unfold nextToken? at hNext
  split at hNext
  · cases hNext
  · rcases Option.map_eq_some_iff.mp hNext with
      ⟨⟨body, rest'⟩, hTake, hPair⟩
    cases hPair
    rcases isQuotable_of_takeQuoted hTake with ⟨hBody, rfl⟩
    constructor
    · simp [Token.chars, Token.text]
    · rw [Token.IsWritten, String.toList_ofList]
      exact hBody
  · cases hNext
    exact ⟨rfl, trivial⟩
  · split at hNext
    · next c cs _ _ hDigit =>
        cases hNext
        rw [Token.chars, Token.text, Token.IsWritten,
          String.toList_ofList]
        exact ⟨(takeDotted_append _ _).symm,
          takeDotted_isDotted cs hDigit⟩
    · split at hNext
      · next c cs _ _ hOther hWord =>
          cases hNext
          rw [Token.chars, Token.text, Token.IsWritten,
            String.toList_ofList]
          have hHead := takeDotted_head cs hWord
          refine ⟨(takeDotted_append _ _).symm,
            takeDotted_isDotted cs hWord, fun c' hSame => ?_⟩
          cases hHead.symm.trans hSame
          exact Bool.not_eq_true _ ▸ hOther
      · rcases Option.map_eq_some_iff.mp hNext with
          ⟨⟨s, rest'⟩, hTake, hPair⟩
        cases hPair
        exact ⟨takeSymbol?_append hTake, trivial⟩

/- How a token begins. -/
theorem Token.chars_head
    {t : Token}
    (hWritten : t.IsWritten) :
    ∃ c cs, t.chars = c :: cs ∧ isBlank c = false ∧
      c ≠ '~' ∧ (c = '&' → t = .symbol .both) := by
  have hWord {accept : Char → Bool} {s : String}
      (hBlank : ∀ c, accept c = true → isBlank c = false)
      (hTilde : accept '~' = false)
      (hAnd : accept '&' = false)
      (hDotted : IsDotted accept s.toList) :
      ∃ c cs, s.toList = c :: cs ∧ isBlank c = false ∧
        c ≠ '~' ∧ c ≠ '&' := by
    rcases hDotted.head with ⟨c, cs, hCons, hAccept⟩
    refine ⟨c, cs, hCons, hBlank c hAccept, ?_, ?_⟩
    · rintro rfl
      rw [hTilde] at hAccept
      cases hAccept
    · rintro rfl
      rw [hAnd] at hAccept
      cases hAccept
  cases t with
  | number s =>
      rcases hWord (fun c => isBlank_of_isDigit) (by decide)
          (by decide) hWritten with
        ⟨c, cs, hCons, hBlank, hTilde, hAnd⟩
      exact ⟨c, cs, hCons, hBlank, hTilde,
        fun hSame => absurd hSame hAnd⟩
  | name s =>
      rcases hWord (fun c => isBlank_of_isWordChar) (by decide)
          (by decide) hWritten.1 with
        ⟨c, cs, hCons, hBlank, hTilde, hAnd⟩
      exact ⟨c, cs, hCons, hBlank, hTilde,
        fun hSame => absurd hSame hAnd⟩
  | quoted s =>
      refine ⟨'"', s.toList ++ ['"'], ?_, by decide, by decide,
        ?_⟩
      · simp [chars, text]
      · intro hSame
        exact absurd hSame (by decide)
  | arrow => exact ⟨'-', ['>'], rfl, by decide⟩
  | symbol s =>
      cases s <;>
        exact ⟨_, _, rfl, by decide⟩

/- A token that can be written has a character. -/
theorem Token.chars_ne_nil
    {t : Token}
    (hWritten : t.IsWritten) :
    t.chars ≠ [] := by
  rcases chars_head hWritten with ⟨c, cs, hCons, _⟩
  rw [hCons]
  exact List.cons_ne_nil c cs

end BranchingStory

------------------------------------------------------------
-- Texts Of Tokens
------------------------------------------------------------

namespace BranchingStory

/-
  Whether a text consists of tokens in this order, with
  nothing but blanks around them.
-/
inductive Spelled : List Token → List Char → Prop where
  | nil {gap : List Char}
      (hGap : ∀ c ∈ gap, isBlank c = true) : Spelled [] gap
  | cons {gap cs : List Char} {t : Token} {ts : List Token}
      (hGap : ∀ c ∈ gap, isBlank c = true)
      (hToken : t.IsWritten) (hRest : Spelled ts cs) :
      Spelled (t :: ts) (gap ++ (t.chars ++ cs))

/- A text is made of its tokens. -/
theorem spelled_of_tokens
    {cs : List Char}
    {ts : List Token}
    (hTokens : tokens cs = .ok ts) :
    Spelled ts cs := by
  have hWithin :
      ∀ n cs ts, cs.length ≤ n →
        tokensWithin n cs = .ok ts → Spelled ts cs := by
    intro n
    induction n with
    | zero =>
        intro cs ts hLength hTokens
        cases hTokens
        rw [List.length_eq_zero_iff.mp (Nat.le_zero.mp hLength)]
        exact .nil (by simp)
    | succ n ih =>
        intro cs ts hLength hTokens
        have hSplit :
            cs.takeWhile isBlank ++ trimStart cs = cs :=
          List.takeWhile_append_dropWhile
        have hGap : ∀ c ∈ cs.takeWhile isBlank,
            isBlank c = true :=
          fun c hMem =>
            List.all_eq_true.mp List.all_takeWhile c hMem
        rw [tokensWithin] at hTokens
        split at hTokens
        · next hEnd =>
            cases hTokens
            rw [hEnd, List.append_nil] at hSplit
            rw [← hSplit]
            exact .nil hGap
        · next c cs' hFirst =>
            split at hTokens
            · cases hTokens
            · next t rest hNext =>
                rcases except_bind_ok.mp hTokens with
                  ⟨ts', hRest, hPair⟩
                cases hPair
                rcases nextToken?_spells hNext with
                  ⟨hSpells, hWritten⟩
                have hSome :=
                  List.length_pos_iff.mpr
                    (Token.chars_ne_nil hWritten)
                rw [hFirst, hSpells] at hSplit
                have hSum := congrArg List.length hSplit
                simp only [List.length_append] at hSum
                rw [← hSplit]
                exact .cons hGap hWritten
                  (ih rest ts' (by omega) hRest)
  exact hWithin cs.length cs ts (Nat.le_refl _) hTokens

end BranchingStory

------------------------------------------------------------
-- Texts That Are Split
------------------------------------------------------------

namespace BranchingStory

/- All tokens of a text can be written. -/
theorem Spelled.isWritten
    {cs : List Char}
    {ts : List Token}
    (hSpelled : Spelled ts cs) :
    ∀ t ∈ ts, t.IsWritten := by
  induction hSpelled with
  | nil hGap =>
      intro t hMem
      cases hMem
  | cons hGap hToken _ ih =>
      rw [List.forall_mem_cons]
      exact ⟨hToken, ih⟩

/- A bound on the number of tokens that is large enough. -/
theorem tokensWithin_of_length_le
    {n : Nat}
    {cs : List Char}
    (hLength : cs.length ≤ n) :
    tokensWithin n cs = tokens cs := by
  have hSame :
      ∀ n m cs, cs.length ≤ n → cs.length ≤ m →
        tokensWithin n cs = tokensWithin m cs := by
    intro n
    induction n with
    | zero =>
        intro m cs hN hM
        cases List.length_eq_zero_iff.mp (Nat.le_zero.mp hN)
        cases m <;> rfl
    | succ n ih =>
        intro m cs hN hM
        cases m with
        | zero =>
            cases List.length_eq_zero_iff.mp
              (Nat.le_zero.mp hM)
            rfl
        | succ m =>
            have hTrim : (trimStart cs).length ≤ cs.length :=
              List.length_dropWhile_le isBlank cs
            rw [tokensWithin, tokensWithin]
            split
            · rfl
            · next c rest hFirst =>
                split
                · rfl
                · next t rest' hNext =>
                    rcases nextToken?_spells hNext with
                      ⟨hSpells, hWritten⟩
                    have hSome :=
                      List.length_pos_iff.mpr
                        (Token.chars_ne_nil hWritten)
                    rw [hFirst, hSpells, List.length_append]
                      at hTrim
                    rw [ih m rest' (by omega) (by omega)]
  exact hSame n cs.length cs hLength (Nat.le_refl _)

/- A text is split from its first token on. -/
theorem tokens_of_nextToken?
    {c : Char}
    {cs rest : List Char}
    {t : Token}
    (hSolid : isBlank c = false)
    (hNext : nextToken? (c :: cs) = some (t, rest)) :
    tokens (c :: cs) = (tokens rest).map (t :: ·) := by
  have hTrim : trimStart (c :: cs) = c :: cs := by
    rw [trimStart, List.dropWhile_cons, hSolid]
    rfl
  rcases nextToken?_spells hNext with ⟨hSpells, hWritten⟩
  have hLength := congrArg List.length hSpells
  have hSome :=
    List.length_pos_iff.mpr (Token.chars_ne_nil hWritten)
  rw [List.length_cons, List.length_append] at hLength
  rw [tokens, List.length_cons, tokensWithin, hTrim]
  simp only [hNext]
  rw [tokensWithin_of_length_le (by omega)]
  cases tokens rest <;> rfl

/- A blank in front of a text makes no token. -/
theorem tokens_space
    (cs : List Char) :
    tokens (' ' :: cs) = tokens cs := by
  rw [tokens, List.length_cons, tokensWithin,
    ← tokensWithin_of_length_le (Nat.le_succ cs.length),
    tokensWithin]
  rfl

/-
  Whether a text ends the token before it: a blank or a
  parenthesis that closes, or nothing at all, comes first.
-/
def EndsToken
    (rest : List Char) : Prop :=
  ∀ c, rest.head? = some c → c = ' ' ∨ c = ')'

/- A token is taken as it is written if what follows ends it. -/
theorem nextToken?_of_isWritten
    {t : Token}
    {rest : List Char}
    (hWritten : t.IsWritten)
    (hEnds : EndsToken rest) :
    nextToken? (t.chars ++ rest) = some (t, rest) := by
  have hStop {accept : Char → Bool}
      (hBlank : accept ' ' = false)
      (hParen : accept ')' = false) (c : Char)
      (hHead : rest.head? = some c) :
      accept c = false ∧ c ≠ '.' := by
    rcases hEnds c hHead with rfl | rfl
    · exact ⟨hBlank, by decide⟩
    · exact ⟨hParen, by decide⟩
  cases t with
  | number s =>
      have hTake :=
        takeDotted_of_isDotted (by decide) hWritten
          (hStop (by decide) (by decide))
      rcases IsDotted.head hWritten with
        ⟨c, cs, hCons, hDigit⟩
      rw [hCons, List.cons_append] at hTake
      rw [Token.chars, Token.text, hCons, List.cons_append,
        nextToken?, if_pos hDigit, hTake, ← hCons]
      · dsimp only
        rw [String.ofList_toList]
      · rintro rfl
        exact absurd hDigit (by decide)
      · rintro rest' rfl _
        exact absurd hDigit (by decide)
  | quoted s =>
      rw [Token.chars, Token.text, String.toList_append,
        String.toList_append, List.append_assoc,
        List.append_assoc]
      change (takeQuoted (s.toList ++ '"' :: rest)).map _ = _
      rw [takeQuoted_of_isQuotable hWritten]
      simp
  | arrow => rfl
  | name s =>
      have hTake :=
        takeDotted_of_isDotted (by decide) hWritten.1
          (hStop (by decide) (by decide))
      rcases IsDotted.head hWritten.1 with
        ⟨c, cs, hCons, hWord⟩
      have hOther := hWritten.2 c (by rw [hCons]; rfl)
      rw [← Bool.not_eq_true] at hOther
      rw [hCons, List.cons_append] at hTake
      rw [Token.chars, Token.text, hCons, List.cons_append,
        nextToken?, if_neg hOther, if_pos hWord, hTake,
        ← hCons]
      · dsimp only
        rw [String.ofList_toList]
      · rintro rfl
        exact absurd hWord (by decide)
      · rintro rest' rfl _
        exact absurd hWord (by decide)
  | symbol s =>
      cases rest with
      | nil => cases s <;> rfl
      | cons c rest =>
          rcases hEnds c rfl with rfl | rfl <;> cases s <;> rfl

/-
  Whether a text is split into tokens, whatever comes after
  it, as long as that ends the last of them.
-/
def Lexes
    (cs : List Char)
    (ts : List Token) : Prop :=
  ∀ rest, EndsToken rest →
    tokens (cs ++ rest) = (tokens rest).map (ts ++ ·)

namespace Lexes

variable {cs ds : List Char}
variable {ts us : List Token}

/- A token is split off as it is written. -/
theorem token
    {t : Token}
    (hWritten : t.IsWritten) :
    Lexes t.chars [t] := by
  intro rest hEnds
  have hNext := nextToken?_of_isWritten hWritten hEnds
  rcases Token.chars_head hWritten with
    ⟨c, cs, hCons, hSolid, _⟩
  rw [hCons, List.cons_append] at hNext ⊢
  exact tokens_of_nextToken? hSolid hNext

/- What is joined by a blank is split one after the other. -/
theorem spaced
    (hFirst : Lexes cs ts)
    (hSecond : Lexes ds us) :
    Lexes (cs ++ ' ' :: ds) (ts ++ us) := by
  intro rest hEnds
  have hBlank : EndsToken (' ' :: (ds ++ rest)) := by
    rintro c ⟨⟩
    exact Or.inl rfl
  rw [List.append_assoc, List.cons_append,
    hFirst _ hBlank, tokens_space, hSecond rest hEnds]
  cases tokens rest with
  | error f => rfl
  | ok vs => simp [Except.map]

/- Nothing has to stand around parentheses. -/
theorem parens
    (hInner : Lexes cs ts) :
    Lexes ('(' :: (cs ++ [')']))
      (.symbol .openParen ::
        (ts ++ [.symbol .closeParen])) := by
  intro rest _
  have hClose : EndsToken (')' :: rest) := by
    rintro c ⟨⟩
    exact Or.inr rfl
  rw [List.cons_append, List.append_assoc,
    tokens_of_nextToken? (by decide) rfl,
    List.singleton_append, hInner _ hClose,
    tokens_of_nextToken? (by decide) rfl]
  cases tokens rest with
  | error f => rfl
  | ok vs => simp [Except.map]

/- An arrow needs no blank after it. -/
theorem arrow
    (hTarget : Lexes cs ts) :
    Lexes ('-' :: '>' :: cs) (.arrow :: ts) := by
  intro rest hEnds
  rw [List.cons_append, List.cons_append,
    tokens_of_nextToken? (by decide) rfl, hTarget rest hEnds]
  cases tokens rest <;> rfl

/- The tokens of a text that nothing follows. -/
theorem tokens_eq
    (hLexes : Lexes cs ts) :
    tokens cs = .ok ts := by
  have hAlone := hLexes [] (by rintro c ⟨⟩)
  rw [List.append_nil] at hAlone
  rw [hAlone]
  change Except.ok (ts ++ []) = _
  rw [List.append_nil]

end Lexes

end BranchingStory
