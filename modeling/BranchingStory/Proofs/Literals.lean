import BranchingStory.Proofs.NumberTexts
import BranchingStory.Proofs.NumericFaults
import BranchingStory.Proofs.Printing

/-
  This file compares declared values with expressions.  A text
  that is read as both has the same value both ways, with one
  exception: a text that goes on after the quoted text that it
  begins with is declared as one quoted text, up to its last
  quote, but read as an operation on several quoted texts.

  Key definitions include:
    * `Token.size`
    * `Memory.blank`
    * `goesOnAfterQuote`

  Key theorems include:
    * `ofText_of_boolOfWord?`
    * `Spelled.sum_size_le`
    * `eval_binary_string`
    * `Phrase.length_eval_le`
    * `readLiteral_ok`
    * `quoted_literals_agree_iff`
    * `literals_agree_iff`
-/

------------------------------------------------------------
-- Truth Values
------------------------------------------------------------

namespace BranchingStory

/- A character and its lower case are letters of a word. -/
theorem letter_of_toLower
    {c w : Char}
    (hLower : c.toLower = w)
    (hLetter : w.isLower = true) :
    isWordChar c = true ∧ isDigit c = false := by
  have hCode :
      c.toNat ∈ List.range' 65 26 ++ List.range' 97 26 := by
    rw [← hLower, Char.isLower, Bool.and_eq_true,
      decide_eq_true_eq, decide_eq_true_eq, Char.toLower]
      at hLetter
    rw [List.mem_append, List.mem_range'_1, List.mem_range'_1]
    split at hLetter
    · next hUpper =>
        rcases hUpper with ⟨hLow, hHigh⟩
        change 65 ≤ c.toNat at hLow
        change c.toNat ≤ 90 at hHigh
        omega
    · rcases hLetter with ⟨hLow, hHigh⟩
      change 97 ≤ c.toNat at hLow
      change c.toNat ≤ 122 at hHigh
      omega
  have hAll :
      ∀ n ∈ List.range' 65 26 ++ List.range' 97 26,
        isWordChar (Char.ofNat n) = true ∧
          isDigit (Char.ofNat n) = false := by
    decide +kernel
  have hLetter := hAll c.toNat hCode
  rwa [Char.ofNat_toNat] at hLetter

/- A word of letters in any case is a name. -/
theorem isWritten_of_lowerWord
    {s : String}
    {word : String}
    (hLower : lowerWord s = word)
    (hSome : word.toList ≠ [])
    (hLetters : word.toList.all Char.isLower = true) :
    (Token.name s).IsWritten := by
  have hMap : s.toList.map Char.toLower = word.toList := by
    rw [← hLower, lowerWord, String.toList_ofList]
  have hEach (c : Char) (hMem : c ∈ s.toList) :
      isWordChar c = true ∧ isDigit c = false := by
    apply letter_of_toLower rfl
    apply List.all_eq_true.mp hLetters
    rw [← hMap]
    exact List.mem_map_of_mem hMem
  have hSome : s.toList ≠ [] := by
    intro hNil
    rw [hNil] at hMap
    exact hSome hMap.symm
  exact ⟨.run ⟨hSome, fun c hMem => (hEach c hMem).1⟩,
    fun c hHead => (hEach c (List.mem_of_head? hHead)).2⟩

/- A word for a truth value is a name, in any letter case. -/
theorem boolOfWord?_ok
    {s : String}
    {b : Bool}
    (hWord : boolOfWord? s = some b) :
    lowerWord s = Value.boolText b ∧
      (Token.name s).IsWritten := by
  have hLower : lowerWord s = Value.boolText b := by
    rw [boolOfWord?] at hWord
    split at hWord
    · next hTrue =>
        cases hWord
        exact hTrue
    · split at hWord
      · next hFalse =>
          cases hWord
          exact hFalse
      · cases hWord
  exact ⟨hLower, isWritten_of_lowerWord hLower
    (by cases b <;> decide) (by cases b <;> decide)⟩

/- A word for a truth value is read as this value. -/
theorem ofText_of_boolOfWord?
    {line : Nat}
    {s : String}
    {b : Bool}
    (hWord : boolOfWord? s = some b) :
    Expr.ofText line s.toList = .ok (.literal (.bool b)) := by
  rcases boolOfWord?_ok hWord with ⟨hLower, hWritten⟩
  have hTruth : isTruth s = true := by
    rw [isTruth, hLower]
    cases b <;> decide
  have hTokens : tokens s.toList = .ok [.name s] :=
    (Lexes.token hWritten).tokens_eq
  have hValue : decide (lowerWord s = "true") = b := by
    rw [hLower]
    cases b <;> decide
  have hRead :=
    ofTokens_of_phrase line
      ((Phrase.truth s hTruth).atLevel .or)
  change Expr.ofTokens line [.name s] =
    .ok (.literal (.bool (decide (lowerWord s = "true"))))
    at hRead
  rw [ofText_of_tokens hTokens, hRead, hValue]

end BranchingStory

------------------------------------------------------------
-- Sizes Of Quoted Texts
------------------------------------------------------------

namespace BranchingStory

variable {cs : List Char}
variable {ts : List Token}

/- A character that is no backslash stands for itself. -/
theorem unescape_cons
    {c : Char}
    (hEscape : c ≠ '\\')
    (cs : List Char) :
    unescape (c :: cs) = c :: unescape cs := by
  rw [unescape]
  rintro d rest rfl
  exact absurd rfl hEscape

/- What can stand between quotes is unescaped by itself. -/
theorem unescape_append
    {body : List Char}
    (hBody : IsQuotable body)
    (rest : List Char) :
    unescape (body ++ rest) = unescape body ++ unescape rest := by
  induction hBody with
  | nil => rfl
  | @cons c cs hQuote hEscape _ ih =>
      rw [List.cons_append, unescape_cons hEscape, ih,
        unescape_cons hEscape, List.cons_append]
  | @escaped c cs hBreak _ ih =>
      rw [List.cons_append, List.cons_append, unescape,
        unescape, if_neg hBreak, if_neg hBreak, ih,
        List.cons_append]

/- A text without backslashes stands for itself. -/
theorem unescape_append_of_notMem
    (hEscape : '\\' ∉ cs)
    (rest : List Char) :
    unescape (cs ++ rest) = cs ++ unescape rest := by
  induction cs with
  | nil => rfl
  | cons c cs ih =>
      rw [List.mem_cons, not_or] at hEscape
      rw [List.cons_append, unescape_cons (Ne.symm hEscape.1),
        ih hEscape.2, List.cons_append]

/- One more character adds at most one to the unescaped text. -/
theorem length_unescape_concat_le
    (cs : List Char)
    (c : Char) :
    (unescape (cs ++ [c])).length ≤
      (unescape cs).length + 1 := by
  fun_induction unescape cs with
  | case1 => simp [unescape]
  | case2 rest ih =>
      rw [List.cons_append, List.cons_append, unescape,
        if_pos rfl]
      simpa using ih
  | case3 d rest hBreak ih =>
      rw [List.cons_append, List.cons_append, unescape,
        if_neg hBreak]
      simpa using ih
  | case4 d rest hEscape ih =>
      by_cases hSlash : d = '\\'
      · cases rest with
        | nil =>
            by_cases hBreak : c = '\n' <;>
              simp [unescape, hSlash, hBreak]
        | cons e rest => exact (hEscape e rest hSlash rfl).elim
      · rw [List.cons_append, unescape_cons hSlash]
        simpa using ih

/-
  The size of a token: of a quoted text without its escapes,
  and with its quotes, and otherwise at least one.
-/
def Token.size : Token → Nat
  | .quoted s => (unescape s.toList).length + 2
  | _ => 1

/- A token in front of a text adds at least its size. -/
theorem Token.size_add_le
    {t : Token}
    (hWritten : t.IsWritten)
    (rest : List Char) :
    t.size + (unescape rest).length ≤
      (unescape (t.chars ++ rest)).length := by
  have hPlain (hOther : t.size = 1)
      (hEscape : '\\' ∉ t.chars) :
      t.size + (unescape rest).length ≤
        (unescape (t.chars ++ rest)).length := by
    have hSome :=
      List.length_pos_iff.mpr (chars_ne_nil hWritten)
    rw [unescape_append_of_notMem hEscape, List.length_append,
      hOther]
    omega
  have hDotted {accept : Char → Bool} {s : List Char}
      (hSlash : accept '\\' = false)
      (hDotted : IsDotted accept s) : '\\' ∉ s := by
    intro hMem
    rcases hDotted.accept_or_point _ hMem with hAccept | hPoint
    · rw [hSlash] at hAccept
      cases hAccept
    · exact absurd hPoint (by decide)
  cases t with
  | number s => exact hPlain rfl (hDotted (by decide) hWritten)
  | quoted s =>
      have hChars : (Token.quoted s).chars ++ rest =
          '"' :: (s.toList ++ '"' :: rest) := by
        simp [chars, text]
      rw [hChars, unescape_cons (by decide),
        unescape_append hWritten, unescape_cons (by decide),
        size]
      simp only [List.length_cons, List.length_append]
      omega
  | arrow => exact hPlain rfl (by decide)
  | symbol s => exact hPlain rfl (by cases s <;> decide)
  | name s =>
      exact hPlain rfl (hDotted (by decide +kernel) hWritten.1)

/- A text is no smaller than its tokens are together. -/
theorem Spelled.sum_size_le
    (hSpelled : Spelled ts cs) :
    (ts.map Token.size).sum ≤ (unescape cs).length := by
  induction hSpelled with
  | nil hGap => exact Nat.zero_le _
  | @cons gap cs t ts hGap hWritten _ ih =>
      have hEscape : '\\' ∉ gap := by
        intro hMem
        exact absurd (hGap _ hMem) (by decide)
      have hToken := Token.size_add_le hWritten cs
      rw [unescape_append_of_notMem hEscape, List.map_cons,
        List.sum_cons, List.length_append]
      omega

end BranchingStory

------------------------------------------------------------
-- Operations On Quoted Texts
------------------------------------------------------------

namespace BranchingStory

/- Only to add two texts makes a text. -/
theorem applyBinary_string
    {op : BinaryOp}
    {v w : Value}
    {s : String}
    (hApply : applyBinary op v w = .ok (.string s)) :
    ∃ s₁ s₂, v = .string s₁ ∧ w = .string s₂ ∧
      s = s₁ ++ s₂ := by
  unfold applyBinary at hApply
  split at hApply
  · rcases except_map_ok.mp hApply with ⟨b, _, hBool⟩
    cases hBool
  · rcases except_map_ok.mp hApply with ⟨b, _, hBool⟩
    cases hBool
  · next s₁ s₂ =>
      cases hApply
      exact ⟨s₁, s₂, rfl, rfl, rfl⟩
  · split at hApply
    · split at hApply
      · cases hApply
      · unfold arithmetic at hApply
        split at hApply
        · rcases except_map_ok.mp hApply with ⟨n, _, hInt⟩
          cases hInt
        · rcases except_bind_ok.mp hApply with ⟨x, _, hApply⟩
          rcases except_bind_ok.mp hApply with ⟨y, _, hApply⟩
          rcases except_bind_ok.mp hApply with ⟨z, _, hFloat⟩
          cases hFloat
    · cases hApply

/- A text is made of two texts by an operation, if at all. -/
theorem eval_binary_string
    {m : Memory}
    {op : BinaryOp}
    {e f : Expr}
    {s : String}
    (hEval : (Expr.binary op e f).eval m = .ok (.string s)) :
    ∃ s₁ s₂, e.eval m = .ok (.string s₁) ∧
      f.eval m = .ok (.string s₂) ∧ s = s₁ ++ s₂ := by
  cases hLogical : op.isLogical with
  | false =>
      rw [Expr.eval_binary hLogical] at hEval
      rcases except_bind_ok.mp hEval with ⟨v, hLeft, hEval⟩
      rcases except_bind_ok.mp hEval with ⟨w, hRight, hApply⟩
      rcases applyBinary_string hApply with
        ⟨s₁, s₂, rfl, rfl, hText⟩
      exact ⟨s₁, s₂, hLeft, hRight, hText⟩
  | true =>
      rw [Expr.eval_binary_eq] at hEval
      rcases except_bind_ok.mp hEval with ⟨v, _, hEval⟩
      split at hEval
      · rcases except_bind_ok.mp hEval with ⟨w, _, hSettle⟩
        rw [Expr.settle, hLogical] at hSettle
        cases hSettle
      · cases hEval

/- The memory of a story without variables. -/
def Memory.blank : Memory :=
  ⟨.empty, .empty⟩

/-
  What a text takes that is made of two texts, given what each
  of them takes: the token between them counts as one.
-/
theorem length_joined_le
    {m : Memory}
    {l : Level}
    {op : BinaryOp}
    {e f : Expr}
    {t : Token}
    {ts us : List Token}
    {s : String}
    (hJoins : Joins l t op)
    (hEval : (Expr.binary op e f).eval m = .ok (.string s))
    (hLeft : ∀ {s}, e.eval m = .ok (.string s) →
      s.toList.length + ts.length + 1 ≤
        (ts.map Token.size).sum)
    (hRight : ∀ {s}, f.eval m = .ok (.string s) →
      s.toList.length + us.length + 1 ≤
        (us.map Token.size).sum) :
    s.toList.length + (ts ++ t :: us).length + 1 ≤
      ((ts ++ t :: us).map Token.size).sum := by
  rcases eval_binary_string hEval with
    ⟨s₁, s₂, hFirst, hSecond, rfl⟩
  have hFirst := hLeft hFirst
  have hSecond := hRight hSecond
  have hSize : t.size = 1 := by
    cases hJoins <;> rfl
  simp only [String.toList_append, List.length_append,
    List.length_cons, List.map_append, List.map_cons,
    List.sum_append, List.sum_cons, hSize]
  omega

/-
  A text that a phrase makes without any variable is no longer
  than the quoted texts of the phrase: what else the phrase has
  only adds to its size.
-/
theorem Phrase.length_eval_le
    {line : Nat}
    {l : Level}
    (p : Phrase l)
    {s : String}
    (hEval :
      (p.expr line).eval Memory.blank = .ok (.string s)) :
    s.toList.length + p.tokens.length + 1 ≤
      (p.tokens.map Token.size).sum := by
  induction p generalizing s with
  | lone hWeak p ih => exact ih hEval
  | join hChain t op hJoins left right ihLeft ihRight =>
      exact length_joined_le hJoins hEval ihLeft ihRight
  | compare t op hJoins left right ihLeft ihRight =>
      exact length_joined_le hJoins hEval ihLeft ihRight
  | not t hNegates p _ =>
      rcases except_bind_ok.mp hEval with ⟨v, _, hBool⟩
      cases hBool
  | negate p _ =>
      rcases except_bind_ok.mp hEval with ⟨v, _, hNegate⟩
      cases v <;> cases hNegate
  | number s =>
      rw [expr, Expr.eval, numeralValue] at hEval
      split at hEval <;> cases hEval
  | quoted s =>
      cases hEval
      simp [Token.size]
  | truth s hTruth => cases hEval
  | target s => cases hEval
  | name s hName => cases hEval
  | parens p ih =>
      have hInner := ih hEval
      simp only [tokens, List.length_cons, List.length_append,
        List.length_nil, List.map_cons, List.map_append,
        List.map_nil, List.sum_cons, List.sum_append,
        List.sum_nil, Token.size]
      omega

end BranchingStory

------------------------------------------------------------
-- Declared Values And Expressions
------------------------------------------------------------

namespace BranchingStory

/-
  Whether a text begins with a quoted text and goes on after
  the quote that ends it.
-/
def goesOnAfterQuote : List Char → Bool
  | '"' :: cs =>
      match takeQuoted cs with
      | some (_, rest) => !rest.isEmpty
      | none => false
  | _ => false

/- What begins without a quote goes on after none. -/
theorem goesOnAfterQuote_of_head
    {cs : List Char}
    (hHead : cs.head? ≠ some '"') :
    goesOnAfterQuote cs = false := by
  unfold goesOnAfterQuote
  split
  · exact absurd rfl hHead
  · rfl

variable {line : Nat}
variable {t : String}
variable {v : Value}

/- A quoted text is declared from its first quote to its last. -/
theorem readQuoted_ok
    {cs : List Char}
    (hRead : readQuoted ('"' :: cs) = .ok v) :
    ∃ inner, cs = inner ++ ['"'] ∧
      v = .string (String.ofList (unescape inner)) := by
  unfold readQuoted at hRead
  split at hRead
  · next c rest hReverse =>
      cases hRead
      have hWhole := congrArg List.reverse hReverse
      rw [List.reverse_reverse, List.reverse_cons] at hWhole
      generalize hBody : (c :: rest).reverse = body at hWhole ⊢
      rcases body with _ | ⟨d, inner⟩
      · simp at hBody
      · rw [List.cons_append, List.cons.injEq] at hWhole
        exact ⟨inner, hWhole.2, rfl⟩
  · cases hRead

/- What a text is declared as, unless it begins as a target. -/
theorem readLiteral_ok
    (hArrow : ¬ ['-', '>'] <+: t.toList)
    (hRead : readLiteral t = .ok v) :
    (∃ b, boolOfWord? t = some b ∧ v = .bool b) ∨
      (∃ inner, t.toList = '"' :: (inner ++ ['"']) ∧
        v = .string (String.ofList (unescape inner))) ∨
      (t.toList.head? ≠ some '"' ∧
        numberOfText? t.toList = some v) := by
  unfold readLiteral at hRead
  split at hRead
  · next _ b hWord =>
      cases hRead
      exact Or.inl ⟨b, hWord, rfl⟩
  · next rest _ hText =>
      rcases readQuoted_ok hRead with ⟨inner, rfl, hValue⟩
      exact Or.inr (Or.inl ⟨inner, hText, hValue⟩)
  · next rest _ hText =>
      refine absurd ?_ hArrow
      rw [hText]
      exact ⟨rest, rfl⟩
  · next _ hQuote _ =>
      split at hRead
      · next w hNumber =>
          cases hRead
          refine Or.inr (Or.inr ⟨fun hHead => ?_, hNumber⟩)
          rcases List.head?_eq_some_iff.mp hHead with
            ⟨rest, hText⟩
          exact hQuote rest hText
      · cases hRead

/- A text that begins with a quote begins with quoted text. -/
theorem tokens_quoted
    {cs : List Char}
    {ts : List Token}
    (hTokens : tokens ('"' :: cs) = .ok ts) :
    ∃ body rest ts', takeQuoted cs = some (body, rest) ∧
      tokens rest = .ok ts' ∧
      ts = .quoted (String.ofList body) :: ts' := by
  cases hTake : takeQuoted cs with
  | none =>
      have hNext : nextToken? ('"' :: cs) = none := by
        rw [nextToken?, hTake]
        rfl
      have hTrim : trimStart ('"' :: cs) = '"' :: cs := rfl
      rw [tokens, List.length_cons, tokensWithin, hTrim]
        at hTokens
      simp only [hNext] at hTokens
      cases hTokens
  | some p =>
      rcases p with ⟨body, rest⟩
      have hNext :
          nextToken? ('"' :: cs) =
            some (.quoted (String.ofList body), rest) := by
        rw [nextToken?, hTake]
        rfl
      rw [tokens_of_nextToken? (by decide) hNext] at hTokens
      rcases except_map_ok.mp hTokens with ⟨ts', hRest, hAll⟩
      exact ⟨body, rest, ts', rfl, hRest, hAll.symm⟩

/-
  What an operation makes of quoted texts is shorter than the
  text from the first quote to the last.
-/
theorem length_eval_lt
    {inner : List Char}
    {s : String}
    {p : Phrase .or}
    (hSpelled : Spelled p.tokens ('"' :: (inner ++ ['"'])))
    (hMore : 1 < p.tokens.length)
    (hEval :
      (p.expr line).eval Memory.blank = .ok (.string s)) :
    s.toList.length < (unescape inner).length := by
  have hSize := hSpelled.sum_size_le
  have hLast := length_unescape_concat_le inner '"'
  have hParts := p.length_eval_le hEval
  rw [unescape_cons (by decide), List.length_cons] at hSize
  omega

/-
  A text in quotes is declared as it is read if and only if its
  first quote is ended by the last one.
-/
theorem quoted_literals_agree_iff
    {inner : List Char}
    {e : Expr}
    (hText : t.toList = '"' :: (inner ++ ['"']))
    (hExpr : Expr.ofText line t.toList = .ok e) :
    (∀ m, e.eval m =
      .ok (.string (String.ofList (unescape inner)))) ↔
      goesOnAfterQuote t.toList = false := by
  rcases except_bind_ok.mp hExpr with ⟨ts, hTokens, hOf⟩
  have hSpelled := spelled_of_tokens hTokens
  rcases phrase_of_ofTokens hSpelled.isWritten hOf with
    ⟨p, rfl, rfl, _⟩
  rw [hText] at hTokens hSpelled ⊢
  rcases tokens_quoted hTokens with
    ⟨body, rest, ts, hTake, hRest, hAll⟩
  rw [goesOnAfterQuote, hTake]
  dsimp only
  rw [Bool.not_eq_false', List.isEmpty_iff]
  have hWhole := (isQuotable_of_takeQuoted hTake).2
  constructor
  · intro hEval
    by_contra hMore
    -- The last quote is one of a further token.
    have hSome : ts ≠ [] := by
      rintro rfl
      cases spelled_of_tokens hRest with
      | nil hGap =>
          have hEnd := congrArg List.getLast? hWhole
          rw [List.getLast?_concat, List.getLast?_append_cons,
            List.getLast?_cons_of_ne_nil hMore] at hEnd
          have hBlank :=
            hGap '"' (List.mem_of_getLast? hEnd.symm)
          exact absurd hBlank (by decide)
    have hLess :=
      length_eval_lt hSpelled (by
        rw [hAll, List.length_cons]
        have hPos := List.length_pos_iff.mpr hSome
        omega) (hEval Memory.blank)
    rw [String.toList_ofList] at hLess
    exact Nat.lt_irrefl _ hLess
  · rintro rfl m
    cases hRest
    have hInner : inner = body := List.append_cancel_right hWhole
    have hSame : p = (Phrase.quoted (String.ofList body)).atLevel
        .or := by
      apply Phrase.tokens_injective
      rw [hAll, Phrase.tokens_atLevel, Phrase.tokens]
    rw [hSame, Phrase.expr_atLevel, Phrase.expr, Expr.eval,
      String.toList_ofList, hInner]

/-
  A text that is both declared and read as an expression, and
  is no divert target, has the same value both ways, in every
  state, if and only if it does not go on after a quoted text
  that it begins with.
-/
theorem literals_agree_iff
    {e : Expr}
    (hArrow : ¬ ['-', '>'] <+: t.toList)
    (hLiteral : readLiteral t = .ok v)
    (hExpr : Expr.ofText line t.toList = .ok e) :
    (∀ m, e.eval m = .ok v) ↔
      goesOnAfterQuote t.toList = false := by
  rcases readLiteral_ok hArrow hLiteral with
    ⟨b, hWord, rfl⟩ | ⟨inner, hText, rfl⟩ | ⟨hHead, hNumber⟩
  · rw [ofText_of_boolOfWord? hWord] at hExpr
    cases hExpr
    have hHead : t.toList.head? ≠ some '"' := by
      intro hHead
      rcases (boolOfWord?_ok hWord).2.1.head with
        ⟨c, rest, hCons, hLetter⟩
      rw [hCons] at hHead
      cases hHead
      exact absurd hLetter (by decide)
    exact iff_of_true (fun m => rfl)
      (goesOnAfterQuote_of_head hHead)
  · exact quoted_literals_agree_iff hText hExpr
  · refine iff_of_true (fun m => ?_)
      (goesOnAfterQuote_of_head hHead)
    rcases except_bind_ok.mp hExpr with ⟨ts, hTokens, hOf⟩
    have hSpelled := spelled_of_tokens hTokens
    rcases phrase_of_ofTokens hSpelled.isWritten hOf with
      ⟨p, rfl, rfl, _⟩
    rcases numbers_agree hSpelled hNumber with
      hLiteral | ⟨w, hNegation, hValue⟩
    · rw [hLiteral]
      rfl
    · rw [hNegation, Expr.eval, Expr.eval]
      exact hValue

/- A number with a sign, between blanks. -/
theorem literals_agree_iff_signed :
    readLiteral " -12 " = .ok (.int (-12)) ∧
      ∃ e, Expr.ofText 1 " -12 ".toList = .ok e ∧
        ∀ m, e.eval m = .ok (.int (-12)) := by
  have hArrow : ¬ ['-', '>'] <+: " -12 ".toList := by decide
  have hLiteral : readLiteral " -12 " = .ok (.int (-12)) := by
    decide +kernel
  have hExpr :
      Expr.ofText 1 " -12 ".toList =
        .ok (.unary .negate (.literal (.int 12))) := by
    decide +kernel
  exact ⟨hLiteral, _, hExpr,
    (literals_agree_iff hArrow hLiteral hExpr).mpr
      (by decide)⟩

/-
  A sum of quoted texts: declared it is one text with quotes
  inside, and read as an expression it is the two texts joined.
-/
theorem quoted_sums_disagree :
    readLiteral "\"a\" + \"b\"" =
        .ok (.string "a\" + \"b") ∧
      ∃ e, Expr.ofText 1 "\"a\" + \"b\"".toList = .ok e ∧
        ∀ m, e.eval m = .ok (.string "ab") := by
  refine ⟨by decide +kernel, .binary .add
    (.literal (.string "a")) (.literal (.string "b")), ?_,
    fun m => rfl⟩
  decide +kernel

end BranchingStory
