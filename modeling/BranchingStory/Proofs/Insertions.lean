import BranchingStory.Proofs.Derivations
import BranchingStory.Proofs.Drafts
import BranchingStory.Proofs.Scanning
import BranchingStory.Markup.Fragments

/-
  This file shows which expressions can be inserted in text:
  between braces an expression is read as such if and only if
  the sign for "or" does not stand outside its parentheses.
  Then its bars separate the items of an alternative.

  Key theorems include:
    * `Phrase.totalShift_tokens`
    * `marks_of_phrase`
    * `readBraced_of_ofText`
    * `readFragments_insertion_iff`
-/

------------------------------------------------------------
-- Texts Of Phrases
------------------------------------------------------------

namespace BranchingStory

/- What joins operands is no parenthesis. -/
theorem Joins.shift
    {l : Level}
    {t : Token}
    {op : BinaryOp}
    (hJoins : Joins l t op) :
    t.shift = 0 := by
  cases hJoins <;> rfl

/- What negates is no parenthesis. -/
theorem Negates.shift
    {t : Token}
    (hNegates : Negates t) :
    t.shift = 0 := by
  cases hNegates <;> rfl

/- A phrase closes the parentheses that it opens. -/
theorem Phrase.totalShift_tokens
    {l : Level}
    (p : Phrase l) :
    totalShift p.tokens = 0 := by
  induction p with
  | lone hWeak p ih => exact ih
  | join hChain t op hJoins left right ihLeft ihRight =>
      rw [tokens, totalShift_append, totalShift, hJoins.shift,
        ihLeft, ihRight]
      rfl
  | compare t op hJoins left right ihLeft ihRight =>
      rw [tokens, totalShift_append, totalShift, hJoins.shift,
        ihLeft, ihRight]
      rfl
  | not t hNegates p ih =>
      rw [tokens, totalShift, hNegates.shift, ih]
      rfl
  | negate p ih =>
      rw [tokens, totalShift, ih]
      rfl
  | parens p ih =>
      rw [tokens, totalShift, totalShift_append, ih]
      rfl
  | _ => rfl

/- An expression that is read has a phrase for its tokens. -/
theorem phrase_of_ofText
    {line : Nat}
    {cs : List Char}
    {e : Expr}
    (hRead : Expr.ofText line cs = .ok e) :
    ∃ ts, tokens cs = .ok ts ∧
      ∃ p : Phrase .or, p.tokens = ts := by
  rcases except_bind_ok.mp hRead with ⟨ts, hTokens, hOf⟩
  have hWritten := (spelled_of_tokens hTokens).isWritten
  rcases phrase_of_ofTokens hWritten hOf with
    ⟨p, hP, _⟩
  exact ⟨ts, hTokens, p, hP⟩

/- A text of tokens begins with its first token. -/
theorem Spelled.dropWhile_isBlank
    {t : Token}
    {ts : List Token}
    {cs : List Char}
    (hSpelled : Spelled (t :: ts) cs) :
    ∃ c rest, cs.dropWhile isBlank = c :: rest ∧
      isBlank c = false ∧ c ≠ '~' ∧
        (c = '&' → t = .symbol .both) := by
  cases hSpelled with
  | @cons gap cs _ _ hGap hToken hRest =>
      rcases Token.chars_head hToken with
        ⟨c, cs', hChars, hSolid, hTilde, hAnd⟩
      refine ⟨c, cs' ++ cs, ?_, hSolid, hTilde, hAnd⟩
      rw [List.dropWhile_append_of_pos hGap, hChars,
        List.cons_append, List.dropWhile_cons, hSolid]
      rfl

end BranchingStory

------------------------------------------------------------
-- Expressions Between Braces
------------------------------------------------------------

namespace BranchingStory

open Reading

variable {line : Nat}
variable {cs : List Char}
variable {ts : List Token}
variable {e : Expr}

/-
  What stands between braces if it is an expression: it is not
  blank, has no colon, and is an alternative if and only if
  the sign for "or" stands outside its parentheses.
-/
theorem marks_of_phrase
    (hTokens : tokens cs = .ok ts)
    (p : Phrase .or)
    (hPhrase : p.tokens = ts) :
    isBlankText cs = false ∧
      (braceLevel cs).cut? ':' = none ∧
      isAlternative (braceLevel cs) = hasBareEither 0 ts := by
  have hSpelled := spelled_of_tokens hTokens
  rcases hSpelled.isMarked 0 [] with
    ⟨ms, hMarks, hChars, hColon, hBar⟩
  rw [List.append_nil, braceLevelFrom, List.append_nil]
    at hMarks
  change braceLevel cs = ms at hMarks
  rw [hMarks]
  rcases p.tokens_head with ⟨t, us, hHead, _⟩
  rw [hPhrase] at hHead
  subst hHead
  rcases hSpelled.dropWhile_isBlank with
    ⟨c, rest, hFirst, hSolid, hTilde, hAnd⟩
  refine ⟨?_, Marked.cut?_eq_none hColon, ?_⟩
  · rw [← Bool.not_eq_true, isBlankText, List.all_eq_true]
    intro hBlank
    rw [List.dropWhile_eq_nil_iff.mpr hBlank] at hFirst
    cases hFirst
  · have hAmpersand : c ≠ '&' := by
      intro hSame
      have hJoins : Joins .and t .and := by
        rw [hAnd hSame]
        exact .both
      have hMinus := p.head_of_joins hPhrase hJoins
      rw [hAnd hSame] at hMinus
      cases hMinus
    have hMark : (c == '&' || c == '~') = false := by
      simp [hAmpersand, hTilde]
    rw [isAlternative, hChars, hFirst]
    simp only [hMark, Bool.or_false]
    rw [Bool.eq_iff_iff, ← hBar, decide_eq_true_eq,
      Nat.pos_iff_ne_zero, ne_eq,
      Marked.countOpen_eq_zero_iff, not_not]

/- A text in braces is one piece. -/
theorem pieces_braces
    (hShielded : Shielded 1 cs 0) :
    pieces ('{' :: (cs ++ ['}'])) = [.braced cs] := by
  rw [pieces, List.length_cons, piecesWithin,
    hShielded.takeBraced?_eq]
  cases (cs ++ ['}']).length <;> rfl

/- A text in braces is read as what the braces hold. -/
theorem readFragments_braces
    (hShielded : Shielded 1 cs 0) :
    readFragments line ('{' :: (cs ++ ['}'])) = (do
      let f ← readBraced line
        (readFragmentsWithin line (cs ++ ['}']).length) cs
      return f.toList) := by
  rw [readFragments, List.length_cons, readFragmentsWithin]
  dsimp only
  rw [pieces_braces hShielded]
  simp [readPieces, textFragment]

/- An alternative is no insertion. -/
theorem readBraced_of_isAlternative
    {content : ContentReader}
    (hSome : isBlankText cs = false)
    (hColon : (braceLevel cs).cut? ':' = none)
    (hBar : isAlternative (braceLevel cs) = true)
    {d d' : Draft}
    {f : Option Fragment}
    (hRead : (readBraced line content cs).run d =
      .ok (f, d')) :
    ∃ mode items number,
      f = some (.alternative mode items number) := by
  rw [readBraced, hSome, hColon, hBar] at hRead
  dsimp only at hRead
  rcases run_bind_ok.mp hRead with ⟨items, d₁, _, hRead⟩
  rcases run_bind_ok.mp hRead with ⟨number, d₂, _, hRead⟩
  rcases run_pure_ok.mp hRead with ⟨rfl, _⟩
  exact ⟨_, _, _, rfl⟩

/- An expression without a bare bar is an insertion. -/
theorem readBraced_of_ofText
    {content : ContentReader}
    (hSome : isBlankText cs = false)
    (hColon : (braceLevel cs).cut? ':' = none)
    (hBar : isAlternative (braceLevel cs) = false)
    (hRead : Expr.ofText line cs = .ok e) :
    readBraced line content cs =
      return some (.insertion e) := by
  rw [readBraced, hSome, hColon, hBar]
  simp [readExpr?, hRead]

/-
  An expression that stands between braces is read as an
  insertion of it, with nothing else and without an issue, if
  and only if the sign for "or" does not stand outside the
  parentheses of the expression.  With such a sign the braces
  are read as an alternative.
-/
theorem readFragments_insertion_iff
    (hRead : Expr.ofText line cs = .ok e) :
    ∃ ts, tokens cs = .ok ts ∧ ∀ d,
      ((readFragments line ('{' :: (cs ++ ['}']))).run d =
          .ok ([.insertion e], d) ↔
        hasBareEither 0 ts = false) ∧
      (hasBareEither 0 ts = true → ∀ fs d',
        (readFragments line ('{' :: (cs ++ ['}']))).run d =
            .ok (fs, d') →
          ∃ mode items number,
            fs = [.alternative mode items number]) := by
  rcases phrase_of_ofText hRead with ⟨ts, hTokens, p, hPhrase⟩
  refine ⟨ts, hTokens, ?_⟩
  intro d
  have hShielded := (spelled_of_tokens hTokens).shielded
  rw [← hPhrase, p.totalShift_tokens] at hShielded
  rcases marks_of_phrase hTokens p hPhrase with
    ⟨hSome, hColon, hBar⟩
  have hAlternative (hBare : hasBareEither 0 ts = true)
      (fs : List Fragment) (d' : Draft)
      (hRun :
        (readFragments line ('{' :: (cs ++ ['}']))).run d =
          .ok (fs, d')) :
      ∃ mode items number,
        fs = [.alternative mode items number] := by
    rw [readFragments_braces hShielded] at hRun
    rcases run_bind_ok.mp hRun with ⟨f, d₁, hInner, hRun⟩
    rcases run_pure_ok.mp hRun with ⟨rfl, _⟩
    rw [hBare] at hBar
    rcases
        readBraced_of_isAlternative hSome hColon hBar
          hInner with
      ⟨mode, items, number, rfl⟩
    exact ⟨mode, items, number, rfl⟩
  refine ⟨⟨?_, ?_⟩, hAlternative⟩
  · intro hRun
    by_contra hBare
    rw [Bool.not_eq_false] at hBare
    rcases hAlternative hBare _ _ hRun with
      ⟨mode, items, number, hSame⟩
    cases hSame
  · intro hBare
    rw [hBare] at hBar
    rw [readFragments_braces hShielded,
      readBraced_of_ofText hSome hColon hBar hRead]
    rfl

/-
  Parentheses around the sign for "or" make it an insertion,
  and all other operators need none.
-/
theorem readFragments_insertion_parens :
    ∃ e, Expr.ofText 1 "!a and (b || c)".toList = .ok e ∧
      (readFragments 1 ('{' :: ("!a and (b || c)".toList ++
          ['}']))).run ⟨[], 0⟩ =
        .ok ([.insertion e], ⟨[], 0⟩) := by
  cases hRead : Expr.ofText 1 "!a and (b || c)".toList with
  | error f =>
      have hCheck :
          (Expr.ofText 1 "!a and (b || c)".toList).isOk =
            true := by
        decide +kernel
      rw [hRead] at hCheck
      cases hCheck
  | ok e =>
      rcases readFragments_insertion_iff hRead with
        ⟨ts, hTokens, hAll⟩
      have hBare :
          (match tokens "!a and (b || c)".toList with
            | .ok ts => hasBareEither 0 ts
            | .error _ => true) = false := by
        decide +kernel
      rw [hTokens] at hBare
      exact ⟨e, rfl, (hAll _).1.mpr hBare⟩

/-
  The sign for "or" outside parentheses makes an expression
  that is read alone, but not between braces.
-/
theorem readFragments_refuses_either :
    ∃ e, Expr.ofText 1 "a || b".toList = .ok e ∧
      (readFragments 1 ('{' :: ("a || b".toList ++
          ['}']))).run ⟨[], 0⟩ ≠
        .ok ([.insertion e], ⟨[], 0⟩) := by
  have hCheck :
      (Expr.ofText 1 "a || b".toList).isOk = true := by
    decide +kernel
  -- An insertion would leave the alternatives uncounted.
  have hCounted :
      ((readFragments 1 ('{' :: ("a || b".toList ++
          ['}']))).run ⟨[], 0⟩).toOption.map
        (fun r => r.2.numbered) = some 1 := by
    decide +kernel
  cases hRead : Expr.ofText 1 "a || b".toList with
  | error f =>
      rw [hRead] at hCheck
      cases hCheck
  | ok e =>
      refine ⟨e, rfl, ?_⟩
      intro hRun
      rw [hRun] at hCounted
      cases hCounted

end BranchingStory
