import BranchingStory.Markup.Marks
import BranchingStory.Proofs.Spelling

/-
  This file shows that the scanners of lines pass over whole
  stretches of text: over an escaped character, over quotes,
  over braces with what they hold, and over expressions.

  Key definitions include:
    * `shield`
    * `Shielded`
    * `Token.shift`
    * `totalShift`
    * `hasBareEither`

  Key theorems include:
    * `Shielded.append`
    * `Shielded.braces`
    * `Spelled.shielded`
    * `Spelled.isMarked`
-/

------------------------------------------------------------
-- Marks
------------------------------------------------------------

namespace BranchingStory

/- A stretch of text none of whose characters is open. -/
def shield
    (cs : List Char) : Marked :=
  cs.map fun c => (c, false)

@[simp] theorem shield_append
    (cs ds : List Char) :
    shield (cs ++ ds) = shield cs ++ shield ds := by
  simp [shield]

@[simp] theorem chars_shield
    (cs : List Char) :
    Marked.chars (shield cs) = cs := by
  simp [shield, Marked.chars, Function.comp_def]

/- Nothing in a shielded text is open. -/
theorem not_mem_shield
    (mark : Char)
    (cs : List Char) :
    (mark, true) ∉ shield cs := by
  simp [shield]

namespace Marked

@[simp] theorem chars_append
    (ms ns : Marked) :
    chars (ms ++ ns) = chars ms ++ chars ns := by
  simp [chars]

/- A mark is not counted if it never stands open. -/
theorem countOpen_eq_zero_iff
    {mark : Char}
    {ms : Marked} :
    ms.countOpen mark = 0 ↔ (mark, true) ∉ ms := by
  rw [countOpen, List.countP_eq_zero]
  constructor
  · intro hNone hMem
    exact hNone _ hMem (by simp)
  · rintro hNone ⟨c, isOpen⟩ hMem hOpen
    simp only [Bool.and_eq_true, beq_iff_eq] at hOpen
    rcases hOpen with ⟨rfl, rfl⟩
    exact hNone hMem

/- A text is not cut where a mark never stands open. -/
theorem cut?_eq_none
    {mark : Char}
    {ms : Marked}
    (hNone : (mark, true) ∉ ms) :
    ms.cut? mark = none := by
  induction ms with
  | nil => rfl
  | cons m ms ih =>
      rcases m with ⟨c, isOpen⟩
      rw [List.mem_cons, not_or] at hNone
      rw [cut?, if_neg, ih hNone.2]
      · rfl
      · intro hOpen
        simp only [Bool.and_eq_true, beq_iff_eq] at hOpen
        exact hNone.1 (by rw [hOpen.1, hOpen.2])

/- A text is cut at the first mark that stands open. -/
theorem cut?_append
    {mark : Char}
    {ms : Marked}
    (hNone : (mark, true) ∉ ms)
    (ns : Marked) :
    cut? mark (ms ++ (mark, true) :: ns) = some (ms, ns) := by
  induction ms with
  | nil => simp [cut?]
  | cons m ms ih =>
      rcases m with ⟨c, isOpen⟩
      rw [List.mem_cons, not_or] at hNone
      rw [List.cons_append, cut?, if_neg, ih hNone.2]
      · rfl
      · intro hOpen
        simp only [Bool.and_eq_true, beq_iff_eq] at hOpen
        exact hNone.1 (by rw [hOpen.1, hOpen.2])

/- Marks are counted on both sides. -/
theorem countOpen_append
    (mark : Char)
    (ms ns : Marked) :
    countOpen mark (ms ++ ns) =
      ms.countOpen mark + ns.countOpen mark :=
  List.countP_append

/- A text is not split where a mark never stands open. -/
theorem split_of_notMem
    {mark : Char}
    {ms : Marked}
    (hNone : (mark, true) ∉ ms) :
    split mark ms = [ms.chars] := by
  induction ms with
  | nil => rfl
  | cons m ms ih =>
      rcases m with ⟨c, isOpen⟩
      rw [List.mem_cons, not_or] at hNone
      rw [split, if_neg, ih hNone.2]
      · rfl
      · intro hOpen
        simp only [Bool.and_eq_true, beq_iff_eq] at hOpen
        exact hNone.1 (by rw [hOpen.1, hOpen.2])

/- A text is split at the first mark, and after it. -/
theorem split_append
    {mark : Char}
    {ms : Marked}
    (hNone : (mark, true) ∉ ms)
    (ns : Marked) :
    split mark (ms ++ (mark, true) :: ns) =
      ms.chars :: split mark ns := by
  induction ms with
  | nil => simp [split, chars]
  | cons m ms ih =>
      rcases m with ⟨c, isOpen⟩
      rw [List.mem_cons, not_or] at hNone
      rw [List.cons_append, split, if_neg, ih hNone.2]
      · rfl
      · intro hOpen
        simp only [Bool.and_eq_true, beq_iff_eq] at hOpen
        exact hNone.1 (by rw [hOpen.1, hOpen.2])

/- Arrows are looked for after what cannot begin one. -/
theorem splitArrows_append
    {ms ns : Marked}
    {part : List Char}
    {parts : List (List Char)}
    (hNone : ('-', true) ∉ ms)
    (hRest : ns.splitArrows = part :: parts) :
    splitArrows (ms ++ ns) = (ms.chars ++ part) :: parts := by
  induction ms with
  | nil => exact hRest
  | cons m ms ih =>
      rw [List.mem_cons, not_or] at hNone
      rw [List.cons_append, splitArrows, ih hNone.2]
      · rfl
      · intro _ _ _ hDash hOpen
        exact hNone.1 (Prod.ext hDash hOpen).symm

/- A text in which nothing can begin an arrow is not split. -/
theorem splitArrows_of_notMem
    {ms : Marked}
    (hNone : ('-', true) ∉ ms) :
    splitArrows ms = [ms.chars] := by
  have hSplit :=
    splitArrows_append hNone
      (show splitArrows [] = [[]] from rfl)
  rwa [List.append_nil, List.append_nil] at hSplit

end Marked

end BranchingStory

------------------------------------------------------------
-- Single Characters
------------------------------------------------------------

namespace BranchingStory

/- The characters that change how a scanner goes on. -/
def isSpecial
    (c : Char) : Bool :=
  c ∈ ['\\', '"', '{', '}', '(', ')']

variable {c : Char}
variable {rest : List Char}

/- No special character is blank. -/
theorem not_isSpecial_of_isBlank
    (hBlank : isBlank c = true) :
    isSpecial c = false := by
  by_contra hSpecial
  simp only [Bool.not_eq_false, isSpecial, List.mem_cons,
    List.not_mem_nil, or_false, decide_eq_true_eq] at hSpecial
  rcases hSpecial with rfl | rfl | rfl | rfl | rfl | rfl <;>
    exact absurd hBlank (by decide)

/- A plain character between braces is passed over. -/
theorem takeBraced?_plain
    (hPlain : isSpecial c = false)
    (depth : Nat) :
    takeBraced? depth false (c :: rest) =
      (takeBraced? depth false rest).map (consBefore [c]) := by
  simp only [isSpecial, decide_eq_false_iff_not, List.mem_cons,
    List.not_mem_nil, or_false, not_or] at hPlain
  rcases hPlain with ⟨hEscape, hQuote, hOpen, hClose, _, _⟩
  rw [takeBraced?.eq_def]
  split
  · next hNil => cases hNil
  · next hLast =>
      cases hLast
      exact absurd rfl hEscape
  · next hCons =>
      cases hCons
      exact absurd rfl hEscape
  · next hCons =>
      cases hCons
      simp [hQuote, hOpen, hClose]

/- A plain character is open outside parentheses. -/
theorem braceLevelFrom_plain
    (hPlain : isSpecial c = false)
    (depth parens : Int) :
    braceLevelFrom depth parens false (c :: rest) =
      (c, decide (depth = 0 ∧ parens = 0)) ::
        braceLevelFrom depth parens false rest := by
  simp only [isSpecial, decide_eq_false_iff_not, List.mem_cons,
    List.not_mem_nil, or_false, not_or] at hPlain
  rcases hPlain with
    ⟨hEscape, hQuote, hOpen, hClose, hOpen', hClose'⟩
  rw [braceLevelFrom]
  · simp [hQuote, hOpen, hClose, hOpen', hClose']
  · intro hLast
    exact absurd hLast hEscape
  · intro c' cs' hLast
    exact absurd hLast hEscape

/- Parentheses are plain outside braces. -/
theorem topLevelFrom_plain
    (hEscape : c ≠ '\\')
    (hQuote : c ≠ '"')
    (hOpen : c ≠ '{')
    (hClose : c ≠ '}')
    (depth : Int) :
    topLevelFrom depth false (c :: rest) =
      (c, decide (depth = 0)) ::
        topLevelFrom depth false rest := by
  rw [topLevelFrom]
  · simp [hQuote, hOpen, hClose]
  · intro hLast
    exact absurd hLast hEscape
  · intro c' cs' hLast
    exact absurd hLast hEscape

end BranchingStory

------------------------------------------------------------
-- Stretches Of Text
------------------------------------------------------------

namespace BranchingStory

/-
  Whether every scanner passes over a stretch of text, without
  opening any of it, as long as it is at least so deep within
  braces.  The stretch may open or close parentheses.
-/
structure Shielded
    (least : Int)
    (cs : List Char)
    (shift : Int) : Prop where
  braced : ∀ depth rest,
    takeBraced? depth false (cs ++ rest) =
      (takeBraced? depth false rest).map (consBefore cs)
  inside : ∀ depth parens rest, least ≤ depth →
    braceLevelFrom depth parens false (cs ++ rest) =
      shield cs ++
        braceLevelFrom depth (parens + shift) false rest
  outside : ∀ depth rest, least ≤ depth →
    topLevelFrom depth false (cs ++ rest) =
      shield cs ++ topLevelFrom depth false rest

/- Characters put in front one stretch after the other. -/
theorem consBefore_append
    (cs ds : List Char)
    (parts : Option (List Char × List Char)) :
    (parts.map (consBefore ds)).map (consBefore cs) =
      parts.map (consBefore (cs ++ ds)) := by
  rw [Option.map_map]
  congr 1
  funext p
  simp [consBefore]

namespace Shielded

variable {least : Int}
variable {cs ds : List Char}
variable {s s' : Int}

/- No text at all is passed over. -/
theorem nil :
    Shielded least [] 0 where
  braced := by
    intro depth rest
    have hSame : consBefore [] = id := by
      funext p
      rfl
    simp [hSame]
  inside := by simp [shield]
  outside := by simp [shield]

/- Stretches are passed over one after the other. -/
theorem append
    (hFirst : Shielded least cs s)
    (hSecond : Shielded least ds s') :
    Shielded least (cs ++ ds) (s + s') where
  braced := by
    intro depth rest
    rw [List.append_assoc, hFirst.braced, hSecond.braced,
      consBefore_append]
  inside := by
    intro depth parens rest hDepth
    rw [List.append_assoc, hFirst.inside _ _ _ hDepth,
      hSecond.inside _ _ _ hDepth, shield_append,
      List.append_assoc, Int.add_assoc]
  outside := by
    intro depth rest hDepth
    rw [List.append_assoc, hFirst.outside _ _ hDepth,
      hSecond.outside _ _ hDepth, shield_append,
      List.append_assoc]

/- Stretches that close their parentheses themselves. -/
theorem append_balanced
    (hFirst : Shielded least cs 0)
    (hSecond : Shielded least ds 0) :
    Shielded least (cs ++ ds) 0 :=
  hFirst.append hSecond

/- What is passed over is so further within braces, too. -/
theorem mono
    {more : Int}
    (hShielded : Shielded least cs s)
    (hMore : least ≤ more) :
    Shielded more cs s where
  braced := hShielded.braced
  inside := fun depth parens rest hDepth =>
    hShielded.inside depth parens rest (by omega)
  outside := fun depth rest hDepth =>
    hShielded.outside depth rest (by omega)

/- An escaped character is passed over everywhere. -/
theorem escaped
    (c : Char) :
    Shielded least ['\\', c] 0 where
  braced := by
    intro depth rest
    rfl
  inside := by
    intro depth parens rest _
    rw [Int.add_zero]
    rfl
  outside := by
    intro depth rest _
    rfl

/- A plain character is passed over within braces. -/
theorem plain
    {c : Char}
    (hPlain : isSpecial c = false) :
    Shielded 1 [c] 0 where
  braced := by
    intro depth rest
    exact takeBraced?_plain hPlain depth
  inside := by
    intro depth parens rest hDepth
    have hDeep : ¬ depth = 0 := by omega
    rw [List.singleton_append, braceLevelFrom_plain hPlain,
      Int.add_zero]
    simp [shield, hDeep]
  outside := by
    intro depth rest hDepth
    have hDeep : ¬ depth = 0 := by omega
    have hNone : ∀ c' ∈ ['\\', '"', '{', '}', '(', ')'],
        c ≠ c' := by
      rintro c' hMem rfl
      exact absurd hMem (of_decide_eq_false hPlain)
    rw [List.singleton_append,
      topLevelFrom_plain (hNone _ (by decide))
        (hNone _ (by decide)) (hNone _ (by decide))
        (hNone _ (by decide))]
    simp [shield, hDeep]

/- Plain characters are passed over within braces. -/
theorem plain_all
    (hPlain : ∀ c ∈ cs, isSpecial c = false) :
    Shielded 1 cs 0 := by
  induction cs with
  | nil => exact nil
  | cons c cs ih =>
      rw [List.forall_mem_cons] at hPlain
      exact (plain hPlain.1).append (ih hPlain.2)

/- A parenthesis that opens. -/
theorem openParen :
    Shielded 1 ['('] 1 where
  braced := by
    intro depth rest
    rfl
  inside := by
    intro depth parens rest _
    rfl
  outside := by
    intro depth rest hDepth
    have hDeep : ¬ depth = 0 := by omega
    rw [List.singleton_append,
      topLevelFrom_plain (by decide) (by decide) (by decide)
        (by decide)]
    simp [shield, hDeep]

/- A parenthesis that closes. -/
theorem closeParen :
    Shielded 1 [')'] (-1) where
  braced := by
    intro depth rest
    rfl
  inside := by
    intro depth parens rest _
    rfl
  outside := by
    intro depth rest hDepth
    have hDeep : ¬ depth = 0 := by omega
    rw [List.singleton_append,
      topLevelFrom_plain (by decide) (by decide) (by decide)
        (by decide)]
    simp [shield, hDeep]

/- Braces are passed over everywhere with what they hold. -/
theorem braces
    (hInner : Shielded 1 cs 0) :
    Shielded 0 ('{' :: (cs ++ ['}'])) 0 where
  braced := by
    intro depth rest
    rw [List.cons_append, List.append_assoc]
    change (takeBraced? (depth + 1) false
      (cs ++ ('}' :: rest))).map (consBefore ['{']) = _
    rw [hInner.braced]
    change (((takeBraced? depth false rest).map
      (consBefore ['}'])).map (consBefore cs)).map
        (consBefore ['{']) = _
    rw [consBefore_append, consBefore_append]
    rfl
  inside := by
    intro depth parens rest hDepth
    rw [List.cons_append, List.append_assoc]
    change ('{', false) :: braceLevelFrom (depth + 1) parens
      false (cs ++ ('}' :: rest)) = _
    rw [hInner.inside _ _ _ (by omega)]
    change ('{', false) :: (shield cs ++ ('}', false) ::
      braceLevelFrom (depth + 1 - 1) (parens + 0) false rest)
        = _
    rw [Int.add_sub_cancel]
    simp [shield]
  outside := by
    intro depth rest hDepth
    rw [List.cons_append, List.append_assoc]
    change ('{', false) :: topLevelFrom (depth + 1) false
      (cs ++ ('}' :: rest)) = _
    rw [hInner.outside _ _ (by omega)]
    change ('{', false) :: (shield cs ++ ('}', false) ::
      topLevelFrom (depth + 1 - 1) false rest) = _
    rw [Int.add_sub_cancel]
    simp [shield]

/- What is passed over in braces is taken out of them. -/
theorem takeBraced?_eq
    (hInner : Shielded 1 cs 0)
    (rest : List Char) :
    takeBraced? 0 false (cs ++ '}' :: rest) =
      some (cs, rest) := by
  rw [hInner.braced]
  change some (consBefore cs ([], rest)) = _
  simp [consBefore]

end Shielded

end BranchingStory

------------------------------------------------------------
-- Quotes
------------------------------------------------------------

namespace BranchingStory

variable {body : List Char}

/- Braces within quotes are passed over. -/
theorem takeBraced?_quoted
    (hBody : IsQuotable body)
    (depth : Nat)
    (rest : List Char) :
    takeBraced? depth true (body ++ '"' :: rest) =
      (takeBraced? depth false rest).map
        (consBefore (body ++ ['"'])) := by
  induction hBody with
  | nil => rfl
  | @cons c cs hQuote hEscape _ ih =>
      rw [List.cons_append, List.cons_append,
        takeBraced?.eq_def]
      split
      · next hNil => cases hNil
      · next hLast =>
          exact absurd (List.cons.inj hLast).1 hEscape
      · next hCons =>
          exact absurd (List.cons.inj hCons).1 hEscape
      · next hCons =>
          rcases List.cons.inj hCons with ⟨rfl, rfl⟩
          have hStill : (c != '"') = true := by
            simpa using hQuote
          rw [if_pos rfl, hStill, ih, consBefore_append]
          rfl
  | @escaped c cs _ _ ih =>
      change (takeBraced? depth true (cs ++ '"' :: rest)).map
        (consBefore ['\\', c]) = _
      rw [ih, consBefore_append]
      rfl

/- Nothing within quotes is open between braces. -/
theorem braceLevelFrom_quoted
    (hBody : IsQuotable body)
    (depth parens : Int)
    (rest : List Char) :
    braceLevelFrom depth parens true (body ++ '"' :: rest) =
      shield (body ++ ['"']) ++
        braceLevelFrom depth parens false rest := by
  induction hBody with
  | nil => rfl
  | @cons c cs hQuote hEscape _ ih =>
      have hStill : (c != '"') = true := by simpa using hQuote
      rw [List.cons_append, braceLevelFrom, if_pos rfl,
        hStill, ih]
      · rfl
      · intro hLast
        exact absurd hLast hEscape
      · intro c' cs' hLast
        exact absurd hLast hEscape
  | @escaped c cs _ _ ih =>
      change ('\\', false) :: (c, false) :: braceLevelFrom depth
        parens true (cs ++ '"' :: rest) = _
      rw [ih]
      rfl

/- Nothing within quotes is open in a line, either. -/
theorem topLevelFrom_quoted
    (hBody : IsQuotable body)
    (depth : Int)
    (rest : List Char) :
    topLevelFrom depth true (body ++ '"' :: rest) =
      shield (body ++ ['"']) ++
        topLevelFrom depth false rest := by
  induction hBody with
  | nil => rfl
  | @cons c cs hQuote hEscape _ ih =>
      have hStill : (c != '"') = true := by simpa using hQuote
      rw [List.cons_append, topLevelFrom, if_pos rfl,
        hStill, ih]
      · rfl
      · intro hLast
        exact absurd hLast hEscape
      · intro c' cs' hLast
        exact absurd hLast hEscape
  | @escaped c cs _ _ ih =>
      change ('\\', false) :: (c, false) :: topLevelFrom depth
        true (cs ++ '"' :: rest) = _
      rw [ih]
      rfl

/- A quoted text is passed over within braces. -/
theorem Shielded.quoted
    (hBody : IsQuotable body) :
    Shielded 1 ('"' :: (body ++ ['"'])) 0 where
  braced := by
    intro depth rest
    rw [List.cons_append, List.append_assoc]
    change (takeBraced? depth true
      (body ++ ('"' :: rest))).map (consBefore ['"']) = _
    rw [takeBraced?_quoted hBody, consBefore_append]
    rfl
  inside := by
    intro depth parens rest _
    rw [List.cons_append, List.append_assoc, Int.add_zero]
    change ('"', false) :: braceLevelFrom depth parens true
      (body ++ ('"' :: rest)) = _
    rw [braceLevelFrom_quoted hBody]
    rfl
  outside := by
    intro depth rest hDepth
    have hDeep : '"' = '"' ∧ 0 < depth := ⟨rfl, by omega⟩
    rw [List.cons_append, List.append_assoc]
    change (if '"' = '"' ∧ 0 < depth then ('"', false) ::
      topLevelFrom depth true (body ++ ('"' :: rest)) else _)
        = _
    rw [if_pos hDeep, topLevelFrom_quoted hBody]
    rfl

end BranchingStory

------------------------------------------------------------
-- Tokens
------------------------------------------------------------

namespace BranchingStory

/- How many parentheses a token opens. -/
def Token.shift : Token → Int
  | .symbol .openParen => 1
  | .symbol .closeParen => -1
  | _ => 0

/- How many parentheses tokens open together. -/
def totalShift : List Token → Int
  | [] => 0
  | t :: ts => t.shift + totalShift ts

@[simp] theorem totalShift_append
    (ts us : List Token) :
    totalShift (ts ++ us) = totalShift ts + totalShift us := by
  induction ts with
  | nil => simp [totalShift]
  | cons t ts ih => simp [totalShift, ih, Int.add_assoc]

/-
  Whether the sign for "or" stands outside all parentheses,
  of which some are open already.
-/
def hasBareEither
    (parens : Int) : List Token → Bool
  | [] => false
  | t :: ts =>
      (parens = 0 && t = .symbol .either) ||
        hasBareEither (parens + t.shift) ts

/- A character of words and numbers is neither mark. -/
theorem isPlain_of_isDotted
    {accept : Char → Bool}
    {cs : List Char}
    (hNone : ['\\', '"', '{', '}', '(', ')', ':', '|'].all
      (!accept ·) = true)
    (hDotted : IsDotted accept cs) :
    ∀ c ∈ cs, isSpecial c = false ∧ c ≠ ':' ∧ c ≠ '|' := by
  intro c hMem
  rcases hDotted.accept_or_point c hMem with hAccept | rfl
  · have hOther (c' : Char)
        (hMem' : c' ∈
          ['\\', '"', '{', '}', '(', ')', ':', '|']) :
        c ≠ c' := by
      rintro rfl
      have hRefuse := List.all_eq_true.mp hNone c hMem'
      rw [hAccept] at hRefuse
      cases hRefuse
    refine ⟨?_, hOther _ (by decide), hOther _ (by decide)⟩
    rw [isSpecial, decide_eq_false_iff_not]
    intro hSpecial
    refine hOther c ?_ rfl
    simp only [List.mem_cons, List.not_mem_nil, or_false]
      at hSpecial ⊢
    tauto
  · decide

namespace Token

/- The tokens that are made of plain characters. -/
theorem plain_or
    {t : Token}
    (hWritten : t.IsWritten) :
    (∃ s, t = .quoted s) ∨ t = .symbol .openParen ∨
      t = .symbol .closeParen ∨
      (t.shift = 0 ∧ (∀ c ∈ t.chars, isSpecial c = false) ∧
        ':' ∉ t.chars ∧
        ('|' ∈ t.chars ↔ t = .symbol .either)) := by
  have hWord {accept : Char → Bool} {s : String}
      (hNone : ['\\', '"', '{', '}', '(', ')', ':', '|'].all
        (!accept ·) = true)
      (hDotted : IsDotted accept s.toList) :
      (∀ c ∈ s.toList, isSpecial c = false) ∧
        ':' ∉ s.toList ∧ '|' ∉ s.toList := by
    have hAll := isPlain_of_isDotted hNone hDotted
    refine ⟨fun c hMem => (hAll c hMem).1, ?_, ?_⟩
    · intro hMem
      exact (hAll ':' hMem).2.1 rfl
    · intro hMem
      exact (hAll '|' hMem).2.2 rfl
  have hSign {cs : List Char}
      (hPlain : cs.all (!isSpecial ·) = true) :
      ∀ c ∈ cs, isSpecial c = false := by
    intro c hMem
    simpa using List.all_eq_true.mp hPlain c hMem
  cases t with
  | quoted s => exact Or.inl ⟨s, rfl⟩
  | number s =>
      rcases hWord (by decide) hWritten with
        ⟨hPlain, hColon, hBar⟩
      refine Or.inr (Or.inr (Or.inr ⟨rfl, hPlain, hColon, ?_⟩))
      exact iff_of_false hBar (by simp)
  | name s =>
      rcases hWord (by decide) hWritten.1 with
        ⟨hPlain, hColon, hBar⟩
      refine Or.inr (Or.inr (Or.inr ⟨rfl, hPlain, hColon, ?_⟩))
      exact iff_of_false hBar (by simp)
  | arrow =>
      exact Or.inr (Or.inr (Or.inr ⟨rfl, hSign (by decide),
        by decide, by decide⟩))
  | symbol s =>
      cases s with
      | openParen => exact Or.inr (Or.inl rfl)
      | closeParen => exact Or.inr (Or.inr (Or.inl rfl))
      | _ =>
          exact Or.inr (Or.inr (Or.inr ⟨rfl, hSign (by decide),
            by decide, by decide⟩))

/- A token is passed over within braces. -/
theorem shielded
    {t : Token}
    (hWritten : t.IsWritten) :
    Shielded 1 t.chars t.shift := by
  rcases plain_or hWritten with
    ⟨s, rfl⟩ | rfl | rfl | ⟨hShift, hPlain, _⟩
  · have hQuoted := Shielded.quoted hWritten
    simpa [chars, text, shift] using hQuoted
  · exact .openParen
  · exact .closeParen
  · rw [hShift]
    exact .plain_all hPlain

end Token

/- Plain characters are open outside parentheses. -/
theorem braceLevelFrom_plain_all
    {cs : List Char}
    (hPlain : ∀ c ∈ cs, isSpecial c = false)
    (parens : Int)
    (rest : List Char) :
    braceLevelFrom 0 parens false (cs ++ rest) =
      cs.map (fun c => (c, decide (parens = 0))) ++
        braceLevelFrom 0 parens false rest := by
  induction cs with
  | nil => rfl
  | cons c cs ih =>
      rw [List.forall_mem_cons] at hPlain
      rw [List.cons_append, braceLevelFrom_plain hPlain.1,
        ih hPlain.2]
      simp

/-
  Whether a stretch of text gets its marks between braces: it
  opens or closes parentheses, no colon in it is open, and a
  bar is under a condition.
-/
def IsMarked
    (cs : List Char)
    (parens shift : Int)
    (hasBar : Prop) : Prop :=
  ∀ rest, ∃ ms,
    braceLevelFrom 0 parens false (cs ++ rest) =
      ms ++ braceLevelFrom 0 (parens + shift) false rest ∧
    ms.chars = cs ∧ (':', true) ∉ ms ∧
    (('|', true) ∈ ms ↔ hasBar)

/- Stretches of text get their marks one after the other. -/
theorem IsMarked.append
    {cs ds : List Char}
    {parens s s' : Int}
    {bar bar' : Prop}
    (hFirst : IsMarked cs parens s bar)
    (hSecond : IsMarked ds (parens + s) s' bar') :
    IsMarked (cs ++ ds) parens (s + s') (bar ∨ bar') := by
  intro rest
  rcases hFirst (ds ++ rest) with
    ⟨ms, hMarks, hChars, hColon, hBar⟩
  rcases hSecond rest with
    ⟨ms', hMarks', hChars', hColon', hBar'⟩
  refine ⟨ms ++ ms', ?_, ?_, ?_, ?_⟩
  · rw [List.append_assoc, hMarks, hMarks', List.append_assoc,
      Int.add_assoc]
  · rw [Marked.chars_append, hChars, hChars']
  · rw [List.mem_append, not_or]
    exact ⟨hColon, hColon'⟩
  · rw [List.mem_append, hBar, hBar']

/- What every scanner passes over has no marks. -/
theorem Shielded.isMarked
    {cs : List Char}
    (hShielded : Shielded 0 cs 0) :
    IsMarked cs 0 0 False := by
  intro rest
  refine ⟨shield cs, hShielded.inside 0 0 rest (Int.le_refl 0),
    chars_shield cs, not_mem_shield _ _, ?_⟩
  exact iff_of_false (not_mem_shield _ _) id

/- A bar among plain characters is open. -/
theorem isMarked_of_plain
    {cs : List Char}
    (hPlain : ∀ c ∈ cs, isSpecial c = false)
    (hColon : ':' ∉ cs)
    (parens : Int) :
    IsMarked cs parens 0 (parens = 0 ∧ '|' ∈ cs) := by
  intro rest
  have hOpen (mark : Char) :
      (mark, true) ∈
          cs.map (fun c => (c, decide (parens = 0))) ↔
        parens = 0 ∧ mark ∈ cs := by
    rw [List.mem_map]
    constructor
    · rintro ⟨c, hMem, hSame⟩
      rcases Prod.mk.inj hSame with ⟨rfl, hZero⟩
      exact ⟨of_decide_eq_true hZero, hMem⟩
    · rintro ⟨hZero, hMem⟩
      exact ⟨mark, hMem, by rw [decide_eq_true hZero]⟩
  refine ⟨cs.map fun c => (c, decide (parens = 0)), ?_, ?_,
    ?_, hOpen '|'⟩
  · rw [Int.add_zero]
    exact braceLevelFrom_plain_all hPlain parens rest
  · simp [Marked.chars, Function.comp_def]
  · rw [hOpen]
    exact fun hBoth => hColon hBoth.2

/- Blanks are no marks. -/
theorem isMarked_of_isBlank
    {gap : List Char}
    (hGap : ∀ c ∈ gap, isBlank c = true)
    (parens : Int) :
    IsMarked gap parens 0 False := by
  have hNone (mark : Char) (hMark : isBlank mark = false) :
      mark ∉ gap := by
    intro hMem
    rw [hGap mark hMem] at hMark
    cases hMark
  have hMarked :=
    isMarked_of_plain
      (fun c hMem => not_isSpecial_of_isBlank (hGap c hMem))
      (hNone ':' (by decide)) parens
  have hBar : ¬ (parens = 0 ∧ '|' ∈ gap) :=
    fun hBoth => hNone '|' (by decide) hBoth.2
  simpa only [hBar] using hMarked

/- The only token with an open bar is the sign for "or". -/
theorem Token.isMarked
    {t : Token}
    (hWritten : t.IsWritten)
    (parens : Int) :
    IsMarked t.chars parens t.shift
      (parens = 0 ∧ t = .symbol .either) := by
  intro rest
  rcases plain_or hWritten with
    ⟨s, rfl⟩ | rfl | rfl | ⟨hShift, hPlain, hColon, hBar⟩
  · refine ⟨shield (chars (.quoted s)), ?_, chars_shield _,
      not_mem_shield _ _, ?_⟩
    · have hMarks :=
        braceLevelFrom_quoted hWritten 0 parens rest
      simp only [chars, text, String.toList_append,
        List.append_assoc, shift, Int.add_zero]
      change ('"', false) :: braceLevelFrom 0 parens true
        (s.toList ++ '"' :: rest) = _
      rw [hMarks]
      simp [shield]
    · exact iff_of_false (not_mem_shield _ _) (by simp)
  · refine ⟨shield ['('], rfl, chars_shield _,
      not_mem_shield _ _, ?_⟩
    exact iff_of_false (not_mem_shield _ _) (by simp)
  · refine ⟨shield [')'], rfl, chars_shield _,
      not_mem_shield _ _, ?_⟩
    exact iff_of_false (not_mem_shield _ _) (by simp)
  · rw [hShift, ← hBar]
    exact isMarked_of_plain hPlain hColon parens rest

namespace Spelled

variable {ts : List Token}
variable {cs : List Char}

/- A text of tokens is passed over within braces. -/
theorem shielded
    (hSpelled : Spelled ts cs) :
    Shielded 1 cs (totalShift ts) := by
  have hBlank {gap : List Char}
      (hGap : ∀ c ∈ gap, isBlank c = true) :
      Shielded 1 gap 0 :=
    .plain_all fun c hMem =>
      not_isSpecial_of_isBlank (hGap c hMem)
  induction hSpelled with
  | nil hGap => exact hBlank hGap
  | cons hGap hToken _ ih =>
      have hAll :=
        (hBlank hGap).append
          ((Token.shielded hToken).append ih)
      rw [Int.zero_add] at hAll
      exact hAll

/- The open bars of a text of tokens are signs for "or". -/
theorem isMarked
    (hSpelled : Spelled ts cs)
    (parens : Int) :
    IsMarked cs parens (totalShift ts)
      (hasBareEither parens ts = true) := by
  induction hSpelled generalizing parens with
  | nil hGap =>
      rw [totalShift, hasBareEither, Bool.false_eq_true]
      exact isMarked_of_isBlank hGap parens
  | @cons gap cs t ts hGap hToken _ ih =>
      have hAll :=
        (isMarked_of_isBlank hGap parens).append
          ((Token.isMarked hToken (parens + 0)).append
            (ih (parens + 0 + t.shift)))
      simp only [Int.add_zero, Int.zero_add, false_or] at hAll
      rw [totalShift, hasBareEither]
      simpa only [Bool.or_eq_true, Bool.and_eq_true,
        decide_eq_true_eq] using hAll

end Spelled

end BranchingStory
