import BranchingStory.Text.CharClass
import BranchingStory.Text.Cut

/-
  This file fills paragraphs: it breaks a text into lines that
  are not longer than a given width.  A line can be broken at
  blanks, after the hyphen of a compound word and beside a
  dash.  A piece that fits on no line is cut.

  Key definitions include:
    * `Paragraph.expandTabs`
    * `Paragraph.flattenBlanks`
    * `Paragraph.takeWord`
    * `Paragraph.takePiece`
    * `Paragraph.pieces`
    * `Paragraph.takeFitting`
    * `Paragraph.breakPoint`
    * `Paragraph.takeLine`
    * `Paragraph.fillLines`
    * `Paragraph.fill`

  Key theorems include:
    * `Paragraph.takePiece_append`
    * `Paragraph.flatten_pieces`
    * `Paragraph.weight_takeLine_lt`
-/

------------------------------------------------------------
-- Blanks
------------------------------------------------------------

namespace BranchingStory

namespace Paragraph

/-
  Replace tabs by spaces up to the next column that is a
  multiple of eight.  Columns count from the last line break.
-/
def expandTabs
    (column : Nat) : List Char → List Char
  | [] => []
  | c :: rest =>
      if c = '\t' then
        let gap := 8 - column % 8
        List.replicate gap ' ' ++ expandTabs (column + gap) rest
      else if c = '\n' ∨ c = '\r' then c :: expandTabs 0 rest
      else c :: expandTabs (column + 1) rest

/- The white space of ASCII becomes spaces, one for one. -/
def flattenBlanks
    (cs : List Char) : List Char :=
  (expandTabs 0 cs).map fun c =>
    if 9 ≤ c.toNat ∧ c.toNat ≤ 13 then ' ' else c

end Paragraph

end BranchingStory

------------------------------------------------------------
-- Places To Break At
------------------------------------------------------------

namespace BranchingStory

namespace Paragraph

/- The word characters that are not digits. -/
def isWordLetter
    (c : Char) : Bool :=
  isWordChar c && !isDigit c

/- The characters that a dash can follow inside a text. -/
def isBeforeDash
    (c : Char) : Bool :=
  isWordChar c || ['!', '"', '\'', '&', '.', ',', '?'].contains c

/-
  Whether a hyphen can end a piece, judged by what is before
  it, the nearest character first: two letters, or a letter
  that another hyphen sets off from a letter.
-/
def canHyphenate : List Char → Bool
  | a :: '-' :: b :: _ => isWordLetter a && isWordLetter b
  | a :: b :: _ => isWordLetter a && isWordLetter b
  | _ => false

/-
  Whether a hyphen can end a piece, judged by what follows: two
  letters, maybe with a hyphen between them.
-/
def startsWord : List Char → Bool
  | a :: '-' :: b :: _ => isWordLetter a && isWordLetter b
  | a :: b :: _ => isWordLetter a && isWordLetter b
  | _ => false

/-
  Whether a dash begins here: two or more hyphens between a
  character that a dash can follow and a word.
-/
def startsDash
    (past cs : List Char) : Bool :=
  let hyphens := cs.takeWhile (· == '-')
  let rest := cs.dropWhile (· == '-')
  past.head?.any isBeforeDash && 2 ≤ hyphens.length &&
    rest.head?.any isWordChar

end Paragraph

end BranchingStory

------------------------------------------------------------
-- Pieces
------------------------------------------------------------

namespace BranchingStory

namespace Paragraph

/-
  What belongs to the same word as the characters before it,
  the nearest of which comes first, and the rest.
-/
def takeWord
    (past : List Char) :
    List Char → List Char × List Char
  | [] => ([], [])
  | c :: rest =>
      if c = ' ' then ([], c :: rest)
      else if c = '-' && canHyphenate past && startsWord rest then
        ([c], rest)
      else if startsDash past (c :: rest) then ([], c :: rest)
      else
        let (word, left) := takeWord (c :: past) rest
        (c :: word, left)

/- Nothing of the text is lost in taking a word. -/
theorem takeWord_append
    (past cs : List Char) :
    (takeWord past cs).1 ++ (takeWord past cs).2 = cs := by
  induction cs generalizing past with
  | nil => rfl
  | cons c rest ih =>
      simp only [takeWord]
      split
      · rfl
      · split
        · rfl
        · split
          · rfl
          · simp [ih]

/-
  The piece that a character begins, without that character,
  and the rest of the text: a run of spaces, a dash or a word.
-/
def takePiece
    (past : List Char)
    (c : Char)
    (rest : List Char) : List Char × List Char :=
  if c = ' ' then
    (rest.takeWhile (· == ' '), rest.dropWhile (· == ' '))
  else if startsDash past (c :: rest) then
    (rest.takeWhile (· == '-'), rest.dropWhile (· == '-'))
  else takeWord (c :: past) rest

/- Nothing of the text is lost in taking a piece. -/
theorem takePiece_append
    (past : List Char)
    (c : Char)
    (rest : List Char) :
    (takePiece past c rest).1 ++ (takePiece past c rest).2 =
      rest := by
  unfold takePiece
  split
  · exact List.takeWhile_append_dropWhile
  · split
    · exact List.takeWhile_append_dropWhile
    · exact takeWord_append (c :: past) rest

/- What follows a piece is not longer than the text. -/
theorem length_takePiece_le
    (past : List Char)
    (c : Char)
    (rest : List Char) :
    (takePiece past c rest).2.length ≤ rest.length := by
  have h :=
    congrArg List.length (takePiece_append past c rest)
  simp only [List.length_append] at h
  omega

/- The pieces of a text that comes after some characters. -/
def pieces
    (past : List Char) :
    List Char → List (List Char)
  | [] => []
  | c :: rest =>
      let piece := c :: (takePiece past c rest).1
      piece ::
        pieces (piece.reverse ++ past) (takePiece past c rest).2
termination_by cs => cs.length
decreasing_by
  have := length_takePiece_le past c rest
  simp only [List.length_cons]
  omega

/- The pieces make up the text. -/
theorem flatten_pieces
    (past cs : List Char) :
    (pieces past cs).flatten = cs := by
  fun_induction pieces past cs with
  | case1 => rfl
  | case2 past c rest piece ih =>
      simp only [List.flatten_cons, ih]
      simp [piece, takePiece_append]

end Paragraph

end BranchingStory

------------------------------------------------------------
-- Lines
------------------------------------------------------------

namespace BranchingStory

namespace Paragraph

/- The pieces that fit into some room, and the other ones. -/
def takeFitting
    (room : Nat) :
    List (List Char) → List (List Char) × List (List Char)
  | [] => ([], [])
  | p :: rest =>
      if p.length ≤ room then
        let (line, left) := takeFitting (room - p.length) rest
        (p :: line, left)
      else ([], p :: rest)

/-
  Where to cut a piece that is longer than the room for it:
  after the last hyphen in that room, unless there are only
  hyphens before it, and else at the end of the room.
-/
def breakPoint
    (room : Nat)
    (p : List Char) : Nat :=
  let upToHyphen :=
    ((p.take room).reverse.dropWhile (· != '-')).reverse
  if upToHyphen.dropLast.any (· != '-') then upToHyphen.length
  else room

/- Drop the first piece if it is blank. -/
def dropBlankStart : List (List Char) → List (List Char)
  | [] => []
  | p :: rest => if isBlankText p then rest else p :: rest

/- Drop the last piece if it is blank. -/
def dropBlankEnd
    (ps : List (List Char)) : List (List Char) :=
  (dropBlankStart ps.reverse).reverse

/- The room that some pieces leave on a line. -/
def roomAfter
    (width : Nat)
    (line : List (List Char)) : Nat :=
  width - line.flatten.length

/-
  The pieces of a line and the pieces that are left.  A piece
  that is longer than a whole line is cut.
-/
def takeLine
    (width : Nat)
    (ps : List (List Char)) :
    List (List Char) × List (List Char) :=
  let (line, left) := takeFitting width ps
  match left with
  | [] => (line, [])
  | p :: rest =>
      if p.length ≤ width then (line, p :: rest)
      else
        let cut := breakPoint (roomAfter width line) p
        (line ++ [p.take cut], p.drop cut :: rest)

/- A measure of what is left of a text. -/
def weight : List (List Char) → Nat
  | [] => 0
  | p :: ps => p.length + 1 + weight ps

/- What does not fit weighs no more than the whole. -/
theorem weight_takeFitting_le
    (room : Nat)
    (ps : List (List Char)) :
    weight (takeFitting room ps).2 ≤ weight ps := by
  induction ps generalizing room with
  | nil => simp [takeFitting]
  | cons p rest ih =>
      simp only [takeFitting]
      split
      · have := ih (room - p.length)
        simp only [weight] at *
        omega
      · exact Nat.le_refl _

/- Some of a piece is cut off if there is room for it. -/
theorem breakPoint_pos
    {room : Nat}
    (p : List Char)
    (h : 0 < room) :
    0 < breakPoint room p := by
  simp only [breakPoint]
  split
  · rename_i hany
    apply Nat.pos_of_ne_zero
    intro hlen
    rw [List.eq_nil_of_length_eq_zero hlen] at hany
    simp at hany
  · exact h

/- Every line that is taken makes what is left lighter. -/
theorem weight_takeLine_lt
    {width : Nat}
    (h : 0 < width)
    (p : List Char)
    (ps : List (List Char)) :
    weight (takeLine width (p :: ps)).2 <
      weight (p :: ps) := by
  by_cases hp : p.length ≤ width
  · have hle := weight_takeFitting_le (width - p.length) ps
    simp only [takeLine, takeFitting, hp, if_true]
    split
    · simp only [weight]
      omega
    · rename_i q rest hq
      rw [hq] at hle
      split
      · simp only [weight] at *
        omega
      · simp only [weight, List.length_drop] at *
        omega
  · simp only [takeLine, takeFitting, hp, if_false]
    have hpos : 0 < breakPoint (roomAfter width []) p :=
      breakPoint_pos p (by simpa [roomAfter])
    simp only [weight, List.length_drop]
    omega

/- Dropping a blank piece makes nothing heavier. -/
theorem weight_dropBlankStart_le
    (ps : List (List Char)) :
    weight (dropBlankStart ps) ≤ weight ps := by
  cases ps with
  | nil => simp [dropBlankStart]
  | cons p rest =>
      simp only [dropBlankStart]
      split
      · simp only [weight]
        omega
      · exact Nat.le_refl _

/-
  The lines that pieces are filled into.  A blank piece at the
  end of a line or at the break before the next line is left
  out, and so is a line without pieces.
-/
def fillLines
    (width : Nat)
    (h : 0 < width)
    (first : Bool) : List (List Char) → List (List Char)
  | [] => []
  | p :: rest =>
      let line := dropBlankEnd (takeLine width (p :: rest)).1
      let left := (takeLine width (p :: rest)).2
      if line.isEmpty then
        fillLines width h first
          (if first then left else dropBlankStart left)
      else
        line.flatten ::
          fillLines width h false (dropBlankStart left)
termination_by ps => weight ps
decreasing_by
  · have hlt := weight_takeLine_lt h p rest
    split
    · exact hlt
    · exact Nat.lt_of_le_of_lt
        (weight_dropBlankStart_le _) hlt
  · exact Nat.lt_of_le_of_lt (weight_dropBlankStart_le _)
      (weight_takeLine_lt h p rest)

/- Fill a paragraph: break it into lines of a given width. -/
def fill
    (width : Nat)
    (h : 0 < width)
    (s : String) : String :=
  "\n".intercalate
    ((fillLines width h true
      (pieces [] (flattenBlanks s.toList))).map String.ofList)

end Paragraph

end BranchingStory
