import BranchingStory.Address

/-
  This file tells the classes of characters apart: neither a
  digit nor a character of words is a blank, and what holds no
  blank, such as a name, is not trimmed.

  Key definitions include:
    * `blankCodes`

  Key theorems include:
    * `mem_blankCodes`
    * `isBlank_of_isDigit`
    * `isBlank_of_isWordChar`
    * `trimmed_of_none`
    * `trim_of_isName`
-/

------------------------------------------------------------
-- Blanks
------------------------------------------------------------

namespace BranchingStory

/- The code points of all blanks. -/
def blankCodes : List Nat :=
  List.range' 9 5 ++ List.range' 28 5 ++
    [0x85, 0xA0, 0x1680] ++ List.range' 0x2000 11 ++
      [0x2028, 0x2029, 0x202F, 0x205F, 0x3000]

variable {c : Char}

/- A blank has one of these code points. -/
theorem mem_blankCodes
    (hBlank : isBlank c = true) :
    c.toNat ∈ blankCodes := by
  simp only [isBlank, Bool.or_eq_true, Bool.and_eq_true,
    decide_eq_true_eq, beq_iff_eq] at hBlank
  simp only [blankCodes, List.mem_append, List.mem_range'_1,
    List.mem_cons, List.not_mem_nil]
  omega

/- A class of characters without blanks is told from them. -/
theorem isBlank_of_accept
    {accept : Char → Bool}
    (hNone : ∀ n ∈ blankCodes, accept (Char.ofNat n) = false)
    (hAccept : accept c = true) :
    isBlank c = false := by
  rw [← Bool.not_eq_true]
  intro hBlank
  have hOther := hNone _ (mem_blankCodes hBlank)
  rw [Char.ofNat_toNat, hAccept] at hOther
  cases hOther

/- A digit is no blank. -/
theorem isBlank_of_isDigit
    (hDigit : isDigit c = true) :
    isBlank c = false :=
  isBlank_of_accept (by decide +kernel) hDigit

/- A character of words is no blank. -/
theorem isBlank_of_isWordChar
    (hWord : isWordChar c = true) :
    isBlank c = false :=
  isBlank_of_accept (by decide +kernel) hWord

end BranchingStory

------------------------------------------------------------
-- Trimming
------------------------------------------------------------

namespace BranchingStory

/- Nothing is trimmed from a text without what is trimmed. -/
theorem trimmed_of_none
    {remove : Char → Bool}
    {cs : List Char}
    (hNone : ∀ c ∈ cs, remove c = false) :
    ((cs.dropWhile remove).reverse.dropWhile remove).reverse =
      cs := by
  have hStart {cs : List Char}
      (hNone : ∀ c ∈ cs, remove c = false) :
      cs.dropWhile remove = cs := by
    cases cs with
    | nil => rfl
    | cons c cs =>
        rw [List.dropWhile_cons, hNone c List.mem_cons_self]
        rfl
  rw [hStart hNone, hStart, List.reverse_reverse]
  intro c hMem
  exact hNone c (List.mem_reverse.mp hMem)

end BranchingStory

------------------------------------------------------------
-- Names
------------------------------------------------------------

namespace BranchingStory

variable {n : List Char}

/- A name begins with a character that is no blank. -/
theorem exists_cons_of_isName
    (hName : isName n = true) :
    ∃ c rest, n = c :: rest ∧ isBlank c = false := by
  rw [isName, Bool.and_eq_true, Bool.not_eq_true',
    List.isEmpty_eq_false_iff] at hName
  rcases List.exists_cons_of_ne_nil hName.1 with
    ⟨c, rest, rfl⟩
  exact ⟨c, rest, rfl, isBlank_of_isWordChar
    (List.all_eq_true.mp hName.2 c List.mem_cons_self)⟩

/- A name holds only characters of words. -/
theorem ne_of_isName
    (hName : isName n = true)
    {mark : Char}
    (hMark : isWordChar mark = false) :
    mark ∉ n := by
  intro hMem
  rw [isName, Bool.and_eq_true] at hName
  rw [List.all_eq_true.mp hName.2 mark hMem] at hMark
  cases hMark

/- Nothing is trimmed from a name. -/
theorem trim_of_isName
    (hName : isName n = true) :
    trim n = n := by
  rw [isName, Bool.and_eq_true] at hName
  exact trimmed_of_none fun c hMem => isBlank_of_isWordChar
    (List.all_eq_true.mp hName.2 c hMem)

end BranchingStory
