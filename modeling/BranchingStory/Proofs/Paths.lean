import BranchingStory.Proofs.Accepted

/-
  This file shows that the addresses of a story are told by
  their paths.

  Key definitions include:
    * `Outline.IsPath`

  Key theorems include:
    * `Address.ofPath_path`
    * `Outline.IsSound.ofPath_path`
-/

------------------------------------------------------------
-- Breaking Texts
------------------------------------------------------------

namespace BranchingStory

/- A text without a mark is not broken. -/
theorem breakAt_of_notMem
    {mark : Char}
    {cs : List Char}
    (hMark : mark ∉ cs) :
    breakAt mark cs = (cs, none) := by
  induction cs with
  | nil => rfl
  | cons c cs ih =>
      rw [List.mem_cons, not_or] at hMark
      rw [breakAt, if_neg fun hSame => hMark.1 hSame.symm,
        ih hMark.2]

/- A text is broken at the first mark. -/
theorem breakAt_append
    {mark : Char}
    {cs : List Char}
    (hMark : mark ∉ cs)
    (rest : List Char) :
    breakAt mark (cs ++ mark :: rest) = (cs, some rest) := by
  induction cs with
  | nil => rw [List.nil_append, breakAt, if_pos rfl]
  | cons c cs ih =>
      rw [List.mem_cons, not_or] at hMark
      rw [List.cons_append, breakAt,
        if_neg fun hSame => hMark.1 hSame.symm, ih hMark.2]

/- A text is not broken, or at a mark in it. -/
theorem breakAt_cases
    (mark : Char)
    (cs : List Char) :
    breakAt mark cs = (cs, none) ∨
      ∃ before after, cs = before ++ mark :: after ∧
        breakAt mark cs = (before, some after) := by
  induction cs with
  | nil => exact Or.inl rfl
  | cons c cs ih =>
      rw [breakAt]
      by_cases hMark : c = mark
      · rw [if_pos hMark]
        exact Or.inr ⟨[], cs, by rw [hMark]; rfl, rfl⟩
      · rw [if_neg hMark]
        rcases ih with hNone | ⟨before, after, hSame, hBreak⟩
        · rw [hNone]
          exact Or.inl rfl
        · rw [hBreak, hSame]
          exact Or.inr ⟨c :: before, after, rfl, rfl⟩

end BranchingStory

------------------------------------------------------------
-- Paths
------------------------------------------------------------

namespace BranchingStory

namespace Address

/- A path stands for the address that it was made from. -/
theorem ofPath_path
    {a : Address}
    (hKnot : IsPlaceName a.knot)
    (hStitch : IsPlaceName a.stitch) :
    ofPath a.path = a := by
  rcases a with ⟨knot, stitch⟩
  rw [path, isRoot]
  split
  · next hRoot =>
      have hRoot' : stitch = rootName := by
        simpa using hRoot
      subst hRoot'
      rw [ofPath, breakAt_of_notMem hKnot.noPoint]
      rfl
  · have hChars :
        (knot ++ "." ++ stitch).toList =
          knot.toList ++ '.' :: stitch.toList := by
      simp
    rcases List.exists_cons_of_ne_nil hStitch.notEmpty with
      ⟨c, rest, hCons⟩
    rw [ofPath, hChars, breakAt_append hKnot.noPoint, hCons]
    change Address.mk (String.ofList knot.toList)
      (String.ofList (c :: rest)) = _
    rw [← hCons, String.ofList_toList, String.ofList_toList]

end Address

namespace Outline

variable {o : Outline}

/- Whether a text is the path of a place of the story. -/
def IsPath
    (o : Outline)
    (s : String) : Prop :=
  ∃ a, o.hasAddress a = true ∧ s = a.path

/- The path of a place is the path of one. -/
theorem isPath_path
    {a : Address}
    (hAddress : o.hasAddress a = true) :
    o.IsPath a.path :=
  ⟨a, hAddress, rfl⟩

/- The paths of places stand for these places. -/
theorem IsSound.ofPath_path
    (hSound : o.IsSound)
    {a : Address}
    (hAddress : o.hasAddress a = true) :
    Address.ofPath a.path = a :=
  Address.ofPath_path (hSound.names a hAddress).1
    (hSound.names a hAddress).2

/- Places with the same path are the same. -/
theorem IsSound.path_injOn
    (hSound : o.IsSound)
    {a b : Address}
    (hAddress : o.hasAddress a = true)
    (hAddress' : o.hasAddress b = true)
    (hSame : a.path = b.path) :
    a = b := by
  rw [← hSound.ofPath_path hAddress, hSame,
    hSound.ofPath_path hAddress']

/- A path of a place stands for a place. -/
theorem IsSound.hasAddress_ofPath
    (hSound : o.IsSound)
    {s : String}
    (hPath : o.IsPath s) :
    o.hasAddress (Address.ofPath s) = true := by
  rcases hPath with ⟨a, hAddress, rfl⟩
  rw [hSound.ofPath_path hAddress]
  exact hAddress

end Outline

end BranchingStory
