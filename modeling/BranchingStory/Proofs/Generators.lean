import BranchingStory.Proofs.Outcomes
import BranchingStory.Random.Snapshot

/-
  This file shows that shuffles of the generator are
  permutations, and that a generator is restored from its own
  state as it was.

  Key theorems include:
    * `Generator.permutation_perm`
    * `Generator.restore_snapshot`
-/

------------------------------------------------------------
-- Permutations
------------------------------------------------------------

namespace BranchingStory

open scoped List

namespace Generator

/- Exchanging elements permutes them. -/
theorem swapIfInBounds_perm
    {α : Type}
    (xs : Array α)
    (i j : Nat) :
    (xs.swapIfInBounds i j).toList ~ xs.toList := by
  rw [← Array.perm_iff_toList_perm, Array.swapIfInBounds]
  split
  · split
    · exact Array.swap_perm _ _
    · exact Array.Perm.refl xs
  · exact Array.Perm.refl xs

/- A shuffle permutes the elements. -/
theorem shuffleFrom_perm
    (n : Nat)
    (xs : Array Nat)
    (g : Generator) :
    (shuffleFrom n xs g).1.toList ~ xs.toList := by
  induction n generalizing xs g with
  | zero => exact List.Perm.refl _
  | succ n ih =>
      rw [shuffleFrom]
      generalize g.below (n + 2) = draw
      rcases draw with ⟨j, g'⟩
      exact (ih _ g').trans (swapIfInBounds_perm xs (n + 1) j)

/- A permutation holds each number below its size once. -/
theorem permutation_perm
    (size : Nat)
    (g : Generator) :
    (g.permutation size).1 ~ List.range size := by
  rw [permutation, ← Array.toList_range]
  exact shuffleFrom_perm (size - 1) (Array.range size) g

end Generator

end BranchingStory

------------------------------------------------------------
-- Snapshots
------------------------------------------------------------

namespace BranchingStory

namespace Generator

/- A word of the register is restored from its number. -/
theorem registerWord_toNat
    (w : UInt32) :
    registerWord (w.toNat : Int) = .ok w := by
  have hBound : w.toNat < Nat.pow 2 32 := w.toNat_lt
  have hNotNegative : ¬ ((w.toNat : Int) < 0) := by omega
  have hNotHuge :
      ¬ ((Nat.pow 2 64 : Nat) : Int) ≤ w.toNat := by
    rw [Int.ofNat_le]
    exact Nat.not_le.mpr (Nat.lt_trans hBound (by decide))
  rw [registerWord, if_neg hNotNegative, if_neg hNotHuge,
    Int.toNat_natCast, Nat.mod_eq_of_lt hBound,
    UInt32.ofNat_toNat]

/- The count of words used up is restored from its number. -/
theorem registerUse_val
    (used : Fin (registerSize + 1)) :
    registerUse (used.val : Int) = .ok used := by
  have hBound : used.val < registerSize + 1 := used.isLt
  have hSmall :
      registerSize < Nat.pow 2 63 := by decide
  unfold registerUse
  rw [if_neg (by omega), dif_pos (by omega)]
  rfl

/- A generator is made again from its numbers. -/
theorem ofNumbers_internalNumbers
    (g : Generator) :
    ofNumbers g.spare
        (g.internalNumbers.map fun (n : Nat) => (n : Int)) =
      .ok g := by
  have hNumbers :
      (g.internalNumbers.map fun (n : Nat) => (n : Int)) =
        (g.words.toList.map fun w => (w.toNat : Int)) ++
          [(g.used.val : Int)] := by
    simp [internalNumbers]
  have hLength :
      (g.words.toList.map
        fun w => (w.toNat : Int)).length = registerSize := by
    simp
  have hWords :
      (g.words.toList.map fun w => (w.toNat : Int)).mapM
        registerWord = .ok g.words.toList := by
    have hEach :=
      mapM_eq_map
        (f := registerWord ∘ fun w : UInt32 => (w.toNat : Int))
        (g := id) fun w (_ : w ∈ g.words.toList) =>
          registerWord_toNat w
    rw [List.mapM_map, hEach, List.map_id]
  unfold ofNumbers
  rw [hNumbers, List.take_left' hLength,
    List.drop_left' hLength]
  simp only [hWords, registerUse_val]
  change (if h : g.words.toList.toArray.size = registerSize
    then _ else _) = _
  rw [dif_pos (by simp)]
  rfl

/- A generator takes over the state of another as it is. -/
theorem restore_snapshot
    (g g' : Generator) :
    (Generator.restore g.snapshot).run g' = (.ok (), g) := by
  have hFields :
      readFields
          [("version", .int 3),
            ("internal", .array (g.internalNumbers.map
              fun (n : Nat) => .int n)),
            ("gauss", g.spare)] =
        .ok (g.internalNumbers.map
          fun (n : Nat) => (n : Int)) := by
    have hElements :
        (g.internalNumbers.map
            fun (n : Nat) => Json.int n).mapM wholeNumber =
          .ok (g.internalNumbers.map
            fun (n : Nat) => (n : Int)) := by
      rw [List.mapM_map]
      exact mapM_eq_map fun n _ => rfl
    change (_ >>= fun ns => versionNumbers (.int 3) ns) = _
    rw [hElements]
    rfl
  have hNumbers := ofNumbers_internalNumbers g
  unfold restore snapshot
  simp only [hFields]
  change ExceptT.run
      ((MonadExcept.ofExcept (ofNumbers g.spare
          (g.internalNumbers.map fun (n : Nat) => (n : Int))) :
        Restoration Generator) >>=
          fun h => (set h : Restoration Unit))
      { g' with spare := g.spare } = _
  rw [hNumbers]
  rfl

end Generator

end BranchingStory
