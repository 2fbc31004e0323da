import BranchingStory.Proofs.Restored
import BranchingStory.Proofs.Runs

/-
  This file shows that saving and restoring a story loses
  nothing: every state that the story can come to, and every
  state that was itself restored, is restored from its saved
  form as it was.

  Key theorems include:
    * `isShortInt_of_lt`
    * `State.Fits.hasShortKeys`
    * `Story.hasShortKeys_of_read`
    * `Story.isSavable_of_read`
    * `restore_save`
-/

------------------------------------------------------------
-- Short Keys
------------------------------------------------------------

namespace BranchingStory

variable {o : Outline}
variable {s : State}

/- Numbers with few enough digits can be read back. -/
theorem isShortInt_of_lt
    {n digits : Nat}
    (hDigits : digits ≤ maxDigits)
    (hSmall : n < Nat.pow 10 digits) :
    isShortInt n = true := by
  have hBound (bound : Nat) (hLess : digits ≤ bound) :
      n < Nat.pow 10 bound :=
    Nat.lt_of_lt_of_le hSmall
      (Nat.pow_le_pow_right (by decide) hLess)
  rw [isShortInt, decide_eq_true_eq, Int.natAbs_natCast]
  exact hBound maxDigits hDigits

/-
  The keys of a state that fits can be read back if the story
  has few enough parts and alternatives.
-/
theorem State.Fits.hasShortKeys
    (hFits : s.Fits o)
    {digits : Nat}
    (hDigits : digits ≤ maxDigits)
    (hSize : o.size ≤ Nat.pow 10 digits)
    (hNumbers : ∀ x ∈ alternativesOf o.leaves,
      x.1 < Nat.pow 10 digits) :
    s.HasShortKeys where
  chosen := by
    intro n hKey
    rcases hFits.sound.taken n hKey with ⟨m, hBound, rfl⟩
    exact isShortInt_of_lt hDigits
      (Nat.lt_of_lt_of_le hBound hSize)
  cursors := by
    intro n hKey
    rcases (Table.mem_keys_iff s.cursors n).mp hKey with
      ⟨v, hEntry⟩
    rcases hFits.sound.shown _ hEntry with ⟨_, x, hMem, rfl⟩
    exact isShortInt_of_lt hDigits (hNumbers x hMem)
  orders := by
    intro n hKey
    rcases (Table.mem_keys_iff s.orders n).mp hKey with
      ⟨v, hEntry⟩
    rcases hFits.sound.shuffled _ hEntry with
      ⟨x, hMem, rfl, _⟩
    exact isShortInt_of_lt hDigits (hNumbers x hMem)

end BranchingStory

------------------------------------------------------------
-- The Round Trip
------------------------------------------------------------

namespace BranchingStory

/- The keys of a state that fits such a story can be read. -/
theorem Story.hasShortKeys_of_read
    {source : String}
    {story : Story}
    (hRead : Story.read source = .ok story)
    (hLength : source.length < Nat.pow 2 63)
    {s : State}
    (hFits : s.Fits story.outline) :
    s.HasShortKeys := by
  rcases Story.size_le_of_read hRead with ⟨hSize, hNumbers⟩
  have hBound : 4 * Nat.pow 2 63 ≤ Nat.pow 10 20 := by decide
  refine hFits.hasShortKeys
    (show 20 ≤ maxDigits by decide) ?_ ?_
  · omega
  · intro x hMem
    have hNumber := hNumbers x hMem
    omega

/-
  Every state of a story that can be read can be saved, if the
  story came to it by itself or it was restored.
-/
theorem Story.isSavable_of_read
    {source : String}
    {story : Story}
    (hRead : Story.read source = .ok story)
    (hLength : source.length < Nat.pow 2 63)
    {s : State}
    (hState :
      Reachable story.outline s ∨
        ∃ v, restore story.outline v = .ok s) :
    s.IsSavable story.outline ∧ s.HasShortKeys := by
  have hSound := Story.isSound_of_read hRead
  rcases hState with hReachable | ⟨v, hRestored⟩
  · have hFits := hReachable.fits hSound
    exact ⟨hFits.isSavable hSound,
      Story.hasShortKeys_of_read hRead hLength hFits⟩
  · exact State.isSavable_of_restore hSound hRestored

/-
  Every state of a story that can be read is restored from its
  saved form as it was, whether the story came to it by itself
  or it was restored from any saved form at all.  No text is
  as long as the bound, which keeps the numbers of parts short
  enough to be read back.
-/
theorem restore_save
    {source : String}
    {story : Story}
    (hRead : Story.read source = .ok story)
    (hLength : source.length < Nat.pow 2 63)
    {s : State}
    (hState :
      Reachable story.outline s ∨
        ∃ v, restore story.outline v = .ok s)
    (savedAt : String) :
    restore story.outline (s.save savedAt) = .ok s := by
  have hSound := Story.isSound_of_read hRead
  rcases Story.isSavable_of_read hRead hLength hState with
    ⟨hSavable, hShort⟩
  exact (State.restore_save_recovers hSound hSavable
    savedAt).ok hShort

/-
  A story with a variable, a cycle and a choice, saved while
  it presents the choice: it is restored as it was, and so it
  is again after that.
-/
theorem restore_save_presenting :
    ∃ story s,
      Story.read "VAR x = 1\n\x7b&a|b\x7d\n* One\n" =
          .ok story ∧
        Reachable story.outline s ∧
        s.status = .presenting ∧ s.cursors.keys ≠ [] ∧
        restore story.outline (s.save "then") = .ok s ∧
        restore story.outline (s.save "now") = .ok s := by
  have hCheck :
      (match Story.read
          "VAR x = 1\n\x7b&a|b\x7d\n* One\n" with
        | .error _ => false
        | .ok story =>
            let o := story.outline
            let s := ((resume o 9).runFrom (.start o 0)).2
            s.status = .presenting &&
              s.cursors.keys ≠ []) = true := by
    decide +kernel
  have hLength :
      "VAR x = 1\n\x7b&a|b\x7d\n* One\n".length < Nat.pow 2 63 := by
    decide
  cases hRead : Story.read
      "VAR x = 1\n\x7b&a|b\x7d\n* One\n" with
  | error e =>
      rw [hRead] at hCheck
      cases hCheck
  | ok story =>
      rw [hRead] at hCheck
      simp only [Bool.and_eq_true, decide_eq_true_eq] at hCheck
      have hReachable :=
        (Reachable.start (o := story.outline) 0).resume 9
      have hThen :=
        restore_save hRead hLength (.inl hReachable) "then"
      exact ⟨story, _, rfl, hReachable, hCheck.1, hCheck.2,
        hThen,
        restore_save hRead hLength (.inr ⟨_, hThen⟩) "now"⟩

end BranchingStory
