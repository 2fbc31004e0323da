import BranchingStory.Proofs.Mirroring

/-
  This file shows that the seed of a story influences shuffles
  and nothing else: a story without shuffles is played alike
  whatever its seed is, and never draws from its generator.

  Key definitions include:
    * `Outline.HasNoShuffle`
    * `Reseeding.constant`

  Key theorems include:
    * `Outline.HasNoShuffle.admits`
    * `State.start_reseeded`
    * `seeds_only_shuffle`
-/

------------------------------------------------------------
-- Stories Without Shuffles
------------------------------------------------------------

namespace BranchingStory

/- Whether no alternative of a story is a shuffle. -/
def Outline.HasNoShuffle
    (o : Outline) : Prop :=
  ∀ p ∈ o.leaves, ∀ g ∈ p.2.fragments, g.isShuffle = false

/- The reseeding to a fixed seed and its generator. -/
def Reseeding.constant
    (seed : Int) : Reseeding :=
  ⟨fun _ => seed, fun _ => .ofSeed seed⟩

/- A story without shuffles admits every reseeding. -/
theorem Outline.HasNoShuffle.admits
    {o : Outline}
    (hNoShuffle : o.HasNoShuffle)
    (r : Reseeding) :
    o.Admits r := by
  intro p hLeaf g hMem hShuffle
  rw [hNoShuffle p hLeaf g hMem] at hShuffle
  nomatch hShuffle

/- A story that starts with another seed is only reseeded. -/
theorem State.start_reseeded
    (o : Outline)
    (seed seed' : Int) :
    (start o seed).reseeded (.constant seed') =
      start o seed' := rfl

end BranchingStory

------------------------------------------------------------
-- Seeds
------------------------------------------------------------

namespace BranchingStory

open Play

/-
  A story without shuffles that starts with one seed or with
  another is asked the same, one request after the other.  It
  gives the same replies, meets the same faults and comes to
  the same states, but for the seed and the generator, which
  stays as the seed made it.
-/
theorem seeds_only_shuffle
    {o : Outline}
    (hNoShuffle : o.HasNoShuffle)
    (seed seed' : Int)
    (qs : List StoryRequest) :
    converse o (.start o seed') qs =
      (converse o (.start o seed) qs).map fun p =>
        (p.1,
          { p.2 with
            seed := seed'
            generator := .ofSeed seed' }) := by
  have hMirrors :=
    converse_mirrors (f := id)
      (hNoShuffle.admits (.constant seed')) (.start o seed) qs
  rw [Outline.relined_id, State.start_reseeded] at hMirrors
  rw [hMirrors]
  congr 1
  funext p
  rcases p with ⟨met, s⟩
  have hMet : mirrored id id met = met := by
    cases met with
    | ok reply => rfl
    | error e => rw [mirrored, PlayError.relined_id]; rfl
  rw [hMet]
  rfl

/-
  A story that counts how often it was shown, offers a choice
  and then runs out of choices: it is told alike with the seeds
  one and two.
-/
theorem seeds_only_shuffle_cycle :
    ∃ story,
      Story.read "== hub\n\x7b&a|b\x7d\n* One -> hub\n" =
          .ok story ∧
        story.outline.HasNoShuffle ∧
        ((converse story.outline (.start story.outline 1)
            [.resume 9, .choose 0, .resume 9]).map
          fun p => p.1.toBool) = [true, true, false] ∧
        converse story.outline (.start story.outline 2)
            [.resume 9, .choose 0, .resume 9] =
          (converse story.outline (.start story.outline 1)
            [.resume 9, .choose 0, .resume 9]).map fun p =>
              (p.1,
                { p.2 with
                  seed := 2
                  generator := .ofSeed 2 }) := by
  have hCheck :
      (match
        Story.read "== hub\n\x7b&a|b\x7d\n* One -> hub\n" with
        | .error _ => false
        | .ok story =>
            let o := story.outline
            (o.leaves.all fun p =>
              p.2.fragments.all fun g => !g.isShuffle) &&
            ((converse o (.start o 1)
                [.resume 9, .choose 0, .resume 9]).map
              fun p => p.1.toBool) = [true, true, false]) =
        true := by
    decide +kernel
  cases hRead :
      Story.read "== hub\n\x7b&a|b\x7d\n* One -> hub\n" with
  | error e =>
      rw [hRead] at hCheck
      cases hCheck
  | ok story =>
      rw [hRead] at hCheck
      simp only [Bool.and_eq_true, decide_eq_true_eq,
        List.all_eq_true, Bool.not_eq_true'] at hCheck
      exact ⟨story, rfl, hCheck.1, hCheck.2,
        seeds_only_shuffle hCheck.1 1 2 _⟩

end BranchingStory
