import BranchingStory.Proofs.Accepted
import BranchingStory.Proofs.Sections

/-
  This file leads every choice of a story back to the line of
  the script that it is written on.

  Key definitions include:
    * `Choice.IsWrittenAs`

  Key theorems include:
    * `exists_line_of_entry`
    * `buildOutline_follows`
    * `Story.exists_line_of_choice`
-/

------------------------------------------------------------
-- Lines Of Sections
------------------------------------------------------------

namespace BranchingStory

variable {isHeader : ScriptLine → Bool}
variable {ls : List ScriptLine}

/- The lines of a headed section are lines of the script. -/
theorem lines_subset_of_mem_headedSections
    {s : Section}
    (hSection : s ∈ headedSections isHeader ls) :
    s.lines ⊆ ls := by
  induction ls with
  | nil => cases hSection
  | cons l ls ih =>
      rw [headedSections] at hSection
      split at hSection
      · rcases List.mem_cons.mp hSection with rfl | hLater
        · intro l' hMem
          exact List.mem_cons_of_mem _
            ((List.takeWhile_prefix _).subset hMem)
        · exact fun l' hMem =>
            List.mem_cons_of_mem _ (ih hLater hMem)
      · exact fun l' hMem =>
          List.mem_cons_of_mem _ (ih hSection hMem)

/- The lines of a section are lines of the script. -/
theorem lines_subset_of_mem_sections
    {s : Section}
    (hSection : s ∈ sections isHeader ls) :
    s.lines ⊆ ls := by
  unfold sections at hSection
  dsimp only at hSection
  split at hSection
  · rcases List.mem_cons.mp hSection with rfl | hLater
    · exact (List.takeWhile_prefix _).subset
    · exact lines_subset_of_mem_headedSections hLater
  · exact lines_subset_of_mem_headedSections hSection

/- What follows one list has a partner there for each item. -/
theorem exists_of_mem_forall₂
    {α β : Type}
    {R : α → β → Prop}
    {as : List α}
    {bs : List β}
    (hAll : List.Forall₂ R as bs)
    {b : β}
    (hMem : b ∈ bs) :
    ∃ a ∈ as, R a b := by
  induction hAll with
  | nil => cases hMem
  | cons hFirst hRest ih =>
      rcases List.mem_cons.mp hMem with rfl | hLater
      · exact ⟨_, List.mem_cons_self, hFirst⟩
      · rcases ih hLater with ⟨a, hPartner, hRelated⟩
        exact ⟨a, List.mem_cons_of_mem _ hPartner, hRelated⟩

/-
  What a stitch of an outline consists of is read from lines of
  the script, if the outline follows them.
-/
theorem exists_line_of_entry
    {ks : List (String × Knot)}
    (hFollows :
      List.Forall₂ KnotFollows (sections ScriptLine.isKnot ls)
        ks)
    {k : String × Knot}
    (hKnot : k ∈ ks)
    {e : String × Stitch}
    (hStitch : e ∈ k.2.stitches.entries)
    {entry : Entry}
    (hEntry : entry ∈ itemEntries e.2.body.items) :
    ∃ l ∈ ls, l.IsReadAs entry := by
  rcases exists_of_mem_forall₂ hFollows hKnot with
    ⟨s, hSection, _, _, hStitches⟩
  rcases exists_of_mem_forall₂ hStitches hStitch with
    ⟨s', hSection', _, _, hEntries⟩
  rcases exists_of_mem_forall₂ hEntries hEntry with
    ⟨l, hLine, hRead⟩
  have hInner := (List.filter_sublist).subset hLine
  exact ⟨l, lines_subset_of_mem_sections hSection
    (lines_subset_of_mem_sections hSection' hInner), hRead⟩

end BranchingStory

------------------------------------------------------------
-- Choices Among Entries
------------------------------------------------------------

namespace BranchingStory

mutual

/- The choices among the leaves of a part are entries of it. -/
theorem Item.exists_entry_of_leaf
    {id : Nat}
    {c : Choice}
    (i : Item)
    (hLeaf : (id, .choice c) ∈ i.leaves) :
    ∃ depth, .choice depth c ∈ i.entries := by
  cases i with
  | line id' content => simp at hLeaf
  | gather id' depth content =>
      cases content with
      | none => simp [Node.leaf] at hLeaf
      | some content => simp [Node.leaf] at hLeaf
  | assign id' name value line => simp at hLeaf
  | choices id' depth line branches =>
      rw [Item.leaves_choices] at hLeaf
      rcases List.mem_cons.mp hLeaf with hBlock | hLeaf
      · cases hBlock
      · rw [Item.entries]
        exact exists_entry_of_branchLeaves branches hLeaf

/- So are those of a branch. -/
theorem Branch.exists_entry_of_leaf
    {id : Nat}
    {c : Choice}
    (b : Branch)
    (hLeaf : (id, .choice c) ∈ b.leaves) :
    ∃ depth, .choice depth c ∈ b.entries := by
  cases b with
  | mk id' outputId depth choice items =>
      rw [Branch.leaves_mk] at hLeaf
      rw [Branch.entries]
      rcases List.mem_cons.mp hLeaf with hLine | hLeaf
      · cases hLine
      · rcases List.mem_cons.mp hLeaf with hOwn | hLeaf
        · cases hOwn
          exact ⟨depth, List.mem_cons_self⟩
        · rcases exists_entry_of_itemLeaves items hLeaf with
            ⟨depth', hEntry⟩
          exact ⟨depth', List.mem_cons_of_mem _ hEntry⟩

/- So are those of branches. -/
theorem exists_entry_of_branchLeaves
    {id : Nat}
    {c : Choice}
    (bs : List Branch)
    (hLeaf : (id, .choice c) ∈ branchLeaves bs) :
    ∃ depth, .choice depth c ∈ branchEntries bs := by
  cases bs with
  | nil => simp at hLeaf
  | cons b bs =>
      rw [branchLeaves_cons] at hLeaf
      rw [branchEntries]
      rcases List.mem_append.mp hLeaf with hFirst | hRest
      · rcases b.exists_entry_of_leaf hFirst with
          ⟨depth, hEntry⟩
        exact ⟨depth, List.mem_append_left _ hEntry⟩
      · rcases exists_entry_of_branchLeaves bs hRest with
          ⟨depth, hEntry⟩
        exact ⟨depth, List.mem_append_right _ hEntry⟩

/- So are those of a content. -/
theorem exists_entry_of_itemLeaves
    {id : Nat}
    {c : Choice}
    (items : List Item)
    (hLeaf : (id, .choice c) ∈ itemLeaves items) :
    ∃ depth, .choice depth c ∈ itemEntries items := by
  cases items with
  | nil => simp at hLeaf
  | cons i items =>
      rw [itemLeaves_cons] at hLeaf
      rw [itemEntries]
      rcases List.mem_append.mp hLeaf with hFirst | hRest
      · rcases i.exists_entry_of_leaf hFirst with
          ⟨depth, hEntry⟩
        exact ⟨depth, List.mem_append_left _ hEntry⟩
      · rcases exists_entry_of_itemLeaves items hRest with
          ⟨depth, hEntry⟩
        exact ⟨depth, List.mem_append_right _ hEntry⟩

end

end BranchingStory

------------------------------------------------------------
-- Bodies Of Choices
------------------------------------------------------------

namespace BranchingStory

open Reading

/-
  Whether a choice of a story is what a body is read as without
  an error.  Tags that were waiting stand ahead of its own, and
  its names have the meaning that the outline gives them.
-/
def Choice.IsWrittenAs
    (body : List Char)
    (c : Choice) : Prop :=
  ∃ line sticky d d' written tags o knot,
    (readChoice line sticky body).run d = .ok (written, d') ∧
      d'.IsClean ∧
        c = (Choice.withTags tags written).resolve o knot

/- An outline that is built without errors follows its lines. -/
theorem buildOutline_follows
    {source : String}
    {ls : List ScriptLine}
    {d d₁ d₂ d₃ : Draft}
    {o : Outline}
    (hLines : (classifyScript source).run d = .ok (ls, d₁))
    (hBuild : (buildOutline ls).run d₂ = .ok (some o, d₃))
    (hClean : d₃.IsClean) :
    List.Forall₂ KnotFollows
      (sections ScriptLine.isKnot ls) o.knots.entries := by
  rcases classifyScript_idles source d ls d₁ hLines with
    ⟨_, _, hProper, _, _⟩
  rcases buildOutline_ok hBuild with
    ⟨b, d₄, b', start, hAll, hClose, _, rfl⟩
  have hSettles := b.closeKnot_follows d₄.numbered ls
  have hAdds := hSettles.idles d₄ b' d₃ hClose
  rcases
      Builder.foldlM_add_takes ls hProper .empty d₂ b d₄
        hAll (hAdds.1.isClean hClean) []
        (Builder.isSound_empty_of _)
        Builder.follows_empty with
    ⟨hSound, hFollows⟩
  exact (hSettles.checks d₄ b' d₃ hClose).2 hClean hSound
    hFollows

/- Every choice of a story is written on a line of its script. -/
theorem Story.exists_line_of_choice
    {source : String}
    {story : Story}
    (hRead : Story.read source = .ok story)
    {id : Nat}
    {c : Choice}
    (hLeaf : (id, .choice c) ∈ story.outline.leaves) :
    ∃ ls d, (classifyScript source).run ⟨[], 0⟩ =
        .ok (ls, d) ∧
      ∃ l ∈ ls, c.IsWrittenAs l.text.toList := by
  rcases Story.read_eq_ok_iff.mp hRead with
    ⟨o, d, hRun, hNone, rfl⟩
  have hClean := Draft.any_isError_eq_false.mp hNone
  rcases readOutline_ensures source _ _ d hRun hClean rfl with
    ⟨_, _, hSame, hFrom⟩
  cases hSame
  unfold readOutline at hRun
  rcases run_bind_ok.mp hRun with ⟨ls, d₁, hLines, hRun⟩
  rcases run_bind_ok.mp hRun with ⟨o?, d₂, hBuild, hRun⟩
  refine ⟨ls, d₁, hLines, ?_⟩
  cases o? with
  | none => cases (run_pure_ok.mp hRun).1
  | some o' =>
      rcases run_bind_ok.mp hRun with ⟨_, d₃, hCheck, hRun⟩
      rcases run_pure_ok.mp hRun with ⟨hSame, rfl⟩
      cases hSame
      have hClean₂ := (o.checks d₂ _ _ hCheck).1.isClean hClean
      have hFollows := buildOutline_follows hLines hBuild hClean₂
      rcases Outline.mem_leaves_resolve
          hFrom.isBuilt.attached hLeaf with
        ⟨k, hKnot, ⟨id', leaf⟩, hOwn, hResolved⟩
      rcases (Table.mem_values_iff _ _).mp hKnot with
        ⟨name, hEntry⟩
      rcases List.mem_flatMap.mp hOwn with
        ⟨stitch, hStitch, hBody⟩
      rcases (Table.mem_values_iff _ _).mp hStitch with
        ⟨name', hEntry'⟩
      rw [Body.leaves_eq] at hBody
      cases leaf with
      | choice written =>
          cases hResolved
          rcases List.mem_cons.mp hBody with hBlock | hItem
          · cases hBlock
          · rcases exists_entry_of_itemLeaves _ hItem with
              ⟨depth, hWritten⟩
            rcases exists_line_of_entry hFollows hEntry hEntry'
                hWritten with
              ⟨l, hLine, hReadAs⟩
            refine ⟨l, hLine, ?_⟩
            cases hReadAs with
            | choice tags hClean' hChoice =>
                exact ⟨_, _, _, _, _, tags, o, k.name, hChoice,
                  hClean', rfl⟩
      | block => cases hResolved
      | line content => cases hResolved
      | assign name value => cases hResolved

end BranchingStory
