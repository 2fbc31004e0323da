import BranchingStory.Proofs.Faults
import BranchingStory.Proofs.Restored
import BranchingStory.Proofs.VariableStore

/-
  This file follows a story from a state that was restored,
  which may be one that the story never comes to by itself.
  What it remembers stays in order whatever is asked of it, and
  only an index that is out of range can stop it beyond the
  faults of any story.  A restored state that fits its story is
  as good as one that it comes to.

  Key definitions include:
    * `Demand`
    * `Demand.action`
    * `Demand.Admits`
    * `State.after`
    * `Memory.Keeps`

  Key theorems include:
    * `restore_iff_isSavable`
    * `laws_of_memory`
    * `Demand.action_obeys`
    * `Demand.action_ends`
    * `exists_restored_out_of_range`
    * `only_indices_stop_loaded_stories`
-/

------------------------------------------------------------
-- Demands
------------------------------------------------------------

namespace BranchingStory

/- What can be asked of a story. -/
inductive Demand where
  | resume (steps : Nat)
  | choose (index : Int)
  | moveTo (knot : String) (stitch : Option String)
  | setVariable (name : String) (given : Given)

/- What a story does when it is asked. -/
def Demand.action
    (o : Outline) : Demand → Play Unit
  | .resume steps => do
      let _ ← BranchingStory.resume o steps
  | .choose index => BranchingStory.choose index
  | .moveTo knot stitch => BranchingStory.moveTo o knot stitch
  | .setVariable name given =>
      BranchingStory.setVariable o name given

/- The state after demands, whether or not they are met. -/
def State.after
    (o : Outline)
    (ds : List Demand)
    (s : State) : State :=
  ds.foldl (fun s d => ((d.action o).runFrom s).2) s

/-
  The faults that a demand can be met with wherever a story
  comes to by itself.
-/
inductive Demand.Admits : Demand → PlayError → Prop where
  | foreseen
      {steps : Nat}
      {e : PlayError}
      (hForeseen : e.isForeseen = true) :
      Admits (.resume steps) e
  | nothing
      {index : Int} :
      Admits (.choose index) .nothingToChoose
  | invalid
      {index : Int}
      {offered : Nat} :
      Admits (.choose index) (.invalidChoice index offered)
  | knot
      {knot : String}
      {stitch : Option String} :
      Admits (.moveTo knot stitch) (.unknownKnot knot)
  | stitch
      {knot stitch : String} :
      Admits (.moveTo knot (some stitch))
        (.unknownStitch stitch knot)
  | undeclared
      {name : String}
      {given : Given} :
      Admits (.setVariable name given) (.unknownVariable name)
  | constant
      {name : String}
      {given : Given} :
      Admits (.setVariable name given) (.constant name)
  | kind
      {name got : String}
      {given : Given}
      {k : Kind} :
      Admits (.setVariable name given)
        (.typeMismatch name k got)
  | target
      {name target : String}
      {given : Given} :
      Admits (.setVariable name given) (.unknownTarget target)

end BranchingStory

------------------------------------------------------------
-- States That Fit
------------------------------------------------------------

namespace BranchingStory

open Play

variable {o : Outline}
variable {s : State}

/- A state that fits keeps fitting whatever is asked of it. -/
theorem Demand.action_ends
    (hSound : o.IsSound)
    (hFits : s.Fits o)
    (d : Demand) :
    Ends (d.action o) s
      (fun _ s' => s'.Fits o)
      (fun e s' => s'.Fits o ∧ d.Admits e) := by
  cases d with
  | resume steps =>
      rw [action, ends_bind]
      exact (resume_ends hSound steps hFits).mono
        (fun _ _ hEnds => hEnds.1)
        (fun _ _ hEnds => ⟨hEnds.1, .foreseen hEnds.2⟩)
  | choose index =>
      refine (choose_ends hSound index hFits).mono
        (fun _ _ hEnds => hEnds.1) ?_
      rintro e s' ⟨rfl, rfl | rfl⟩
      · exact ⟨hFits, .nothing⟩
      · exact ⟨hFits, .invalid⟩
  | moveTo knot stitch =>
      refine (moveTo_ends hSound knot stitch hFits).mono
        (fun _ _ hEnds => hEnds) ?_
      rintro e s' ⟨rfl, rfl | ⟨name, rfl, rfl⟩⟩
      · exact ⟨hFits, .knot⟩
      · exact ⟨hFits, .stitch⟩
  | setVariable name given =>
      refine (setVariable_ends name given hFits).mono
        (fun _ _ hEnds => hEnds) ?_
      rintro e s' ⟨rfl, rfl | rfl | ⟨k, got, rfl⟩ | ⟨t, rfl⟩⟩
      · exact ⟨hFits, .undeclared⟩
      · exact ⟨hFits, .constant⟩
      · exact ⟨hFits, .kind⟩
      · exact ⟨hFits, .target⟩

/- A state that fits does so after any demands. -/
theorem State.Fits.after
    (hSound : o.IsSound)
    (hFits : s.Fits o)
    (ds : List Demand) :
    (s.after o ds).Fits o := by
  induction ds generalizing s with
  | nil => exact hFits
  | cons d ds ih =>
      apply ih
      exact ((d.action_ends hSound hFits).mono
        (fun _ _ hEnds => hEnds)
        (fun _ _ hEnds => hEnds.1)).state

end BranchingStory

------------------------------------------------------------
-- What A Story Remembers
------------------------------------------------------------

namespace BranchingStory

open Play

/-
  Whether a memory has a value for each variable of a story and
  for no other name, all values fit, and the constants hold
  what they hold in another memory.
-/
structure Memory.Keeps
    (o : Outline)
    (m before : Memory) : Prop where
  names : m.vars.keys = o.vars.keys
  fits : m.Fits o o.IsPath
  constants : ∀ name, ¬ o.IsFree name →
    m.vars.lookup name = before.vars.lookup name

variable {o : Outline}
variable {s : State}
variable {before : Memory}

/- A memory is kept if a variable is set to a fitting value. -/
theorem Memory.Keeps.setVariable
    (hKeeps : s.memory.Keeps o before)
    {name : String}
    {d : Declaration}
    {v : Value}
    (hLookup : o.vars.lookup name = some d)
    (hFree : o.IsFree name)
    (hFits : v.Fits o.IsPath d.initial.kind) :
    (s.setVariable name v).memory.Keeps o before where
  names := by
    refine (Table.keys_insert_of_mem ?_ v).trans hKeeps.names
    rw [hKeeps.names]
    exact Table.mem_keys_of_lookup hLookup
  fits := State.fits_setVariable hKeeps.fits hLookup hFits
  constants := by
    intro name' hConstant
    have hOther : name ≠ name' := by
      rintro rfl
      exact hConstant hFree
    rw [← hKeeps.constants name' hConstant]
    exact (Table.lookup_insert _ _ _ _).trans (if_neg hOther)

/- Every expression of a part that is sound has a kind. -/
theorem Leaf.IsSound.exists_kind
    {l : Leaf}
    (hLeaf : l.IsSound o)
    {e : Expr}
    (hExpr : e ∈ l.expressions) :
    ∃ k, HasKind o e k := by
  rcases List.mem_append.mp hExpr with hOwn | hInner
  · cases l with
    | assign name value =>
        cases List.mem_singleton.mp hOwn
        rcases hLeaf.assigned name e rfl with ⟨d, _, hKind⟩
        exact ⟨_, hKind⟩
    | choice c => exact hLeaf.conditions c rfl e hOwn
    | block => cases hOwn
    | line content => cases hOwn
  · rcases List.mem_filterMap.mp hInner with ⟨f, hMem, hSome⟩
    have hFragment := hLeaf.fragments f hMem
    cases f with
    | insertion e' =>
        cases hSome
        exact hFragment
    | conditional c t f =>
        cases hSome
        exact hFragment
    | _ => cases hSome

/-
  Whatever a story does keeps its memory in order, and is
  stopped only by foreseen faults or by an index.
-/
theorem laws_of_memory
    (hSound : o.IsSound)
    (hSpares : o.SparesConstants)
    (before : Memory) :
    Laws o (fun m => m.Keeps o before) fun e _ =>
      e.isForeseen = true ∨ e = .indexOutOfRange where
  evaluates := by
    intro p hLeaf e hExpr m fault hKeeps hFault
    rcases (hSound.leaves p hLeaf).exists_kind hExpr with
      ⟨k, hKind⟩
    have hEval :=
      hKind.eval (fun _ => Outline.isPath_path) hKeeps.fits
    rw [hFault] at hEval
    exact Or.inl hEval
  writes := fun _ _ _ _ _ _ _ _ _ => Or.inl rfl
  assigns := by
    rintro ⟨id, l⟩ hLeaf name value rfl s hKeeps
    rcases
        (hSound.leaves _ hLeaf).assigned name value rfl with
      ⟨d, hLookup, hKind⟩
    refine (assign_ends hLookup hKind
      (fun _ => Outline.isPath_path) hKeeps.fits).mono ?_ ?_
    · rintro _ s' ⟨v, hFits, rfl⟩
      exact ⟨hKeeps.setVariable hLookup
        (hSpares id name value hLeaf) hFits, trivial⟩
    · rintro e s' ⟨rfl, fault, rfl, hNumeric⟩
      exact ⟨hKeeps, Or.inl hNumeric⟩
  diverts := by
    intro p hLeaf d hDivert s hKeeps
    refine (divertPlace?_ends hSound
      ((hSound.leaves p hLeaf).fragments _ hDivert)
      hKeeps.fits).mono ?_ fun _ _ hNever => hNever.elim
    rintro a? s' ⟨rfl, _⟩
    exact ⟨hKeeps, trivial⟩
  visits := fun _ _ hKeeps =>
    ⟨hKeeps.names, hKeeps.fits, hKeeps.constants⟩
  places := by
    intro e m hPlace _
    cases e with
    | indexOutOfRange => exact Or.inr rfl
    | nothingToChoose => cases hPlace
    | _ => first | exact Or.inl rfl | cases hPlace

end BranchingStory

------------------------------------------------------------
-- Any State
------------------------------------------------------------

namespace BranchingStory

open Play

variable {o : Outline}
variable {s : State}
variable {before : Memory}

/- A choice is met, refused, or made without a place. -/
theorem choose_obeys
    (I : Memory → Prop)
    (index : Int) :
    Obeys I
      (fun e _ => (Demand.choose index).Admits e ∨
        e = .indexOutOfRange)
      (choose index) fun _ => True := by
  intro s hMemory
  unfold choose
  rw [ends_bind, ends_get]
  split
  · exact ⟨hMemory, Or.inl .nothing⟩
  · split
    · exact ⟨hMemory, Or.inl .invalid⟩
    · split
      · exact ⟨hMemory, Or.inl .invalid⟩
      · next x hOffer =>
          -- The branch is taken only if there is a frame.
          unfold takeBranch
          simp only [ends_bind, ends_set, ends_modify, ends_get]
          split
          · exact ⟨hMemory, Or.inr rfl⟩
          · exact ⟨hMemory, trivial⟩

/- A story is moved, unless the place is unknown. -/
theorem moveTo_obeys
    (I : Memory → Prop)
    (knot : String)
    (stitch : Option String) :
    Obeys I
      (fun e _ => (Demand.moveTo knot stitch).Admits e ∨
        e = .indexOutOfRange)
      (moveTo o knot stitch) fun _ => True := by
  unfold moveTo
  split
  · next e hMissing =>
      apply Obeys.throw
      rcases findLocation_error hMissing with
        rfl | ⟨name, rfl, rfl⟩
      · exact fun m _ => Or.inl .knot
      · exact fun m _ => Or.inl .stitch
  · exact fun s hMemory => ⟨hMemory, trivial⟩

/- A variable is set to a value that fits it, if it is free. -/
theorem setVariable_obeys
    (before : Memory)
    (name : String)
    (given : Given) :
    Obeys (fun m => m.Keeps o before)
      (fun e _ => (Demand.setVariable name given).Admits e ∨
        e = .indexOutOfRange)
      (setVariable o name given) fun _ => True := by
  unfold setVariable
  split
  · exact Obeys.throw fun m _ => Or.inl .undeclared
  · next d hLookup =>
      split
      · exact Obeys.throw fun m _ => Or.inl .constant
      · next hVariable =>
          split
          · next e hRefused =>
              apply Obeys.throw
              rcases admitValue_error hRefused with
                ⟨got, rfl⟩ | ⟨target, rfl⟩
              · exact fun m _ => Or.inl .kind
              · exact fun m _ => Or.inl .target
          · next v hAdmitted =>
              have hFree : o.IsFree name := by
                intro d' hLookup'
                rw [hLookup] at hLookup'
                cases hLookup'
                exact Bool.eq_false_iff.mpr hVariable
              intro s hKeeps
              exact ⟨hKeeps.setVariable hLookup hFree
                (admitValue_ok hAdmitted), trivial⟩

/-
  Whatever is asked of a story keeps its memory in order, and
  is met with the faults of any story or with an index.
-/
theorem Demand.action_obeys
    (hSound : o.IsSound)
    (hSpares : o.SparesConstants)
    (before : Memory)
    (d : Demand) :
    Obeys (fun m => m.Keeps o before)
      (fun e _ => d.Admits e ∨ e = .indexOutOfRange)
      (d.action o) fun _ => True := by
  cases d with
  | resume steps =>
      intro s hKeeps
      have hLaws := laws_of_memory hSound hSpares before
      rw [action, ends_bind]
      refine (hLaws.resume_obeys (fun _ _ => Or.inl rfl) steps
        s hKeeps).mono (fun _ _ hEnds => hEnds) ?_
      rintro e s' ⟨hKeeps', hForeseen | hIndex⟩
      · exact ⟨hKeeps', Or.inl (.foreseen hForeseen)⟩
      · exact ⟨hKeeps', Or.inr hIndex⟩
  | choose index => exact choose_obeys _ index
  | moveTo knot stitch => exact moveTo_obeys _ knot stitch
  | setVariable name given =>
      exact setVariable_obeys before name given

/- The memory stays in order after any demands. -/
theorem State.keeps_after
    (hSound : o.IsSound)
    (hSpares : o.SparesConstants)
    (hKeeps : s.memory.Keeps o before)
    (ds : List Demand) :
    (s.after o ds).memory.Keeps o before := by
  induction ds generalizing s with
  | nil => exact hKeeps
  | cons d ds ih =>
      apply ih
      exact ((d.action_obeys hSound hSpares before s
        hKeeps).mono
          (fun _ _ hEnds => hEnds.1)
          (fun _ _ hEnds => hEnds.1)).state

end BranchingStory

------------------------------------------------------------
-- Accepted States
------------------------------------------------------------

namespace BranchingStory

open Play

variable {o : Outline}
variable {s : State}

/-
  The states that are accepted are those that can be saved and
  whose keys can be read back.
-/
theorem restore_iff_isSavable
    (hSound : o.IsSound) :
    (∃ v, restore o v = .ok s) ↔
      s.IsSavable o ∧ s.HasShortKeys := by
  constructor
  · rintro ⟨v, hOk⟩
    exact State.isSavable_of_restore hSound hOk
  · rintro ⟨hSavable, hShort⟩
    have hRecovers :=
      State.restore_save_recovers hSound hSavable ""
    exact ⟨s.save "", hRecovers.ok hShort⟩

/- What a state remembers that can be saved is in order. -/
theorem State.IsSavable.keeps
    (hSavable : s.IsSavable o) :
    s.memory.Keeps o s.memory :=
  ⟨hSavable.names, hSavable.fits, fun _ _ => rfl⟩

/- Constants that are kept are those of the memory before. -/
theorem Memory.Keeps.keepsConstants
    {s' : State}
    (hKeeps : s'.memory.Keeps o s.memory)
    (hConstants : s.KeepsConstants o) :
    s'.KeepsConstants o := by
  intro name d hLookup hConstant
  rw [hKeeps.constants name ?_]
  · exact hConstants name d hLookup hConstant
  · intro hFree
    rw [hFree d hLookup] at hConstant
    cases hConstant

/- A story does not go on before the start of a block. -/
theorem resume_before_block
    {f : Frame}
    {fs : List Frame}
    {items : List Item}
    (hReady : s.status = .ready)
    (hFrames : s.frames = f :: fs)
    (hBlock : o.block? f.block = some items)
    (hBefore : f.index < -(items.length : Int))
    (steps : Nat) :
    (resume o (steps + 1)).runFrom s =
      (.error .indexOutOfRange, s) := by
  have hItem : itemAt? items f.index = none := by
    rw [itemAt?, if_neg (by omega), if_neg (by omega)]
  have hStep :
      (step o).runFrom s = (.error .indexOutOfRange, s) := by
    unfold step itemAt
    simp only [runFrom_bind, runFrom_get, hFrames, hBlock,
      hItem]
    rw [if_neg (by omega)]
    rfl
  unfold resume
  simp only [runFrom_bind, runFrom_get, hReady, follow, hStep]

/-
  Every story accepts a state in which it can not go on: one
  whose only frame stands before the start of its block.
-/
theorem exists_restored_out_of_range
    (hSound : o.IsSound) :
    ∃ v s, restore o v = .ok s ∧
      ∀ steps, (resume o (steps + 1)).runFrom s =
        (.error .indexOutOfRange, s) := by
  have hStart := (State.fits_start hSound 0).isSavable hSound
  rcases Option.isSome_iff_exists.mp hSound.start with
    ⟨stitch, hStitch⟩
  have hBlock :=
    Outline.block?_body hSound.nodup
      (Outline.body_mem_bodies hStitch)
  let f : Frame :=
    ⟨stitch.body.id, -(stitch.body.items.length + 1 : Int)⟩
  let s : State := { State.start o 0 with frames := [f] }
  have hSavable : s.IsSavable o :=
    { hStart with
      fits := hStart.fits
      frames := by
        -- Only the block of a frame is checked.
        intro g hMem
        cases List.mem_singleton.mp hMem
        refine ⟨hSound.lt_size
          (Outline.mem_ids_of_block? hBlock), ?_⟩
        rw [hBlock]
        rfl }
  rcases (restore_iff_isSavable hSound).mpr
    ⟨hSavable, ⟨nofun, nofun, nofun⟩⟩ with ⟨v, hOk⟩
  have hBefore :
      f.index < -(stitch.body.items.length : Int) := by
    dsimp only [f]
    omega
  exact ⟨v, s, hOk,
    resume_before_block rfl rfl hBlock hBefore⟩

end BranchingStory

------------------------------------------------------------
-- Loaded Stories
------------------------------------------------------------

namespace BranchingStory

/-
  What is accepted as a save of a story that can be read is
  what can be saved, and no more is known of where it is.  From
  then on the story remembers what fits it, keeps its constants
  as they were accepted, and is stopped only as any story is,
  or by an index that is out of range.  It is never stopped by
  an index if the accepted state fits the story; but every
  story accepts a state in which an index stops it at once.
-/
theorem only_indices_stop_loaded_stories
    {source : String}
    {story : Story}
    (hRead : Story.read source = .ok story) :
    (∀ s, (∃ v, restore story.outline v = .ok s) ↔
      s.IsSavable story.outline ∧ s.HasShortKeys) ∧
    (∀ v s, restore story.outline v = .ok s → ∀ ds,
      (s.after story.outline ds).memory.Keeps story.outline
          s.memory ∧
        ∀ d e s', (Demand.action story.outline d).runFrom
            (s.after story.outline ds) = (.error e, s') →
          d.Admits e ∨ e = .indexOutOfRange) ∧
    (∀ v s, restore story.outline v = .ok s →
      s.Fits story.outline → s.KeepsConstants story.outline →
        ∀ ds, (s.after story.outline ds).Fits story.outline ∧
          (s.after story.outline ds).KeepsConstants
              story.outline ∧
            ∀ d e s', (Demand.action story.outline d).runFrom
                (s.after story.outline ds) = (.error e, s') →
              d.Admits e) ∧
    ∃ v s, restore story.outline v = .ok s ∧
      ∀ steps, (resume story.outline (steps + 1)).runFrom s =
        (.error .indexOutOfRange, s) := by
  have hSound := Story.isSound_of_read hRead
  have hSpares := Story.sparesConstants_of_read hRead
  have hKeeps {v : Json} {s : State}
      (hOk : restore story.outline v = .ok s)
      (ds : List Demand) :
      (s.after story.outline ds).memory.Keeps story.outline
        s.memory :=
    State.keeps_after hSound hSpares
      (State.isSavable_of_restore hSound hOk).1.keeps ds
  refine ⟨fun s => restore_iff_isSavable hSound, ?_, ?_,
    exists_restored_out_of_range hSound⟩
  · intro v s hOk ds
    refine ⟨hKeeps hOk ds, ?_⟩
    intro d e s' hRun
    exact ((d.action_obeys hSound hSpares s.memory _
      (hKeeps hOk ds)).of_error hRun).2
  · intro v s hOk hFits hConstants ds
    have hLater := hFits.after hSound ds
    refine ⟨hLater, (hKeeps hOk ds).keepsConstants hConstants,
      ?_⟩
    intro d e s' hRun
    exact ((d.action_ends hSound hLater).of_error hRun).2

/- A script of one choice. -/
def choiceScript : String :=
  "* Go\n"

/- The script can be read. -/
theorem read_choiceScript :
    ∃ story, Story.read choiceScript = .ok story := by
  have hCheck :
      ((Story.read choiceScript).toOption.any
        fun _ => true) = true := by
    decide +kernel
  rcases exists_ok_of_any hCheck with ⟨story, hRead, _⟩
  exact ⟨story, hRead⟩

/-
  A story of one choice.  It accepts a state in which an index
  stops it, and which is none that fits.  It accepts its start
  as well, and whatever is asked of it then is met with what
  any story is met with.
-/
theorem only_indices_stop_loaded_stories_choice :
    ∃ story v s v',
      Story.read choiceScript = .ok story ∧
        restore story.outline v = .ok s ∧
        (resume story.outline 9).runFrom s =
          (.error .indexOutOfRange, s) ∧
        ¬ s.Fits story.outline ∧
        restore story.outline v' =
          .ok (State.start story.outline 0) ∧
        ∀ ds d e s',
          (Demand.action story.outline d).runFrom
              ((State.start story.outline 0).after
                story.outline ds) = (.error e, s') →
            d.Admits e := by
  rcases read_choiceScript with ⟨story, hRead⟩
  have hSound := Story.isSound_of_read hRead
  have hStart := State.fits_start hSound 0
  have hConstants :=
    (Unfolds.start 0).keepsConstants
      (Story.sparesConstants_of_read hRead)
  rcases only_indices_stop_loaded_stories hRead with
    ⟨hAccepts, _, hFitting, v, s, hOk, hRun⟩
  rcases (hAccepts (State.start story.outline 0)).mpr
      ⟨hStart.isSavable hSound, ⟨nofun, nofun, nofun⟩⟩ with
    ⟨v', hOk'⟩
  refine ⟨story, v, s, v', hRead, hOk, hRun 8, ?_, hOk', ?_⟩
  · intro hFits
    have hFault :=
      ((resume_ends hSound 9 hFits).of_error (hRun 8)).2
    cases hFault
  · intro ds
    exact (hFitting v' _ hOk' hStart hConstants ds).2.2

/-
  Not every state that is accepted can be played: an index out
  of range stops one.
-/
theorem indices_stop_loaded_stories :
    ¬ ∀ source story,
      Story.read source = .ok story →
        ∀ v s, restore story.outline v = .ok s →
          ∀ ds d e s',
            (Demand.action story.outline d).runFrom
                (s.after story.outline ds) = (.error e, s') →
              e ≠ .indexOutOfRange := by
  intro hAlways
  rcases read_choiceScript with ⟨story, hRead⟩
  rcases exists_restored_out_of_range
      (Story.isSound_of_read hRead) with ⟨v, s, hOk, hRun⟩
  apply hAlways _ story hRead v s hOk [] (.resume 9) _ s ?_ rfl
  change Play.runFrom s (resume story.outline 9 >>= _) = _
  rw [Play.runFrom_bind, hRun 8]

end BranchingStory
