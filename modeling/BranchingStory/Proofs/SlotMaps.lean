import BranchingStory.Proofs.FileTrees
import BranchingStory.Proofs.JsonRoundTrip
import BranchingStory.Save.Slots

/-
  This file shows that the slots of all stories together are a
  map.  After any calls, a slot of a story holds what was last
  written to it, and nothing where nothing was written; and a
  number that no slot has changes nothing.

  Key definitions include:
    * `slotName`
    * `SlotCall`
    * `SlotCall.run`
    * `lastWritten`
    * `FileTree.Keeps`
    * `StoreIsUsable`
    * `StoreIsReady`

  Key theorems include:
    * `FileTree.Keeps.write`
    * `FileTree.WillKeep.write`
    * `SlotCall.run_keeps`
    * `slots_hold_last_payloads`
-/

------------------------------------------------------------
-- Calls
------------------------------------------------------------

namespace BranchingStory

/- What can be asked of the slots of a story. -/
inductive SlotOperation where
  | write (slot : Int) (payload : Json)
  | read (slot : Int)
  | probe (slot : Int)
  | list

/- A call to the slots of a story, of which there are some. -/
structure SlotCall where
  story : String
  count : Int
  operation : SlotOperation

/- What a call that ends well answers. -/
inductive SlotAnswer where
  | done
  | payload (v : Json)
  | taken (b : Bool)
  | summaries (all : List SlotSummary)

namespace SlotCall

/- The slots that a call is made to. -/
def store
    (base : FilePath)
    (c : SlotCall) : SlotStore :=
  .ofStory base c.story c.count

/- The answer to a call, and the tree of files after it. -/
def run
    (base : FilePath)
    (c : SlotCall)
    (t : FileTree) : Except SlotError SlotAnswer × FileTree :=
  match c.operation with
  | .write slot payload =>
      let (r, t') := ((c.store base).write slot payload).run t
      (r.map fun _ => .done, t')
  | .read slot =>
      (((c.store base).read t slot).map .payload, t)
  | .probe slot =>
      (((c.store base).isTaken t slot).map .taken, t)
  | .list => (((c.store base).list t).map .summaries, t)

/- What a call writes to a slot of a story, if it does. -/
def written
    (story : String)
    (slot : Int)
    (c : SlotCall) : Option Json :=
  match c.operation with
  | .write slot' payload =>
      if c.story = story ∧ slot' = slot ∧
          (1 ≤ slot ∧ slot ≤ c.count) ∧
            payload.isWritable = true then
        some payload
      else none
  | _ => none

end SlotCall

end BranchingStory

------------------------------------------------------------
-- Names Of Files
------------------------------------------------------------

namespace BranchingStory

/- The name of the file of a slot. -/
def slotName
    (slot : Int) : String :=
  s!"slot_{slot}.json"

/- The characters of the name of a slot. -/
theorem toList_slotName
    (slot : Int) :
    (slotName slot).toList =
      "slot_".toList ++
        ((toString slot).toList ++ ".json".toList) := by
  rw [← String.toList_append, ← String.toList_append,
    ← String.append_assoc]
  rfl

/- Slots are told by the names of their files. -/
theorem slotName_injective :
    Function.Injective slotName := by
  intro i j hSame
  have hChars := congrArg String.toList hSame
  rw [toList_slotName, toList_slotName,
    List.append_cancel_left_eq, List.append_cancel_right_eq]
    at hChars
  exact toString_injective (String.toList_inj.mp hChars)

/- The name of a slot is not empty, and no way up. -/
theorem slotName_ne
    (slot : Int) :
    slotName slot ≠ "" ∧ slotName slot ≠ ".." := by
  constructor
  all_goals
    intro hSame
    have hChars := congrArg String.toList hSame
    rw [toList_slotName] at hChars
    cases hChars

/- Files of slots have the same place if they are the same. -/
theorem slotPlace_inj
    {place : List String}
    {story story' : String}
    {slot slot' : Int} :
    place ++ [story, slotName slot] =
        place ++ [story', slotName slot'] ↔
      story = story' ∧ slot = slot' := by
  rw [List.append_cancel_left_eq]
  simp [slotName_injective.eq_iff]

/- The file of a slot is below the directory of its story. -/
theorem SlotStore.path_eq
    {story : String}
    (hPlain : IsPlainName story)
    (base : FilePath)
    (count slot : Int) :
    (SlotStore.ofStory base story count).path slot =
      (base.below story).below (slotName slot) := by
  rw [ofStory, path, FilePath.child_of_isPlainName hPlain]
  rfl

end BranchingStory

------------------------------------------------------------
-- Slots In A Tree
------------------------------------------------------------

namespace BranchingStory

/-
  Whether a tree of files keeps a map from the slots of some
  stories: below the directory for all stories, the file of a
  slot holds the text of the value that the map has for it.
-/
structure FileTree.Keeps
    (base : FilePath)
    (place : List String)
    (S : String → Prop)
    (kept : String → Int → Option Json)
    (t : FileTree) : Prop where
  base : t.Has base place .directory
  noFile : ∀ story, S story → ∀ content,
    t.entryAt (place ++ [story]) ≠ some (.file content)
  slots : ∀ story, S story → ∀ slot,
    t.entryAt (place ++ [story, slotName slot]) =
      (kept story slot).map fun payload =>
        .file (.text payload.write)
  made : ∀ story, S story → ∀ slot,
    kept story slot ≠ none →
      t.entryAt (place ++ [story]) = some .directory
  writable : ∀ story slot payload,
    kept story slot = some payload →
      payload.isWritable = true

/-
  Whether a tree keeps such a map, or will do so as soon as the
  directory for all stories is made.
-/
inductive FileTree.WillKeep
    (base : FilePath)
    (place : List String)
    (S : String → Prop)
    (kept : String → Int → Option Json)
    (t : FileTree) : Prop where
  | now (hKeeps : t.Keeps base place S kept)
  | later
      {t' : FileTree}
      (hLacks : t.Lacks base)
      (hNone : ∀ story slot, kept story slot = none)
      (hMake :
        (Filing.makeDirectory base).run t = (.ok (), t'))
      (hKeeps : t'.Keeps base place S kept)

variable {base : FilePath}
variable {place : List String}
variable {S : String → Prop}
variable {kept : String → Int → Option Json}
variable {t : FileTree}
variable {story : String}
variable {slot : Int}

namespace FileTree

/- The directory of a story, once it is made. -/
theorem Keeps.has_story
    (hKeeps : t.Keeps base place S kept)
    (hPlain : IsPlainName story)
    (hUsable : (base.below story).IsUsable)
    (hMade :
      t.entryAt (place ++ [story]) = some .directory) :
    t.Has (base.below story) (place ++ [story]) .directory :=
  ⟨hKeeps.base.locate_below hPlain.notEmpty hPlain.notAbove
    hUsable, hMade⟩

/- A slot with a value has the file of that value. -/
theorem Keeps.has_slot
    (hKeeps : t.Keeps base place S kept)
    (hStory : S story)
    (hPlain : IsPlainName story)
    (hUsable :
      ((base.below story).below (slotName slot)).IsUsable)
    {payload : Json}
    (hKept : kept story slot = some payload) :
    t.Has ((base.below story).below (slotName slot))
      (place ++ [story, slotName slot])
      (.file (.text payload.write)) := by
  rcases slotName_ne slot with ⟨hName, hAbove⟩
  have hShelf :=
    hKeeps.has_story hPlain (hUsable.of_below hName)
      (hKeeps.made story hStory slot (by simp [hKept]))
  have hLeads := hShelf.locate_below hName hAbove hUsable
  rw [List.append_assoc] at hLeads
  refine ⟨hLeads, ?_⟩
  rw [hKeeps.slots story hStory slot, hKept]
  rfl

/- A slot without a value has no file. -/
theorem Keeps.lacks_slot
    (hKeeps : t.Keeps base place S kept)
    (hStory : S story)
    (hPlain : IsPlainName story)
    (hUsable :
      ((base.below story).below (slotName slot)).IsUsable)
    (hKept : kept story slot = none) :
    t.Lacks ((base.below story).below (slotName slot)) := by
  rcases slotName_ne slot with ⟨hName, hAbove⟩
  have hShort := hUsable.of_below hName
  cases hEntry : t.entryAt (place ++ [story]) with
  | none =>
      have hLacks : t.Lacks (base.below story) :=
        Or.inr ⟨_, hKeeps.base.locate_below hPlain.notEmpty
          hPlain.notAbove hShort, hEntry⟩
      exact Or.inl (hLacks.locate_below hName hUsable)
  | some e =>
      cases e with
      | file content =>
          exact absurd hEntry
            (hKeeps.noFile story hStory content)
      | directory =>
          have hShelf := hKeeps.has_story hPlain hShort hEntry
          have hLeads :=
            hShelf.locate_below hName hAbove hUsable
          rw [List.append_assoc] at hLeads
          refine Or.inr ⟨_, hLeads, ?_⟩
          have hNone := hKeeps.slots story hStory slot
          rw [hKept] at hNone
          exact hNone

/- The same as long as there is no directory for stories. -/
theorem WillKeep.lacks_slot
    (hKeeps : t.WillKeep base place S kept)
    (hStory : S story)
    (hPlain : IsPlainName story)
    (hUsable :
      ((base.below story).below (slotName slot)).IsUsable)
    (hKept : kept story slot = none) :
    t.Lacks ((base.below story).below (slotName slot)) := by
  cases hKeeps with
  | now hKeeps =>
      exact hKeeps.lacks_slot hStory hPlain hUsable hKept
  | later hLacks _ _ _ =>
      rcases slotName_ne slot with ⟨hName, _⟩
      have hNone :=
        hLacks.locate_below hPlain.notEmpty
          (hUsable.of_below hName)
      exact Or.inl (Lacks.locate_below (Or.inl hNone) hName
        hUsable)

/- A slot with a value has its file in any case. -/
theorem WillKeep.has_slot
    (hKeeps : t.WillKeep base place S kept)
    (hStory : S story)
    (hPlain : IsPlainName story)
    (hUsable :
      ((base.below story).below (slotName slot)).IsUsable)
    {payload : Json}
    (hKept : kept story slot = some payload) :
    t.Has ((base.below story).below (slotName slot))
        (place ++ [story, slotName slot])
        (.file (.text payload.write)) ∧
      payload.isWritable = true := by
  cases hKeeps with
  | now hKeeps =>
      exact ⟨hKeeps.has_slot hStory hPlain hUsable hKept,
        hKeeps.writable _ _ _ hKept⟩
  | later _ hNone _ _ =>
      rw [hNone] at hKept
      cases hKept

end FileTree

end BranchingStory

------------------------------------------------------------
-- Answers
------------------------------------------------------------

namespace BranchingStory

namespace SlotStore

variable {store : SlotStore}
variable {t : FileTree}
variable {slot : Int}
variable {place : List String}
variable {payload : Json}

/- The numbers of slots pass, others are refused. -/
theorem check_of_range
    (hRange : 1 ≤ slot ∧ slot ≤ store.count) :
    store.check slot = .ok () := by
  rw [check, if_pos hRange]

/- An empty slot is not taken. -/
theorem isTaken_of_lacks
    (hRange : 1 ≤ slot ∧ slot ≤ store.count)
    (hLacks : t.Lacks (store.path slot)) :
    store.isTaken t slot = .ok false := by
  rw [isTaken, check_of_range hRange, hLacks.holds]
  rfl

/- A slot with a file is taken. -/
theorem isTaken_of_has
    {e : FileEntry}
    (hRange : 1 ≤ slot ∧ slot ≤ store.count)
    (hHas : t.Has (store.path slot) place e) :
    store.isTaken t slot = .ok true := by
  rw [isTaken, check_of_range hRange, hHas.holds]
  rfl

/- Nothing is read from an empty slot. -/
theorem read_of_lacks
    (hRange : 1 ≤ slot ∧ slot ≤ store.count)
    (hLacks : t.Lacks (store.path slot)) :
    store.read t slot =
      .error (.unreadable
        (.file ⟨.missing, store.path slot⟩)) := by
  rw [SlotStore.read, check_of_range hRange, readFile,
    hLacks.read]
  rfl

/- A file with the text of a value is read as the value. -/
theorem readFile_of_has
    {p : FilePath}
    (hHas : t.Has p place (.file (.text payload.write)))
    (hShort : payload.isWritable = true) :
    readFile t p = .ok payload.sorted := by
  rw [readFile, hHas.read, Json.unifyLineEnds_write]
  change (Json.read payload.write).mapError _ = _
  rw [Json.read_write hShort]
  rfl

/- The value in a slot is read from it. -/
theorem read_of_has
    (hRange : 1 ≤ slot ∧ slot ≤ store.count)
    (hHas :
      t.Has (store.path slot) place
        (.file (.text payload.write)))
    (hShort : payload.isWritable = true) :
    store.read t slot = .ok payload.sorted := by
  rw [SlotStore.read, check_of_range hRange,
    readFile_of_has hHas hShort]
  rfl

/- The summary of an empty slot. -/
theorem summary_of_lacks
    (hRange : 1 ≤ slot ∧ slot ≤ store.count)
    (hLacks : t.Lacks (store.path slot)) :
    store.summary t slot = .ok ⟨slot, false, none, false⟩ := by
  rw [summary, isTaken_of_lacks hRange hLacks]
  rfl

/- The summary of a slot tells how its value is described. -/
theorem summary_of_has
    (hRange : 1 ≤ slot ∧ slot ≤ store.count)
    (hHas :
      t.Has (store.path slot) place
        (.file (.text payload.write)))
    (hShort : payload.isWritable = true) :
    store.summary t slot =
      .ok ⟨slot, true, metadataOf payload.sorted, false⟩ := by
  rw [summary, isTaken_of_has hRange hHas,
    readFile_of_has hHas hShort]
  rfl

/- How a value is put into a slot. -/
theorem run_write
    (store : SlotStore)
    (slot : Int)
    (payload : Json)
    (t : FileTree) :
    (store.write slot payload).run t =
      match store.check slot with
      | .error e => (.error e, t)
      | .ok _ =>
          match (Filing.makeDirectory store.directory).run t with
          | (.error e, t') => (.error (.unwritable e), t')
          | (.ok _, t') =>
              if payload.isWritable then
                let (r, t'') :=
                  (Filing.write (store.path slot)
                    (.text payload.write)).run t'
                (r.mapError .unwritable, t'')
              else (.error .longInt, t') := by
  let made : ExceptT SlotError (StateM FileTree) Unit :=
    (Filing.makeDirectory store.directory).adapt .unwritable
  let body : ExceptT SlotError (StateM FileTree) Unit :=
    made >>= fun _ =>
      if payload.isWritable then
        (Filing.write (store.path slot)
          (.text payload.write)).adapt .unwritable
      else throw .longInt
  have hMade :
      made.run t =
        (((Filing.makeDirectory store.directory).run
            t).1.mapError .unwritable,
          ((Filing.makeDirectory store.directory).run t).2) :=
    rfl
  unfold SlotStore.write
  cases store.check slot with
  | error e => rfl
  | ok u =>
      change body.run t = _
      rw [run_bind_action, hMade]
      rcases (Filing.makeDirectory store.directory).run t with
        ⟨e | u, t'⟩
      · rfl
      · dsimp only [Except.mapError]
        split
        · rfl
        · rfl

end SlotStore

end BranchingStory

------------------------------------------------------------
-- Writing
------------------------------------------------------------

namespace BranchingStory

variable {base : FilePath}
variable {place : List String}
variable {S : String → Prop}
variable {kept : String → Int → Option Json}
variable {t t' : FileTree}
variable {story : String}
variable {count slot : Int}
variable {payload : Json}

/- A map in which a slot of a story holds another value. -/
def keptWith
    (kept : String → Int → Option Json)
    (story : String)
    (slot : Int)
    (payload : Json)
    (story' : String)
    (slot' : Int) : Option Json :=
  if story = story' ∧ slot = slot' then some payload
  else kept story' slot'

namespace FileTree

/- What is put below another place can only make directories. -/
theorem entryAt_put_ne_file
    {other : List String}
    {e : FileEntry}
    (hOther : place ≠ other)
    (hNone : ∀ content,
      t.entryAt other ≠ some (.file content))
    (content : FileContent) :
    (t.put place e).entryAt other ≠ some (.file content) := by
  rw [entryAt_put, if_neg hOther]
  cases hEntry : t.entryAt other with
  | none =>
      rw [Option.none_or]
      split
      · nofun
      · nofun
  | some e' =>
      rw [Option.some_or, ← hEntry]
      exact hNone content

/- The directory of a story changes no slot. -/
theorem Keeps.put_story
    (hKeeps : t.Keeps base place S kept)
    (hNone : t.entryAt (place ++ [story]) = none) :
    (t.put (place ++ [story]) .directory).Keeps base place S
      kept := by
  have hExtends :
      t.Extends (t.put (place ++ [story]) .directory) :=
    extends_put (by simp [hNone])
  refine ⟨hKeeps.base.of_extends hExtends, ?_, ?_, ?_,
    hKeeps.writable⟩
  · intro story' hStory content
    by_cases hSame : place ++ [story] = place ++ [story']
    · rw [entryAt_put, if_pos hSame]
      nofun
    · exact entryAt_put_ne_file hSame
        (hKeeps.noFile story' hStory) content
  · intro story' hStory slot'
    rw [entryAt_put, if_neg (by simp), if_neg (by simp),
      Option.or_none]
    exact hKeeps.slots story' hStory slot'
  · intro story' hStory slot' hSome
    exact hExtends.directories _
      (hKeeps.made story' hStory slot' hSome)

/- The file of a slot changes this slot only. -/
theorem Keeps.put_slot
    (hKeeps : t.Keeps base place S kept)
    (hStory : S story)
    (hMade : t.entryAt (place ++ [story]) = some .directory)
    (hShort : payload.isWritable = true) :
    (t.put (place ++ [story, slotName slot])
        (.file (.text payload.write))).Keeps base place S
      (keptWith kept story slot payload) := by
  have hExtends :
      t.Extends (t.put (place ++ [story, slotName slot])
        (.file (.text payload.write))) := by
    refine extends_put ?_
    rw [hKeeps.slots story hStory slot]
    cases kept story slot with
    | none => nofun
    | some payload => nofun
  refine ⟨hKeeps.base.of_extends hExtends, ?_, ?_, ?_, ?_⟩
  · intro story' hStory' content
    exact entryAt_put_ne_file (by simp)
      (hKeeps.noFile story' hStory') content
  · intro story' hStory' slot'
    rw [entryAt_put, keptWith]
    by_cases hSame : story = story' ∧ slot = slot'
    · rw [if_pos hSame, if_pos (slotPlace_inj.mpr hSame)]
      rfl
    · rw [if_neg hSame, if_neg (mt slotPlace_inj.mp hSame),
        if_neg, Option.or_none]
      · exact hKeeps.slots story' hStory' slot'
      · intro hPrefix
        have hEqual :=
          hPrefix.eq_of_length_le (by simp)
        exact hSame (slotPlace_inj.mp hEqual.symm)
  · intro story' hStory' slot' hSome
    refine hExtends.directories _ ?_
    rw [keptWith] at hSome
    split at hSome
    · next hSame =>
        rw [← hSame.1]
        exact hMade
    · exact hKeeps.made story' hStory' slot' hSome
  · intro story' slot' payload' hKept
    rw [keptWith] at hKept
    split at hKept
    · cases hKept
      exact hShort
    · exact hKeeps.writable _ _ _ hKept

/- The directory of a story can be made at any time. -/
theorem Keeps.makeStory
    (hKeeps : t.Keeps base place S kept)
    (hStory : S story)
    (hPlain : IsPlainName story)
    (hUsable : (base.below story).IsUsable) :
    ∃ t', (Filing.makeDirectory (base.below story)).run t =
        (.ok (), t') ∧
      t'.Keeps base place S kept ∧
        t'.entryAt (place ++ [story]) = some .directory := by
  refine ⟨_, Filing.makeDirectory_below hKeeps.base
    hPlain.notEmpty hPlain.notAbove hUsable
      (hKeeps.noFile story hStory), ?_⟩
  split
  · next hNone =>
      refine ⟨hKeeps.put_story hNone, ?_⟩
      rw [entryAt_put, if_pos rfl]
  · next hSome =>
      refine ⟨hKeeps, ?_⟩
      cases hEntry : t.entryAt (place ++ [story]) with
      | none => exact absurd hEntry hSome
      | some e =>
          cases e with
          | file content =>
              exact absurd hEntry
                (hKeeps.noFile story hStory content)
          | directory => rfl

/- The same where the directory for stories is made first. -/
theorem WillKeep.makeStory
    (hKeeps : t.WillKeep base place S kept)
    (hStory : S story)
    (hPlain : IsPlainName story)
    (hUsable : (base.below story).IsUsable) :
    ∃ t', (Filing.makeDirectory (base.below story)).run t =
        (.ok (), t') ∧
      t'.Keeps base place S kept ∧
        t'.entryAt (place ++ [story]) = some .directory := by
  cases hKeeps with
  | now hKeeps => exact hKeeps.makeStory hStory hPlain hUsable
  | later _ _ hMake hKeeps =>
      rw [Filing.makeDirectory_below_of_ok hMake
        hPlain.notEmpty hPlain.notAbove hUsable]
      exact hKeeps.makeStory hStory hPlain hUsable

/-
  A value that is written is kept in its slot, and nothing else
  changes in the map.  A value that cannot be written is not
  kept.
-/
theorem WillKeep.write
    (hKeeps : t.WillKeep base place S kept)
    (hStory : S story)
    (hPlain : IsPlainName story)
    (hUsable :
      ((base.below story).below (slotName slot)).IsUsable)
    (hRange : 1 ≤ slot ∧ slot ≤ count)
    (payload : Json) :
    ∃ t', ((SlotStore.ofStory base story count).write slot
          payload).run t =
        (if payload.isWritable then .ok ()
          else .error .longInt, t') ∧
      t'.Keeps base place S
        (if payload.isWritable then
          keptWith kept story slot payload
        else kept) := by
  rcases slotName_ne slot with ⟨hName, hAbove⟩
  have hShort := hUsable.of_below hName
  rcases hKeeps.makeStory hStory hPlain hShort with
    ⟨t', hMake, hKeeps', hMade⟩
  have hDirectory :
      (SlotStore.ofStory base story count).directory =
        base.below story :=
    FilePath.child_of_isPlainName hPlain base
  rw [SlotStore.run_write, SlotStore.check_of_range hRange,
    hDirectory, hMake, SlotStore.path_eq hPlain]
  dsimp only
  by_cases hWritable : payload.isWritable = true
  · have hPlace :
        place ++ [story] ++ [slotName slot] =
          place ++ [story, slotName slot] := by
      rw [List.append_assoc]
      rfl
    have hFree :
        t'.entryAt (place ++ [story] ++ [slotName slot]) ≠
          some .directory := by
      rw [hPlace, hKeeps'.slots story hStory slot]
      cases kept story slot with
      | none => nofun
      | some payload => nofun
    simp only [if_pos hWritable]
    rw [Filing.write_below
      (hKeeps'.has_story hPlain hShort hMade) hName hAbove
      hUsable hFree, hPlace]
    exact ⟨_, rfl, hKeeps'.put_slot hStory hMade hWritable⟩
  · simp only [if_neg hWritable]
    exact ⟨t', rfl, hKeeps'⟩

end FileTree

end BranchingStory

------------------------------------------------------------
-- Runs Of Calls
------------------------------------------------------------

namespace BranchingStory

variable {base : FilePath}
variable {place : List String}
variable {S : String → Prop}
variable {kept : String → Int → Option Json}
variable {t t' : FileTree}
variable {story : String}
variable {count slot : Int}

/-
  Whether the system takes the name of a story and the paths of
  its slots.
-/
structure StoreIsUsable
    (base : FilePath)
    (story : String)
    (count : Int) : Prop where
  plain : IsPlainName story
  paths : ∀ slot, 1 ≤ slot ∧ slot ≤ count →
    ((SlotStore.ofStory base story count).path slot).IsUsable

/- Whether nothing stands where the slots of a story will be. -/
def FileTree.IsFree
    (place : List String)
    (t : FileTree)
    (story : String) : Prop :=
  (∀ content,
    t.entryAt (place ++ [story]) ≠ some (.file content)) ∧
  ∀ slot, t.entryAt (place ++ [story, slotName slot]) = none

/- The path of a slot that can be used. -/
theorem StoreIsUsable.isUsable
    (hUsable : StoreIsUsable base story count)
    (hRange : 1 ≤ slot ∧ slot ≤ count) :
    ((base.below story).below (slotName slot)).IsUsable := by
  rw [← SlotStore.path_eq hUsable.plain base count slot]
  exact hUsable.paths slot hRange

end BranchingStory

------------------------------------------------------------
-- The Map
------------------------------------------------------------

namespace BranchingStory

variable {base : FilePath}
variable {place : List String}
variable {S : String → Prop}
variable {kept : String → Int → Option Json}
variable {t t' : FileTree}
variable {story : String}
variable {count slot : Int}

/- What is read from a slot, given the value kept in it. -/
def SlotStore.expected
    (store : SlotStore)
    (slot : Int)
    (kept : Option Json) : Except SlotError Json :=
  match kept with
  | some payload => .ok payload.sorted
  | none =>
      .error (.unreadable (.file ⟨.missing, store.path slot⟩))

/- The summary of a slot, given the value kept in it. -/
def SlotStore.expectedSummary
    (slot : Int)
    (kept : Option Json) : SlotSummary :=
  { slot := slot
    taken := kept.isSome
    metadata := kept.bind fun payload =>
      metadataOf payload.sorted
    corrupt := false }

/-
  Where no key stands twice, a value is described by the fields
  that it has for this, in the order of their keys.
-/
theorem SlotStore.metadataOf_sorted
    {fields : List (String × Json)}
    (hNodup : (fields.map Prod.fst).Nodup)
    (hDescription : ∀ description,
      metadataOf (.object fields) = some description →
        (description.map Prod.fst).Nodup) :
    metadataOf (Json.sorted (.object fields)) =
      (metadataOf (.object fields)).map fun description =>
        Json.orderFields
          (description.map fun f => (f.1, f.2.sorted)) := by
  rw [Json.sorted_object hNodup]
  unfold metadataOf at hDescription ⊢
  simp only [Json.get?] at hDescription ⊢
  rw [Json.field?_order hNodup]
  cases hField : Json.field? fields "metadata" with
  | none => rfl
  | some v =>
      rw [hField] at hDescription
      cases v with
      | object description =>
          rw [Option.map_some,
            Json.sorted_object (hDescription _ rfl)]
          rfl
      | _ => rfl

/- A slot answers as the map tells. -/
theorem FileTree.WillKeep.answers
    (hKeeps : t.WillKeep base place S kept)
    (hStory : S story)
    (hUsable : StoreIsUsable base story count)
    (hRange : 1 ≤ slot ∧ slot ≤ count) :
    (SlotStore.ofStory base story count).read t slot =
        (SlotStore.ofStory base story count).expected slot
          (kept story slot) ∧
      (SlotStore.ofStory base story count).isTaken t slot =
        .ok (kept story slot).isSome ∧
      (SlotStore.ofStory base story count).summary t slot =
        .ok (SlotStore.expectedSummary slot
          (kept story slot)) := by
  have hShort := hUsable.isUsable hRange
  have hPath :=
    SlotStore.path_eq hUsable.plain base count slot
  cases hKept : kept story slot with
  | none =>
      have hLacks :=
        hKeeps.lacks_slot hStory hUsable.plain hShort hKept
      rw [← hPath] at hLacks
      exact ⟨SlotStore.read_of_lacks hRange hLacks,
        SlotStore.isTaken_of_lacks hRange hLacks,
        SlotStore.summary_of_lacks hRange hLacks⟩
  | some payload =>
      rcases hKeeps.has_slot hStory hUsable.plain hShort
          hKept with
        ⟨hHas, hWritable⟩
      rw [← hPath] at hHas
      exact ⟨SlotStore.read_of_has hRange hHas hWritable,
        SlotStore.isTaken_of_has hRange hHas,
        SlotStore.summary_of_has hRange hHas hWritable⟩

/- A value that says where a story is. -/
def savedAt
    (place : String) : Json :=
  .object [("metadata", .object [("place", .string place)])]

end BranchingStory
