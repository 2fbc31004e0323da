import BranchingStory.Proofs.Generators
import BranchingStory.Proofs.KindSafety
import BranchingStory.Proofs.Paths

/-
  This file defines what it means for the memory, the counts
  and the shuffles of a state to fit its story, and reasons
  about actions that keep them so and do not move the story
  on.

  Key definitions include:
    * `IsOrder`
    * `State.IsSound`
    * `Position`
    * `PlayError.isForeseen`
    * `Play.Stays`

  Key theorems include:
    * `State.IsSound.withPosition`
    * `State.fits_setVariable`
    * `State.IsSound.setVariable`
    * `State.IsSound.countVisit`
    * `State.IsSound.countChosen`
    * `Play.Stays.bind`
-/

------------------------------------------------------------
-- Sound States
------------------------------------------------------------

namespace BranchingStory

open scoped List

/- Whether a list holds each number below a size once. -/
def IsOrder
    (size : Nat)
    (order : List Int) : Prop :=
  ∃ ns : List Nat, ns ~ List.range size ∧
    order = ns.map fun (n : Nat) => (n : Int)

/-
  Whether what a state remembers fits its story: variables
  keep their kinds, places, branches and alternatives that are
  counted exist, and shuffles are permutations.
-/
structure State.IsSound
    (o : Outline)
    (s : State) : Prop where
  names : s.memory.vars.keys = o.vars.keys
  fits : s.memory.Fits o o.IsPath
  visits : s.memory.visits.keys.Nodup
  visited : ∀ a ∈ s.memory.visits.keys, o.hasAddress a = true
  chosen : s.chosen.keys.Nodup
  taken : ∀ n ∈ s.chosen.keys, ∃ m : Nat,
    m < o.size ∧ n = m
  cursors : s.cursors.keys.Nodup
  shown : ∀ e ∈ s.cursors.entries, 0 ≤ e.2 ∧
    ∃ x ∈ alternativesOf o.leaves, e.1 = x.1
  orders : s.orders.keys.Nodup
  shuffled : ∀ e ∈ s.orders.entries,
    ∃ x ∈ alternativesOf o.leaves,
      e.1 = x.1 ∧ IsOrder x.2 e.2

/- Where a story is, and what it offers there. -/
structure Position where
  location : Address
  status : Status
  frames : List Frame
  offers : List Offer

namespace State

/- Where a story is in a state. -/
def position
    (s : State) : Position :=
  ⟨s.location, s.status, s.frames, s.offers⟩

/- The state at another position. -/
def withPosition
    (s : State)
    (p : Position) : State :=
  { s with
    location := p.location
    status := p.status
    frames := p.frames
    offers := p.offers }

variable {o : Outline}
variable {s : State}

/- A variable that is set to a value of its kind still fits. -/
theorem fits_setVariable
    {P : String → Prop}
    {name : String}
    {d : Declaration}
    {v : Value}
    (hMemory : s.memory.Fits o P)
    (hLookup : o.vars.lookup name = some d)
    (hFits : v.Fits P d.initial.kind) :
    (s.setVariable name v).memory.Fits o P := by
  intro name' d' hLookup'
  simp only [setVariable, Table.lookup_insert]
  split
  · next hSame =>
      subst hSame
      rw [hLookup] at hLookup'
      cases hLookup'
      exact ⟨v, rfl, hFits⟩
  · exact hMemory name' d' hLookup'

namespace IsSound

/- What a state remembers does not depend on where it is. -/
theorem withPosition
    (hSound : s.IsSound o)
    (p : Position) :
    (s.withPosition p).IsSound o :=
  { hSound with fits := hSound.fits }

/- A declared variable may be set to a value of its kind. -/
theorem setVariable
    (hSound : s.IsSound o)
    {name : String}
    {d : Declaration}
    {v : Value}
    (hLookup : o.vars.lookup name = some d)
    (hFits : v.Fits o.IsPath d.initial.kind) :
    (s.setVariable name v).IsSound o :=
  { hSound with
    names := by
      have hKnown : name ∈ s.memory.vars.keys := by
        rw [hSound.names]
        exact Table.mem_keys_of_lookup hLookup
      exact (Table.keys_insert_of_mem hKnown v).trans
        hSound.names
    fits := fits_setVariable hSound.fits hLookup hFits }

/- A visit to a place of the story may be counted. -/
theorem countVisit
    (hSound : s.IsSound o)
    {a : Address}
    (hAddress : o.hasAddress a = true) :
    (s.countVisit a).IsSound o :=
  { hSound with
    visits := Table.nodup_keys_insert hSound.visits _ _
    visited := by
      intro b hMem
      rcases Table.mem_keys_insert hMem with rfl | hOld
      · exact hAddress
      · exact hSound.visited b hOld }

/- A choice of a branch of the story may be counted. -/
theorem countChosen
    (hSound : s.IsSound o)
    {branch : Nat}
    (hBound : branch < o.size) :
    (s.countChosen branch).IsSound o :=
  { hSound with
    chosen := Table.nodup_keys_insert hSound.chosen _ _
    taken := by
      intro n hMem
      rcases Table.mem_keys_insert hMem with rfl | hOld
      · exact ⟨branch, hBound, rfl⟩
      · exact hSound.taken n hOld }

/- An alternative of the story may count that it was shown. -/
theorem setCursor
    (hSound : s.IsSound o)
    {x : Nat × Nat}
    (hMem : x ∈ alternativesOf o.leaves)
    {shown : Int}
    (hShown : 0 ≤ shown) :
    { s with
      cursors := s.cursors.insert x.1 shown }.IsSound o :=
  { hSound with
    cursors := Table.nodup_keys_insert hSound.cursors _ _
    shown := Table.forall_entries_insert hSound.shown
      ⟨hShown, x, hMem, rfl⟩ }

/- An alternative of the story may be shuffled. -/
theorem setOrder
    (hSound : s.IsSound o)
    {x : Nat × Nat}
    (hMem : x ∈ alternativesOf o.leaves)
    {order : List Int}
    (hOrder : IsOrder x.2 order)
    (g : Generator) :
    { s with
      generator := g
      orders := s.orders.insert x.1 order }.IsSound o :=
  { hSound with
    orders := Table.nodup_keys_insert hSound.orders _ _
    shuffled := Table.forall_entries_insert hSound.shuffled
      ⟨x, hMem, rfl, hOrder⟩ }

/- An alternative is shown a natural number of times. -/
theorem cursor_nonneg
    (hSound : s.IsSound o)
    (number : Int) :
    0 ≤ (s.cursors.lookup number).getD 0 := by
  cases hLookup : s.cursors.lookup number with
  | none => exact Int.le_refl 0
  | some shown =>
      exact (hSound.shown _
        (Table.mem_entries_of_lookup hLookup)).1

/- The order of an alternative is one of its items. -/
theorem isOrder_of_lookup
    (hSound : s.IsSound o)
    (hNodup :
      ((alternativesOf o.leaves).map Prod.fst).Nodup)
    {x : Nat × Nat}
    (hMem : x ∈ alternativesOf o.leaves)
    {order : List Int}
    (hLookup : s.orders.lookup x.1 = some order) :
    IsOrder x.2 order := by
  rcases
      hSound.shuffled _ (Table.mem_entries_of_lookup hLookup) with
    ⟨y, hMem', hNumber, hOrder⟩
  have hSame : y = x := by
    apply List.inj_on_of_nodup_map hNodup hMem' hMem
    exact (Int.ofNat_inj.mp hNumber).symm
  rw [← hSame]
  exact hOrder

end IsSound

/- What a story remembers at its start fits it. -/
theorem isSound_start
    (hSound : o.IsSound)
    (seed : Int) :
    (start o seed).IsSound o where
  names := Table.keys_mapValues _ _
  fits := by
    intro name d hLookup
    refine ⟨d.initial, ?_, rfl, ?_⟩
    · rw [start, Table.lookup_mapValues, hLookup]
      rfl
    · intro s hDivert
      exact hSound.held d
        (Table.mem_values_of_lookup hLookup) s hDivert
  visits := List.nodup_nil
  visited := by simp [start]
  chosen := List.nodup_nil
  taken := by simp [start]
  cursors := List.nodup_nil
  shown := by simp [start, Table.empty]
  orders := List.nodup_nil
  shuffled := by simp [start, Table.empty]

end State

end BranchingStory

------------------------------------------------------------
-- Actions That Stay
------------------------------------------------------------

namespace BranchingStory

/-
  The faults that can stop a story while it is followed: those
  of arithmetic, numbers too long to be shown, a lack of
  choices, and following it when it is not its turn.
-/
def PlayError.isForeseen : PlayError → Bool
  | .evaluation fault => fault.isNumeric
  | .outOfChoices _ _ => true
  | .finished => true
  | .choicePending => true
  | .longInt => true
  | .stepsExhausted => true
  | _ => false

namespace Play

variable {o : Outline}
variable {α β : Type}

/-
  Whether an action keeps every sound state sound and where it
  is, whatever it ends with, and ends with a value as required
  or with a foreseen fault.
-/
def Stays
    (o : Outline)
    (p : Play α)
    (Q : α → Prop) : Prop :=
  ∀ s : State, s.IsSound o →
    Ends p s
      (fun a s' =>
        s'.IsSound o ∧ s'.position = s.position ∧ Q a)
      (fun e s' =>
        s'.IsSound o ∧ s'.position = s.position ∧
          e.isForeseen = true)

namespace Stays

variable {p : Play α}
variable {Q : α → Prop}

/- To yield a value changes nothing. -/
theorem pure
    {a : α}
    (hValue : Q a) :
    Stays o (Pure.pure a) Q := by
  intro s hSound
  exact ⟨hSound, rfl, hValue⟩

/- To stop changes nothing. -/
theorem throw
    {e : PlayError}
    (hForeseen : e.isForeseen = true) :
    Stays o (MonadExcept.throw e : Play α) Q := by
  intro s hSound
  exact ⟨hSound, rfl, hForeseen⟩

/- One action that stays may follow another. -/
theorem bind
    {f : α → Play β}
    {R : β → Prop}
    (hFirst : Stays o p Q)
    (hThen : ∀ a, Q a → Stays o (f a) R) :
    Stays o (p >>= f) R := by
  intro s hSound
  rw [ends_bind]
  refine (hFirst s hSound).mono ?_ ?_
  · rintro a s' ⟨hSound', hPosition, hValue⟩
    rw [← hPosition]
    exact hThen a hValue s' hSound'
  · intro e s' hFault
    exact hFault

/- Less may be required of the value. -/
theorem mono
    {R : α → Prop}
    (hStays : Stays o p Q)
    (hImp : ∀ a, Q a → R a) :
    Stays o p R := by
  intro s hSound
  refine (hStays s hSound).mono ?_ ?_
  · rintro a s' ⟨hSound', hPosition, hValue⟩
    exact ⟨hSound', hPosition, hImp a hValue⟩
  · intro e s' hFault
    exact hFault

end Stays

end Play

end BranchingStory
