import BranchingStory.Proofs.States

/-
  This file shows that content of a story that can be read is
  rendered without moving the story on, that whatever divert
  it ends with has a destination, and that only branches of a
  set of choices are offered.

  Key definitions include:
    * `Fragment.IsPlayable`
    * `Divert.Leads`

  Key theorems include:
    * `nextItem_stays`
    * `renderWithin_stays`
    * `offersOf_stays`
    * `findFallback?_stays`
-/

------------------------------------------------------------
-- Values
------------------------------------------------------------

namespace BranchingStory

open Play

variable {o : Outline}

/- An expression of a kind is evaluated in passing. -/
theorem evaluate_stays
    {e : Expr}
    {k : Kind}
    (hKind : HasKind o e k) :
    Stays o (evaluate e) fun v => v.Fits o.IsPath k := by
  intro s hSound
  refine (evaluate_ends hKind (fun _ => Outline.isPath_path)
    hSound.fits).mono ?_ ?_
  · rintro v s' ⟨hFits, rfl⟩
    exact ⟨hSound, rfl, hFits⟩
  · rintro e s' ⟨rfl, f, rfl, hNumeric⟩
    exact ⟨hSound, rfl, hNumeric⟩

/- A condition is tested in passing. -/
theorem test_stays
    {e : Expr}
    {k : Kind}
    (hKind : HasKind o e k) :
    Stays o (test e) fun _ => True :=
  (evaluate_stays hKind).bind fun _ _ => Stays.pure trivial

/- A value is written in passing. -/
theorem textOf_stays
    (v : Value) :
    Stays o (textOf v) fun _ => True := by
  unfold textOf
  split
  · exact Stays.pure trivial
  · exact Stays.throw rfl

/- There is an item at every place of a list. -/
theorem itemAt_eq
    {α : Type}
    {xs : List α}
    {i : Int}
    (hNatural : 0 ≤ i)
    (hBound : i < xs.length) :
    ∃ x ∈ xs, itemAt? xs i = some x ∧
      itemAt xs i = pure x := by
  have hIndex : i.toNat < xs.length := by omega
  have hSome : itemAt? xs i = some xs[i.toNat] := by
    rw [itemAt?, if_pos hNatural, List.getElem?_eq_getElem]
  refine ⟨xs[i.toNat], List.getElem_mem hIndex, hSome, ?_⟩
  rw [itemAt, hSome]

end BranchingStory

------------------------------------------------------------
-- Alternatives
------------------------------------------------------------

namespace BranchingStory

open Play

variable {o : Outline}

/- An alternative is shuffled in passing. -/
theorem nextOrder_stays
    (hSound : o.IsSound)
    {x : Nat × Nat}
    (hMem : x ∈ alternativesOf o.leaves)
    (position : Int) :
    Stays o (nextOrder x.1 x.2 position) (IsOrder x.2) := by
  intro s hState
  have hDraw :
      Ends (nextOrder.draw x.1 x.2 s) s
        (fun order s' => s'.IsSound o ∧
          s'.position = s.position ∧ IsOrder x.2 order)
        (fun e s' => s'.IsSound o ∧
          s'.position = s.position ∧
            e.isForeseen = true) := by
    have hOrder :
        IsOrder x.2 ((s.generator.permutation x.2).1.map
          fun (n : Nat) => (n : Int)) :=
      ⟨_, Generator.permutation_perm x.2 s.generator, rfl⟩
    exact ⟨hState.setOrder hMem hOrder _, rfl, hOrder⟩
  unfold nextOrder
  rw [ends_bind, ends_get]
  split
  · next order hLookup =>
      split
      · exact hDraw
      · exact ⟨hState, rfl, hState.isOrder_of_lookup
          hSound.alternatives hMem hLookup⟩
  · exact hDraw

/- A shuffle has an item for each place of its order. -/
theorem drawnItem_stays
    (hSound : o.IsSound)
    {x : Nat × Nat}
    (hMem : x ∈ alternativesOf o.leaves)
    {place : Int}
    (hPlace : 0 ≤ place ∧ place < x.2) :
    Stays o
      (nextOrder x.1 x.2 place >>= fun order =>
        itemAt order place >>= fun i => pure (some i))
      fun i? => ∀ i, i? = some i → 0 ≤ i ∧ i < x.2 := by
  apply (nextOrder_stays hSound hMem _).bind
  rintro order ⟨ns, hPerm, rfl⟩
  have hBound :
      place < (ns.map fun (n : Nat) => (n : Int)).length := by
    rw [List.length_map, hPerm.length_eq, List.length_range]
    exact hPlace.2
  rcases itemAt_eq hPlace.1 hBound with ⟨i, hItem, _, hAt⟩
  rw [hAt]
  apply (Stays.pure (Q := (· = i)) rfl).bind
  rintro _ rfl
  apply Stays.pure
  intro j hSome
  cases hSome
  rcases List.mem_map.mp hItem with ⟨n, hNumber, rfl⟩
  have hRange := List.mem_range.mp (hPerm.subset hNumber)
  omega

/- The place of an item that is shown next has an item. -/
theorem nextItem_stays
    (hSound : o.IsSound)
    {x : Nat × Nat}
    (hMem : x ∈ alternativesOf o.leaves)
    (hFilled : 0 < x.2)
    (mode : Mode) :
    Stays o (nextItem mode x.2 x.1) fun i? =>
      ∀ i, i? = some i → 0 ≤ i ∧ i < x.2 := by
  intro s hState
  have hShown := hState.cursor_nonneg x.1
  have hCounted :=
    hState.setCursor hMem
      (Int.le_add_one hShown)
  unfold nextItem
  rw [ends_bind, ends_get, ends_bind, ends_set]
  generalize (s.cursors.lookup x.1).getD 0 = shown at *
  have hRemainder :
      0 ≤ shown % (x.2 : Int) ∧ shown % (x.2 : Int) < x.2 :=
    ⟨Int.emod_nonneg _ (by omega),
      Int.emod_lt_of_pos _ (by omega)⟩
  cases mode with
  | sequence =>
      refine ⟨hCounted, rfl, ?_⟩
      intro i hSome
      cases hSome
      omega
  | cycle =>
      refine ⟨hCounted, rfl, ?_⟩
      intro i hSome
      cases hSome
      exact hRemainder
  | once =>
      refine ⟨hCounted, rfl, ?_⟩
      intro i hSome
      split at hSome
      · cases hSome
        omega
      · cases hSome
  | shuffle =>
      exact drawnItem_stays hSound hMem hRemainder _ hCounted

end BranchingStory

------------------------------------------------------------
-- Fragments
------------------------------------------------------------

namespace BranchingStory

/- Whether a divert has a destination that exists. -/
def Divert.Leads
    (o : Outline)
    (d : Divert) : Prop :=
  ∃ destination, d.destination = some destination ∧
    destination.IsSound o

/- Whether something holds of all fragments, at any depth. -/
def Fragment.All
    (P : Fragment → Prop)
    (fs : List Fragment) : Prop :=
  ∀ f ∈ walkAll fs, P f

namespace Fragment.All

variable {P : Fragment → Prop}
variable {f : Fragment}
variable {fs gs : List Fragment}

/- It holds of the first fragment. -/
theorem head
    (hAll : All P (f :: fs)) :
    P f := by
  apply hAll
  rw [walkAll]
  apply List.mem_append_left
  cases f <;> simp [walk]

/- It holds of fragments in front of others. -/
theorem append
    (hFirst : All P fs)
    (hThen : All P gs) :
    All P (fs ++ gs) := by
  intro f hMem
  rw [walkAll_append, List.mem_append] at hMem
  rcases hMem with hMem | hMem
  · exact hFirst f hMem
  · exact hThen f hMem

/- It holds of the fragments after the first. -/
theorem tail
    (hAll : All P (f :: fs)) :
    All P fs := by
  intro g hMem
  apply hAll
  rw [walkAll]
  exact List.mem_append_right _ hMem

/- It holds of both outcomes of a conditional. -/
theorem conditional
    {c : Expr}
    {whenTrue whenFalse : List Fragment}
    (hAll : All P (.conditional c whenTrue whenFalse :: fs)) :
    All P whenTrue ∧ All P whenFalse := by
  constructor
  · intro g hMem
    apply hAll
    rw [walkAll, walk]
    simp [hMem]
  · intro g hMem
    apply hAll
    rw [walkAll, walk]
    simp [hMem]

/- It holds of every item of an alternative. -/
theorem item
    {mode : Mode}
    {items : List (List Fragment)}
    {number : Nat}
    (hAll : All P (.alternative mode items number :: fs))
    {item : List Fragment}
    (hItem : item ∈ items) :
    All P item := by
  intro g hMem
  apply hAll
  rw [walkAll, walk]
  apply List.mem_append_left
  apply List.mem_cons_of_mem
  clear hAll
  induction items with
  | nil => cases hItem
  | cons first items ih =>
      rw [walkItems]
      rcases List.mem_cons.mp hItem with rfl | hRest
      · exact List.mem_append_left _ hMem
      · exact List.mem_append_right _ (ih hRest)

end Fragment.All

/-
  Whether all fragments of a list can be rendered, at any
  depth, and their alternatives are those of the story.
-/
def Fragment.ArePlayable
    (o : Outline)
    (fs : List Fragment) : Prop :=
  ∀ f ∈ walkAll fs, f.IsSound o ∧
    ∀ x, f.alternative? = some x → x ∈ alternativesOf o.leaves

namespace Fragment.ArePlayable

variable {o : Outline}
variable {f : Fragment}
variable {fs gs : List Fragment}

/- The first fragment can be rendered, and so can the rest. -/
theorem head
    (hPlayable : ArePlayable o (f :: fs)) :
    f.IsSound o ∧ ∀ x, f.alternative? = some x →
      x ∈ alternativesOf o.leaves :=
  All.head hPlayable

/- Fragments are rendered in front of others. -/
theorem append
    (hFirst : ArePlayable o fs)
    (hThen : ArePlayable o gs) :
    ArePlayable o (fs ++ gs) :=
  All.append hFirst hThen

/- The fragments after the first can be rendered. -/
theorem tail
    (hPlayable : ArePlayable o (f :: fs)) :
    ArePlayable o fs :=
  All.tail hPlayable

/- Both outcomes of a conditional can be rendered. -/
theorem conditional
    {c : Expr}
    {whenTrue whenFalse : List Fragment}
    (hPlayable :
      ArePlayable o
        (.conditional c whenTrue whenFalse :: fs)) :
    ArePlayable o whenTrue ∧ ArePlayable o whenFalse :=
  All.conditional hPlayable

/- Every item of an alternative can be rendered. -/
theorem item
    {mode : Mode}
    {items : List (List Fragment)}
    {number : Nat}
    (hPlayable :
      ArePlayable o (.alternative mode items number :: fs))
    {item : List Fragment}
    (hItem : item ∈ items) :
    ArePlayable o item :=
  All.item hPlayable hItem

end Fragment.ArePlayable

variable {o : Outline}

/- The lines of a part of the story can be rendered. -/
theorem Outline.IsSound.arePlayable
    (hSound : o.IsSound)
    {p : Nat × Leaf}
    (hLeaf : p ∈ o.leaves)
    {l : ContentLine}
    (hLine : l ∈ p.2.lines) :
    Fragment.ArePlayable o l.fragments := by
  intro f hMem
  have hFragment : f ∈ p.2.fragments :=
    List.mem_flatMap.mpr ⟨l, hLine, hMem⟩
  refine ⟨(hSound.leaves p hLeaf).fragments f hFragment, ?_⟩
  intro x hAlternative
  exact List.mem_flatMap.mpr ⟨p, hLeaf,
    List.mem_filterMap.mpr ⟨f, hFragment, hAlternative⟩⟩

end BranchingStory

------------------------------------------------------------
-- Rendering
------------------------------------------------------------

namespace BranchingStory

open Play

variable {o : Outline}

/-
  Content is rendered in passing.  The divert that it ends
  with has a destination.
-/
theorem renderWithin_stays
    (hSound : o.IsSound)
    {fs : List Fragment}
    (hPlayable : Fragment.ArePlayable o fs)
    (n : Nat) :
    Stays o (renderWithin n fs) fun r =>
      ∀ d, r.2 = some d → d.Leads o := by
  have hNone (s : String) :
      ∀ d, (s, (none : Option Divert)).2 = some d →
        d.Leads o := by
    intro d hSome
    cases hSome
  induction n generalizing fs with
  | zero => exact Stays.pure (hNone "")
  | succ n ih =>
      cases fs with
      | nil => exact Stays.pure (hNone "")
      | cons f rest =>
          have hRest := ih hPlayable.tail
          rcases hPlayable.head with ⟨hHead, hNumber⟩
          cases f with
          | text s =>
              rw [renderWithin]
              exact hRest.bind fun r hLeads =>
                Stays.pure hLeads
          | insertion e =>
              rw [renderWithin]
              rcases hHead with ⟨k, hKind⟩
              apply (evaluate_stays hKind).bind
              intro v _
              apply (textOf_stays v).bind
              intro s _
              exact hRest.bind fun r hLeads =>
                Stays.pure hLeads
          | conditional c t f =>
              rw [renderWithin]
              rcases hHead with ⟨k, hKind⟩
              rcases hPlayable.conditional with
                ⟨hTrue, hFalse⟩
              apply (test_stays hKind).bind
              intro b _
              split
              · exact ih (hTrue.append hPlayable.tail)
              · exact ih (hFalse.append hPlayable.tail)
          | alternative mode items number =>
              rw [renderWithin]
              have hFilled : 0 < items.length :=
                List.length_pos_iff.mpr hHead
              refine (nextItem_stays hSound
                (hNumber _ rfl) hFilled mode).bind ?_
              intro i? hPlace
              split
              · exact hRest
              · next i =>
                  rcases hPlace i rfl with ⟨hNatural, hBound⟩
                  rcases itemAt_eq hNatural hBound with
                    ⟨item, hItem, _, hAt⟩
                  rw [hAt, pure_bind]
                  exact ih ((hPlayable.item hItem).append
                    hPlayable.tail)
          | divert d =>
              rw [renderWithin]
              apply Stays.pure
              intro d' hSome
              cases hSome
              exact hHead

/- A line is rendered in passing. -/
theorem render_stays
    (hSound : o.IsSound)
    {fs : List Fragment}
    (hPlayable : Fragment.ArePlayable o fs) :
    Stays o (render fs) fun r =>
      ∀ d, r.2 = some d → d.Leads o :=
  renderWithin_stays hSound hPlayable _

end BranchingStory

------------------------------------------------------------
-- Offers
------------------------------------------------------------

namespace BranchingStory

open Play

variable {o : Outline}

/- Conditions that have kinds are tested in passing. -/
theorem allHold_stays
    {es : List Expr}
    (hKinds : ∀ e ∈ es, ∃ k, HasKind o e k) :
    Stays o (allHold es) fun _ => True := by
  induction es with
  | nil => exact Stays.pure trivial
  | cons e es ih =>
      rw [List.forall_mem_cons] at hKinds
      rcases hKinds with ⟨⟨k, hKind⟩, hRest⟩
      rw [allHold]
      apply (test_stays hKind).bind
      intro b _
      split
      · exact ih hRest
      · exact Stays.pure trivial

/- Whether a choice of the story is a branch's own. -/
def Branch.IsPlayable
    (o : Outline)
    (b : Branch) : Prop :=
  (b.id, .choice b.choice) ∈ o.leaves

/- Whether a branch can be taken is found out in passing. -/
theorem isAvailable_stays
    (hSound : o.IsSound)
    {b : Branch}
    (hPlayable : b.IsPlayable o) :
    Stays o (isAvailable b) fun _ => True := by
  have hConditions :=
    (hSound.leaves _ hPlayable).conditions b.choice rfl
  have hAll := allHold_stays hConditions
  intro s hState
  unfold isAvailable
  rw [ends_bind, ends_get]
  split
  · exact ⟨hState, rfl, trivial⟩
  · exact hAll s hState

/- The branches that are ever offered, in their order. -/
def offerable
    (bs : List Branch) : List Nat :=
  (bs.filter fun b => !b.choice.fallback).map Branch.id

/- No branch is offered twice where none stands twice. -/
theorem nodup_offerable
    {bs : List Branch}
    (hNodup : (bs.map Branch.id).Nodup) :
    (offerable bs).Nodup :=
  hNodup.sublist (List.filter_sublist.map Branch.id)

/- A branch that is ever offered is one of the branches. -/
theorem mem_of_offerable
    {bs : List Branch}
    {id : Nat}
    (hMem : id ∈ offerable bs) :
    ∃ b ∈ bs, b.id = id := by
  rcases List.mem_map.mp hMem with ⟨b, hKept, hId⟩
  exact ⟨b, (List.mem_filter.mp hKept).1, hId⟩

/- Offers are made in passing, and of such branches only. -/
theorem offersOf_stays
    (hSound : o.IsSound)
    {bs : List Branch}
    (hPlayable : ∀ b ∈ bs, b.IsPlayable o) :
    Stays o (offersOf bs) fun offers =>
      (offers.map Offer.branch).Sublist (offerable bs) := by
  induction bs with
  | nil => exact Stays.pure (List.Sublist.refl _)
  | cons b bs ih =>
      rw [List.forall_mem_cons] at hPlayable
      rcases hPlayable with ⟨hBranch, hRest⟩
      rw [offersOf]
      split
      · next hFallback =>
          apply (ih hRest).mono
          intro offers hSublist
          rw [offerable, List.filter_cons_of_neg
            (by simp [hFallback])]
          exact hSublist
      · next hOffered =>
          have hOfferable :
              offerable (b :: bs) = b.id :: offerable bs := by
            rw [offerable, List.filter_cons_of_pos
              (by simpa using hOffered)]
            rfl
          rw [hOfferable]
          apply (isAvailable_stays hSound hBranch).bind
          intro available _
          split
          · have hDisplay :=
              hSound.arePlayable hBranch
                (l := b.choice.display) List.mem_cons_self
            apply (render_stays hSound hDisplay).bind
            intro r _
            apply (ih hRest).bind
            intro offers hSublist
            exact Stays.pure (hSublist.cons_cons b.id)
          · apply (ih hRest).mono
            intro offers hSublist
            exact hSublist.cons b.id

/- A fallback is found in passing, among the branches. -/
theorem findFallback?_stays
    (hSound : o.IsSound)
    {bs : List Branch}
    (hPlayable : ∀ b ∈ bs, b.IsPlayable o) :
    Stays o (findFallback? bs) fun b? =>
      ∀ b, b? = some b → b ∈ bs := by
  induction bs with
  | nil =>
      apply Stays.pure
      intro b hSome
      cases hSome
  | cons c bs ih =>
      rw [List.forall_mem_cons] at hPlayable
      rcases hPlayable with ⟨hBranch, hRest⟩
      have hLater :=
        (ih hRest).mono fun b? hAmong b hSome =>
          List.mem_cons_of_mem c (hAmong b hSome)
      rw [findFallback?]
      split
      · apply (isAvailable_stays hSound hBranch).bind
        intro available _
        split
        · apply Stays.pure
          intro b hSome
          cases hSome
          exact List.mem_cons_self
        · exact hLater
      · exact hLater

end BranchingStory
