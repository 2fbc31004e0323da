import BranchingStory.Proofs.Runs
import BranchingStory.Proofs.Showings

/-
  This file reasons about what can happen while a story is
  followed in any state whatever, coherent or not.  What is
  true of the few actions that read or write the memory is
  true of following the story.

  Key definitions include:
    * `Play.Obeys`
    * `Laws`

  Key theorems include:
    * `Laws.renderWithin_obeys`
    * `Laws.arriveAt_obeys`
    * `Laws.step_obeys`
    * `Laws.resume_obeys`
-/

------------------------------------------------------------
-- Actions That Obey
------------------------------------------------------------

namespace BranchingStory

namespace Play

variable {I : Memory → Prop}
variable {E : PlayError → Memory → Prop}
variable {α β : Type}

/-
  Whether an action keeps what is required of memories, yields
  a value as required, and is stopped only by faults as
  required for the memory then.
-/
def Obeys
    (I : Memory → Prop)
    (E : PlayError → Memory → Prop)
    (p : Play α)
    (Q : α → Prop) : Prop :=
  ∀ s : State, I s.memory →
    Ends p s
      (fun a s' => I s'.memory ∧ Q a)
      (fun e s' => I s'.memory ∧ E e s'.memory)

variable {p : Play α}
variable {Q : α → Prop}

namespace Obeys

/- To yield a value changes nothing. -/
theorem pure
    {a : α}
    (hValue : Q a) :
    Obeys I E (Pure.pure a) Q :=
  fun _ hMemory => ⟨hMemory, hValue⟩

/- To stop changes nothing. -/
theorem throw
    {e : PlayError}
    (hFault : ∀ m, I m → E e m) :
    Obeys I E (MonadExcept.throw e : Play α) Q :=
  fun s hMemory => ⟨hMemory, hFault s.memory hMemory⟩

/- One action that obeys may follow another. -/
theorem bind
    {f : α → Play β}
    {R : β → Prop}
    (hFirst : Obeys I E p Q)
    (hThen : ∀ a, Q a → Obeys I E (f a) R) :
    Obeys I E (p >>= f) R := by
  intro s hMemory
  rw [ends_bind]
  exact (hFirst s hMemory).mono
    (fun a s' hValue => hThen a hValue.2 s' hValue.1)
    (fun _ _ hFault => hFault)

/- To look at the state first changes nothing. -/
theorem get
    {f : State → Play α}
    (hThen : ∀ s, Obeys I E (f s) Q) :
    Obeys I E (MonadState.get >>= f) Q :=
  fun s hMemory => hThen s s hMemory

/- An expression is evaluated without any change. -/
theorem evaluate
    {e : Expr}
    (hFault : ∀ m fault, I m → e.eval m = .error fault →
      E (.evaluation fault) m) :
    Obeys I E (evaluate e) fun _ => True := by
  intro s hMemory
  unfold Ends
  rw [runFrom_evaluate]
  cases hValue : e.eval s.memory with
  | ok v => exact ⟨hMemory, trivial⟩
  | error fault =>
      exact ⟨hMemory, hFault s.memory fault hMemory hValue⟩

end Obeys

end Play

/-
  The faults that come from where a story is, and not from
  what it remembers.
-/
def PlayError.isOfPlace : PlayError → Bool
  | .outOfChoices _ _ => true
  | .finished => true
  | .choicePending => true
  | .indexOutOfRange => true
  | _ => false

/-
  Whether what a story does with its memory keeps what is
  required of memories, and is stopped only by faults as
  required.  A fault of a place is always allowed.
-/
structure Laws
    (o : Outline)
    (I : Memory → Prop)
    (E : PlayError → Memory → Prop) : Prop where
  evaluates : ∀ p ∈ o.leaves, ∀ e ∈ p.2.expressions,
    ∀ m fault, I m → e.eval m = .error fault →
      E (.evaluation fault) m
  writes : ∀ p ∈ o.leaves, ∀ e ∈ p.2.expressions,
    ∀ m v, I m → e.eval m = .ok v → v.isWritable = false →
      E .longInt m
  assigns : ∀ p ∈ o.leaves, ∀ name value,
    p.2 = .assign name value →
      Play.Obeys I E (assign o name value) fun _ => True
  diverts : ∀ p ∈ o.leaves, ∀ d, .divert d ∈ p.2.fragments →
    Play.Obeys I E (divertPlace? d) fun _ => True
  visits : ∀ (s : State) a,
    I s.memory → I (s.countVisit a).memory
  places : ∀ e m, e.isOfPlace = true → I m → E e m

end BranchingStory

------------------------------------------------------------
-- Assignments And Destinations
------------------------------------------------------------

namespace BranchingStory

namespace Play

variable {o : Outline}
variable {E : PlayError → Memory → Prop}

/-
  An assignment is stopped by its expression, or by a variable
  that is not there or of another kind.
-/
theorem assign_obeys
    {name : String}
    {value : Expr}
    (hFault : ∀ m fault, value.eval m = .error fault →
      E (.evaluation fault) m)
    (hUnknown : ∀ m, E (.unknownVariable name) m)
    (hMismatch : ∀ m k got, E (.typeMismatch name k got) m) :
    Obeys (fun _ => True) E (assign o name value)
      fun _ => True := by
  apply Obeys.bind
    (Obeys.evaluate fun m fault _ => hFault m fault)
  intro v _
  split
  · exact Obeys.throw fun m _ => hUnknown m
  · split
    · exact fun s hMemory => ⟨hMemory, trivial⟩
    · exact Obeys.throw fun m _ => hMismatch m _ _

/-
  A destination is not found where it is unresolved, or where
  its variable is not there.
-/
theorem divertPlace?_obeys
    {d : Divert}
    (hUnknown : ∀ m name,
      E (.evaluation (.unknownVariable name)) m)
    (hUnresolved : ∀ m,
      E (.evaluation (.unresolvedTarget d.target)) m) :
    Obeys (fun _ => True) E (divertPlace? d)
      fun _ => True := by
  unfold divertPlace?
  split
  · exact Obeys.pure trivial
  · exact Obeys.pure trivial
  · apply Obeys.get
    intro s
    split
    · exact Obeys.pure trivial
    · exact Obeys.throw fun m _ => hUnknown m _
  · exact Obeys.throw fun m _ => hUnresolved m

end Play

end BranchingStory

------------------------------------------------------------
-- Rendering
------------------------------------------------------------

namespace BranchingStory

namespace Laws

open Play

variable {o : Outline}
variable {I : Memory → Prop}
variable {E : PlayError → Memory → Prop}
variable {α β : Type}
variable {Q : α → Prop}

/- A fault of a place may stop an action. -/
theorem throw_obeys
    (hLaws : Laws o I E)
    {e : PlayError}
    (hPlace : e.isOfPlace = true) :
    Obeys I E (throw e : Play α) Q :=
  Obeys.throw fun m hMemory => hLaws.places e m hPlace hMemory

/- An item of a list is taken, if there is one. -/
theorem itemAt_obeys
    (hLaws : Laws o I E)
    (xs : List α)
    (i : Int) :
    Obeys I E (itemAt xs i) (· ∈ xs) := by
  unfold itemAt
  split
  · next x hItem => exact Obeys.pure (mem_of_itemAt? hItem)
  · exact hLaws.throw_obeys rfl

/- The order of a shuffle is found. -/
theorem nextOrder_obeys
    (number size : Nat)
    (position : Int) :
    Obeys I E (nextOrder number size position)
      fun _ => True := by
  intro s hMemory
  have hDraw :
      Ends (nextOrder.draw number size s) s
        (fun _ s' => I s'.memory ∧ True)
        (fun e s' => I s'.memory ∧ E e s'.memory) :=
    ⟨hMemory, trivial⟩
  unfold nextOrder
  rw [ends_bind, ends_get]
  split
  · split
    · exact hDraw
    · exact ⟨hMemory, trivial⟩
  · exact hDraw

/- The next item of an alternative is found. -/
theorem nextItem_obeys
    (hLaws : Laws o I E)
    (mode : Mode)
    (size number : Nat) :
    Obeys I E (nextItem mode size number) fun _ => True := by
  intro s hMemory
  unfold nextItem
  rw [ends_bind, ends_get, ends_bind, ends_set]
  cases mode with
  | sequence => exact ⟨hMemory, trivial⟩
  | cycle => exact ⟨hMemory, trivial⟩
  | once => exact ⟨hMemory, trivial⟩
  | shuffle =>
      refine (nextOrder_obeys number size _).bind ?_ _ hMemory
      intro order _
      exact (hLaws.itemAt_obeys order _).bind fun i _ =>
        Obeys.pure trivial

variable {p : Nat × Leaf}

/- The expressions of the fragments of a part are its own. -/
theorem mem_expressions
    {l : Leaf}
    {f : Fragment}
    {e : Expr}
    (hMem : f ∈ l.fragments)
    (hExpr : f.expression? = some e) :
    e ∈ l.expressions :=
  List.mem_append_right _
    (List.mem_filterMap.mpr ⟨f, hMem, hExpr⟩)

/- An expression of the story is evaluated. -/
theorem evaluate_obeys
    (hLaws : Laws o I E)
    (hLeaf : p ∈ o.leaves)
    {e : Expr}
    (hExpr : e ∈ p.2.expressions) :
    Obeys I E (evaluate e) fun _ => True :=
  Obeys.evaluate (hLaws.evaluates p hLeaf e hExpr)

/- The value of an expression of the story is inserted. -/
theorem insert_obeys
    (hLaws : Laws o I E)
    (hLeaf : p ∈ o.leaves)
    {e : Expr}
    (hExpr : e ∈ p.2.expressions) :
    Obeys I E (evaluate e >>= textOf) fun _ => True := by
  intro s hMemory
  unfold Ends
  rw [runFrom_bind, runFrom_evaluate]
  cases hValue : e.eval s.memory with
  | ok v =>
      simp only [runFrom_textOf]
      cases hWritable : v.isWritable with
      | true => exact ⟨hMemory, trivial⟩
      | false =>
          exact ⟨hMemory, hLaws.writes p hLeaf e hExpr _ v
            hMemory hValue hWritable⟩
  | error fault =>
      exact ⟨hMemory,
        hLaws.evaluates p hLeaf e hExpr _ _ hMemory hValue⟩

/- An expression of the story is tested. -/
theorem test_obeys
    (hLaws : Laws o I E)
    (hLeaf : p ∈ o.leaves)
    {e : Expr}
    (hExpr : e ∈ p.2.expressions) :
    Obeys I E (test e) fun _ => True :=
  (hLaws.evaluate_obeys hLeaf hExpr).bind fun _ _ =>
    Obeys.pure trivial

/-
  The content of a part of the story is rendered.  The divert
  that it ends with is its own.
-/
theorem renderWithin_obeys
    (hLaws : Laws o I E)
    (hLeaf : p ∈ o.leaves)
    {fs : List Fragment}
    (hAll : Fragment.All (· ∈ p.2.fragments) fs)
    (n : Nat) :
    Obeys I E (renderWithin n fs) fun r =>
      ∀ d, r.2 = some d → .divert d ∈ p.2.fragments := by
  have hNone (s : String) :
      ∀ d, (s, (none : Option Divert)).2 = some d →
        .divert d ∈ p.2.fragments := by
    intro d hSome
    cases hSome
  induction n generalizing fs with
  | zero => exact Obeys.pure (hNone "")
  | succ n ih =>
      cases fs with
      | nil => exact Obeys.pure (hNone "")
      | cons f rest =>
          have hRest := ih hAll.tail
          have hHead := hAll.head
          cases f with
          | text s =>
              rw [renderWithin]
              exact hRest.bind fun r hOwn => Obeys.pure hOwn
          | insertion e =>
              rw [renderWithin, ← bind_assoc]
              apply (hLaws.insert_obeys hLeaf
                (mem_expressions hHead rfl)).bind
              intro s _
              exact hRest.bind fun r hOwn => Obeys.pure hOwn
          | conditional c t f =>
              rw [renderWithin]
              rcases hAll.conditional with ⟨hTrue, hFalse⟩
              apply (hLaws.test_obeys hLeaf
                (mem_expressions hHead rfl)).bind
              intro b _
              split
              · exact ih (hTrue.append hAll.tail)
              · exact ih (hFalse.append hAll.tail)
          | alternative mode items number =>
              rw [renderWithin]
              apply (hLaws.nextItem_obeys mode _ number).bind
              intro i? _
              split
              · exact hRest
              · next i =>
                  apply (hLaws.itemAt_obeys items i).bind
                  intro item hItem
                  exact ih ((hAll.item hItem).append hAll.tail)
          | divert d =>
              rw [renderWithin]
              apply Obeys.pure
              intro d' hSome
              cases hSome
              exact hHead

/- A line of the story is rendered. -/
theorem render_obeys
    (hLaws : Laws o I E)
    (hLeaf : p ∈ o.leaves)
    {l : ContentLine}
    (hLine : l ∈ p.2.lines) :
    Obeys I E (render l.fragments) fun r =>
      ∀ d, r.2 = some d → .divert d ∈ p.2.fragments := by
  apply hLaws.renderWithin_obeys hLeaf
  intro f hMem
  exact List.mem_flatMap.mpr ⟨l, hLine, hMem⟩

end Laws

end BranchingStory

------------------------------------------------------------
-- Lines
------------------------------------------------------------

namespace BranchingStory

namespace Laws

open Play

variable {o : Outline}
variable {I : Memory → Prop}
variable {E : PlayError → Memory → Prop}
variable {p : Nat × Leaf}

/- A divert of the story is followed. -/
theorem followDivert_obeys
    (hLaws : Laws o I E)
    (hLeaf : p ∈ o.leaves)
    {d? : Option Divert}
    (hOwn : ∀ d, d? = some d → .divert d ∈ p.2.fragments) :
    Obeys I E (followDivert d?) fun _ => True := by
  cases d? with
  | none => exact Obeys.pure trivial
  | some d =>
      rw [followDivert]
      apply (hLaws.diverts p hLeaf d (hOwn d rfl)).bind
      rintro a? -
      cases a? with
      | none => exact fun s hMemory => ⟨hMemory, trivial⟩
      | some a => exact fun s hMemory => ⟨hMemory, trivial⟩

/- A line of the story is rendered and its divert followed. -/
theorem emit_obeys
    (hLaws : Laws o I E)
    (hLeaf : p ∈ o.leaves)
    {l : ContentLine}
    (hLine : l ∈ p.2.lines) :
    Obeys I E (emit l) fun _ => True := by
  apply (hLaws.render_obeys hLeaf hLine).bind
  rintro ⟨text, d?⟩ hOwn
  exact (hLaws.followDivert_obeys hLeaf hOwn).bind fun _ _ =>
    Obeys.pure trivial

end Laws

end BranchingStory

------------------------------------------------------------
-- Choices
------------------------------------------------------------

namespace BranchingStory

namespace Laws

open Play

variable {o : Outline}
variable {I : Memory → Prop}
variable {E : PlayError → Memory → Prop}
variable {p : Nat × Leaf}

/- Conditions of the story are tested. -/
theorem allHold_obeys
    (hLaws : Laws o I E)
    (hLeaf : p ∈ o.leaves)
    {es : List Expr}
    (hOwn : es ⊆ p.2.expressions) :
    Obeys I E (allHold es) fun _ => True := by
  induction es with
  | nil => exact Obeys.pure trivial
  | cons e es ih =>
      rw [allHold]
      apply (hLaws.test_obeys hLeaf
        (hOwn List.mem_cons_self)).bind
      intro b _
      split
      · exact ih fun e hMem =>
          hOwn (List.mem_cons_of_mem _ hMem)
      · exact Obeys.pure trivial

/- Whether a branch can be taken is found out. -/
theorem isAvailable_obeys
    (hLaws : Laws o I E)
    {b : Branch}
    (hPlayable : b.IsPlayable o) :
    Obeys I E (isAvailable b) fun _ => True := by
  apply Obeys.get
  intro s
  split
  · exact Obeys.pure trivial
  · exact hLaws.allHold_obeys hPlayable
      fun e hMem => List.mem_append_left _ hMem

/- Offers of branches of the story are made. -/
theorem offersOf_obeys
    (hLaws : Laws o I E)
    {bs : List Branch}
    (hPlayable : ∀ b ∈ bs, b.IsPlayable o) :
    Obeys I E (offersOf bs) fun _ => True := by
  induction bs with
  | nil => exact Obeys.pure trivial
  | cons b bs ih =>
      rw [List.forall_mem_cons] at hPlayable
      rcases hPlayable with ⟨hBranch, hRest⟩
      rw [offersOf]
      split
      · exact ih hRest
      · apply (hLaws.isAvailable_obeys hBranch).bind
        intro available _
        split
        · apply (hLaws.render_obeys hBranch
            (l := b.choice.display) List.mem_cons_self).bind
          intro r _
          exact (ih hRest).bind fun offers _ =>
            Obeys.pure trivial
        · exact ih hRest

/- A fallback among branches of the story is found. -/
theorem findFallback?_obeys
    (hLaws : Laws o I E)
    {bs : List Branch}
    (hPlayable : ∀ b ∈ bs, b.IsPlayable o) :
    Obeys I E (findFallback? bs) fun _ => True := by
  induction bs with
  | nil => exact Obeys.pure trivial
  | cons b bs ih =>
      rw [List.forall_mem_cons] at hPlayable
      rcases hPlayable with ⟨hBranch, hRest⟩
      rw [findFallback?]
      split
      · apply (hLaws.isAvailable_obeys hBranch).bind
        intro available _
        split
        · exact Obeys.pure trivial
        · exact ih hRest
      · exact ih hRest

/- A branch is taken, unless there is no frame around it. -/
theorem takeBranch_obeys
    (hLaws : Laws o I E)
    (branch : Nat) :
    Obeys I E (takeBranch branch) fun _ => True := by
  intro s hMemory
  unfold takeBranch
  rw [ends_bind, ends_modify, ends_bind, ends_get]
  split
  · exact hLaws.throw_obeys rfl _ hMemory
  · exact ⟨hMemory, trivial⟩

/- A set of choices of the story is arrived at. -/
theorem arriveAt_obeys
    (hLaws : Laws o I E)
    {bs : List Branch}
    (hPlayable : ∀ b ∈ bs, b.IsPlayable o)
    (line : Nat) :
    Obeys I E (arriveAt line bs) fun _ => True := by
  apply (hLaws.offersOf_obeys hPlayable).bind
  intro offers _
  cases offers with
  | cons offer offers =>
      exact fun s hMemory => ⟨hMemory, trivial⟩
  | nil =>
      apply (hLaws.findFallback?_obeys hPlayable).bind
      intro b? _
      cases b? with
      | some b =>
          exact (hLaws.takeBranch_obeys b.id).bind fun _ _ =>
            Obeys.pure trivial
      | none =>
          exact Obeys.get fun s => hLaws.throw_obeys rfl

end Laws

end BranchingStory

------------------------------------------------------------
-- Following
------------------------------------------------------------

namespace BranchingStory

namespace Laws

open Play

variable {o : Outline}
variable {I : Memory → Prop}
variable {E : PlayError → Memory → Prop}

/- A part of a block of the story is executed. -/
theorem execute_obeys
    (hLaws : Laws o I E)
    {id : Nat}
    {items : List Item}
    (hBlock : o.block? id = some items)
    {i : Item}
    (hMem : i ∈ items) :
    Obeys I E (execute o i) fun _ => True := by
  have hLeaf : (i.id, i.node.leaf) ∈ o.leaves :=
    Outline.itemLeaves_block_subset hBlock
      (leaf_mem_itemLeaves (subset_innerItems items hMem))
  cases i with
  | line id content =>
      exact hLaws.emit_obeys hLeaf List.mem_cons_self
  | gather id depth content? =>
      cases content? with
      | none => exact Obeys.pure trivial
      | some content =>
          exact hLaws.emit_obeys hLeaf List.mem_cons_self
  | assign id name value line =>
      exact (hLaws.assigns _ hLeaf name value rfl).bind
        fun _ _ => Obeys.pure trivial
  | choices id depth line branches =>
      apply hLaws.arriveAt_obeys
      intro b hBranch
      exact Outline.itemLeaves_block_subset hBlock
        (choice_mem_itemLeaves
          (subset_branchesIn hMem hBranch))

/- A step of the story is made. -/
theorem step_obeys
    (hLaws : Laws o I E) :
    Obeys I E (step o) fun _ => True := by
  apply Obeys.get
  intro s
  split
  · -- The stitch at the location is entered.
    intro s hMemory
    unfold enter
    rw [ends_bind, ends_get]
    split
    · exact hLaws.throw_obeys rfl s hMemory
    · exact ⟨hLaws.visits s s.location hMemory, trivial⟩
  · next f fs hFrames =>
      split
      · exact hLaws.throw_obeys rfl
      · next items hBlock =>
          split
          · cases fs with
            | nil => exact fun s hMemory => ⟨hMemory, trivial⟩
            | cons g fs =>
                exact fun s hMemory => ⟨hMemory, trivial⟩
          · apply (hLaws.itemAt_obeys items f.index).bind
            intro i hMem
            have hRun := hLaws.execute_obeys hBlock hMem
            split
            · exact fun s hMemory => hRun _ hMemory
            · exact hRun

/- The story is followed, up to the bound on its steps. -/
theorem follow_obeys
    (hLaws : Laws o I E)
    (hExhausted : ∀ m, I m → E .stepsExhausted m)
    (n : Nat) :
    Obeys I E (follow o n) fun _ => True := by
  induction n with
  | zero => exact Obeys.throw hExhausted
  | succ n ih =>
      rw [follow]
      apply hLaws.step_obeys.bind
      intro r _
      split
      · exact Obeys.pure trivial
      · exact ih.bind fun _ _ => Obeys.pure trivial

/- The story is resumed. -/
theorem resume_obeys
    (hLaws : Laws o I E)
    (hExhausted : ∀ m, I m → E .stepsExhausted m)
    (steps : Nat) :
    Obeys I E (resume o steps) fun _ => True := by
  apply Obeys.get
  intro s
  split
  · exact hLaws.throw_obeys rfl
  · exact hLaws.throw_obeys rfl
  · exact (hLaws.follow_obeys hExhausted steps).bind
      fun _ _ => Obeys.pure trivial

end Laws

end BranchingStory
