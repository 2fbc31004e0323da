import BranchingStory.Play.Follow
import BranchingStory.Proofs.Actions

/-
  This file tells which faults can stop an action at all, in
  whatever state it is run.  What renders content and offers
  choices is stopped by what it evaluates and shows only, and a
  story that goes on is never told that it is not the time.

  Key definitions include:
    * `PlayError.isRaised`
    * `PlayError.isUntimely`
    * `Play.StopsBy`

  Key theorems include:
    * `renderWithin_raises`
    * `offersOf_raises`
    * `findFallback?_raises`
    * `step_timely`
    * `follow_timely`
-/

------------------------------------------------------------
-- Kinds Of Faults
------------------------------------------------------------

namespace BranchingStory

/-
  Whether a fault is raised by what is evaluated or shown: by
  an expression, a number too long to be written, or an item
  that is not there.
-/
def PlayError.isRaised : PlayError → Bool
  | .evaluation _ => true
  | .longInt => true
  | .indexOutOfRange => true
  | _ => false

/-
  Whether a fault tells that it is not the time for more of the
  story.
-/
def PlayError.isUntimely : PlayError → Bool
  | .finished => true
  | .choicePending => true
  | _ => false

/- The faults that are untimely. -/
theorem PlayError.isUntimely_iff
    {e : PlayError} :
    e.isUntimely = true ↔ e = .finished ∨ e = .choicePending := by
  cases e <;> simp [isUntimely]

/- What is raised tells nothing of the time. -/
theorem PlayError.timely_of_isRaised
    {e : PlayError}
    (hRaised : e.isRaised = true) :
    e.isUntimely = false := by
  cases e <;> first | rfl | cases hRaised

end BranchingStory

------------------------------------------------------------
-- Actions And Their Faults
------------------------------------------------------------

namespace BranchingStory

namespace Play

variable {P : PlayError → Prop}
variable {α β : Type}

/- Whether only certain faults can stop an action. -/
def StopsBy
    (P : PlayError → Prop)
    (p : Play α) : Prop :=
  ∀ s, Ends p s (fun _ _ => True) (fun e _ => P e)

namespace StopsBy

/- To yield a value is no fault. -/
theorem pure
    (a : α) :
    StopsBy P (Pure.pure a) :=
  fun _ => trivial

/- An action that stops does so by its fault. -/
theorem throw
    {e : PlayError}
    (hFault : P e) :
    StopsBy P (MonadExcept.throw e : Play α) :=
  fun _ => hFault

/- To read the state is no fault. -/
theorem read :
    StopsBy P (get : Play State) :=
  fun _ => trivial

/- To replace the state is no fault. -/
theorem write
    (s : State) :
    StopsBy P (set s : Play Unit) :=
  fun _ => trivial

/- To change the state is no fault. -/
theorem change
    (f : State → State) :
    StopsBy P (modify f : Play Unit) :=
  fun _ => trivial

/- One action may follow another. -/
theorem bind
    {p : Play α}
    {f : α → Play β}
    (hFirst : StopsBy P p)
    (hThen : ∀ a, StopsBy P (f a)) :
    StopsBy P (p >>= f) := by
  intro s
  rw [ends_bind]
  exact (hFirst s).mono (fun a s' _ => hThen a s')
    fun _ _ hFault => hFault

/- More faults may be allowed. -/
theorem mono
    {P' : PlayError → Prop}
    {p : Play α}
    (hStops : StopsBy P p)
    (hMore : ∀ e, P e → P' e) :
    StopsBy P' p := by
  intro s
  exact (hStops s).mono (fun _ _ _ => trivial)
    fun e _ hFault => hMore e hFault

end StopsBy

/- Whether only what is raised can stop an action. -/
abbrev Raises
    (p : Play α) : Prop :=
  StopsBy (fun e => e.isRaised = true) p

/- Whether an action is never stopped by an untimely fault. -/
abbrev IsTimely
    (p : Play α) : Prop :=
  StopsBy (fun e => e.isUntimely = false) p

/- What only raises is timely. -/
theorem StopsBy.timely
    {p : Play α}
    (hRaises : Raises p) :
    IsTimely p :=
  hRaises.mono fun _ => PlayError.timely_of_isRaised

end Play

end BranchingStory

------------------------------------------------------------
-- Rendering
------------------------------------------------------------

namespace BranchingStory

open Play

/- To take an item of a list can only raise. -/
theorem itemAt_raises
    {α : Type}
    (xs : List α)
    (i : Int) :
    Raises (itemAt xs i) := by
  unfold itemAt
  split
  · exact .pure _
  · exact .throw rfl

/- To evaluate an expression can only raise. -/
theorem evaluate_raises
    (e : Expr) :
    Raises (evaluate e) := by
  apply StopsBy.read.bind
  intro s
  split
  · exact .pure _
  · exact .throw rfl

/- To test a condition can only raise. -/
theorem test_raises
    (e : Expr) :
    Raises (test e) :=
  (evaluate_raises e).bind fun _ => .pure _

/- To write a value can only raise. -/
theorem textOf_raises
    (v : Value) :
    Raises (textOf v) := by
  unfold textOf
  split
  · exact .pure _
  · exact .throw rfl

/- To shuffle can only raise. -/
theorem nextOrder_raises
    (number size : Nat)
    (position : Int) :
    Raises (nextOrder number size position) := by
  have hDraw (s : State) :
      Raises (nextOrder.draw number size s) :=
    (StopsBy.write _).bind fun _ => .pure _
  apply StopsBy.read.bind
  intro s
  split
  · split
    · exact hDraw s
    · exact .pure _
  · exact hDraw s

/- To show the next item of an alternative can only raise. -/
theorem nextItem_raises
    (mode : Mode)
    (size number : Nat) :
    Raises (nextItem mode size number) := by
  apply StopsBy.read.bind
  intro s
  apply (StopsBy.write _).bind
  intro _
  cases mode with
  | sequence => exact .pure _
  | cycle => exact .pure _
  | once => exact .pure _
  | shuffle =>
      apply (nextOrder_raises number size _).bind
      intro order
      exact (itemAt_raises order _).bind fun _ => .pure _

/- To render fragments can only raise. -/
theorem renderWithin_raises
    (n : Nat)
    (fs : List Fragment) :
    Raises (renderWithin n fs) := by
  induction n generalizing fs with
  | zero => exact .pure _
  | succ n ih =>
      match fs with
      | [] => exact .pure _
      | .text s :: rest =>
          exact (ih rest).bind fun _ => .pure _
      | .insertion e :: rest =>
          apply (evaluate_raises e).bind
          intro v
          apply (textOf_raises v).bind
          intro s
          exact (ih rest).bind fun _ => .pure _
      | .conditional c whenTrue whenFalse :: rest =>
          apply (test_raises c).bind
          intro holds
          split
          · exact ih _
          · exact ih _
      | .alternative mode items number :: rest =>
          apply (nextItem_raises mode items.length number).bind
          intro i?
          cases i? with
          | none => exact ih rest
          | some i =>
              exact (itemAt_raises items i).bind fun _ => ih _
      | .divert d :: rest => exact .pure _

/- To render a line can only raise. -/
theorem render_raises
    (fs : List Fragment) :
    Raises (render fs) :=
  renderWithin_raises _ fs

end BranchingStory

------------------------------------------------------------
-- Offers
------------------------------------------------------------

namespace BranchingStory

open Play

/- To test conditions can only raise. -/
theorem allHold_raises
    (es : List Expr) :
    Raises (allHold es) := by
  induction es with
  | nil => exact .pure _
  | cons e es ih =>
      apply (test_raises e).bind
      intro holds
      split
      · exact ih
      · exact .pure _

/- To find out whether a branch can be taken can only raise. -/
theorem isAvailable_raises
    (b : Branch) :
    Raises (isAvailable b) := by
  apply StopsBy.read.bind
  intro s
  split
  · exact .pure _
  · exact allHold_raises _

/- To make offers can only raise. -/
theorem offersOf_raises
    (bs : List Branch) :
    Raises (offersOf bs) := by
  induction bs with
  | nil => exact .pure _
  | cons b bs ih =>
      rw [offersOf]
      split
      · exact ih
      · apply (isAvailable_raises b).bind
        intro available
        split
        · apply (render_raises _).bind
          intro r
          exact ih.bind fun _ => .pure _
        · exact ih

/- To find a fallback can only raise. -/
theorem findFallback?_raises
    (bs : List Branch) :
    Raises (findFallback? bs) := by
  induction bs with
  | nil => exact .pure _
  | cons b bs ih =>
      rw [findFallback?]
      split
      · apply (isAvailable_raises b).bind
        intro available
        split
        · exact .pure _
        · exact ih
      · exact ih

end BranchingStory

------------------------------------------------------------
-- Steps
------------------------------------------------------------

namespace BranchingStory

open Play

/- To come to the end of the story is timely. -/
theorem finish_timely :
    IsTimely finish :=
  (StopsBy.change _).bind fun _ => .pure _

/- To find the place that a divert leads to is timely. -/
theorem divertPlace?_timely
    (d : Divert) :
    IsTimely (divertPlace? d) := by
  unfold divertPlace?
  split
  · exact .pure _
  · exact .pure _
  · apply StopsBy.read.bind
    intro s
    split
    · exact .pure _
    · exact .throw rfl
  · exact .throw rfl

/- To follow a divert is timely. -/
theorem followDivert_timely
    (d? : Option Divert) :
    IsTimely (followDivert d?) := by
  cases d? with
  | none => exact .pure _
  | some d =>
      apply (divertPlace?_timely d).bind
      intro a?
      cases a? with
      | none => exact finish_timely.bind fun _ => .pure _
      | some a =>
          exact (StopsBy.change _).bind fun _ => .pure _

/- To render a line and follow its divert is timely. -/
theorem emit_timely
    (l : ContentLine) :
    IsTimely (emit l) := by
  apply (render_raises l.fragments).timely.bind
  rintro ⟨text, d?⟩
  exact (followDivert_timely d?).bind fun _ => .pure _

variable (o : Outline)

/- To assign a value is timely. -/
theorem assign_timely
    (name : String)
    (e : Expr) :
    IsTimely (assign o name e) := by
  apply (evaluate_raises e).timely.bind
  intro v
  split
  · exact .throw rfl
  · split
    · exact .change _
    · exact .throw rfl

/- To take a branch is timely. -/
theorem takeBranch_timely
    (branch : Nat) :
    IsTimely (takeBranch branch) := by
  apply (StopsBy.change _).bind
  intro _
  apply StopsBy.read.bind
  intro s
  split
  · exact .throw rfl
  · exact .write _

/- To arrive at a set of choices is timely. -/
theorem arriveAt_timely
    (line : Nat)
    (branches : List Branch) :
    IsTimely (arriveAt line branches) := by
  apply (offersOf_raises branches).timely.bind
  intro offers
  cases offers with
  | cons offer offers =>
      exact (StopsBy.change _).bind fun _ => .pure _
  | nil =>
      apply (findFallback?_raises branches).timely.bind
      intro b?
      cases b? with
      | none => exact StopsBy.read.bind fun _ => .throw rfl
      | some b =>
          exact (takeBranch_timely b.id).bind fun _ => .pure _

/- To enter a stitch is timely. -/
theorem enter_timely :
    IsTimely (enter o) := by
  apply StopsBy.read.bind
  intro s
  split
  · exact .throw rfl
  · exact (StopsBy.write _).bind fun _ => .pure _

/- To leave a block is timely. -/
theorem leave_timely
    (outer : List Frame) :
    IsTimely (leave outer) := by
  cases outer with
  | nil => exact finish_timely.bind fun _ => .pure _
  | cons f fs =>
      exact (StopsBy.change _).bind fun _ => .pure _

/- To execute a part of the content is timely. -/
theorem execute_timely
    (i : Item) :
    IsTimely (execute o i) := by
  cases i with
  | line id content => exact emit_timely content
  | gather id depth content? =>
      cases content? with
      | none => exact .pure _
      | some content => exact emit_timely content
  | assign id name value line =>
      exact (assign_timely o name value).bind fun _ => .pure _
  | choices id depth line branches =>
      exact arriveAt_timely line branches

/- A step is timely. -/
theorem step_timely :
    IsTimely (step o) := by
  apply StopsBy.read.bind
  intro s
  split
  · exact enter_timely o
  · split
    · exact .throw rfl
    · split
      · exact leave_timely _
      · apply (itemAt_raises _ _).timely.bind
        intro i
        split
        · exact (StopsBy.change _).bind fun _ =>
            execute_timely o i
        · exact execute_timely o i

/- To follow a story is timely, however far it goes. -/
theorem follow_timely
    (n : Nat) :
    IsTimely (follow o n) := by
  induction n with
  | zero => exact .throw rfl
  | succ n ih =>
      apply (step_timely o).bind
      intro r
      split
      · exact .pure _
      · exact ih.bind fun _ => .pure _

end BranchingStory
