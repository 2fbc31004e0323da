import BranchingStory.Proofs.Faults
import BranchingStory.Proofs.Relining
import BranchingStory.Proofs.Requests

/-
  This file compares two stories that are played alike.  The
  second has the outline of the first on other lines, and its
  seed and its generator may be others, if no alternative is
  shuffled.  Whatever is asked of both, the second mirrors the
  first: it gives the same replies, with other lines in its
  faults, and comes to the same states but for what was
  changed.

  Key definitions include:
    * `Reseeding`
    * `State.reseeded`
    * `Play.Mirrors`
    * `Outline.Admits`

  Key theorems include:
    * `Play.Mirrors.bind`
    * `renderWithin_mirrors`
    * `step_mirrors`
    * `resume_mirrors`
    * `StoryRequest.action_mirrors`
    * `converse_mirrors`
-/

------------------------------------------------------------
-- Reseeding
------------------------------------------------------------

namespace BranchingStory

/- A change of seeds and of generators. -/
structure Reseeding where
  seed : Int → Int
  generator : Generator → Generator

/- The reseeding that changes nothing. -/
def Reseeding.none : Reseeding :=
  ⟨id, id⟩

/- A state with another seed and another generator. -/
def State.reseeded
    (r : Reseeding)
    (s : State) : State :=
  { s with
    seed := r.seed s.seed
    generator := r.generator s.generator }

namespace State

variable (r : Reseeding)
variable (s : State)

@[simp] theorem location_reseeded :
    (s.reseeded r).location = s.location := rfl

@[simp] theorem memory_reseeded :
    (s.reseeded r).memory = s.memory := rfl

@[simp] theorem status_reseeded :
    (s.reseeded r).status = s.status := rfl

@[simp] theorem frames_reseeded :
    (s.reseeded r).frames = s.frames := rfl

@[simp] theorem orders_reseeded :
    (s.reseeded r).orders = s.orders := rfl

@[simp] theorem offers_reseeded :
    (s.reseeded r).offers = s.offers := rfl

end State

/- Whether a fragment is a shuffle. -/
def Fragment.isShuffle : Fragment → Bool
  | .alternative .shuffle _ _ => true
  | _ => false

/-
  Whether a fragment admits a reseeding: a shuffle does only
  if the generator stays as it is.
-/
def Fragment.Admits
    (r : Reseeding)
    (g : Fragment) : Prop :=
  g.isShuffle = true → r.generator = id

/- Whether all fragments of an outline admit a reseeding. -/
def Outline.Admits
    (r : Reseeding)
    (o : Outline) : Prop :=
  ∀ p ∈ o.leaves, ∀ g ∈ p.2.fragments, g.Admits r

end BranchingStory

------------------------------------------------------------
-- Actions That Mirror
------------------------------------------------------------

namespace BranchingStory

namespace Play

variable {α β α' β' : Type}

/- An outcome with another value, or with other lines. -/
def mirrored
    (f : Nat → Nat)
    (ρ : α → α') :
    Except PlayError α → Except PlayError α'
  | .ok a => .ok (ρ a)
  | .error e => .error (e.relined f)

/-
  Whether an action mirrors another one: from the reseeded
  state it comes to the reseeded state, and its outcome is the
  mirrored one.
-/
def Mirrors
    (r : Reseeding)
    (f : Nat → Nat)
    (ρ : α → α')
    (p : Play α)
    (q : Play α') : Prop :=
  ∀ s, q.runFrom (s.reseeded r) =
    (mirrored f ρ (p.runFrom s).1, (p.runFrom s).2.reseeded r)

namespace Mirrors

variable {r : Reseeding}
variable {f : Nat → Nat}
variable {ρ : α → α'}
variable {σ : β → β'}

/- To yield a value mirrors yielding another one. -/
theorem pure
    {a : α}
    {a' : α'}
    (hSame : a' = ρ a) :
    Mirrors r f ρ (Pure.pure a) (Pure.pure a') := by
  intro s
  rw [hSame]
  rfl

/- To stop mirrors stopping with other lines. -/
theorem throw
    {e e' : PlayError}
    (hSame : e' = e.relined f) :
    Mirrors r f ρ (MonadExcept.throw e : Play α)
      (MonadExcept.throw e') := by
  intro s
  rw [hSame]
  rfl

/- Actions that mirror may follow one another. -/
theorem bind
    {p : Play α}
    {q : Play α'}
    {g : α → Play β}
    {h : α' → Play β'}
    (hFirst : Mirrors r f ρ p q)
    (hThen : ∀ a, Mirrors r f σ (g a) (h (ρ a))) :
    Mirrors r f σ (p >>= g) (q >>= h) := by
  intro s
  rw [runFrom_bind, runFrom_bind, hFirst s]
  rcases p.runFrom s with ⟨e | a, s'⟩
  · rfl
  · exact hThen a s'

/- To look at the state first mirrors looking at the other. -/
theorem get
    {g : State → Play β}
    {h : State → Play β'}
    (hThen : ∀ s, Mirrors r f σ (g s) (h (s.reseeded r))) :
    Mirrors r f σ (MonadState.get >>= g)
      (MonadState.get >>= h) :=
  fun s => hThen s s

/- To put a state mirrors putting the reseeded one. -/
theorem set
    {s s' : State}
    (hSame : s' = s.reseeded r) :
    Mirrors r f id (MonadStateOf.set s : Play Unit)
      (MonadStateOf.set s') := by
  intro t
  rw [hSame]
  rfl

/- A change that leaves the seed alone mirrors itself. -/
theorem update
    {g h : State → State}
    (hSame : ∀ s, h (s.reseeded r) = (g s).reseeded r) :
    Mirrors r f id (modify g : Play Unit) (modify h) := by
  intro s
  exact congrArg (Prod.mk _) (hSame s)

/- Whichever of two actions is done. -/
theorem ite
    {c : Prop}
    [Decidable c]
    {p p' : Play α}
    {q q' : Play α'}
    (hThen : Mirrors r f ρ p q)
    (hElse : Mirrors r f ρ p' q') :
    Mirrors r f ρ (if c then p else p')
      (if c then q else q') := by
  split
  · exact hThen
  · exact hElse

end Mirrors

end Play

end BranchingStory

------------------------------------------------------------
-- Expressions
------------------------------------------------------------

namespace BranchingStory

open Play

variable {α β α' β' : Type}
variable {r : Reseeding}
variable {f : Nat → Nat}

/- The value of an expression does not depend on its lines. -/
@[simp] theorem Expr.eval_relined
    (m : Memory)
    (e : Expr) :
    (e.relined f).eval m = e.eval m := by
  induction e with
  | literal v => rfl
  | name s line meaning => rfl
  | target path line place => cases place <;> rfl
  | unary op e ih =>
      cases op <;> simp only [relined, eval, ih]
  | binary op left right ihLeft ihRight =>
      cases op <;> simp only [relined, eval, ihLeft, ihRight]

/- An expression is evaluated as before. -/
theorem evaluate_mirrors
    (e : Expr) :
    Mirrors r f id (evaluate e) (evaluate (e.relined f)) := by
  intro s
  rw [runFrom_evaluate, runFrom_evaluate, Expr.eval_relined,
    State.memory_reseeded]
  cases e.eval s.memory <;> rfl

/- A value is written as before. -/
theorem textOf_mirrors
    (v : Value) :
    Mirrors r f id (textOf v) (textOf v) := by
  unfold textOf
  exact .ite (.pure rfl) (.throw rfl)

/- An expression is tested as before. -/
theorem test_mirrors
    (e : Expr) :
    Mirrors r f id (test e) (test (e.relined f)) :=
  (evaluate_mirrors e).bind fun _ => .pure rfl

/- What is done with an item of a list is mirrored. -/
theorem itemAt_bind_mirrors
    {σ : β → β'}
    {xs : List α}
    {ρ : α → α'}
    {g : α → Play β}
    {h : α' → Play β'}
    (i : Int)
    (hThen : ∀ x ∈ xs, Mirrors r f σ (g x) (h (ρ x))) :
    Mirrors r f σ (itemAt xs i >>= g)
      (itemAt (xs.map ρ) i >>= h) := by
  unfold itemAt
  rw [itemAt?_map]
  cases hItem : itemAt? xs i with
  | none => exact fun s => rfl
  | some x => exact fun s => hThen x (mem_of_itemAt? hItem) s

end BranchingStory

------------------------------------------------------------
-- Rendering
------------------------------------------------------------

namespace BranchingStory

open Play

variable {r : Reseeding}
variable {f : Nat → Nat}

/- The order of a shuffle is that of the same generator. -/
theorem nextOrder_mirrors
    (hSame : r.generator = id)
    (number size : Nat)
    (position : Int) :
    Mirrors r f id (nextOrder number size position)
      (nextOrder number size position) := by
  have hDraw (s : State) :
      Mirrors r f id (nextOrder.draw number size s)
        (nextOrder.draw number size (s.reseeded r)) := by
    have hGenerator :
        (s.reseeded r).generator = s.generator := by
      rw [State.reseeded, hSame]
      rfl
    unfold nextOrder.draw
    rw [hGenerator]
    refine Mirrors.bind (.set ?_) fun _ => .pure rfl
    simp only [State.reseeded, hSame, id_eq]
  apply Mirrors.get
  intro s
  rw [State.orders_reseeded]
  cases s.orders.lookup number with
  | some order => exact .ite (hDraw s) (.pure rfl)
  | none => exact hDraw s

/- An alternative shows the same item next. -/
theorem nextItem_mirrors
    {mode : Mode}
    (hSteady : mode = .shuffle → r.generator = id)
    (size number : Nat) :
    Mirrors r f id (nextItem mode size number)
      (nextItem mode size number) := by
  apply Mirrors.get
  intro s
  refine Mirrors.bind (.set rfl) fun _ => ?_
  cases mode with
  | sequence => exact .pure rfl
  | cycle => exact .pure rfl
  | once => exact .pure rfl
  | shuffle =>
      refine (nextOrder_mirrors (hSteady rfl) number size
        _).bind fun order => ?_
      have hItem (i : Int) :
          Mirrors r f id
            (itemAt order i >>= fun x =>
              (pure (some x) : Play (Option Int)))
            (itemAt (order.map id) i >>= fun x =>
              pure (some x)) :=
        itemAt_bind_mirrors i fun _ _ => .pure rfl
      rw [List.map_id] at hItem
      exact hItem _

/- What is rendered, with its divert on another line. -/
def relinedRendering
    (f : Nat → Nat)
    (p : String × Option Divert) : String × Option Divert :=
  (p.1, p.2.map (Divert.relined f))

/-
  Fragments are rendered to the same text, by induction on the
  steps: what a fragment is replaced by is on other lines, too.
-/
theorem renderWithin_mirrors
    {gs : List Fragment}
    (hAdmits : Fragment.All (Fragment.Admits r) gs)
    (n : Nat) :
    Mirrors r f (relinedRendering f) (renderWithin n gs)
      (renderWithin n (gs.map (Fragment.relined f))) := by
  induction n generalizing gs with
  | zero => exact .pure rfl
  | succ n ih =>
      cases gs with
      | nil => exact .pure rfl
      | cons g rest =>
          have hRest := ih hAdmits.tail
          have hHead := hAdmits.head
          rw [List.map_cons]
          cases g with
          | text s =>
              rw [Fragment.relined, renderWithin, renderWithin]
              exact hRest.bind fun _ => .pure rfl
          | insertion e =>
              rw [Fragment.relined, renderWithin, renderWithin]
              refine (evaluate_mirrors e).bind fun v => ?_
              refine (textOf_mirrors v).bind fun s => ?_
              exact hRest.bind fun _ => .pure rfl
          | conditional c t e =>
              rcases hAdmits.conditional with ⟨hTrue, hFalse⟩
              have hYes := ih (hTrue.append hAdmits.tail)
              have hNo := ih (hFalse.append hAdmits.tail)
              rw [List.map_append] at hYes hNo
              rw [Fragment.relined,
                Fragment.relinedAll_eq_map,
                Fragment.relinedAll_eq_map, renderWithin,
                renderWithin]
              exact (test_mirrors c).bind fun _ =>
                .ite hYes hNo
          | alternative mode items number =>
              rw [Fragment.relined,
                Fragment.relinedItems_eq_map, renderWithin,
                renderWithin, List.length_map]
              have hSteady (hMode : mode = .shuffle) :
                  r.generator = id := by
                rw [hMode] at hHead
                exact hHead rfl
              refine (nextItem_mirrors hSteady items.length
                number).bind fun i? => ?_
              cases i? with
              | none => exact hRest
              | some i =>
                  refine itemAt_bind_mirrors i fun item hItem => ?_
                  rw [← List.map_append]
                  exact ih ((hAdmits.item hItem).append
                    hAdmits.tail)
          | divert d =>
              rw [Fragment.relined, renderWithin, renderWithin]
              exact .pure rfl

mutual

/- A fragment has as many parts on other lines. -/
theorem Fragment.weight_relined
    (g : Fragment) :
    (g.relined f).weight = g.weight := by
  cases g with
  | text s => rfl
  | insertion e => rfl
  | conditional c t e =>
      rw [Fragment.relined, Fragment.weight, Fragment.weight,
        Fragment.weightAll_relined t,
        Fragment.weightAll_relined e]
  | alternative m items n =>
      rw [Fragment.relined, Fragment.weight, Fragment.weight,
        Fragment.weightItems_relined items]
  | divert d => rfl

/- The same for fragments. -/
theorem Fragment.weightAll_relined
    (gs : List Fragment) :
    Fragment.weightAll (Fragment.relinedAll f gs) =
      Fragment.weightAll gs := by
  cases gs with
  | nil => rfl
  | cons g gs =>
      rw [Fragment.relinedAll, Fragment.weightAll,
        Fragment.weightAll, Fragment.weight_relined g,
        Fragment.weightAll_relined gs]

/- The same for the items of an alternative. -/
theorem Fragment.weightItems_relined
    (items : List (List Fragment)) :
    Fragment.weightItems (Fragment.relinedItems f items) =
      Fragment.weightItems items := by
  cases items with
  | nil => rfl
  | cons gs items =>
      rw [Fragment.relinedItems, Fragment.weightItems,
        Fragment.weightItems, Fragment.weightAll_relined gs,
        Fragment.weightItems_relined items]

end

/- The fragments of a line are rendered to the same text. -/
theorem render_mirrors
    {l : ContentLine}
    (hAdmits : Fragment.All (Fragment.Admits r) l.fragments) :
    Mirrors r f (relinedRendering f) (render l.fragments)
      (render (l.relined f).fragments) := by
  rw [render, render, ContentLine.relined,
    Fragment.weightAll_relined, Fragment.relinedAll_eq_map]
  exact renderWithin_mirrors hAdmits _

end BranchingStory

------------------------------------------------------------
-- Lines
------------------------------------------------------------

namespace BranchingStory

open Play

variable {r : Reseeding}
variable {f : Nat → Nat}

/- A divert leads to the same place. -/
theorem divertPlace?_mirrors
    (d : Divert) :
    Mirrors r f id (divertPlace? d)
      (divertPlace? (d.relined f)) := by
  rcases d with ⟨target, line, _ | (_ | name | a)⟩
  · exact .throw rfl
  · exact .pure rfl
  · apply Mirrors.get
    intro s
    rw [State.memory_reseeded]
    cases s.memory.vars.lookup name with
    | some v => exact .pure rfl
    | none => exact .throw rfl
  · exact .pure rfl

/- The story comes to its end alike. -/
theorem finish_mirrors :
    Mirrors r f id finish finish :=
  (Mirrors.update fun _ => by rfl).bind fun _ => .pure rfl

/- The divert that ends a line is followed alike. -/
theorem followDivert_mirrors
    (d? : Option Divert) :
    Mirrors r f id (followDivert d?)
      (followDivert (d?.map (Divert.relined f))) := by
  cases d? with
  | none => exact .pure rfl
  | some d =>
      refine (divertPlace?_mirrors d).bind fun a? => ?_
      cases a? with
      | none => exact finish_mirrors.bind fun _ => .pure rfl
      | some a =>
          exact (Mirrors.update fun _ => by rfl).bind fun _ =>
            .pure rfl

/- A line is told alike. -/
theorem emit_mirrors
    {l : ContentLine}
    (hAdmits : Fragment.All (Fragment.Admits r) l.fragments) :
    Mirrors r f id (emit l) (emit (l.relined f)) := by
  refine (render_mirrors hAdmits).bind fun p => ?_
  rcases p with ⟨text, d?⟩
  refine (followDivert_mirrors d?).bind fun prompt => .pure ?_
  cases d? <;> rfl

/- A variable is assigned alike. -/
theorem assign_mirrors
    (o : Outline)
    (name : String)
    (e : Expr) :
    Mirrors r f id (assign o name e)
      (assign (o.relined f) name (e.relined f)) := by
  refine (evaluate_mirrors e).bind fun v => ?_
  rw [Outline.lookup_vars_relined]
  cases o.vars.lookup name with
  | none => exact .throw rfl
  | some d => exact .ite (.update fun _ => by rfl) (.throw rfl)

end BranchingStory

------------------------------------------------------------
-- Choices
------------------------------------------------------------

namespace BranchingStory

open Play

variable {r : Reseeding}
variable {f : Nat → Nat}

/- Conditions are tested alike. -/
theorem allHold_mirrors
    (es : List Expr) :
    Mirrors r f id (allHold es)
      (allHold (es.map (Expr.relined f))) := by
  induction es with
  | nil => exact .pure rfl
  | cons e es ih =>
      rw [List.map_cons, allHold, allHold]
      exact (test_mirrors e).bind fun _ => .ite ih (.pure rfl)

/- The same branches can be taken. -/
theorem isAvailable_mirrors
    (b : Branch) :
    Mirrors r f id (isAvailable b)
      (isAvailable (b.relined f)) := by
  unfold isAvailable
  rw [Branch.choice_relined, Branch.id_relined]
  apply Mirrors.get
  intro s
  exact .ite (.pure rfl) (allHold_mirrors b.choice.conditions)

/- Whether what a branch is offered as admits a reseeding. -/
def Branch.Admits
    (r : Reseeding)
    (b : Branch) : Prop :=
  Fragment.All (Fragment.Admits r) b.choice.display.fragments

variable {bs : List Branch}

/- The same branches are offered. -/
theorem offersOf_mirrors
    (hAdmits : ∀ b ∈ bs, b.Admits r) :
    Mirrors r f id (offersOf bs)
      (offersOf (bs.map (Branch.relined f))) := by
  induction bs with
  | nil => exact .pure rfl
  | cons b bs ih =>
      rw [List.forall_mem_cons] at hAdmits
      have hRest := ih hAdmits.2
      rw [List.map_cons, offersOf, offersOf,
        Branch.choice_relined, Branch.id_relined]
      refine .ite hRest ?_
      refine (isAvailable_mirrors b).bind fun available => ?_
      refine .ite ?_ hRest
      refine (render_mirrors hAdmits.1).bind fun p => ?_
      exact hRest.bind fun _ => .pure rfl

/- The same fallback is found. -/
theorem findFallback?_mirrors
    (bs : List Branch) :
    Mirrors r f (Option.map (Branch.relined f))
      (findFallback? bs)
      (findFallback? (bs.map (Branch.relined f))) := by
  induction bs with
  | nil => exact .pure rfl
  | cons b bs ih =>
      rw [List.map_cons, findFallback?, findFallback?,
        Branch.choice_relined]
      refine .ite ?_ ih
      exact (isAvailable_mirrors b).bind fun _ =>
        .ite (.pure rfl) ih

/- A branch is taken alike. -/
theorem takeBranch_mirrors
    (branch : Nat) :
    Mirrors r f id (takeBranch branch)
      (takeBranch branch) := by
  refine (Mirrors.update fun _ => by rfl).bind fun _ => ?_
  apply Mirrors.get
  intro s
  rw [State.frames_reseeded]
  cases s.frames with
  | nil => exact .throw rfl
  | cons frame frames => exact .set rfl

/- A set of choices is arrived at alike. -/
theorem arriveAt_mirrors
    (hAdmits : ∀ b ∈ bs, b.Admits r)
    (line : Nat) :
    Mirrors r f id (arriveAt line bs)
      (arriveAt (f line) (bs.map (Branch.relined f))) := by
  refine (offersOf_mirrors hAdmits).bind fun offers => ?_
  cases offers with
  | cons offer offers =>
      exact (Mirrors.update fun _ => by rfl).bind fun _ =>
        .pure rfl
  | nil =>
      refine (findFallback?_mirrors bs).bind fun b? => ?_
      cases b? with
      | some b =>
          rw [Option.map_some]
          dsimp only
          rw [Branch.id_relined]
          exact (takeBranch_mirrors b.id).bind fun _ =>
            .pure rfl
      | none => exact Mirrors.get fun s => .throw rfl

end BranchingStory

------------------------------------------------------------
-- Following
------------------------------------------------------------

namespace BranchingStory

open Play

variable {r : Reseeding}
variable {f : Nat → Nat}
variable {o : Outline}

/- A stitch is entered alike. -/
theorem enter_mirrors :
    Mirrors r f id (enter o) (enter (o.relined f)) := by
  apply Mirrors.get
  intro s
  rw [State.location_reseeded, Outline.stitch?_relined]
  cases o.stitch? s.location with
  | none => exact .throw rfl
  | some stitch =>
      exact Mirrors.bind (.set rfl) fun _ => .pure rfl

/- A block is left alike. -/
theorem leave_mirrors
    (outer : List Frame) :
    Mirrors r f id (leave outer) (leave outer) := by
  cases outer with
  | nil => exact finish_mirrors.bind fun _ => .pure rfl
  | cons frame frames =>
      exact (Mirrors.update fun _ => by rfl).bind fun _ =>
        .pure rfl

/- A part of a block is executed alike. -/
theorem execute_mirrors
    (hAdmits : o.Admits r)
    {block : Nat}
    {items : List Item}
    (hBlock : o.block? block = some items)
    {i : Item}
    (hMem : i ∈ items) :
    Mirrors r f id (execute o i)
      (execute (o.relined f) (i.relined f)) := by
  -- What is told stands on a line of a leaf of the outline,
  -- where no shuffle gets in the way.
  have hLeaf : (i.id, i.node.leaf) ∈ o.leaves :=
    Outline.itemLeaves_block_subset hBlock
      (leaf_mem_itemLeaves (subset_innerItems items hMem))
  have hLine {l : ContentLine} (hOwn : l ∈ i.node.leaf.lines) :
      Fragment.All (Fragment.Admits r) l.fragments :=
    fun g hMem => hAdmits _ hLeaf g
      (List.mem_flatMap.mpr ⟨l, hOwn, hMem⟩)
  cases i with
  | line id content =>
      rw [Item.relined]
      exact emit_mirrors (hLine List.mem_cons_self)
  | gather id depth content? =>
      rw [Item.relined]
      cases content? with
      | none => exact .pure rfl
      | some content =>
          exact emit_mirrors (hLine List.mem_cons_self)
  | assign id name value line =>
      rw [Item.relined]
      exact (assign_mirrors o name value).bind fun _ =>
        .pure rfl
  | choices id depth line branches =>
      rw [Item.relined, relinedBranches_eq_map]
      refine arriveAt_mirrors (fun b hBranch g hMem' => ?_) line
      exact hAdmits _
        (Outline.itemLeaves_block_subset hBlock
          (choice_mem_itemLeaves
            (subset_branchesIn hMem hBranch))) g
        (List.mem_flatMap.mpr
          ⟨b.choice.display, List.mem_cons_self, hMem'⟩)

/- Whether a part is a set of choices wherever it stands. -/
@[simp] theorem Item.isChoices_relined
    (i : Item) :
    (i.relined f).isChoices = i.isChoices := by
  cases i <;> rw [Item.relined] <;> rfl

/- A step is made alike. -/
theorem step_mirrors
    (hAdmits : o.Admits r) :
    Mirrors r f id (step o) (step (o.relined f)) := by
  apply Mirrors.get
  intro s
  rw [State.frames_reseeded]
  cases s.frames with
  | nil => exact enter_mirrors
  | cons frame frames =>
      dsimp only
      rw [Outline.block?_relined]
      cases hBlock : o.block? frame.block with
      | none => exact .throw rfl
      | some items =>
          rw [Option.map_some]
          dsimp only
          rw [List.length_map]
          refine .ite (leave_mirrors frames) ?_
          refine itemAt_bind_mirrors frame.index
            fun i hMem => ?_
          have hRun :=
            execute_mirrors (f := f) hAdmits hBlock hMem
          rw [Item.isChoices_relined]
          split
          · exact (Mirrors.update fun _ => by rfl).bind
              fun _ => hRun
          · exact hRun

/- The story is followed alike, by induction on the steps. -/
theorem follow_mirrors
    (hAdmits : o.Admits r)
    (n : Nat) :
    Mirrors r f id (follow o n) (follow (o.relined f) n) := by
  induction n with
  | zero => exact .throw rfl
  | succ n ih =>
      rw [follow, follow]
      refine (step_mirrors hAdmits).bind fun p => ?_
      rcases p with ⟨line, prompt⟩
      cases prompt with
      | some prompt => exact .pure rfl
      | none => exact ih.bind fun _ => .pure rfl

/- The story is resumed alike. -/
theorem resume_mirrors
    (hAdmits : o.Admits r)
    (steps : Nat) :
    Mirrors r f id (resume o steps)
      (resume (o.relined f) steps) := by
  apply Mirrors.get
  intro s
  rw [State.status_reseeded]
  cases s.status with
  | finished => exact .throw rfl
  | presenting => exact .throw rfl
  | ready =>
      exact (follow_mirrors hAdmits steps).bind fun _ =>
        .pure rfl

end BranchingStory

------------------------------------------------------------
-- Requests
------------------------------------------------------------

namespace BranchingStory

open Play

variable {r : Reseeding}
variable {f : Nat → Nat}
variable {o : Outline}

/- An offer is chosen alike. -/
theorem choose_mirrors
    (index : Int) :
    Mirrors r f id (choose index) (choose index) := by
  apply Mirrors.get
  intro s
  rw [State.status_reseeded, State.offers_reseeded]
  refine .ite (.throw rfl) (.ite (.throw rfl) ?_)
  cases s.offers[index.toNat]? with
  | none => exact .throw rfl
  | some offer =>
      refine Mirrors.bind (.set rfl) fun _ => ?_
      exact (takeBranch_mirrors offer.branch).bind fun _ =>
        .update fun _ => by rfl

/- The same knots and stitches are found. -/
theorem findLocation_relined
    (o : Outline)
    (knot : String)
    (stitch : Option String) :
    findLocation (o.relined f) knot stitch =
      findLocation o knot stitch := by
  unfold findLocation
  rw [Outline.lookup_knots_relined]
  cases o.knots.lookup knot with
  | none => rfl
  | some k =>
      rw [Option.map_some]
      cases stitch with
      | none => simp only [Knot.defaultStitch?_relined]
      | some name => simp only [Knot.contains_stitches_relined]

/- The faults of not finding a place name no line. -/
theorem relined_of_findLocation
    {knot : String}
    {stitch : Option String}
    {e : PlayError}
    (hError : findLocation o knot stitch = .error e) :
    e.relined f = e := by
  rcases findLocation_error hError with rfl | ⟨name, rfl, rfl⟩
  · rfl
  · rfl

/- The story is moved alike. -/
theorem moveTo_mirrors
    (knot : String)
    (stitch : Option String) :
    Mirrors r f id (moveTo o knot stitch)
      (moveTo (o.relined f) knot stitch) := by
  unfold moveTo
  rw [findLocation_relined]
  cases hFound : findLocation o knot stitch with
  | error e =>
      exact .throw (relined_of_findLocation hFound).symm
  | ok a => exact .update fun _ => by rfl

/- The same values are admitted. -/
theorem admitValue_relined
    (o : Outline) :
    admitValue (o.relined f) = admitValue o := by
  funext name declared given
  simp only [admitValue, Outline.findPlace?_relined]

/- A variable is set alike. -/
theorem setVariable_mirrors
    (name : String)
    (given : Given) :
    Mirrors r f id (setVariable o name given)
      (setVariable (o.relined f) name given) := by
  unfold setVariable
  rw [Outline.lookup_vars_relined, admitValue_relined]
  cases o.vars.lookup name with
  | none => exact .throw rfl
  | some d =>
      dsimp only [Option.map_some, Declaration.relined]
      refine .ite (.throw rfl) ?_
      cases hAdmit : admitValue o name d.initial.kind given with
      | ok v => exact .update fun _ => by rfl
      | error fault =>
          refine .throw ?_
          rcases admitValue_error hAdmit with
            ⟨k, got, rfl⟩ | ⟨target, rfl⟩
          · rfl
          · rfl

/- What is looked up is replied alike. -/
theorem replyOf_mirrors
    {α : Type}
    {reply : α → Reply}
    {found : Except PlayError α}
    (hSame : ∀ e, found = .error e → e.relined f = e) :
    Mirrors r f id (replyOf reply found)
      (replyOf reply found) := by
  cases found with
  | ok a => exact .pure rfl
  | error e => exact .throw (hSame e rfl).symm

/- The fault of looking up a variable names no line. -/
theorem relined_of_getVariable
    {s : State}
    {name : String}
    {e : PlayError}
    (hError : getVariable s name = .error e) :
    e.relined f = e := by
  unfold getVariable at hError
  split at hError
  · nomatch hError
  · cases hError
    rfl

/- The tags of a knot do not depend on its lines. -/
theorem knotTags_relined
    (o : Outline)
    (knot : String) :
    knotTags (o.relined f) knot = knotTags o knot := by
  unfold knotTags
  rw [Outline.lookup_knots_relined]
  cases o.knots.lookup knot <;> rfl

/- The fault of asking for the tags of a knot names no line. -/
theorem relined_of_knotTags
    {knot : String}
    {e : PlayError}
    (hError : knotTags o knot = .error e) :
    e.relined f = e := by
  unfold knotTags at hError
  split at hError
  · cases hError
    rfl
  · nomatch hError

/- Visits are counted alike. -/
theorem visitsOf_mirrors
    (s : State)
    (knot : String)
    (stitch : Option String) :
    Mirrors r f id
      (replyOf .count (visitsOf o s knot stitch))
      (replyOf .count
        (visitsOf (o.relined f) (s.reseeded r) knot
          stitch)) := by
  unfold visitsOf
  rw [findLocation_relined, State.memory_reseeded]
  apply replyOf_mirrors
  intro e hError
  cases hFound : findLocation o knot stitch with
  | error e' =>
      rw [hFound] at hError
      cases hError
      exact relined_of_findLocation hFound
  | ok a =>
      rw [hFound] at hError
      nomatch hError

/- Whatever is asked of a story is met alike. -/
theorem StoryRequest.action_mirrors
    (hAdmits : o.Admits r)
    (q : StoryRequest) :
    Mirrors r f id (q.action o) (q.action (o.relined f)) := by
  cases q with
  | resume steps =>
      exact (resume_mirrors hAdmits steps).bind fun _ =>
        .pure rfl
  | choose index =>
      exact (choose_mirrors index).bind fun _ => .pure rfl
  | moveTo knot stitch =>
      exact (moveTo_mirrors knot stitch).bind fun _ =>
        .pure rfl
  | setVariable name given =>
      exact (setVariable_mirrors name given).bind fun _ =>
        .pure rfl
  | status => exact Mirrors.get fun s => .pure rfl
  | prompt => exact Mirrors.get fun s => .pure rfl
  | place => exact Mirrors.get fun s => .pure rfl
  | visits knot stitch =>
      exact Mirrors.get fun s => visitsOf_mirrors s knot stitch
  | storyTags => exact .pure rfl
  | knotTags knot =>
      rw [action, action, knotTags_relined]
      exact replyOf_mirrors fun e => relined_of_knotTags
  | variableValue name =>
      exact Mirrors.get fun s =>
        replyOf_mirrors fun e => relined_of_getVariable
  | variableText name =>
      apply Mirrors.get
      intro s
      have hSame :
          getVariable (s.reseeded r) name =
            getVariable s name := rfl
      rw [hSame]
      cases hFound : getVariable s name with
      | ok v => exact (textOf_mirrors v).bind fun _ => .pure rfl
      | error e =>
          exact .throw (relined_of_getVariable hFound).symm

/-
  Two stories are asked the same, one request after the other,
  and the second mirrors the first in all that it replies, by
  induction on the requests.
-/
theorem converse_mirrors
    (hAdmits : o.Admits r)
    (s : State)
    (qs : List StoryRequest) :
    converse (o.relined f) (s.reseeded r) qs =
      (converse o s qs).map fun p =>
        (mirrored f id p.1, p.2.reseeded r) := by
  induction qs generalizing s with
  | nil => rfl
  | cons q qs ih =>
      have hMet := StoryRequest.action_mirrors (f := f) hAdmits q s
      simp only [converse, List.map_cons, hMet, ih]

end BranchingStory
