import BranchingStory.Outline.Builder
import BranchingStory.Proofs.Gaps

/-
  This file builds outlines from the same logical lines on
  other lines: what is being written is on other lines at all
  times, and so is the outline that comes of it.

  Key definitions include:
    * `Spine.relined`
    * `OpenKnot.relined`
    * `Builder.relined`

  Key theorems include:
    * `Spine.closeTo_relined`
    * `OpenKnot.closeBody_relined`
    * `Builder.add_mirrors`
    * `buildOutline_relined`
-/

------------------------------------------------------------
-- Spines
------------------------------------------------------------

namespace BranchingStory

variable (f : Nat → Nat)

/- A set of choices that is open, on other lines. -/
def Rung.relined
    (r : Rung) : Rung :=
  { r with
    before := r.before.map (Item.relined f)
    line := f r.line
    closed := r.closed.map (Branch.relined f)
    choice := r.choice.relined f }

/- Content that is being written, on other lines. -/
def Spine.relined
    (s : Spine) : Spine :=
  ⟨s.rungs.map (Rung.relined f), s.items.map (Item.relined f)⟩

/- The last branch of a set is on other lines. -/
theorem Rung.branch_relined
    (r : Rung)
    (depth : Nat)
    (items : List Item) :
    (r.relined f).branch depth (items.map (Item.relined f)) =
      (r.branch depth items).relined f := by
  rw [branch, branch, Branch.relined, relinedItems_eq_map,
    relined]

/- A set that is closed is on other lines. -/
theorem Rung.close_relined
    (r : Rung)
    (depth : Nat)
    (items : List Item) :
    (r.relined f).close depth (items.map (Item.relined f)) =
      (r.close depth items).map (Item.relined f) := by
  rw [close, close, branch_relined, List.map_append,
    List.map_singleton, Item.relined, relinedBranches_eq_map,
    List.map_append, List.map_singleton]
  rfl

namespace Spine

variable (s : Spine)

@[simp] theorem depth_relined :
    (s.relined f).depth = s.depth :=
  List.length_map ..

/- As many sets are closed, from the inside out. -/
theorem closeRungs_relined
    (depth : Nat)
    (rs : List Rung)
    (items : List Item) :
    closeRungs depth (rs.map (Rung.relined f))
        (items.map (Item.relined f)) =
      (closeRungs depth rs items).relined f := by
  induction rs generalizing items with
  | nil => rfl
  | cons r rs ih =>
      rw [List.map_cons, closeRungs, closeRungs,
        List.length_map]
      split
      · rfl
      · rw [Rung.close_relined, ih]

/- Sets are closed alike. -/
@[simp] theorem closeTo_relined
    (depth : Nat) :
    (s.relined f).closeTo depth =
      (s.closeTo depth).relined f :=
  closeRungs_relined f depth s.rungs s.items

/- The content that is finished is on other lines. -/
theorem finish_relined :
    (s.relined f).finish =
      s.finish.map (Item.relined f) := by
  rw [finish, closeTo_relined]
  rfl

/- A part is put at the end alike. -/
theorem append_relined
    (i : Item) :
    (s.relined f).append (i.relined f) =
      (s.append i).relined f := by
  rw [append, append, relined, relined, List.map_append,
    List.map_singleton]

/- A set is opened alike. -/
theorem openSet_relined
    (setId line branchId outputId : Nat)
    (c : Choice) :
    (s.relined f).openSet setId (f line) branchId outputId
        (c.relined f) =
      (s.openSet setId line branchId outputId c).relined f :=
  rfl

/- A further branch is begun alike. -/
theorem nextBranch_relined
    (branchId outputId : Nat)
    (c : Choice) :
    (s.relined f).nextBranch branchId outputId (c.relined f) =
      (s.nextBranch branchId outputId c).relined f := by
  rcases s with ⟨rungs, items⟩
  cases rungs with
  | nil => rfl
  | cons r rs =>
      have hLast :=
        Rung.branch_relined f r (rs.length + 1) items
      simp only [relined, nextBranch, List.map_cons,
        List.length_map, hLast]
      simp only [Rung.relined, List.map_append,
        List.map_cons, List.map_nil]

end Spine

end BranchingStory

------------------------------------------------------------
-- Open Knots
------------------------------------------------------------

namespace BranchingStory

variable (f : Nat → Nat)

/- Content that is being written, on other lines. -/
def OpenBody.relined
    (b : OpenBody) : OpenBody :=
  { b with
    line := f b.line
    spine := b.spine.relined f }

/- A knot that is being written, on other lines. -/
def OpenKnot.relined
    (k : OpenKnot) : OpenKnot :=
  { k with
    line := f k.line
    stitches := k.stitches.mapValues (Stitch.relined f)
    detached := k.detached.map (Body.relined f)
    current := k.current.map (OpenBody.relined f) }

namespace OpenKnot

variable (k : OpenKnot)

/- The content at hand is finished alike. -/
theorem closeBody_relined :
    (k.relined f).closeBody = k.closeBody.relined f := by
  rcases k with
    ⟨name, line, repeated, stitches, detached, tags, current⟩
  cases current with
  | none => rfl
  | some b =>
      rcases b with ⟨_ | own, bodyLine, id, spine⟩
      · simp only [closeBody, relined, Option.map_some,
          OpenBody.relined, Spine.finish_relined,
          List.map_append, List.map_singleton, Body.relined,
          relinedItems_eq_map, Option.map_none]
      · simp only [closeBody, relined, Option.map_some,
          OpenBody.relined, Spine.finish_relined,
          Table.mapValues_insert, Stitch.relined,
          Body.relined, relinedItems_eq_map, Option.map_none]

/- New content is begun alike. -/
theorem openBody_relined
    (name : Option String)
    (line id : Nat) :
    (k.relined f).openBody name (f line) id =
      (k.openBody name line id).relined f := by
  rw [openBody, closeBody_relined]
  rfl

/- The same stitches have been begun. -/
theorem hasStitch_relined
    (name : String) :
    (k.relined f).hasStitch name = k.hasStitch name := by
  rw [hasStitch, closeBody_relined]
  exact Table.contains_mapValues _ _ _

end OpenKnot

end BranchingStory

------------------------------------------------------------
-- The Builder
------------------------------------------------------------

namespace BranchingStory

/- What has been built so far, on other lines. -/
def Builder.relined
    (f : Nat → Nat)
    (b : Builder) : Builder :=
  { b with
    knots := b.knots.mapValues (Knot.relined f)
    detached := b.detached.map (Body.relined f)
    vars := b.vars.mapValues (Declaration.relined f)
    knot := b.knot.map (OpenKnot.relined f) }

/- What takes the next part, on other lines. -/
def relinedPlace
    (f : Nat → Nat)
    (p : Builder × OpenKnot × OpenBody) :
    Builder × OpenKnot × OpenBody :=
  (p.1.relined f, p.2.1.relined f, p.2.2.relined f)

namespace Builder

open Reading

variable {f : Nat → Nat}
variable {line : Nat}

/- The content that takes the next part is found alike. -/
theorem ensureBody_relined
    (b : Builder) :
    (b.relined f).ensureBody (f line) =
      relinedPlace f (b.ensureBody line) := by
  have hKnot :
      (b.relined f).knot.getD (.empty rootName (f line) false) =
        (b.knot.getD (.empty rootName line false)).relined
          f := by
    rw [relined]
    cases b.knot <;> rfl
  unfold ensureBody
  rw [hKnot]
  generalize b.knot.getD (.empty rootName line false) = k
  rcases k with
    ⟨name, line', repeated, stitches, detached, tags, current⟩
  cases current <;> rfl

/- A changed content is put back alike. -/
theorem putSpine_relined
    {s s' : Spine}
    (hSpine : s' = s.relined f)
    (b : Builder)
    (k : OpenKnot)
    (body : OpenBody)
    (next : Nat)
    (tags : List String) :
    { (b.relined f).putBody (k.relined f)
        { body.relined f with spine := s' } with
      nextId := next
      waitingTags := tags } =
      relined f
        { b.putBody k { body with spine := s } with
          nextId := next
          waitingTags := tags } := by
  rw [hSpine]
  rfl

/- The stitches without content are reported alike. -/
theorem reportEmptyStitches_mirrors
    (knot : String)
    (ss : List Stitch) :
    Mirrors f id (reportEmptyStitches knot ss)
      (reportEmptyStitches knot
        (ss.map (Stitch.relined f))) := by
  induction ss with
  | nil => exact .pure rfl
  | cons s ss ih =>
      have hEmpty :
          (s.relined f).body.items.isEmpty =
            s.body.items.isEmpty := by
        rw [Stitch.relined, Body.relined, relinedItems_eq_map]
        exact List.isEmpty_map
      rw [List.map_cons, reportEmptyStitches,
        reportEmptyStitches, hEmpty]
      exact .guarded rfl rfl ih

/- The knot at hand is finished alike. -/
theorem closeKnot_mirrors
    (b : Builder) :
    Mirrors f (relined f) b.closeKnot
      (b.relined f).closeKnot := by
  rcases b with
    ⟨nextId, knots, detached, vars, tags, knot, waitingTags,
      headerSeen, tagsToKnot⟩
  cases knot with
  | none => exact .pure rfl
  | some k =>
      simp only [closeKnot, relined, Option.map_some,
        OpenKnot.closeBody_relined]
      generalize k.closeBody = k
      have hEmpty :
          (k.relined f).stitches.entries.isEmpty =
            k.stitches.entries.isEmpty :=
        List.isEmpty_map
      have hValues :
          (k.relined f).stitches.values =
            k.stitches.values.map (Stitch.relined f) :=
        Table.values_mapValues _ _
      rw [hEmpty, hValues]
      refine .guarded rfl rfl ?_
      refine (reportEmptyStitches_mirrors _ _).bind
        fun _ => .pure ?_
      have hOwn :
          (k.stitches.values.map (Stitch.relined f)).map
              Stitch.body =
            (k.stitches.values.map Stitch.body).map
              (Body.relined f) := by
        rw [List.map_map, List.map_map]
        rfl
      have hRepeated : (k.relined f).repeated = k.repeated := rfl
      have hKnot :
          (k.relined f).toKnot = k.toKnot.relined f := rfl
      have hName : (k.relined f).name = k.name := rfl
      have hDetached :
          (k.relined f).detached =
            k.detached.map (Body.relined f) := rfl
      simp only [hOwn, hRepeated, hKnot, hName, hDetached]
      cases k.repeated with
      | false =>
          simp [relined, Table.mapValues_insert]
      | true => simp [relined]

/- A header of a knot is added alike. -/
theorem addKnot_mirrors
    (name : String)
    (b : Builder) :
    Mirrors f (relined f) (b.addKnot line name)
      ((b.relined f).addKnot (f line) name) := by
  refine (closeKnot_mirrors b).bind fun b => ?_
  have hFirst :
      ((b.relined f).knots.lookup name).map Knot.line =
        ((b.knots.lookup name).map Knot.line).map f := by
    rw [relined, Table.lookup_mapValues, Option.map_map,
      Option.map_map]
    rfl
  rw [hFirst]
  cases (b.knots.lookup name).map Knot.line with
  | none => exact .pure rfl
  | some l => exact .report_pure rfl rfl rfl

/- A header of a stitch is added alike. -/
theorem addStitch_mirrors
    (name : String)
    (b : Builder) :
    Mirrors f (relined f) (b.addStitch line name)
      ((b.relined f).addStitch (f line) name) := by
  rcases b with
    ⟨nextId, knots, detached, vars, tags, knot, waitingTags,
      headerSeen, tagsToKnot⟩
  cases knot with
  | none => exact .report_pure rfl rfl rfl
  | some k =>
      simp only [addStitch, relined, Option.map_some,
        OpenKnot.hasStitch_relined, OpenKnot.openBody_relined]
      exact .ite (.report_pure rfl rfl rfl) (.pure rfl)

/- A line is added alike. -/
theorem addLine_mirrors
    (text : String)
    (b : Builder) :
    Mirrors f (relined f) (b.addLine line text)
      ((b.relined f).addLine (f line) text) := by
  unfold addLine
  rw [ensureBody_relined]
  rcases b.ensureBody line with ⟨b, k, body⟩
  refine (readLine_mirrors _).bind fun content => .pure ?_
  apply putSpine_relined
  rw [← Spine.append_relined, Item.relined]
  rfl

/- An assignment is added alike. -/
theorem addAssignment_mirrors
    (text : String)
    (b : Builder) :
    Mirrors f (relined f) (b.addAssignment line text)
      ((b.relined f).addAssignment (f line) text) := by
  unfold addAssignment
  rw [ensureBody_relined]
  rcases b.ensureBody line with ⟨b, k, body⟩
  refine (readAssignment_mirrors _).bind fun p? => ?_
  cases p? with
  | none => exact .pure rfl
  | some p =>
      rcases p with ⟨name, value⟩
      apply Mirrors.pure
      apply putSpine_relined
      rw [← Spine.append_relined, Item.relined]
      rfl

/- A depth is kept in bounds alike. -/
theorem clampDepth_mirrors
    (depth innermost : Nat) :
    Mirrors f id (clampDepth line depth innermost)
      (clampDepth (f line) depth innermost) :=
  .ite (.report_pure rfl rfl rfl) (.pure rfl)

/- A choice is added alike. -/
theorem addChoice_mirrors
    (depth : Nat)
    (sticky : Bool)
    (text : String)
    (b : Builder) :
    Mirrors f (relined f) (b.addChoice line depth sticky text)
      ((b.relined f).addChoice (f line) depth sticky
        text) := by
  unfold addChoice
  rw [ensureBody_relined]
  rcases b.ensureBody line with ⟨b, k, body⟩
  have hDepth :
      (body.relined f).spine.depth = body.spine.depth :=
    Spine.depth_relined f body.spine
  dsimp only [relinedPlace]
  rw [hDepth]
  refine (clampDepth_mirrors _ _).bind fun depth => ?_
  refine (readChoice_mirrors _ _).bind fun choice => .pure ?_
  -- The depth decides on the spine and on the next number.
  by_cases hDeeper : body.spine.depth < depth
  · simp only [id_eq, if_pos hDeeper]
    apply putSpine_relined
    rw [← Spine.openSet_relined]
    rfl
  · simp only [id_eq, if_neg hDeeper]
    apply putSpine_relined
    rw [← Spine.nextBranch_relined, ← Spine.closeTo_relined]
    rfl

/- A gather is added alike. -/
theorem addGather_mirrors
    (depth : Nat)
    (text : String)
    (b : Builder) :
    Mirrors f (relined f) (b.addGather line depth text)
      ((b.relined f).addGather (f line) depth text) := by
  unfold addGather
  rw [ensureBody_relined]
  rcases b.ensureBody line with ⟨b, k, body⟩
  have hDepth :
      (body.relined f).spine.depth = body.spine.depth :=
    Spine.depth_relined f body.spine
  dsimp only [relinedPlace]
  rw [hDepth]
  refine (clampDepth_mirrors _ _).bind fun depth => ?_
  dsimp only [id_eq]
  refine .ite (.pure ?_) ?_
  · apply putSpine_relined
    rw [← Spine.append_relined, ← Spine.closeTo_relined,
      Item.relined]
    rfl
  · refine (readLine_mirrors _).bind fun content => .pure ?_
    apply putSpine_relined
    rw [← Spine.append_relined, ← Spine.closeTo_relined,
      Item.relined]
    rfl

/- A declaration is added alike. -/
theorem addDeclaration_mirrors
    (constant : Bool)
    (text : String)
    (b : Builder) :
    Mirrors f (relined f) (b.addDeclaration line constant text)
      ((b.relined f).addDeclaration (f line) constant
        text) := by
  refine .ite (.report_pure rfl rfl rfl) ?_
  refine (readDeclaration_mirrors _).bind fun p? => ?_
  cases p? with
  | none => exact .pure rfl
  | some p =>
      rcases p with ⟨name, v⟩
      have hLookup :
          (b.relined f).vars.lookup name =
            (b.vars.lookup name).map (Declaration.relined f) :=
        Table.lookup_mapValues _ _ _
      dsimp only [id_eq]
      rw [hLookup]
      cases b.vars.lookup name with
      | some d => exact .report_pure rfl rfl rfl
      | none =>
          apply Mirrors.pure
          simp only [relined, Table.mapValues_insert,
            Declaration.relined]

/- Tags are added alike. -/
theorem addTags_relined
    (text : String)
    (b : Builder) :
    (b.relined f).addTags text =
      (b.addTags text).relined f := by
  rcases b with
    ⟨nextId, knots, detached, vars, tags, knot, waitingTags,
      headerSeen, tagsToKnot⟩
  cases knot with
  | none => rfl
  | some k => cases tagsToKnot <;> rfl

/- A logical line is added alike. -/
theorem add_mirrors
    (b : Builder)
    (l : ScriptLine) :
    Mirrors f (relined f) (b.add l)
      ((b.relined f).add (l.relined f)) := by
  rcases l with ⟨kind, line, text⟩
  cases kind with
  | text => exact addLine_mirrors text b
  | choice depth sticky =>
      exact addChoice_mirrors depth sticky text b
  | gather depth => exact addGather_mirrors depth text b
  | knot => exact addKnot_mirrors text b
  | stitch => exact addStitch_mirrors text b
  | declaration constant =>
      exact addDeclaration_mirrors constant text b
  | tag => exact .pure (addTags_relined text b)
  | divert => exact addLine_mirrors text b
  | assignment => exact addAssignment_mirrors text b

/- Logical lines are added alike, one after the other. -/
theorem foldlM_add_mirrors
    (ls : List ScriptLine)
    (b : Builder) :
    Mirrors f (relined f) (ls.foldlM add b)
      ((ls.map (ScriptLine.relined f)).foldlM add
        (b.relined f)) := by
  induction ls generalizing b with
  | nil => exact .pure rfl
  | cons l ls ih =>
      rw [List.map_cons, List.foldlM_cons, List.foldlM_cons]
      exact (add_mirrors b l).bind ih

/- The story starts at the same place. -/
theorem start?_relined
    (b : Builder) :
    (b.relined f).start? = b.start? := by
  have hRoot :
      (b.relined f).knots.contains rootName =
        b.knots.contains rootName :=
    Table.contains_mapValues _ _ _
  have hValues :
      (b.relined f).knots.values =
        b.knots.values.map (Knot.relined f) :=
    Table.values_mapValues _ _
  rw [start?, start?, hRoot, hValues]
  congr 1
  induction b.knots.values with
  | nil => rfl
  | cons k ks ih =>
      rw [List.map_cons, List.findSome?_cons,
        List.findSome?_cons, Knot.defaultStitch?_relined, ih]
      rfl

end Builder

open Reading

/-
  The outline of logical lines on other lines is that of the
  lines, on other lines.
-/
theorem buildOutline_relined
    {f : Nat → Nat}
    {ls : List ScriptLine}
    {d d' e : Draft}
    {o : Outline}
    (hFollows : d.Follows f d')
    (hBuilt : (buildOutline ls).run d = .ok (some o, e)) :
    ∃ e', (buildOutline (ls.map (ScriptLine.relined f))).run
        d' = .ok (some (o.relined f), e') ∧
      e.Follows f e' := by
  rcases run_bind_ok.mp hBuilt with ⟨b, d₁, hAdded, hBuilt⟩
  rcases run_bind_ok.mp hBuilt with ⟨b', d₂, hClosed, hBuilt⟩
  rcases (Builder.foldlM_add_mirrors ls .empty).ok hFollows
      hAdded with ⟨d₁', hAdded', hFollows₁⟩
  rcases (Builder.closeKnot_mirrors b).ok hFollows₁ hClosed
    with ⟨d₂', hClosed', hFollows₂⟩
  -- A script without content is reported on line one wherever
  -- its lines are, which is why only an outline is mirrored.
  cases hStart : b'.start? with
  | none =>
      rw [hStart] at hBuilt
      rcases run_bind_ok.mp hBuilt with ⟨_, d₃, _, hNone⟩
      nomatch (run_pure_ok.mp hNone).1
  | some start =>
      rw [hStart] at hBuilt
      rcases run_pure_ok.mp hBuilt with ⟨hOutline, rfl⟩
      cases hOutline
      refine ⟨d₂', run_bind_ok.mpr ⟨_, d₁', hAdded', ?_⟩,
        hFollows₂⟩
      refine run_bind_ok.mpr ⟨_, d₂', hClosed', ?_⟩
      rw [Builder.start?_relined, hStart]
      rfl

end BranchingStory
