import BranchingStory.Proofs.Accepted
import BranchingStory.Proofs.StoreLaws
import BranchingStory.Proofs.Worklists

/-
  This file shows that the check of an outline leaves nothing
  out.  It visits all that can be reached from the stitches,
  and once a story has been read every name and every target
  in it has a meaning.

  Key definitions include:
    * `Expr.IsResolved`
    * `Divert.IsResolved`
    * `Node.IsResolved`

  Key theorems include:
    * `classifyScript_nests`
    * `buildOutline_numbers`
    * `Story.isResolved_of_read`
    * `checks_leave_nothing_out`
-/

------------------------------------------------------------
-- Resolved Targets
------------------------------------------------------------

namespace BranchingStory

/-
  Whether every name in an expression is a variable or stands
  for an address, and every target in it for an address.
-/
def Expr.IsResolved
    (o : Outline) : Expr → Prop
  | .literal _ => True
  | .name s _ meaning =>
      meaning = some .variable ∧ o.vars.contains s = true ∨
        ∃ a, meaning = some (.visits a) ∧
          o.hasAddress a = true
  | .target _ _ place =>
      ∃ a, place = some a ∧ o.hasAddress a = true
  | .unary _ e => e.IsResolved o
  | .binary _ e f => e.IsResolved o ∧ f.IsResolved o

/-
  Whether a divert leads to an end of the story, through the
  variable of its name, or to an address.
-/
def Divert.IsResolved
    (o : Outline)
    (d : Divert) : Prop :=
  d.destination = some .finish ∧
      isFinishName d.target = true ∨
    d.destination = some (.throughVariable d.target) ∧
      o.holdsPlace d.target = true ∨
    ∃ a, d.destination = some (.place a) ∧
      o.hasAddress a = true

/- Whether all that a node holds by itself is resolved. -/
structure Node.IsResolved
    (o : Outline)
    (n : Node) : Prop where
  diverts : ∀ d, .divert d ∈ n.leaf.fragments →
    d.IsResolved o
  expressions : ∀ e ∈ n.leaf.expressions, e.IsResolved o

/- What has a kind is resolved. -/
theorem HasKind.isResolved
    {o : Outline}
    {e : Expr}
    {k : Kind}
    (hKind : HasKind o e k) :
    e.IsResolved o := by
  induction hKind with
  | literal v hKind => trivial
  | reference name line d hLookup =>
      refine Or.inl ⟨rfl, ?_⟩
      rw [Table.contains, hLookup]
      rfl
  | visits name line a hPlace =>
      exact Or.inr ⟨a, rfl, hPlace⟩
  | target path line a hPlace => exact ⟨a, rfl, hPlace⟩
  | not _ _ ih => exact ih
  | negate _ _ ih => exact ih
  | binary _ _ _ ihLeft ihRight => exact ⟨ihLeft, ihRight⟩

/- All expressions of a part that can be played are resolved. -/
theorem Leaf.IsSound.isResolved
    {o : Outline}
    {l : Leaf}
    (hSound : l.IsSound o) :
    ∀ e ∈ l.expressions, e.IsResolved o := by
  intro e hMem
  rcases List.mem_append.mp hMem with hOwn | hMem
  · cases l with
    | block => cases hOwn
    | line content => cases hOwn
    | assign name value =>
        rcases List.mem_singleton.mp hOwn with rfl
        rcases hSound.assigned name _ rfl with ⟨d, _, hKind⟩
        exact hKind.isResolved
    | choice c =>
        rcases hSound.conditions c rfl e hOwn with ⟨k, hKind⟩
        exact hKind.isResolved
  · rcases List.mem_filterMap.mp hMem with ⟨f, hFragment, hExpr⟩
    have hFragment' := hSound.fragments f hFragment
    cases f with
    | insertion e' =>
        cases hExpr
        rcases hFragment' with ⟨k, hKind⟩
        exact hKind.isResolved
    | conditional c t f =>
        cases hExpr
        rcases hFragment' with ⟨k, hKind⟩
        exact hKind.isResolved
    | text s => cases hExpr
    | alternative m items n => cases hExpr
    | divert d => cases hExpr

/- Where a divert leads is one of the three. -/
theorem Divert.isResolved_of_destination
    {o : Outline}
    {knot : String}
    {d : Divert}
    {destination : Destination}
    (hLeads : o.destination? knot d.target = some destination)
    (hSame : d.destination = some destination) :
    d.IsResolved o := by
  unfold Outline.destination? at hLeads
  rw [Divert.IsResolved, hSame]
  split at hLeads
  · next hFinish =>
      cases hLeads
      exact Or.inl ⟨rfl, hFinish⟩
  · split at hLeads
    · next hHolds =>
        cases hLeads
        exact Or.inr (Or.inl ⟨rfl, hHolds⟩)
    · rcases Option.map_eq_some_iff.mp hLeads with
        ⟨a, hPlace, rfl⟩
      exact Or.inr (Or.inr
        ⟨a, rfl, Outline.hasAddress_of_findPlace? hPlace⟩)

/- The nodes of an outline hold its leaves. -/
theorem Outline.exists_leaf_of_mem_nodes
    {o : Outline}
    {n : Node}
    (hMem : n ∈ o.nodes) :
    ∃ i, (i, n.leaf) ∈ o.leaves := by
  rw [nodes] at hMem
  rcases List.mem_map.mp hMem with ⟨p, hSorted, rfl⟩
  rw [List.mem_mergeSort] at hSorted
  rcases List.mem_flatMap.mp hSorted with ⟨b, hBody, hNode⟩
  exact ⟨p.1, List.mem_flatMap.mpr
    ⟨b, hBody, List.mem_map_of_mem hNode⟩⟩

/- All that a story that is read consists of is resolved. -/
theorem Story.isResolved_of_read
    {source : String}
    {story : Story}
    (hRead : Story.read source = .ok story) :
    ∀ n ∈ story.outline.nodes, n.IsResolved story.outline := by
  have hSound := Story.isSound_of_read hRead
  rcases Story.read_ok hRead with ⟨o, numbered, hOutline, hFrom⟩
  rw [hOutline] at hSound ⊢
  intro n hNode
  rcases Outline.exists_leaf_of_mem_nodes hNode with ⟨i, hLeaf⟩
  have hLeafSound := hSound.leaves _ hLeaf
  refine ⟨?_, hLeafSound.isResolved⟩
  intro d hMem
  rcases hLeafSound.fragments _ hMem with
    ⟨destination, hSame, _⟩
  rcases Outline.mem_leaves_resolve hFrom.isBuilt.attached
      hLeaf with
    ⟨k, hKnot, q, hInner, hResolved⟩
  have hFragments : n.leaf = q.2.resolve o k.name :=
    congrArg Prod.snd hResolved
  rw [hFragments, Leaf.fragments_resolve] at hMem
  rcases List.mem_map.mp hMem with ⟨f, _, hDivert⟩
  cases f with
  | divert d' =>
      rw [Fragment.resolve] at hDivert
      cases hDivert
      have hLeads :
          o.resolve.destination? k.name d'.target =
            some destination := by
        rw [Outline.destination?_resolve]
        exact hSame
      exact Divert.isResolved_of_destination hLeads hSame
  | text s => cases hDivert
  | insertion e => cases hDivert
  | conditional c t f => cases hDivert
  | alternative m items n => cases hDivert

end BranchingStory

------------------------------------------------------------
-- Lines Of A Script
------------------------------------------------------------

namespace BranchingStory

open Reading

/- The choices and gathers of a script are nested. -/
theorem classifyScript_nests
    (source : String) :
    (classifyScript source).Idles fun ls =>
      ∀ l ∈ ls, l.kind.IsNested :=
  (classifyScript_reads source).mono fun _ hAll l hMem =>
    (hAll.1 l hMem).nested

end BranchingStory

------------------------------------------------------------
-- Outlines That Are Built
------------------------------------------------------------

namespace BranchingStory

open Reading
open Relation
open scoped List

/- The parts of an outline have the numbers below some size. -/
theorem buildOutline_numbers
    {ls : List ScriptLine}
    (hNested : ∀ l ∈ ls, l.kind.IsNested)
    {d d' : Draft}
    {o : Outline}
    (hRun : (buildOutline ls).run d = .ok (some o, d')) :
    ∃ size, o.bodies.flatMap Body.ids ~ List.range size := by
  rcases buildOutline_ok hRun with
    ⟨b, d₁, b', start, hLines, hClose, _, rfl⟩
  rcases
      foldlM_add_assembles hNested Builder.isTidy_empty
        (Builder.isAssembled_empty _) hLines with
    ⟨hTidy, hAll⟩
  rcases
      (Builder.closeKnot_closes hTidy d₁ b' d' hClose).2.2 with
    ⟨hCloses, hNone⟩
  have hBodies :
      (b'.knots.values.flatMap fun k =>
          k.stitches.values).map Stitch.body ++
          b'.detached = b'.finished := by
    rw [Builder.finished, hNone, List.map_flatMap]
    exact (List.append_nil _).symm
  refine ⟨b.nextId, List.Perm.trans ?_ hAll.ids⟩
  apply List.Perm.flatMap_right
  change (b'.knots.values.flatMap fun k =>
    k.stitches.values).map Stitch.body ++ b'.detached ~ _
  rw [hBodies]
  exact hCloses.finished

/- The nodes of a stitch stand where their numbers say. -/
theorem Outline.stitch_stands
    {o : Outline}
    {size : Nat}
    (hIds : o.bodies.flatMap Body.ids ~ List.range size)
    {s : Stitch}
    (hStitch : s ∈ o.stitches) :
    StandIn o.nodes s.body.nodes := by
  intro p hMem
  rw [Outline.nodes_eq]
  apply (getElem?_arenaOf hIds p.1 p.2).mpr
  refine List.mem_flatMap.mpr ⟨s.body, ?_, hMem⟩
  exact List.mem_append_left _ (List.mem_map_of_mem hStitch)

/- No number is on two trails, or twice on one. -/
theorem Outline.nodup_trails
    {o : Outline}
    {size : Nat}
    (hIds : o.bodies.flatMap Body.ids ~ List.range size) :
    (o.stitches.flatMap Stitch.trail).Nodup := by
  have hAll := hIds.nodup_iff.mpr List.nodup_range
  rw [Outline.bodies, List.flatMap_append,
    List.flatMap_map] at hAll
  have hBodies := (List.nodup_append.mp hAll).1
  have hTrails :
      o.stitches.flatMap Stitch.trail ~
        o.stitches.flatMap fun s => itemIds s.body.items :=
    List.Perm.flatMap_left _ fun s _ => s.trail_perm
  have hFewer (ss : List Stitch) :
      (ss.flatMap fun s => itemIds s.body.items).Sublist
        (ss.flatMap fun s => s.body.ids) := by
    induction ss with
    | nil => exact List.Sublist.refl _
    | cons s ss ih =>
        rw [List.flatMap_cons, List.flatMap_cons, Body.ids_eq]
        exact (List.sublist_cons_self _ _).append ih
  exact hTrails.nodup_iff.mpr ((hFewer _).nodup hBodies)

/-
  What the check of an outline visits, whatever issues have
  been reported.  From every stitch its list of pending
  contents is worked off, and yields the trail of the stitch:
  all that can be reached from it, nothing twice.  The check is
  what is done at the numbers of the trail.  The fragments of a
  line are worked off as well, each ahead of what it holds, and
  in their order.  If the script can be read after all, every
  name and every target in it is resolved.
-/
theorem checks_leave_nothing_out
    {source : String}
    {ls : List ScriptLine}
    {o : Outline}
    {d d₁ d₂ : Draft}
    (hLines : (classifyScript source).run d = .ok (ls, d₁))
    (hBuild : (buildOutline ls).run d₁ = .ok (some o, d₂)) :
    (∀ k ∈ o.knots.values, ∀ s ∈ k.stitches.values,
      (∀ visited,
        WorksOff (checkTurn? o.nodes) [s.body.id] visited ↔
          visited = s.trail) ∧
      (∀ i, i ∈ s.trail ↔
        TransGen (IsPartOf o.nodes) i s.body.id) ∧
      s.check o k.name =
        s.trail.forM (checkAt o k.name o.nodes)) ∧
    (o.stitches.flatMap Stitch.trail).Nodup ∧
    (∀ (fs visited : List Fragment),
      WorksOff Fragment.turn? fs.reverse visited ↔
        visited = fs.flatMap Fragment.walk) ∧
    (∀ f : Fragment,
      f.walk = f :: f.parts.flatMap Fragment.walk) ∧
    (∀ (l : ContentLine) knot,
      l.check o knot =
        (l.fragments.flatMap Fragment.walk).forM
          (Fragment.check o knot l.line)) ∧
    ∀ story, Story.read source = .ok story →
      ∀ n ∈ story.outline.nodes, n.IsResolved story.outline := by
  have hNested :=
    (classifyScript_nests source d ls d₁ hLines).2.2
  rcases buildOutline_numbers hNested hBuild with ⟨size, hIds⟩
  refine ⟨?_, Outline.nodup_trails hIds, ?_, Fragment.walk_eq,
    ?_, ?_⟩
  · intro k hKnot s hStitch
    have hStand :=
      Outline.stitch_stands hIds
        (List.mem_flatMap.mpr ⟨k, hKnot, hStitch⟩)
    exact ⟨worksOff_stitch_iff hStand,
      Stitch.mem_trail_iff hStand,
      Stitch.check_eq o k.name hStand⟩
  · intro fs visited
    rw [worksOff_fragments_iff, Fragment.walkAll_eq_flatMap]
  · intro l knot
    rw [ContentLine.check, Fragment.walkAll_eq_flatMap]
  · intro story hRead
    exact Story.isResolved_of_read hRead

/- A script with a choice within a choice, and a gather. -/
def nestedChoicesScript : String :=
  "== hub
* a
** {hub} b
c
+ d -> END
- e
-> hub
"

/-
  The last of two branches comes first, and the choice within
  the other after it.
-/
theorem checks_leave_nothing_out_nested :
    ∃ ls o d₁ d₂,
      (classifyScript nestedChoicesScript).run ⟨[], 0⟩ =
          .ok (ls, d₁) ∧
        (buildOutline ls).run d₁ = .ok (some o, d₂) ∧
        ∃ s ∈ o.stitches,
          WorksOff (checkTurn? o.nodes) [s.body.id]
              [1, 3, 9, 10, 11, 8, 2, 4, 6, 5, 7] ∧
            TransGen (IsPartOf o.nodes) 7 s.body.id := by
  have hCheck :
      ((classifyScript nestedChoicesScript).run
          ⟨[], 0⟩).toOption.any (fun lines =>
        ((buildOutline lines.1).run lines.2).toOption.any
          fun built => built.1.any fun o =>
            o.stitches.map Stitch.trail =
              [[1, 3, 9, 10, 11, 8, 2, 4, 6, 5, 7]]) =
        true := by
    decide +kernel
  rcases exists_ok_of_any hCheck with
    ⟨⟨ls, d₁⟩, hLines, hCheck⟩
  rcases exists_ok_of_any hCheck with
    ⟨⟨o?, d₂⟩, hBuild, hCheck⟩
  rcases (Option.any_eq_true _ _).mp hCheck with
    ⟨o, rfl, hTrails⟩
  have hTrails := of_decide_eq_true hTrails
  rcases checks_leave_nothing_out hLines hBuild with
    ⟨hStitches, _⟩
  rcases List.map_eq_singleton_iff.mp hTrails with
    ⟨s, hOnly, hTrail⟩
  have hMem : s ∈ o.stitches := by simp [hOnly]
  rcases List.mem_flatMap.mp hMem with ⟨k, hKnot, hStitch⟩
  rcases hStitches k hKnot s hStitch with
    ⟨hWorks, hReach, _⟩
  refine ⟨ls, o, d₁, d₂, hLines, hBuild, s, hMem,
    (hWorks _).mpr hTrail.symm, (hReach 7).mp ?_⟩
  rw [hTrail]
  decide

end BranchingStory
