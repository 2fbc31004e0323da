import BranchingStory.Proofs.StoreLaws

/-
  This file shows that addresses, their paths and the search
  for the place of a target agree.  A target leads to one place
  at most, which exists; the path of a place leads to it.

  Key definitions include:
    * `Outline.LeadsTo`

  Key theorems include:
    * `Outline.IsSound.findPlace?_pointed`
    * `Outline.findPlace?_bare`
    * `Outline.IsSound.findPlace?_eq_some_iff`
    * `targets_lead_to_places`
-/

------------------------------------------------------------
-- Where Targets Lead
------------------------------------------------------------

namespace BranchingStory

/-
  Whether a target leads to a place from within a knot.  With a
  point in it, it names a knot and a stitch.  Without one it
  names a stitch of the knot at hand; if that has no such
  stitch, it names a knot, and leads to its root stitch, or to
  its first stitch if it has no root stitch.
-/
inductive Outline.LeadsTo
    (o : Outline)
    (current : String) : String → Address → Prop where
  | pointed
      (a : Address)
      (hAddress : o.hasAddress a = true) :
      LeadsTo o current (a.knot ++ "." ++ a.stitch) a
  | own
      (name : String)
      (hOwn : o.hasAddress ⟨current, name⟩ = true) :
      LeadsTo o current name ⟨current, name⟩
  | root
      (name : String)
      (hForeign : o.hasAddress ⟨current, name⟩ = false)
      (hRoot : o.hasAddress (.root name) = true) :
      LeadsTo o current name (.root name)
  | first
      (name stitch : String)
      {k : Knot}
      (hForeign : o.hasAddress ⟨current, name⟩ = false)
      (hRootless : o.hasAddress (.root name) = false)
      (hKnot : o.knots.lookup name = some k)
      (hFirst : k.stitches.keys.head? = some stitch) :
      LeadsTo o current name ⟨name, stitch⟩

end BranchingStory

------------------------------------------------------------
-- Searching For Places
------------------------------------------------------------

namespace BranchingStory

namespace Outline

variable {o : Outline}
variable {knot stitch name : String}

/- An address exists if its knot has a stitch of its name. -/
theorem hasAddress_of_lookup
    {k : Knot}
    (hKnot : o.knots.lookup knot = some k) :
    o.hasAddress ⟨knot, stitch⟩ = k.stitches.contains stitch := by
  rw [hasAddress, stitch?, hKnot]
  rfl

/- A knot that does not exist has no addresses. -/
theorem hasAddress_of_lookup_none
    (hKnot : o.knots.lookup knot = none) :
    o.hasAddress ⟨knot, stitch⟩ = false := by
  rw [hasAddress, stitch?, hKnot]
  rfl

/- A knot begins with its root stitch or with its first. -/
theorem defaultStitch?_of_lookup
    {k : Knot}
    (hKnot : o.knots.lookup knot = some k) :
    k.defaultStitch? =
      if o.hasAddress (.root knot) then some rootName
      else k.stitches.keys.head? := by
  rw [Address.root, hasAddress_of_lookup hKnot,
    Knot.defaultStitch?]

/-
  A target without a stitch after a point is first sought in
  the knot at hand.
-/
theorem findPlace?_of_breakAt
    (current : String)
    (hWhole : ∀ c rest,
      (breakAt '.' name.toList).2 ≠ some (c :: rest)) :
    o.findPlace? current name =
      if o.hasAddress ⟨current, name⟩ then some ⟨current, name⟩
      else
        (o.knots.lookup name).bind fun k =>
          k.defaultStitch?.map (Address.mk name) := by
  have hBegins :
      (do
        let k ← o.knots.lookup name
        let s ← k.defaultStitch?
        return (⟨name, s⟩ : Address)) =
      (o.knots.lookup name).bind fun k =>
        k.defaultStitch?.map (Address.mk name) := by
    cases o.knots.lookup name with
    | none => rfl
    | some k =>
        rw [Option.bind_eq_bind, Option.bind_some,
          Option.bind_some, Option.map_eq_bind]
        rfl
  rw [← hBegins, findPlace?]
  generalize breakAt '.' name.toList = parts at hWhole ⊢
  rcases parts with ⟨before, after⟩
  dsimp only at hWhole ⊢
  split
  · next c rest => cases hWhole c rest rfl
  · cases hCurrent : o.knots.lookup current with
    | none => rw [hasAddress_of_lookup_none hCurrent]
    | some k => rw [hasAddress_of_lookup hCurrent]

/- A name alone is first sought in the knot at hand. -/
theorem findPlace?_bare
    (current : String)
    (hBare : '.' ∉ name.toList) :
    o.findPlace? current name =
      if o.hasAddress ⟨current, name⟩ then some ⟨current, name⟩
      else
        (o.knots.lookup name).bind fun k =>
          k.defaultStitch?.map (Address.mk name) := by
  apply findPlace?_of_breakAt
  rw [breakAt_of_notMem hBare]
  exact nofun

namespace IsSound

/- What exists has no point in its names. -/
theorem noPoint
    (hSound : o.IsSound)
    (hAddress : o.hasAddress ⟨knot, stitch⟩ = true) :
    '.' ∉ knot.toList ∧ '.' ∉ stitch.toList :=
  ⟨(hSound.names _ hAddress).1.noPoint,
    (hSound.names _ hAddress).2.noPoint⟩

/- No knot has a point in its name. -/
theorem knots_lookup_of_point
    (hSound : o.IsSound)
    (hPoint : '.' ∈ name.toList) :
    o.knots.lookup name = none := by
  cases hLookup : o.knots.lookup name with
  | none => rfl
  | some k =>
      rcases hSound.begins name k hLookup with ⟨s, hBegins⟩
      have hAddress :=
        hasAddress_of_mem_keys hLookup
          (Knot.mem_keys_of_defaultStitch? hBegins)
      exact absurd hPoint (hSound.noPoint hAddress).1

/-
  A target with a point leads to the stitch after the first
  point in the knot before it, and otherwise nowhere.
-/
theorem findPlace?_pointed
    (hSound : o.IsSound)
    (current : String)
    (hPoint : '.' ∉ knot.toList) :
    o.findPlace? current (knot ++ "." ++ stitch) =
      if o.hasAddress ⟨knot, stitch⟩ then some ⟨knot, stitch⟩
      else none := by
  have hChars :
      (knot ++ "." ++ stitch).toList =
        knot.toList ++ '.' :: stitch.toList := by
    simp
  cases hStitch : stitch.toList with
  | cons c rest =>
      simp only [findPlace?, hChars, breakAt_append hPoint,
        hStitch]
      rw [← hStitch, String.ofList_toList, String.ofList_toList]
  | nil =>
      -- With nothing after the point the whole target would be
      -- a name, but no name has a point in it.
      have hMem : '.' ∈ (knot ++ "." ++ stitch).toList := by
        rw [hChars]
        exact List.mem_append_right _ List.mem_cons_self
      have hForeign :
          o.hasAddress ⟨current, knot ++ "." ++ stitch⟩ ≠ true :=
        fun hAddress => (hSound.noPoint hAddress).2 hMem
      have hNameless : o.hasAddress ⟨knot, stitch⟩ ≠ true := by
        intro hAddress
        refine (hSound.names _ hAddress).2.notEmpty ?_
        exact hStitch
      rw [findPlace?_of_breakAt, if_neg hForeign,
        hSound.knots_lookup_of_point hMem, if_neg hNameless]
      · rfl
      · intro c rest hSome
        rw [hChars, hStitch, breakAt_append hPoint] at hSome
        cases hSome

end IsSound

/- A name without a point that leads somewhere is a target. -/
theorem leadsTo_of_bare
    {current : String}
    {a : Address}
    (hBare : '.' ∉ name.toList)
    (hPlace : o.findPlace? current name = some a) :
    o.LeadsTo current name a := by
  rw [findPlace?_bare current hBare] at hPlace
  split at hPlace
  · next hOwn =>
      cases hPlace
      exact .own name hOwn
  · next hForeign =>
      rw [Bool.not_eq_true] at hForeign
      rcases Option.bind_eq_some_iff.mp hPlace with
        ⟨k, hKnot, hBegins⟩
      rw [defaultStitch?_of_lookup hKnot] at hBegins
      split at hBegins
      · next hRoot =>
          cases hBegins
          exact .root name hForeign hRoot
      · next hRootless =>
          rw [Bool.not_eq_true] at hRootless
          rcases Option.map_eq_some_iff.mp hBegins with
            ⟨s, hFirst, rfl⟩
          exact .first name s hForeign hRootless hKnot hFirst

/-
  The search for the place of a target finds a place just when
  the target leads there.
-/
theorem IsSound.findPlace?_eq_some_iff
    (hSound : o.IsSound)
    (current target : String)
    (a : Address) :
    o.findPlace? current target = some a ↔
      o.LeadsTo current target a := by
  constructor
  · intro hPlace
    by_cases hPoint : '.' ∈ target.toList
    · rcases List.eq_append_cons_of_mem hPoint with
        ⟨before, after, hChars, hFirst⟩
      have hTarget :
          target = String.ofList before ++ "." ++
            String.ofList after := by
        rw [← String.toList_inj]
        simp [hChars]
      rw [hTarget, hSound.findPlace?_pointed current
        (by rwa [String.toList_ofList])] at hPlace
      split at hPlace
      · next hAddress =>
          cases hPlace
          rw [hTarget]
          exact .pointed _ hAddress
      · cases hPlace
    · exact leadsTo_of_bare hPoint hPlace
  · intro hLeads
    cases hLeads with
    | pointed a hAddress =>
        rw [hSound.findPlace?_pointed current
          (hSound.noPoint hAddress).1, if_pos hAddress]
    | own _ hOwn =>
        rw [findPlace?_bare current (hSound.noPoint hOwn).2,
          if_pos hOwn]
    | root _ hForeign hRoot =>
        rcases (o.hasAddress_iff _).mp hRoot with
          ⟨k, hKnot, _⟩
        change o.knots.lookup target = some k at hKnot
        rw [findPlace?_bare current (hSound.noPoint hRoot).1,
          hForeign, hKnot, Option.bind_some,
          defaultStitch?_of_lookup hKnot, if_pos hRoot]
        rfl
    | first _ stitch hForeign hRootless hKnot hFirst =>
        have hAddress :
            o.hasAddress ⟨target, stitch⟩ = true :=
          hasAddress_of_mem_keys hKnot
            (List.mem_of_head? hFirst)
        rw [findPlace?_bare current
            (hSound.noPoint hAddress).1,
          hForeign, hKnot, Option.bind_some,
          defaultStitch?_of_lookup hKnot, hRootless, hFirst]
        rfl

end Outline

end BranchingStory

------------------------------------------------------------
-- Places Of A Story
------------------------------------------------------------

namespace BranchingStory

/-
  Wherever a story can be read, the paths of its places tell
  them apart, and a path is read back as its place and leads
  there.  A target leads to a place just as names and points
  say, and every place that it leads to exists; in particular,
  a target with a point leads somewhere just if there is such a
  knot with such a stitch.
-/
theorem targets_lead_to_places
    {source : String}
    {story : Story}
    (hRead : Story.read source = .ok story) :
    (∀ a b, story.outline.hasAddress a = true →
      story.outline.hasAddress b = true →
        a.path = b.path → a = b) ∧
    (∀ a, story.outline.hasAddress a = true →
      Address.ofPath a.path = a ∧
        story.outline.findPlace? "" a.path = some a) ∧
    (∀ current target a,
      story.outline.findPlace? current target = some a ↔
        story.outline.LeadsTo current target a) ∧
    (∀ current target a,
      story.outline.findPlace? current target = some a →
        story.outline.hasAddress a = true) ∧
    ∀ current knot stitch, '.' ∉ knot.toList →
      ((story.outline.findPlace? current
          (knot ++ "." ++ stitch)).isSome = true ↔
        story.outline.hasAddress ⟨knot, stitch⟩ = true) := by
  have hSound := Story.isSound_of_read hRead
  refine ⟨?_, ?_, ?_, ?_, ?_⟩
  · intro a b hAddress hAddress' hSame
    exact hSound.path_injOn hAddress hAddress' hSame
  · intro a hAddress
    exact ⟨hSound.ofPath_path hAddress,
      hSound.findPlace?_path hAddress⟩
  · exact hSound.findPlace?_eq_some_iff
  · intro current target a hPlace
    exact Outline.hasAddress_of_findPlace? hPlace
  · intro current knot stitch hPoint
    rw [hSound.findPlace?_pointed current hPoint]
    split
    · next hAddress => simp [hAddress]
    · next hNone => simp [hNone]

/-
  A script with content ahead of its knots, a knot without a
  root stitch, and a knot with the name of a stitch elsewhere.
-/
def crossroadsScript : String :=
  "-> hub.den
== hub
Hi
= den
Ho
== den
= nook
Ha
"

/-
  Within the first knot the name leads to its stitch, and from
  elsewhere to the first stitch of the knot of this name; the
  path of the stitch leads to it from everywhere.
-/
theorem targets_lead_to_places_crossroads :
    ∃ story, Story.read crossroadsScript = .ok story ∧
      story.outline.LeadsTo "hub" "den" ⟨"hub", "den"⟩ ∧
      story.outline.LeadsTo "" "den" ⟨"den", "nook"⟩ ∧
      story.outline.LeadsTo "" "hub" (.root "hub") ∧
      story.outline.findPlace? ""
        (Address.mk "hub" "den").path =
          some ⟨"hub", "den"⟩ ∧
      (story.outline.findPlace? "hub" ("hub" ++ "." ++ "nook"))
        = none := by
  have hCheck :
      ((Story.read crossroadsScript).toOption.any fun story =>
        story.outline.findPlace? "hub" "den" =
            some ⟨"hub", "den"⟩ ∧
          story.outline.findPlace? "" "den" =
            some ⟨"den", "nook"⟩ ∧
          story.outline.findPlace? "" "hub" =
            some (.root "hub") ∧
          story.outline.hasAddress ⟨"hub", "den"⟩ = true ∧
          story.outline.hasAddress ⟨"hub", "nook"⟩ = false) =
        true := by
    decide +kernel
  rcases exists_ok_of_any hCheck with ⟨story, hRead, hPlaces⟩
  rcases of_decide_eq_true hPlaces with
    ⟨hOwn, hFirst, hRoot, hAddress, hNone⟩
  rcases targets_lead_to_places hRead with
    ⟨_, hPaths, hLeads, _, hPointed⟩
  refine ⟨story, hRead, (hLeads _ _ _).mp hOwn,
    (hLeads _ _ _).mp hFirst, (hLeads _ _ _).mp hRoot,
    (hPaths _ hAddress).2, ?_⟩
  have hIff := hPointed "hub" "hub" "nook" (by decide)
  rw [hNone] at hIff
  simpa using hIff

end BranchingStory
