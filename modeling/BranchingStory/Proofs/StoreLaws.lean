import BranchingStory.Proofs.Characters
import BranchingStory.Proofs.VariableStore

/-
  This file shows that the variables of a story obey the laws
  of a store when they are read and set from outside.  What is
  read can be set again and changes nothing, and what is set is
  read afterwards, while nothing else has changed.  A variable
  that holds a place is set to any text that leads there and is
  read as the path of the place, which leads there as well.

  Key definitions include:
    * `Value.handedOut`
    * `Admits`

  Key theorems include:
    * `Outline.IsSound.findPlace?_path`
    * `dropArrow_path`
    * `admits_iff`
    * `admits_handedOut`
    * `setVariable_handedOut`
    * `runFrom_setVariable_ok`
    * `variables_obey_store_laws`
-/

------------------------------------------------------------
-- Paths Without Arrows
------------------------------------------------------------

namespace BranchingStory

/- A text without blanks and dashes has no arrow to drop. -/
theorem dropArrow_of_none
    {s : String}
    (hNone : ∀ c ∈ s.toList, isBlank c = false ∧ c ≠ '-') :
    dropArrow s = s := by
  have hStart : stripStart? ['-', '>'] s.toList = none := by
    cases hChars : s.toList with
    | nil => rfl
    | cons c rest =>
        have hMem : c ∈ s.toList := by
          rw [hChars]
          exact List.mem_cons_self
        rw [stripStart?,
          if_neg fun hDash => (hNone c hMem).2 hDash.symm]
  rw [dropArrow, hStart, Option.getD_none,
    show trim s.toList = s.toList from
      trimmed_of_none fun c hMem => (hNone c hMem).1,
    String.ofList_toList]

/- A name that can stand in a path has no blanks or dashes. -/
theorem IsPlaceName.none
    {s : String}
    (hName : IsPlaceName s) :
    ∀ c ∈ s.toList, isBlank c = false ∧ c ≠ '-' := by
  intro c hMem
  rcases hName.letters c hMem with hWord | rfl
  · refine ⟨isBlank_of_isWordChar hWord, ?_⟩
    rintro rfl
    exact absurd hWord (by decide)
  · exact ⟨by decide, by decide⟩

/- The path of a place has no arrow to drop. -/
theorem dropArrow_path
    {a : Address}
    (hKnot : IsPlaceName a.knot)
    (hStitch : IsPlaceName a.stitch) :
    dropArrow a.path = a.path := by
  apply dropArrow_of_none
  rw [Address.path]
  split
  · exact hKnot.none
  · intro c hMem
    rw [String.toList_append, String.toList_append,
      List.append_assoc] at hMem
    rcases List.mem_append.mp hMem with hMem | hMem
    · exact hKnot.none c hMem
    · rcases List.mem_cons.mp hMem with rfl | hMem
      · exact ⟨by decide, by decide⟩
      · exact hStitch.none c hMem

end BranchingStory

------------------------------------------------------------
-- Places Of Paths
------------------------------------------------------------

namespace BranchingStory

namespace Outline

variable {o : Outline}

/- No knot of a sound outline is without a name. -/
theorem IsSound.knots_lookup_empty
    (hSound : o.IsSound) :
    o.knots.lookup "" = none := by
  cases hLookup : o.knots.lookup "" with
  | none => rfl
  | some k =>
      rcases hSound.begins "" k hLookup with ⟨name, hBegins⟩
      have hAddress :=
        hasAddress_of_mem_keys hLookup
          (Knot.mem_keys_of_defaultStitch? hBegins)
      exact absurd rfl (hSound.names _ hAddress).1.notEmpty

/-
  The path of a place leads to this place, whatever knots and
  stitches there are: the path of a root stitch is the name of
  its knot, which begins there, and a path with a point names
  knot and stitch.
-/
theorem IsSound.findPlace?_path
    (hSound : o.IsSound)
    {a : Address}
    (hAddress : o.hasAddress a = true) :
    o.findPlace? "" a.path = some a := by
  rcases hSound.names a hAddress with ⟨hKnot, hStitch⟩
  rcases a with ⟨knot, stitch⟩
  rw [Address.path, Address.isRoot]
  split
  · next hRoot =>
      have hRoot' : stitch = rootName := by
        simpa using hRoot
      subst hRoot'
      rcases (o.hasAddress_iff _).mp hAddress with
        ⟨k, hLookup, hMem⟩
      have hLookup' : o.knots.lookup knot = some k := hLookup
      have hBegins : k.defaultStitch? = some rootName := by
        rw [Knot.defaultStitch?,
          if_pos ((Table.contains_eq_true _ _).mpr hMem)]
      simp only [findPlace?, breakAt_of_notMem hKnot.noPoint,
        hSound.knots_lookup_empty, Bool.false_eq_true,
        if_false, hLookup', Option.bind_eq_bind,
        Option.bind_some, hBegins]
      rfl
  · have hChars :
        (knot ++ "." ++ stitch).toList =
          knot.toList ++ '.' :: stitch.toList := by
      simp
    rcases List.exists_cons_of_ne_nil hStitch.notEmpty with
      ⟨c, rest, hCons⟩
    simp only [findPlace?, hChars,
      breakAt_append hKnot.noPoint, hCons]
    rw [← hCons, String.ofList_toList, String.ofList_toList,
      if_pos hAddress]

end Outline

end BranchingStory

------------------------------------------------------------
-- Admitted Values
------------------------------------------------------------

namespace BranchingStory

/-
  What is handed out to who asks for a variable: a plain value,
  and of a place the path as a text.
-/
def Value.handedOut : Value → Given
  | .divert path => .plain (.string path)
  | v => .plain v

/-
  Whether something that is given is admitted as a value.  For
  a place that is the path of where a given text leads, and in
  any other case what is given itself.
-/
inductive Admits
    (o : Outline)
    (k : Kind)
    (given : Given) : Value → Prop where
  | place
      (target : String)
      (a : Address)
      (hDivert : k = .divert)
      (hTarget : given.target? = some target)
      (hPlace :
        o.findPlace? "" (dropArrow target) = some a) :
      Admits o k given (.divert a.path)
  | self
      (v : Value)
      (hOther : k ≠ .divert)
      (hValue : given.value? = some v)
      (hKind : v.kind = k) :
      Admits o k given v

variable {o : Outline}
variable {k : Kind}
variable {given : Given}
variable {v : Value}

/- A variable is set to what is admitted, and nothing else. -/
theorem admits_iff
    (name : String) :
    admitValue o name k given = .ok v ↔ Admits o k given v := by
  constructor
  · intro hAdmitted
    rw [admitValue] at hAdmitted
    split at hAdmitted
    · next hDivert =>
        split at hAdmitted
        · cases hAdmitted
        · next target hTarget =>
            simp only at hAdmitted
            split at hAdmitted
            · next a hPlace =>
                cases hAdmitted
                exact .place target a hDivert hTarget hPlace
            · cases hAdmitted
    · next hOther =>
        split at hAdmitted
        · cases hAdmitted
        · next hValue =>
            split at hAdmitted
            · next hKind =>
                cases hAdmitted
                exact .self v hOther hValue hKind
            · cases hAdmitted
  · rintro (⟨target, a, hDivert, hTarget, hPlace⟩ |
      ⟨v, hOther, hValue, hKind⟩)
    · simp only [admitValue, if_pos hDivert, hTarget, hPlace]
    · simp only [admitValue, if_neg hOther, hValue,
        if_pos hKind]

/-
  The value of a variable is admitted again, as it is handed
  out and as the value that it is.
-/
theorem admits_handedOut
    (hSound : o.IsSound)
    (hFits : v.Fits o.IsPath k) :
    Admits o k v.handedOut v ∧ Admits o k (.variable v) v := by
  by_cases hDivert : k = .divert
  · rcases Value.eq_divert_of_kind
      (hFits.kind.trans hDivert) with ⟨path, rfl⟩
    rcases hFits.path path rfl with ⟨a, hAddress, rfl⟩
    rcases hSound.names a hAddress with ⟨hKnot, hStitch⟩
    have hPlace :
        o.findPlace? "" (dropArrow a.path) = some a := by
      rw [dropArrow_path hKnot hStitch]
      exact hSound.findPlace?_path hAddress
    exact ⟨.place a.path a hDivert rfl hPlace,
      .place a.path a hDivert rfl hPlace⟩
  · have hHanded : v.handedOut.value? = some v := by
      cases v with
      | divert path => exact absurd hFits.kind.symm hDivert
      | int n => rfl
      | float x => rfl
      | bool b => rfl
      | string s => rfl
    exact ⟨.self v hDivert hHanded hFits.kind,
      .self v hDivert rfl hFits.kind⟩

end BranchingStory

------------------------------------------------------------
-- Setting And Reading
------------------------------------------------------------

namespace BranchingStory

open Play

variable {o : Outline}
variable {s s' : State}
variable {name : String}
variable {given : Given}
variable {v : Value}

/- A variable is read as the value that it holds. -/
theorem getVariable_ok :
    getVariable s name = .ok v ↔
      s.memory.vars.lookup name = some v := by
  rw [getVariable]
  cases s.memory.vars.lookup name with
  | none => simp
  | some w => simp

/- A variable that is set is read as what it is set to. -/
theorem getVariable_setVariable
    (other : String) :
    getVariable (s.setVariable name v) other =
      if name = other then .ok v
      else getVariable s other := by
  simp only [getVariable, State.setVariable,
    Table.lookup_insert]
  by_cases hSame : name = other
  · simp only [if_pos hSame]
  · simp only [if_neg hSame]

/-
  Setting a variable comes to an end without a fault just when
  it is declared as one that varies and the value is admitted.
-/
theorem runFrom_setVariable_ok :
    (setVariable o name given).runFrom s = (.ok (), s') ↔
      ∃ d v, o.vars.lookup name = some d ∧
        d.constant = false ∧
        Admits o d.initial.kind given v ∧
        s' = s.setVariable name v := by
  constructor
  · intro hRun
    unfold setVariable at hRun
    split at hRun
    · cases hRun
    · next d hLookup =>
        split at hRun
        · cases hRun
        · next hVariable =>
            split at hRun
            · cases hRun
            · next v hAdmitted =>
                cases hRun
                exact ⟨d, v, hLookup,
                  Bool.eq_false_iff.mpr hVariable,
                  (admits_iff name).mp hAdmitted, rfl⟩
  · rintro ⟨d, v, hLookup, hVariable, hAdmits, rfl⟩
    simp only [setVariable, hLookup, hVariable,
      Bool.false_eq_true, if_false,
      (admits_iff name).mpr hAdmits, runFrom_modify]

/- To set a variable to the value that it has is nothing. -/
theorem State.setVariable_of_lookup
    (hValue : s.memory.vars.lookup name = some v) :
    s.setVariable name v = s := by
  rw [setVariable, Table.insert_of_lookup hValue]

/- What is read of a variable can be set, to no effect. -/
theorem setVariable_handedOut
    (hSound : o.IsSound)
    (hFits : s.Fits o)
    {d : Declaration}
    (hLookup : o.vars.lookup name = some d)
    (hVariable : d.constant = false) :
    ∃ v, getVariable s name = .ok v ∧
      (setVariable o name v.handedOut).runFrom s =
        (.ok (), s) ∧
      (setVariable o name (.variable v)).runFrom s =
        (.ok (), s) := by
  rcases hFits.sound.fits name d hLookup with
    ⟨v, hValue, hOfKind⟩
  have hSame := State.setVariable_of_lookup hValue
  rcases admits_handedOut hSound hOfKind with
    ⟨hHanded, hItself⟩
  exact ⟨v, getVariable_ok.mpr hValue,
    runFrom_setVariable_ok.mpr
      ⟨d, v, hLookup, hVariable, hHanded, hSame.symm⟩,
    runFrom_setVariable_ok.mpr
      ⟨d, v, hLookup, hVariable, hItself, hSame.symm⟩⟩

end BranchingStory

------------------------------------------------------------
-- Laws Of The Store
------------------------------------------------------------

namespace BranchingStory

open Play

/-
  Wherever a story that can be read comes to, its variables
  obey the laws of a store.  Each one that is no constant has a
  value, and setting it to this value, as it is handed out or
  as the value that it is, changes nothing at all.  After it
  has been set to something, it is read as that; if it holds
  places, as the path of the place that the given text leads
  to, and setting this path changes nothing any more.  All
  other variables and everything else stay as they were.
-/
theorem variables_obey_store_laws
    {source : String}
    {story : Story}
    (hRead : Story.read source = .ok story)
    {s : State}
    (hReachable : Reachable story.outline s) :
    (∀ name d, story.outline.vars.lookup name = some d →
      d.constant = false →
        ∃ v, getVariable s name = .ok v ∧
          (setVariable story.outline name
            v.handedOut).runFrom s = (.ok (), s) ∧
          (setVariable story.outline name
            (.variable v)).runFrom s = (.ok (), s)) ∧
    (∀ name given s',
      (setVariable story.outline name given).runFrom s =
          (.ok (), s') →
        ∃ d v, story.outline.vars.lookup name = some d ∧
          d.constant = false ∧
          getVariable s' name = .ok v ∧
          (d.initial.kind ≠ .divert →
            given.value? = some v) ∧
          (d.initial.kind = .divert → ∃ target a,
            given.target? = some target ∧
              story.outline.findPlace? ""
                (dropArrow target) = some a ∧
              v = .divert a.path ∧
              (setVariable story.outline name
                (.plain (.string a.path))).runFrom s' =
                  (.ok (), s')) ∧
          (∀ other, other ≠ name →
            getVariable s' other = getVariable s other) ∧
          s'.memory.vars.keys = s.memory.vars.keys ∧
          s' = { s with
            memory :=
              { s.memory with vars := s'.memory.vars } }) := by
  have hSound := Story.isSound_of_read hRead
  have hFits := hReachable.fits hSound
  refine ⟨fun name d => setVariable_handedOut hSound hFits,
    ?_⟩
  intro name given s' hRun
  rcases runFrom_setVariable_ok.mp hRun with
    ⟨d, v, hLookup, hVariable, hAdmits, rfl⟩
  have hFits' : (s.setVariable name v).Fits story.outline :=
    ⟨hFits.sound.setVariable hLookup
      (admitValue_ok ((admits_iff name).mpr hAdmits)),
      hFits.coherent⟩
  have hSet :
      getVariable (s.setVariable name v) name = .ok v := by
    rw [getVariable_setVariable, if_pos rfl]
  refine ⟨d, v, hLookup, hVariable, hSet, ?_, ?_, ?_, ?_, rfl⟩
  · intro hOther
    cases hAdmits with
    | place target a hDivert hTarget hPlace =>
        exact absurd hDivert hOther
    | self v hOther hValue hKind => exact hValue
  · intro hDivert
    cases hAdmits with
    | place target a hDivert hTarget hPlace =>
        rcases
            setVariable_handedOut hSound hFits' hLookup
              hVariable with
          ⟨v', hValue, hAgain, _⟩
        rw [hSet] at hValue
        cases hValue
        exact ⟨target, a, hTarget, hPlace, rfl, hAgain⟩
    | self v hOther hValue hKind =>
        exact absurd hDivert hOther
  · intro other hOther
    rw [getVariable_setVariable,
      if_neg fun hSame => hOther hSame.symm]
  · rcases hFits.sound.fits name d hLookup with
      ⟨w, hValue, _⟩
    exact Table.keys_insert_of_mem
      (Table.mem_keys_of_lookup hValue) v

/-
  A place that is given with an arrow and without its stitch:
  the variable is read as the path with the stitch that the
  knot begins with, and setting that path changes nothing.
-/
theorem variables_obey_store_laws_den :
    ∃ story s s',
      Story.read ("VAR goal = -> hub\n== hub\nHi\n" ++
          "== den\n= nook\nHo\n") = .ok story ∧
        Reachable story.outline s ∧
        (setVariable story.outline "goal"
          (.plain (.string "-> den"))).runFrom s =
            (.ok (), s') ∧
        getVariable s' "goal" = .ok (.divert "den.nook") ∧
        (setVariable story.outline "goal"
          (.plain (.string "den.nook"))).runFrom s' =
            (.ok (), s') := by
  have hCheck :
      ((Story.read ("VAR goal = -> hub\n== hub\nHi\n" ++
        "== den\n= nook\nHo\n")).toOption.any fun story =>
          ((story.outline.vars.lookup "goal").any fun d =>
            d.initial.kind = .divert) &&
          (story.outline.findPlace? "" (dropArrow "-> den")).any
            (fun a => a.path = "den.nook") &&
          ((setVariable story.outline "goal"
            (.plain (.string "-> den"))).runFrom
              (.start story.outline 0)).1.isOk) = true := by
    decide +kernel
  rcases exists_ok_of_any hCheck with ⟨story, hRead, hStory⟩
  have hReachable :=
    Reachable.start (o := story.outline) 0
  simp only [Bool.and_eq_true, Option.any_eq_true,
    decide_eq_true_eq] at hStory
  rcases hStory with
    ⟨⟨⟨d, hLookup, hKind⟩, b, hPlace, hPath⟩, hDone⟩
  generalize hRun :
    (setVariable story.outline "goal"
      (.plain (.string "-> den"))).runFrom _ = p
    at hDone
  rcases p with ⟨e | u, s'⟩
  · cases hDone
  · rcases
        (variables_obey_store_laws hRead hReachable).2
          "goal" _ s' hRun with
      ⟨d', v, hLookup', _, hRead', _, hDivert, _⟩
    rw [hLookup] at hLookup'
    cases hLookup'
    rcases hDivert hKind with
      ⟨target, a, hTarget, hPlace', rfl, hAgain⟩
    cases hTarget
    rw [hPlace] at hPlace'
    cases hPlace'
    rw [hPath] at hRead' hAgain
    exact ⟨story, _, s', hRead, hReachable, hRun, hRead',
      hAgain⟩

end BranchingStory
