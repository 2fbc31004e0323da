import BranchingStory.Console.Player
import BranchingStory.Proofs.Refusals

/-
  This file is about the command to load a slot.  It goes on
  with the story that was saved, or says why it does not,
  unless a number in the slot is to blame; and every saved form
  that is accepted has others beside it that do escape.

  Key definitions include:
    * `Json.put`
    * `Player.Loads`

  Key theorems include:
    * `restore_put`
    * `Player.loadFrom_loads`
    * `only_numbers_escape_loading`
-/

------------------------------------------------------------
-- Integers In Place Of Doubles
------------------------------------------------------------

namespace BranchingStory

namespace Json

/- A value with another in the place that keys lead to. -/
def put
    (w : Json) : List String → Json → Json
  | [], _ => w
  | key :: keys, .object fields =>
      .object (setField fields key
        (put w keys (fieldOrNull fields key)))
  | _ :: _, v => v

variable {fields : List (String × Json)}
variable {key key' : String}
variable {v : Json}

/- A field that is set holds what it is set to. -/
theorem fieldOrNull_setField_self :
    fieldOrNull (setField fields key v) key = v := by
  have hLookup := Table.lookup_insert ⟨fields⟩ key key v
  rw [if_pos rfl] at hLookup
  exact congrArg (Option.getD · .null) hLookup

/- Other fields hold what they held before. -/
theorem fieldOrNull_setField_of_ne
    (hOther : key ≠ key') :
    fieldOrNull (setField fields key v) key' =
      fieldOrNull fields key' := by
  have hLookup := Table.lookup_insert ⟨fields⟩ key key' v
  rw [if_neg hOther] at hLookup
  exact congrArg (Option.getD · .null) hLookup

end Json

variable {o : Outline}
variable {d : Declaration}
variable {n : Int}

/- A double is not restored from an integer beyond them. -/
theorem restoreVariable_put
    {fields : List (String × Json)}
    {p : String × Value}
    (hOk : restoreVariable o fields d = .ok p)
    (hKind : d.initial.kind = .float)
    (hHuge : floatLimit ≤ n.natAbs) :
    restoreVariable o
        (Json.setField fields d.name
          (Json.put (.int n) ["value"]
            (Json.fieldOrNull fields d.name))) d =
      .error .beyondFloatRange := by
  have hNone := (doubleOfInt?_eq_none_iff n).mpr hHuge
  unfold restoreVariable at hOk ⊢
  rcases except_bind_ok.mp hOk with ⟨entry, hEntry, hOk⟩
  rw [requireObject_ok hEntry, Json.fieldOrNull_setField_self]
  refine except_bind_error.mpr (Or.inr ⟨_, rfl, ?_⟩)
  dsimp only [Json.put] at hOk ⊢
  rw [Json.fieldOrNull_setField_self,
    Json.fieldOrNull_setField_of_ne (by decide)]
  split at hOk
  · next hNames =>
      rw [if_pos hNames, hKind]
      simp only [restoreValue, hNone]
      rfl
  · cases hOk

/- The same of the variables of a story. -/
theorem restoreVariables_put
    (hVars : VarsAreSound o.vars)
    {v : Json}
    {t : Table String Value}
    (hOk : restoreVariables o v = .ok t)
    (hDeclared : d ∈ o.vars.values)
    (hKind : d.initial.kind = .float)
    (hHuge : floatLimit ≤ n.natAbs) :
    restoreVariables o (Json.put (.int n) [d.name, "value"] v) =
      .error .beyondFloatRange := by
  unfold restoreVariables at hOk ⊢
  rcases except_bind_ok.mp hOk with ⟨fields, hFields, hOk⟩
  rcases except_bind_ok.mp hOk with ⟨entries, hEntries, _⟩
  cases requireObject_ok hFields
  have hOf (d' : Declaration)
      (hMem : d' ∈ o.vars.values) :
      ∃ p, restoreVariable o fields d' = .ok p := by
    rcases exists_result_of_mapM_ok hEntries hMem with
      ⟨p, _, hOne⟩
    exact ⟨p, hOne⟩
  rcases hOf d hDeclared with ⟨p, hOne⟩
  have hFault := restoreVariable_put hOne hKind hHuge
  refine except_bind_error.mpr (Or.inr ⟨_, rfl, ?_⟩)
  refine except_bind_error.mpr (Or.inl ?_)
  refine mapM_eq_error ?_ hDeclared hFault
  -- No other variable has the name, and the entries of the
  -- others are the same as before.
  intro d' hMem
  by_cases hName : d.name = d'.name
  · have hLookup := hVars.lookup_name hMem
    rw [← hName, hVars.lookup_name hDeclared] at hLookup
    cases hLookup
    exact Or.inr hFault
  · left
    rcases hOf d' hMem with ⟨p', hOther⟩
    refine ⟨p', ?_⟩
    rw [← hOther]
    unfold restoreVariable
    rw [Json.fieldOrNull_setField_of_ne hName]

end BranchingStory

namespace BranchingStory

variable {o : Outline}
variable {d : Declaration}
variable {n : Int}

/- A saved form with all its sections is that of a state. -/
theorem restore_object
    {fields rng state : List (String × Json)}
    (hVersion :
      (Json.fieldOrNull fields "save_version").equalsInt
        saveVersion = true)
    (hGenerator :
      Json.fieldOrNull fields "rng" = .object rng)
    (hState :
      Json.fieldOrNull fields "state" = .object state) :
    restore o (.object fields) =
      restoreState o (.object rng) state := by
  simp only [restore, hVersion, hGenerator, hState, if_true]

/- The sections of a saved form, with such an integer in one. -/
theorem restoreState_put
    (hVars : VarsAreSound o.vars)
    {rng : Json}
    {fields : List (String × Json)}
    {s : State}
    (hOk : restoreState o rng fields = .ok s)
    (hDeclared : d ∈ o.vars.values)
    (hKind : d.initial.kind = .float)
    (hHuge : floatLimit ≤ n.natAbs) :
    restoreState o rng
        (Json.setField fields "variables"
          (Json.put (.int n) [d.name, "value"]
            (Json.fieldOrNull fields "variables"))) =
      .error .beyondFloatRange := by
  unfold restoreState at hOk ⊢
  dsimp only at hOk ⊢
  -- The sections that are read before the variables are those
  -- that were accepted.
  rcases except_bind_ok.mp hOk with ⟨seed, hSeed, hOk⟩
  rw [Json.fieldOrNull_setField_of_ne (by decide), hSeed]
  refine except_bind_error.mpr (Or.inr ⟨seed, rfl, ?_⟩)
  split at hOk
  case h_2 => cases hOk
  next g hGenerator =>
  rcases except_bind_ok.mp hOk with ⟨g', _, hOk⟩
  rcases except_bind_ok.mp hOk with ⟨location, hLocation, hOk⟩
  rcases except_bind_ok.mp hOk with ⟨vars, hValues, _⟩
  have hFault :=
    restoreVariables_put hVars hValues hDeclared hKind hHuge
  rw [Json.fieldOrNull_setField_of_ne (by decide), hLocation,
    Json.fieldOrNull_setField_self, hFault]
  rfl

/-
  Wherever a saved form is accepted, it is not even refused
  once the value of a variable that holds doubles is an integer
  beyond them.
-/
theorem restore_put
    (hVars : VarsAreSound o.vars)
    {v : Json}
    {s : State}
    (hOk : restore o v = .ok s)
    (hDeclared : d ∈ o.vars.values)
    (hKind : d.initial.kind = .float)
    (hHuge : floatLimit ≤ n.natAbs) :
    restore o
        (Json.put (.int n)
          ["state", "variables", d.name, "value"] v) =
      .error .beyondFloatRange := by
  rcases restore_ok hOk with
    ⟨fields, rng, state, rfl, hVersion, hGenerator, hState,
      hOk⟩
  rw [Json.put, hState, Json.put]
  refine (restore_object ?_ ?_ ?_).trans
    (restoreState_put hVars hOk hDeclared hKind hHuge)
  · rw [Json.fieldOrNull_setField_of_ne (by decide)]
    exact hVersion
  · rw [Json.fieldOrNull_setField_of_ne (by decide)]
    exact hGenerator
  · exact Json.fieldOrNull_setField_self

end BranchingStory

------------------------------------------------------------
-- Loading
------------------------------------------------------------

namespace BranchingStory

/-
  How a command to load a slot with a JSON value can end: the
  player goes on with the state that was saved, or says why it
  does not and waits for a command as before.  It is stopped
  only if a number in the slot is to blame.
-/
inductive Player.Loads
    (g : Game)
    (offers : List Offer)
    (slot : Int)
    (payload : Json)
    (p : Player) : Player → Prop where
  | restored
      {s : State}
      (hState : restore g.story.outline payload = .ok s) :
      Loads g offers slot payload p
        ((p.say s!"Loaded slot {slot}.").proceed
          { g with state := s })
  | refused
      {e : SaveError}
      (hFault : restore g.story.outline payload = .error e)
      (hRange : e.isOverflow = false)
      (hTellable : e.isTellable = true) :
      Loads g offers slot payload p
        { p with
          shown := p.shown ++ asLine
            s!"Could not load slot {slot}: {e.message}" ++ "> "
          phase := .commanding g offers }
  | escaped
      {e : SaveError}
      (hFault : restore g.story.outline payload = .error e)
      (hBlames : e.Blames g.story.outline payload) :
      Loads g offers slot payload p (p.stop (.save e))

/- There is something at a path that can be read. -/
theorem FileTree.holds_of_read
    {t : FileTree}
    {p : FilePath}
    {s : String}
    (hRead : t.read p = .ok s) :
    t.holds p = .ok true := by
  unfold FileTree.read contentAt at hRead
  unfold holds find?
  split at hRead
  · cases hRead
  · next c hContent =>
      split at hContent
      · cases hContent
      · next place hPlace =>
          rw [hPlace]
          split at hContent
          · cases hContent
          · cases hContent
          · next hEntry =>
              dsimp only
              rw [hEntry]
              rfl

variable {g : Game}
variable {offers : List Offer}
variable {slot : Int}
variable {payload : Json}

/- A slot that can be read is taken. -/
theorem SlotStore.isTaken_of_read
    {store : SlotStore}
    {t : FileTree}
    (hRead : store.read t slot = .ok payload) :
    store.isTaken t slot = .ok true := by
  unfold SlotStore.read at hRead
  unfold isTaken
  rcases except_bind_ok.mp hRead with ⟨_, hCheck, hRead⟩
  rcases except_bind_ok.mp hRead with ⟨s, hText, _⟩
  rw [hCheck, FileTree.holds_of_read
    (except_mapError_ok.mp hText)]
  rfl

/- The value in a slot can be written. -/
theorem SlotStore.isWritable_of_read
    {store : SlotStore}
    {t : FileTree}
    (hRead : store.read t slot = .ok payload) :
    payload.isWritable = true := by
  unfold SlotStore.read at hRead
  rcases except_bind_ok.mp hRead with ⟨_, _, hRead⟩
  rcases except_bind_ok.mp hRead with ⟨s, _, hRead⟩
  exact Json.isWritable_of_read (except_mapError_ok.mp hRead)

/- A slot that can be read is loaded, refused or escapes. -/
theorem Player.loadFrom_loads
    {p : Player}
    (hRead : g.slots.read p.files slot = .ok payload) :
    Loads g offers slot payload p
      (p.loadFrom g offers slot) := by
  unfold loadFrom
  rw [SlotStore.isTaken_of_read hRead, hRead]
  dsimp only
  split
  · next s hState => exact .restored hState
  · next e hFault =>
      rcases restore_fails e hFault with hRefusal | hBlames
      · rw [hRefusal.inRange]
        exact .refused hFault hRefusal.inRange
          (hRefusal.tellable
            (SlotStore.isWritable_of_read hRead))
      · rw [hBlames.isOverflow]
        exact .escaped hFault hBlames

end BranchingStory

namespace BranchingStory

/-
  A saved form that a story does not accept is refused, in
  words that can be written if the saved form can, or it holds
  a number that is out of the range of its use.  Such numbers
  do escape: any saved form that is accepted fails without a
  refusal once a variable that holds doubles has an integer
  beyond them.  A command to load a slot that holds a JSON
  value goes on with the story that was saved, or says why it
  does not and asks again, unless such a number is to blame.
-/
theorem only_numbers_escape_loading
    {source : String}
    {story : Story}
    (hRead : Story.read source = .ok story) :
    (∀ v e, restore story.outline v = .error e →
      e.IsRefusalOf v ∨ e.Blames story.outline v) ∧
    (∀ v s d (n : Int),
      restore story.outline v = .ok s →
      d ∈ story.outline.vars.values →
      d.initial.kind = .float →
      floatLimit ≤ n.natAbs →
        restore story.outline
            (Json.put (.int n)
              ["state", "variables", d.name, "value"] v) =
          .error .beyondFloatRange) ∧
    ∀ (p : Player) g offers slot line payload,
      p.phase = .commanding g offers →
      Command.ofLine offers.length line = .ok (.load slot) →
      g.slots.read p.files slot = .ok payload →
        Player.Loads g offers slot payload p
          (p.feed line) := by
  have hSound := Story.isSound_of_read hRead
  refine ⟨fun v => restore_fails, ?_, ?_⟩
  · intro v s d n hOk hDeclared hKind hHuge
    exact restore_put hSound.vars hOk hDeclared hKind hHuge
  · intro p g offers slot line payload hPhase hLine hPayload
    unfold Player.feed
    rw [hPhase]
    dsimp only
    rw [hLine]
    exact Player.loadFrom_loads hPayload

/- A script with a variable that holds doubles. -/
def doubleScript : String :=
  "VAR x = 1.5\n* Go\n"

/- The script can be read, and a save of its start is accepted. -/
theorem restore_doubleScript :
    ∃ story d v s,
      Story.read doubleScript = .ok story ∧
        restore story.outline v = .ok s ∧
        d ∈ story.outline.vars.values ∧
        d.initial.kind = .float := by
  have hCheck :
      ((Story.read doubleScript).toOption.any fun story =>
        story.outline.vars.values.any fun d =>
          d.initial.kind = .float) = true := by
    decide +kernel
  rcases exists_ok_of_any hCheck with ⟨story, hRead, hFloat⟩
  rcases List.any_eq_true.mp hFloat with ⟨d, hDeclared, hKind⟩
  have hSound := Story.isSound_of_read hRead
  let s := State.start story.outline 0
  have hRestored :
      restore story.outline (s.save "") = .ok s :=
    (State.restore_save_recovers hSound
      ((State.fits_start hSound 0).isSavable hSound)
      "").ok ⟨nofun, nofun, nofun⟩
  exact ⟨story, d, s.save "", s, hRead, hRestored, hDeclared,
    of_decide_eq_true hKind⟩

/- A saved form whose generator holds an infinity. -/
def infiniteText : String :=
  "\x7b\"save_version\": 1, \"rng\": \x7b\"version\": 3, " ++
    "\"internal\": [Infinity]\x7d, " ++
    "\"state\": \x7b\"seed\": 0\x7d\x7d"

/-
  The script with a double, the least integer beyond the
  doubles in its place, and a slot with an infinity.
-/
theorem only_numbers_escape_loading_double :
    ∃ (story : Story) (d : Declaration) (v : Json),
      Story.read doubleScript = .ok story ∧
        (∃ s, restore story.outline v = .ok s) ∧
        restore story.outline
            (Json.put (.int floatLimit)
              ["state", "variables", d.name, "value"] v) =
          .error .beyondFloatRange ∧
        SaveError.beyondFloatRange.Blames story.outline
          (Json.put (.int floatLimit)
            ["state", "variables", d.name, "value"] v) ∧
        ∃ (p : Player) (g : Game) (offers : List Offer)
            (payload : Json),
          g.slots.read p.files 1 = .ok payload ∧
            Player.Loads g offers 1 payload p
              (p.feed "load 1") := by
  rcases restore_doubleScript with
    ⟨story, d, v, s, hRead, hOk, hDeclared, hKind⟩
  rcases only_numbers_escape_loading hRead with
    ⟨hFails, hPut, hLoads⟩
  have hError :=
    hPut v s d floatLimit hOk hDeclared hKind
      (by rw [Int.natAbs_natCast])
  refine ⟨story, d, v, hRead, ⟨s, hOk⟩, hError, ?_, ?_⟩
  · rcases hFails _ _ hError with hRefusal | hBlames
    · cases hRefusal.inRange
    · exact hBlames
  · let g : Game :=
      ⟨story, ⟨⟨"", []⟩, 3⟩, ⟨false, false⟩, s⟩
    let files : FileTree :=
      (FileTree.empty []).put ["slot_1.json"]
        (.file (.text infiniteText))
    let p : Player :=
      ⟨⟨⟨"", []⟩, ⟨"", []⟩, 0, false, 9⟩, files, "",
        .commanding g []⟩
    have hSlot :
        ((SlotStore.read ⟨⟨"", []⟩, 3⟩ files 1).toOption.any
          fun _ => true) = true := by
      decide +kernel
    rcases exists_ok_of_any hSlot with ⟨payload, hPayload, _⟩
    exact ⟨p, g, [], payload, hPayload,
      hLoads p g [] 1 "load 1" payload rfl rfl hPayload⟩

/-
  Not every saved form that is not accepted is refused: an
  integer beyond the doubles escapes.
-/
theorem numbers_escape_loading :
    ¬ ∀ source story,
      Story.read source = .ok story →
        ∀ v e, restore story.outline v = .error e →
          e.isOverflow = false := by
  intro hAlways
  rcases restore_doubleScript with
    ⟨story, d, v, s, hRead, hOk, hDeclared, hKind⟩
  have hVars := (Story.isSound_of_read hRead).vars
  have hError :=
    restore_put (n := floatLimit) hVars hOk hDeclared hKind
      (by rw [Int.natAbs_natCast])
  cases hAlways _ story hRead _ _ hError

end BranchingStory
