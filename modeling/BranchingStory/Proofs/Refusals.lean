import BranchingStory.Proofs.JsonTexts
import BranchingStory.Proofs.NumericFaults
import BranchingStory.Proofs.Restored

/-
  This file shows how a saved form that does not fit its story
  fails: it is refused with words that can be written, unless a
  number in it is out of the range of its type.

  Key definitions include:
    * `SaveError.isTellable`
    * `SaveError.IsRefusalOf`
    * `SaveError.Blames`
    * `Json.inner`

  Key theorems include:
    * `restoreVariables_fails`
    * `Generator.restore_blames`
    * `restore_fails`
-/

------------------------------------------------------------
-- Refusals
------------------------------------------------------------

namespace BranchingStory

namespace SaveError

/-
  Whether the wording of a fault can be written: it shows no
  integer that is too long for that.
-/
def isTellable : SaveError → Bool
  | .invalidStatus v => v.isWritable
  | .wrongKind _ v _ => v.isWritable
  | .unknownNode _ n => isShortInt n
  | _ => true

/-
  Whether a fault refuses a JSON value.  It shows only what is
  in the value, and can be told if the value can be written.
-/
structure IsRefusalOf
    (v : Json)
    (e : SaveError) : Prop where
  inRange : e.isOverflow = false
  tellable : v.isWritable = true → e.isTellable = true

/- A refusal of a part is a refusal of the whole. -/
theorem IsRefusalOf.widen
    {v w : Json}
    {e : SaveError}
    (hPart : w.isWritable = true → v.isWritable = true)
    (hRefusal : e.IsRefusalOf v) :
    e.IsRefusalOf w :=
  ⟨hRefusal.inRange,
    fun hShort => hRefusal.tellable (hPart hShort)⟩

end SaveError

open SaveError

variable {o : Outline}
variable {part : String}
variable {v w : Json}

/- A part that is expected to be a text. -/
theorem requireString_fails :
    FailsAs (IsRefusalOf w) (requireString part v) := by
  intro e hError
  cases v <;> cases hError <;> exact ⟨rfl, fun _ => rfl⟩

/- A part that is expected to be an integer. -/
theorem requireInt_fails :
    FailsAs (IsRefusalOf w) (requireInt part v) := by
  intro e hError
  cases v <;> cases hError <;> exact ⟨rfl, fun _ => rfl⟩

/- A part that is expected to be a list. -/
theorem requireList_fails :
    FailsAs (IsRefusalOf w) (requireList part v) := by
  intro e hError
  cases v <;> cases hError <;> exact ⟨rfl, fun _ => rfl⟩

/- A part that is expected to be an object. -/
theorem requireObject_fails :
    FailsAs (IsRefusalOf w) (requireObject part v) := by
  intro e hError
  cases v <;> cases hError <;> exact ⟨rfl, fun _ => rfl⟩

/- A key that is expected to be an integer. -/
theorem requireKey_fails
    {key : String} :
    FailsAs (IsRefusalOf w) (requireKey part key) := by
  unfold requireKey
  split
  · exact .ok
  · exact .error ⟨rfl, fun _ => rfl⟩

/- A part that is expected to be an address. -/
theorem requireAddress_fails :
    FailsAs (IsRefusalOf w) (requireAddress o part v) := by
  apply requireString_fails.bind
  intro path _
  dsimp only
  split
  · exact .ok
  · exact .error ⟨rfl, fun _ => rfl⟩

/- A part that is expected to be the number of a node. -/
theorem requireNode_fails :
    FailsAs (IsRefusalOf v) (requireNode o part v) := by
  apply requireInt_fails.bind
  intro n hInt
  split
  · exact .ok
  · rw [requireInt_ok hInt]
    exact .error ⟨rfl, fun hShort => hShort⟩

end BranchingStory

------------------------------------------------------------
-- Sections
------------------------------------------------------------

namespace BranchingStory

open SaveError

variable {o : Outline}
variable {part : String}
variable {v : Json}

/- Elements of a list that are restored one after the other. -/
theorem restoreIndexed_fails
    {α : Type}
    {P : SaveError → Prop}
    {read : Nat → Json → Restoring α}
    {vs : List Json}
    (hEach : ∀ i, ∀ v ∈ vs, FailsAs P (read i v))
    (n : Nat) :
    FailsAs P (restoreIndexed read n vs) := by
  induction vs generalizing n with
  | nil => exact .ok
  | cons v vs ih =>
      rw [restoreIndexed]
      apply (hEach n v List.mem_cons_self).bind
      intro x _
      refine (ih ?_ (n + 1)).bind fun xs _ => .ok
      exact fun i w hMem =>
        hEach i w (List.mem_cons_of_mem _ hMem)

/- A list is restored. -/
theorem requireIndexed_fails
    {α : Type}
    {read : Nat → Json → Restoring α}
    (hEach : ∀ i v, FailsAs (IsRefusalOf v) (read i v)) :
    FailsAs (IsRefusalOf v)
      (requireList part v >>= restoreIndexed read 0) := by
  apply requireList_fails.bind
  intro vs hList
  cases requireList_ok hList
  apply restoreIndexed_fails
  intro i w hMem
  exact (hEach i w).mono fun e => IsRefusalOf.widen
    fun hShort => Json.isWritable_array_iff.mp hShort w hMem

/- A frame is restored. -/
theorem restoreFrame_fails
    (i : Nat)
    (v : Json) :
    FailsAs (IsRefusalOf v) (restoreFrame o i v) := by
  unfold restoreFrame
  apply requireList_fails.bind
  intro vs hList
  cases requireList_ok hList
  split
  · next block index =>
      have hNode :
          FailsAs (IsRefusalOf block)
            (requireNode o s!"state.frames[{i}]" block) :=
        requireNode_fails
      refine (hNode.mono fun e => IsRefusalOf.widen ?_).bind
        fun id _ => ?_
      · intro hShort
        exact Json.isWritable_array_iff.mp hShort block
          List.mem_cons_self
      · dsimp only
        split
        · exact .error ⟨rfl, fun _ => rfl⟩
        · exact requireInt_fails.bind fun n _ => .ok
  · exact .error ⟨rfl, fun _ => rfl⟩

/- The frames are restored. -/
theorem restoreFrames_fails :
    FailsAs (IsRefusalOf v) (restoreFrames o v) := by
  have hFrames :
      FailsAs (IsRefusalOf v)
        (requireList "state.frames" v >>=
          restoreIndexed (restoreFrame o) 0) :=
    requireIndexed_fails restoreFrame_fails
  unfold restoreFrames
  rw [← bind_assoc]
  exact hFrames.bind fun fs _ => .ok

/- An offer is restored. -/
theorem restoreOffer_fails
    (i : Nat)
    (v : Json) :
    FailsAs (IsRefusalOf v) (restoreOffer o i v) := by
  unfold restoreOffer
  apply requireObject_fails.bind
  intro fields hObject
  cases requireObject_ok hObject
  refine (requireNode_fails.mono fun e =>
    IsRefusalOf.widen ?_).bind fun id _ => ?_
  · exact fun hShort => Json.isWritable_field hShort _
  · dsimp only
    split
    · exact .error ⟨rfl, fun _ => rfl⟩
    · apply requireList_fails.bind
      intro tags _
      apply requireString_fails.bind
      intro text _
      refine (FailsAs.mapM fun tag _ =>
        requireString_fails).bind fun tags _ => .ok

/- The offers are restored. -/
theorem restoreOffers_fails :
    FailsAs (IsRefusalOf v) (restoreOffers o v) :=
  requireIndexed_fails restoreOffer_fails

/- A table is restored. -/
theorem table_fails
    {K V : Type}
    [DecidableEq K]
    {read : String × Json → Restoring (K × V)}
    (hEach : ∀ f, FailsAs (IsRefusalOf v) (read f)) :
    FailsAs (IsRefusalOf v) (do
      let fields ← requireObject part v
      let entries ← fields.mapM read
      return Table.ofList entries) := by
  apply requireObject_fails.bind
  intro fields _
  exact (FailsAs.mapM fun f _ => hEach f).bind
    fun entries _ => .ok

/- The visits are restored. -/
theorem restoreVisits_fails :
    FailsAs (IsRefusalOf v) (restoreVisits o v) := by
  apply table_fails
  intro f
  apply requireAddress_fails.bind
  intro a _
  exact requireInt_fails.bind fun n _ => .ok

/- Counts are restored. -/
theorem restoreCounts_fails :
    FailsAs (IsRefusalOf v) (restoreCounts part v) := by
  apply table_fails
  intro f
  apply requireInt_fails.bind
  intro n _
  exact requireKey_fails.bind fun k _ => .ok

/- The orders are restored. -/
theorem restoreOrders_fails :
    FailsAs (IsRefusalOf v) (restoreOrders v) := by
  apply table_fails
  intro f
  apply requireList_fails.bind
  intro vs _
  refine (FailsAs.mapM fun v _ => requireInt_fails).bind
    fun ns _ => ?_
  exact requireKey_fails.bind fun k _ => .ok

/- The status is restored. -/
theorem restoreStatus_fails :
    FailsAs (IsRefusalOf v) (restoreStatus v) := by
  unfold restoreStatus
  split
  · split
    · exact .ok
    · exact .error ⟨rfl, fun hShort => hShort⟩
  · exact .error ⟨rfl, fun hShort => hShort⟩

end BranchingStory

------------------------------------------------------------
-- Numbers Out Of Range
------------------------------------------------------------

namespace BranchingStory

/-
  The value that keys lead to within nested objects, or null
  where there is none.
-/
def Json.inner
    (v : Json) : List String → Json
  | [] => v
  | key :: keys => ((v.get? key).getD .null).inner keys

/-
  Whether a number is out of the range of its use: that of a
  word of the register or that of a position in it.
-/
inductive RestoreError.Excludes :
    RestoreError → Int → Prop where
  | negativeWord
      {n : Int}
      (hNegative : n < 0) :
      Excludes .negativeWord n
  | hugeWord
      {n : Int}
      (hHuge : (Nat.pow 2 64 : Nat) ≤ n) :
      Excludes .hugeWord n
  | hugePosition
      {n : Int}
      (hHuge : Nat.pow 2 63 ≤ n.natAbs) :
      Excludes .hugePosition n

/-
  When a saved form holds a number that a fault comes from: an
  infinity or an integer out of range among the numbers of the
  generator, or an integer beyond the doubles for the value of
  a variable that holds doubles.
-/
inductive SaveError.Blames
    (o : Outline)
    (v : Json) : SaveError → Prop where
  | ofInfinity
      {elements : List Json}
      {x : Float}
      (hElements :
        jsonElements (v.inner ["rng", "internal"]) =
          .ok elements)
      (hMem : .float x ∈ elements)
      (hInfinite : IsInfinite x) :
      Blames o v (.generator .infiniteNumber)
  | ofNumber
      {elements : List Json}
      {element : Json}
      {n : Int}
      {fault : RestoreError}
      (hVersion :
        (v.inner ["rng", "version"]).equalsInt 3 = true)
      (hElements :
        jsonElements (v.inner ["rng", "internal"]) =
          .ok elements)
      (hMem : element ∈ elements)
      (hNumber : wholeNumber element = .ok n)
      (hExcluded : fault.Excludes n) :
      Blames o v (.generator fault)
  | ofVariable
      {d : Declaration}
      {n : Int}
      (hDeclared : d ∈ o.vars.values)
      (hKind : d.initial.kind = .float)
      (hValue :
        v.inner ["state", "variables", d.name, "value"] =
          .int n)
      (hHuge : floatLimit ≤ n.natAbs) :
      Blames o v .beyondFloatRange

end BranchingStory

------------------------------------------------------------
-- The Generator
------------------------------------------------------------

namespace BranchingStory

open SaveError

/- An overflow in a number is that of an infinity. -/
theorem wholeNumber_overflow
    {v : Json}
    {fault : RestoreError}
    (hError : wholeNumber v = .error fault)
    (hOverflow : fault.isOverflow = true) :
    fault = .infiniteNumber ∧
      ∃ x, v = .float x ∧ IsInfinite x := by
  unfold wholeNumber at hError
  split at hError
  · cases hError
  · cases hError
  · next x =>
      split at hError
      · cases hError
      · next hNone =>
          split at hError
          · cases hError
            cases hOverflow
          · next hNumber =>
              cases hError
              rw [truncated?, Option.map_eq_none_iff] at hNone
              exact ⟨rfl, x, rfl, hNone,
                Bool.eq_false_iff.mpr hNumber⟩
  · split at hError
    · cases hError
    · cases hError
      cases hOverflow
    · cases hError
      cases hOverflow
  · cases hError
    cases hOverflow

/- An overflow in a word is that of its number. -/
theorem registerWord_overflow
    {n : Int} :
    FailsAs (RestoreError.Excludes · n) (registerWord n) := by
  unfold registerWord
  split
  · next hNegative => exact .error (.negativeWord hNegative)
  · split
    · next hHuge => exact .error (.hugeWord hHuge)
    · exact .ok

/- An overflow in a position is that of its number. -/
theorem registerUse_overflow
    {n : Int} :
    FailsAs
      (fun fault => fault.isOverflow = true →
        fault.Excludes n)
      (registerUse n) := by
  unfold registerUse
  dsimp only
  split
  · next hHuge =>
      exact .error fun _ => .hugePosition (by omega)
  · split
    · exact .ok
    · exact .error fun hOverflow => nomatch hOverflow

namespace Generator

/- An overflow in a register is that of one of its numbers. -/
theorem ofNumbers_overflow
    {spare : Json}
    {ns : List Int} :
    FailsAs
      (fun fault => fault.isOverflow = true →
        ∃ n ∈ ns, fault.Excludes n)
      (ofNumbers spare ns) := by
  unfold ofNumbers
  split
  · next position hPosition =>
      refine (FailsAs.mapM fun n hMem => ?_).bind
        fun ws _ => ?_
      · exact registerWord_overflow.mono
          fun fault hExcludes _ =>
            ⟨n, List.mem_of_mem_take hMem, hExcludes⟩
      · have hMem : position ∈ ns := by
          apply List.mem_of_mem_drop (i := registerSize)
          rw [hPosition]
          exact List.mem_singleton_self position
        refine (registerUse_overflow.mono ?_).bind
          fun used _ => ?_
        · exact fun fault hExcludes hOverflow =>
            ⟨position, hMem, hExcludes hOverflow⟩
        · split
          · exact .ok
          · exact .error fun hOverflow => nomatch hOverflow
  · exact .error fun hOverflow => nomatch hOverflow

end Generator

/-
  The numbers that count in a version are out of range only in
  the third, in which they are as they were read.
-/
theorem versionNumbers_excluded
    {version : Json}
    {ns ms : List Int}
    (hOk : versionNumbers version ns = .ok ms)
    {fault : RestoreError}
    {n : Int}
    (hMem : n ∈ ms)
    (hExcludes : fault.Excludes n) :
    version.equalsInt 3 = true ∧ n ∈ ns := by
  unfold versionNumbers at hOk
  split at hOk
  · next hThird =>
      cases hOk
      exact ⟨hThird, hMem⟩
  · split at hOk
    · cases hOk
      rcases List.mem_map.mp hMem with ⟨m, _, rfl⟩
      have hRange :
          0 ≤ m % (Nat.pow 2 32 : Nat) ∧
            m % (Nat.pow 2 32 : Nat) < (Nat.pow 2 32 : Nat) :=
        ⟨Int.emod_nonneg _ (by decide),
          Int.emod_lt_of_pos _ (by decide)⟩
      generalize m % (Nat.pow 2 32 : Nat) = r at *
      have hPowers :
          Nat.pow 2 32 < Nat.pow 2 63 ∧
            Nat.pow 2 32 < Nat.pow 2 64 := by decide
      generalize Nat.pow 2 32 = p at *
      cases hExcludes <;> omega
    · cases hOk

end BranchingStory

namespace BranchingStory

open SaveError

/- A field that is there is the value of its key. -/
theorem Json.fieldOrNull_of_some
    {fields : List (String × Json)}
    {key : String}
    {v : Json}
    (hField : Json.field? fields key = some v) :
    Json.fieldOrNull fields key = v := by
  rw [Json.fieldOrNull, hField]
  rfl

namespace Generator

variable {fields : List (String × Json)}

/- The numbers that are read are those of the elements. -/
theorem readFields_ok
    {ns : List Int}
    (hOk : readFields fields = .ok ns) :
    ∃ elements ms,
      jsonElements (Json.fieldOrNull fields "internal") =
          .ok elements ∧
        elements.mapM wholeNumber = .ok ms ∧
        versionNumbers
          (Json.fieldOrNull fields "version") ms = .ok ns := by
  unfold readFields at hOk
  split at hOk
  · next version hVersion =>
      split at hOk
      · next internal hInternal =>
          rcases except_bind_ok.mp hOk with
            ⟨elements, hElements, hOk⟩
          rcases except_bind_ok.mp hOk with ⟨ms, hNumbers, hOk⟩
          rw [Json.fieldOrNull_of_some hVersion,
            Json.fieldOrNull_of_some hInternal]
          exact ⟨elements, ms, hElements, hNumbers, hOk⟩
      · cases hOk
  · cases hOk

/- An overflow while numbers are read is that of an infinity. -/
theorem readFields_overflow :
    FailsAs
      (fun fault => fault.isOverflow = true →
        fault = .infiniteNumber ∧ ∃ elements x,
          jsonElements (Json.fieldOrNull fields "internal") =
              .ok elements ∧
            .float x ∈ elements ∧ IsInfinite x)
      (readFields fields) := by
  unfold readFields
  split
  · split
    · next internal hInternal =>
        rw [Json.fieldOrNull_of_some hInternal]
        refine FailsAs.bind ?_ fun elements hElements => ?_
        · unfold jsonElements
          split
          · exact .ok
          · exact .ok
          · exact .ok
          · exact .error fun hOverflow => nomatch hOverflow
        refine (FailsAs.mapM ?_).bind fun ns _ => ?_
        · intro element hMem fault hError hOverflow
          rcases wholeNumber_overflow hError hOverflow with
            ⟨hFault, x, rfl, hInfinite⟩
          exact ⟨hFault, elements, x, hElements, hMem,
            hInfinite⟩
        · unfold versionNumbers
          split
          · exact .ok
          · split
            · exact .ok
            · exact .error fun hOverflow => nomatch hOverflow
    · exact .error fun hOverflow => nomatch hOverflow
  · exact .error fun hOverflow => nomatch hOverflow

/-
  A generator is not restored if it is no object, its numbers
  can not be read, or they make no generator.
-/
theorem restore_error
    {rng : Json}
    {fault : RestoreError}
    {g g' : Generator}
    (hRun :
      (Generator.restore rng).run g = (.error fault, g')) :
    fault = .notAnObject rng ∨
      ∃ fields, rng = .object fields ∧
        (readFields fields = .error fault ∨
          ∃ ns, readFields fields = .ok ns ∧
            ofNumbers (Json.fieldOrNull fields "gauss") ns =
              .error fault) := by
  cases rng with
  | object fields =>
      refine Or.inr ⟨fields, rfl, ?_⟩
      unfold Generator.restore at hRun
      cases hRead : readFields fields with
      | error fault' =>
          simp only [hRead] at hRun
          cases hRun
          exact Or.inl rfl
      | ok ns =>
          refine Or.inr ⟨ns, rfl, ?_⟩
          let spare := Json.fieldOrNull fields "gauss"
          simp only [hRead] at hRun
          change ExceptT.run
              ((MonadExcept.ofExcept (ofNumbers spare ns) :
                Restoration Generator) >>=
                  fun h => (set h : Restoration Unit))
              { g with spare := spare } = _ at hRun
          cases hNumbers : ofNumbers spare ns with
          | error fault' =>
              rw [hNumbers] at hRun
              cases hRun
              rfl
          | ok h =>
              rw [hNumbers] at hRun
              cases hRun
  | _ =>
      cases hRun
      exact Or.inl rfl

/-
  An overflow in a generator is that of one of the numbers of
  the saved form.
-/
theorem restore_blames
    {o : Outline}
    {v rng : Json}
    (hGenerator : ∀ keys,
      v.inner ("rng" :: keys) = rng.inner keys)
    {fault : RestoreError}
    {g g' : Generator}
    (hRun :
      (Generator.restore rng).run g = (.error fault, g'))
    (hOverflow : fault.isOverflow = true) :
    (SaveError.generator fault).Blames o v := by
  rcases restore_error hRun with
    rfl | ⟨fields, rfl, hRead | ⟨ns, hRead, hNumbers⟩⟩
  · cases hOverflow
  · rcases readFields_overflow fault hRead hOverflow with
      ⟨rfl, elements, x, hElements, hMem, hInfinite⟩
    refine .ofInfinity ?_ hMem hInfinite
    rw [hGenerator]
    exact hElements
  · rcases readFields_ok hRead with
      ⟨elements, ms, hElements, hWhole, hVersion⟩
    rcases ofNumbers_overflow fault hNumbers hOverflow with
      ⟨n, hMem, hExcludes⟩
    rcases versionNumbers_excluded hVersion hMem hExcludes with
      ⟨hThird, hMem⟩
    rcases exists_of_mapM_ok hWhole hMem with
      ⟨element, hElement, hNumber⟩
    refine .ofNumber ?_ ?_ hElement hNumber hExcludes
    · rw [hGenerator]
      exact hThird
    · rw [hGenerator]
      exact hElements

end Generator

end BranchingStory

------------------------------------------------------------
-- Variables
------------------------------------------------------------

namespace BranchingStory

open SaveError

variable {o : Outline}
variable {v : Json}

/-
  A value is refused, or it is an integer beyond the doubles
  where a double is expected.
-/
theorem restoreValue_fails
    {name : String}
    {k : Kind} :
    FailsAs
      (fun e => e.IsRefusalOf v ∨
        e = .beyondFloatRange ∧ k = .float ∧
          ∃ n, v = .int n ∧ floatLimit ≤ n.natAbs)
      (restoreValue o name k v) := by
  have hRefusal {α : Type} {r : Restoring α}
      (hFails : FailsAs (IsRefusalOf v) r) :
      FailsAs
        (fun e => e.IsRefusalOf v ∨
          e = .beyondFloatRange ∧ k = .float ∧
            ∃ n, v = .int n ∧ floatLimit ≤ n.natAbs) r :=
    hFails.mono fun _ => Or.inl
  unfold restoreValue
  split
  · exact .ok
  · exact .error (Or.inl ⟨rfl, fun _ => rfl⟩)
  · exact hRefusal requireInt_fails.map
  · exact .ok
  · next n =>
      split
      · exact .ok
      · next hNone =>
          exact .error (Or.inr ⟨rfl, rfl, n, rfl,
            (doubleOfInt?_eq_none_iff n).mp hNone⟩)
  · exact .error (Or.inl ⟨rfl, fun _ => rfl⟩)
  · exact hRefusal requireAddress_fails.map
  · exact hRefusal requireString_fails.map

/- A variable is refused, or its value is beyond the doubles. -/
theorem restoreVariable_fails
    {fields : List (String × Json)}
    {d : Declaration} :
    FailsAs
      (fun e => e.IsRefusalOf (.object fields) ∨
        e = .beyondFloatRange ∧ d.initial.kind = .float ∧
          ∃ n, (Json.object fields).inner [d.name, "value"] =
              .int n ∧
            floatLimit ≤ n.natAbs)
      (restoreVariable o fields d) := by
  unfold restoreVariable
  refine (requireObject_fails.mono fun _ => Or.inl).bind
    fun entry hEntry => ?_
  have hEntry := requireObject_ok hEntry
  have hInner (key : String) :
      (Json.object fields).inner [d.name, key] =
        Json.fieldOrNull entry key := by
    change (Json.fieldOrNull fields d.name).inner [key] = _
    rw [hEntry]
    rfl
  have hShort (key : String)
      (hWritable : (Json.object fields).isWritable = true) :
      (Json.fieldOrNull entry key).isWritable = true := by
    apply Json.isWritable_field
    rw [← hEntry]
    exact Json.isWritable_field hWritable d.name
  dsimp only
  split
  · refine (restoreValue_fails.mono ?_).bind fun w _ => .ok
    rintro e (hRefusal | hHuge)
    · exact Or.inl (hRefusal.widen (hShort "value"))
    · rw [hInner]
      exact Or.inr hHuge
  · exact .error (Or.inl ⟨rfl, hShort "kind"⟩)

/-
  Variables are refused, or the value of one of them is beyond
  the doubles.
-/
theorem restoreVariables_fails :
    FailsAs
      (fun e => e.IsRefusalOf v ∨
        e = .beyondFloatRange ∧
          ∃ d ∈ o.vars.values, d.initial.kind = .float ∧
            ∃ n, v.inner [d.name, "value"] = .int n ∧
              floatLimit ≤ n.natAbs)
      (restoreVariables o v) := by
  unfold restoreVariables
  refine (requireObject_fails.mono fun _ => Or.inl).bind
    fun fields hFields => ?_
  cases requireObject_ok hFields
  refine (FailsAs.mapM fun d hDeclared =>
    restoreVariable_fails.mono ?_).bind fun entries _ => ?_
  · rintro e (hRefusal | ⟨rfl, hKind, hHuge⟩)
    · exact Or.inl hRefusal
    · exact Or.inr ⟨rfl, d, hDeclared, hKind, hHuge⟩
  · dsimp only
    split
    · exact .ok
    · exact .error (Or.inl ⟨rfl, fun _ => rfl⟩)

end BranchingStory

------------------------------------------------------------
-- States
------------------------------------------------------------

namespace BranchingStory

open SaveError

variable {o : Outline}
variable {v : Json}

/-
  The sections of a saved form are refused, or a number of the
  saved form is to blame.
-/
theorem restoreState_fails
    {rng : Json}
    {fields : List (String × Json)}
    (hGenerator : ∀ keys,
      v.inner ("rng" :: keys) = rng.inner keys)
    (hState : ∀ keys,
      v.inner ("state" :: keys) =
        (Json.object fields).inner keys)
    (hShort : v.isWritable = true →
      (Json.object fields).isWritable = true) :
    FailsAs (fun e => e.IsRefusalOf v ∨ e.Blames o v)
      (restoreState o rng fields) := by
  have hPart {α : Type} {r : Restoring α}
      (key : String)
      (hFails : FailsAs
        (IsRefusalOf (Json.fieldOrNull fields key)) r) :
      FailsAs (fun e => e.IsRefusalOf v ∨ e.Blames o v) r :=
    hFails.mono fun e hRefusal => Or.inl (hRefusal.widen
      fun hWritable =>
        Json.isWritable_field (hShort hWritable) key)
  unfold restoreState
  refine (hPart "seed" requireInt_fails).bind
    fun seed _ => ?_
  dsimp only
  split
  case h_2 fault g hRun =>
    apply FailsAs.error
    cases hOverflow : fault.isOverflow with
    | false => exact Or.inl ⟨hOverflow, fun _ => rfl⟩
    | true =>
        exact Or.inr (Generator.restore_blames hGenerator hRun
          hOverflow)
  refine (hPart "location" requireAddress_fails).bind
    fun location _ => ?_
  refine (restoreVariables_fails.mono ?_).bind fun vars _ => ?_
  · rintro e (hRefusal | ⟨rfl, d, hDeclared, hKind, n, hHuge⟩)
    · exact Or.inl (hRefusal.widen fun hWritable =>
        Json.isWritable_field (hShort hWritable) _)
    · refine Or.inr (.ofVariable hDeclared hKind ?_ hHuge.2)
      rw [hState]
      exact hHuge.1
  refine (hPart _ restoreStatus_fails).bind fun status _ => ?_
  refine (hPart _ restoreFrames_fails).bind fun frames _ => ?_
  refine (hPart _ restoreVisits_fails).bind fun visits _ => ?_
  refine (hPart _ restoreCounts_fails).bind fun chosen _ => ?_
  refine (hPart _ restoreCounts_fails).bind fun cursors _ => ?_
  refine (hPart _ restoreOrders_fails).bind fun orders _ => ?_
  refine (hPart _ restoreOffers_fails).bind fun offers _ => ?_
  split
  · exact .error (Or.inl ⟨rfl, fun _ => rfl⟩)
  · exact .ok

/-
  A saved form is refused, or a number in it is to blame.
-/
theorem restore_fails :
    FailsAs (fun e => e.IsRefusalOf v ∨ e.Blames o v)
      (restore o v) := by
  unfold restore
  split
  · next fields =>
      dsimp only
      split
      · split
        · next rng state hGenerator hState =>
            apply restoreState_fails
            · intro keys
              rw [← hGenerator]
              rfl
            · intro keys
              rw [← hState]
              rfl
            · intro hWritable
              rw [← hState]
              exact Json.isWritable_field hWritable "state"
        · exact .error (Or.inl ⟨rfl, fun _ => rfl⟩)
      · exact .error (Or.inl ⟨rfl, fun _ => rfl⟩)
  · exact .error (Or.inl ⟨rfl, fun _ => rfl⟩)

/- What a number is to blame for is no refusal. -/
theorem SaveError.Blames.isOverflow
    {e : SaveError}
    (hBlames : e.Blames o v) :
    e.isOverflow = true := by
  cases hBlames with
  | ofInfinity => rfl
  | ofNumber _ _ _ _ hExcluded =>
      cases hExcluded <;> rfl
  | ofVariable => rfl

end BranchingStory
