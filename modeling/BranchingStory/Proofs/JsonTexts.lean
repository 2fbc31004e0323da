import BranchingStory.Json.Reader
import BranchingStory.Json.Writer
import BranchingStory.Proofs.Numerals
import BranchingStory.Proofs.Saves

/-
  This file is about the length of the integers in JSON values.
  No text that can be read holds an integer that is too long to
  be written.

  Key definitions include:
    * `Json.Reads`
    * `Json.ReadsShort`

  Key theorems include:
    * `Json.isWritable_field`
    * `readsShort`
    * `Json.isWritable_of_read`
-/

------------------------------------------------------------
-- Parts Of Values
------------------------------------------------------------

namespace BranchingStory

namespace Json

/- Items are short if each of them is. -/
theorem itemsAreWritable_iff
    {vs : List Json} :
    itemsAreWritable vs = true ↔
      ∀ v ∈ vs, v.isWritable = true := by
  induction vs with
  | nil => simp [itemsAreWritable]
  | cons v vs ih => simp [itemsAreWritable, ih]

/- Fields are short if the value of each of them is. -/
theorem fieldsAreWritable_iff
    {fs : List (String × Json)} :
    fieldsAreWritable fs = true ↔
      ∀ f ∈ fs, f.2.isWritable = true := by
  induction fs with
  | nil => simp [fieldsAreWritable]
  | cons f fs ih => simp [fieldsAreWritable, ih]

/- An array is short if each of its items is. -/
theorem isWritable_array_iff
    {vs : List Json} :
    (array vs).isWritable = true ↔
      ∀ v ∈ vs, v.isWritable = true := by
  rw [isWritable, itemsAreWritable_iff]

/- An object is short if the value of each field is. -/
theorem isWritable_object_iff
    {fs : List (String × Json)} :
    (object fs).isWritable = true ↔
      ∀ f ∈ fs, f.2.isWritable = true := by
  rw [isWritable, fieldsAreWritable_iff]

/- The value of a field of a short object is short. -/
theorem isWritable_field
    {fs : List (String × Json)}
    (hShort : (object fs).isWritable = true)
    (key : String) :
    (fieldOrNull fs key).isWritable = true := by
  rw [fieldOrNull, field?]
  cases hFind : fs.find? fun f => f.1 = key with
  | none => rfl
  | some f =>
      exact isWritable_object_iff.mp hShort f
        (List.mem_of_find?_eq_some hFind)

/- Fields that are set one after the other stay short. -/
theorem isWritable_ofFields
    {fs : List (String × Json)}
    (hShort : ∀ f ∈ fs, f.2.isWritable = true) :
    (ofFields fs).isWritable = true := by
  rw [ofFields_eq, isWritable_object_iff]
  exact Table.forall_entries_ofList
    (Q := fun e : String × Json => e.2.isWritable = true)
    hShort

end Json

end BranchingStory

------------------------------------------------------------
-- Reading
------------------------------------------------------------

namespace BranchingStory

/- Whether a step of reading yields only what is required. -/
def Json.Reads
    {α : Type}
    (Q : α → Prop)
    (r : JsonStep α) : Prop :=
  ∀ x rest, r = .ok (x, rest) → Q x

/- An integer that is read from a text is short. -/
theorem jsonNumber_writable
    {whole fraction : List Char}
    {v : Json}
    (hOk : jsonNumber whole fraction = .ok v) :
    v.isWritable = true := by
  rw [jsonNumber] at hOk
  split at hOk
  · split at hOk
    · next n hRead =>
        cases hOk
        have hSome : readInt? whole = some n := by
          rw [readInt?, hRead]
          rfl
        exact isShortInt_of_readInt? hSome
    · cases hOk
    · cases hOk
  · split at hOk
    · cases hOk
      rfl
    · cases hOk

/- A number at the start of a text is short. -/
theorem readJsonNumber?_writable
    {cs : List Char}
    {r : JsonStep Json}
    (hSome : readJsonNumber? cs = some r) :
    Json.Reads (fun v => v.isWritable = true) r := by
  intro v rest hOk
  unfold readJsonNumber? at hSome
  simp only [Option.bind_eq_bind, Option.bind_eq_some_iff]
    at hSome
  rcases hSome with ⟨⟨whole, tail⟩, _, hSome⟩
  cases hSome
  generalize hNumber : jsonNumber _ _ = number at hOk
  cases number with
  | error fault => cases hOk
  | ok w =>
      cases hOk
      exact jsonNumber_writable hNumber

/- A word that is a value holds no integer. -/
theorem readJsonWord?_writable
    {cs : List Char}
    {p : Json × List Char}
    (hSome : readJsonWord? cs = some p) :
    p.1.isWritable = true := by
  rw [readJsonWord?] at hSome
  rcases List.exists_of_findSome?_eq_some hSome with
    ⟨w, hWord, hPrefix⟩
  have hShort : ∀ w ∈ jsonWords, w.2.isWritable = true := by
    simp [jsonWords, Json.isWritable]
  split at hPrefix
  · cases hPrefix
    exact hShort w hWord
  · cases hPrefix

/- What is required of a value, of items and of fields. -/
def Json.ReadsShort
    (n : Nat) : Prop :=
  (∀ cs, Reads (fun v => v.isWritable = true)
    (readJsonValue n cs)) ∧
  (∀ cs, Reads (fun vs => ∀ v ∈ vs, v.isWritable = true)
    (readJsonItems n cs)) ∧
  ∀ cs, Reads
    (fun fs : List (String × Json) =>
      ∀ f ∈ fs, f.2.isWritable = true)
    (readJsonFields n cs)

variable {n : Nat}

/- A value is short if what is nested in it is. -/
theorem readJsonValue_writable
    (hShort : Json.ReadsShort n)
    (cs : List Char) :
    Json.Reads (fun v => v.isWritable = true)
      (readJsonValue (n + 1) cs) := by
  rcases hShort with ⟨_, hItems, hFields⟩
  intro v rest hOk
  unfold readJsonValue at hOk
  split at hOk
  · -- a string
    split at hOk
    · cases hOk
      rfl
    · cases hOk
  · -- an object
    split at hOk
    · cases hOk
      rfl
    · split at hOk
      · next hRead =>
          cases hOk
          exact Json.isWritable_ofFields
            (hFields _ _ _ hRead)
      · cases hOk
  · -- an array
    split at hOk
    · cases hOk
      rfl
    · split at hOk
      · next hRead =>
          cases hOk
          exact Json.isWritable_array_iff.mpr
            (hItems _ _ _ hRead)
      · cases hOk
  · -- a word or a number
    split at hOk
    · next hWord =>
        cases hOk
        exact readJsonWord?_writable hWord
    · next hNumber =>
        exact readJsonNumber?_writable hNumber v rest hOk
    · cases hOk

/- Items are short if what is nested in them is. -/
theorem readJsonItems_writable
    (hShort : Json.ReadsShort n)
    (cs : List Char) :
    Json.Reads (fun vs => ∀ v ∈ vs, v.isWritable = true)
      (readJsonItems (n + 1) cs) := by
  rcases hShort with ⟨hValue, hItems, _⟩
  intro vs rest hOk
  unfold readJsonItems at hOk
  split at hOk
  · cases hOk
  · next hHead =>
      have hFirst := hValue _ _ _ hHead
      split at hOk
      · cases hOk
        exact List.forall_mem_singleton.mpr hFirst
      · split at hOk
        · next hTail =>
            cases hOk
            exact List.forall_mem_cons.mpr
              ⟨hFirst, hItems _ _ _ hTail⟩
        · cases hOk
      · cases hOk

/- Fields are short if what is nested in them is. -/
theorem readJsonFields_writable
    (hShort : Json.ReadsShort n)
    (cs : List Char) :
    Json.Reads
      (fun fs : List (String × Json) =>
        ∀ f ∈ fs, f.2.isWritable = true)
      (readJsonFields (n + 1) cs) := by
  rcases hShort with ⟨hValue, _, hFields⟩
  intro fs rest hOk
  unfold readJsonFields at hOk
  split at hOk
  · split at hOk
    · cases hOk
    · split at hOk
      · split at hOk
        · cases hOk
        · next hHead =>
            have hFirst := hValue _ _ _ hHead
            split at hOk
            · cases hOk
              exact List.forall_mem_singleton.mpr hFirst
            · split at hOk
              · next hTail =>
                  cases hOk
                  exact List.forall_mem_cons.mpr
                    ⟨hFirst, hFields _ _ _ hTail⟩
              · cases hOk
            · cases hOk
      · cases hOk
  · cases hOk

/- What is read is short at every bound of the nesting. -/
theorem readsShort
    (n : Nat) :
    Json.ReadsShort n := by
  induction n with
  | zero =>
      refine ⟨?_, ?_, ?_⟩
      all_goals
        intro cs x rest hOk
        cases hOk
  | succ n ih =>
      exact ⟨readJsonValue_writable ih,
        readJsonItems_writable ih, readJsonFields_writable ih⟩

/- A text that can be read holds only short integers. -/
theorem Json.isWritable_of_read
    {text : String}
    {v : Json}
    (hRead : Json.read text = .ok v) :
    v.isWritable = true := by
  unfold Json.read at hRead
  dsimp only at hRead
  split at hRead
  · next w hSteps =>
      cases hRead
      unfold readSteps at hSteps
      split at hSteps
      · cases hSteps
      · split at hSteps
        · cases hSteps
        · next w rest hValue =>
            split at hSteps
            · cases hSteps
              exact (readsShort _).1 _ _ _ hValue
            · cases hSteps
  · cases hRead

end BranchingStory
