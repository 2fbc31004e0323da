import BranchingStory.Proofs.JsonNumbers
import BranchingStory.Proofs.JsonStrings
import BranchingStory.Proofs.JsonTexts

/-
  This file shows that every JSON value is read back from its
  text.  The text holds the fields of an object in the order of
  their keys, so that this is the order in which they are read.
  It consists of printable ASCII and line feeds, so that a file
  gives it back as it was.

  Key definitions include:
    * `Json.sorted`
    * `Json.IsReadAs`
    * `isJsonTextChar`

  Key theorems include:
    * `Json.induct`
    * `Json.field?_order`
    * `readJsonItems_text`
    * `readJsonFields_text`
    * `Json.isReadAs_writeAt`
    * `Json.read_write`
    * `Json.all_writeAt`
    * `Json.unifyLineEnds_write`
-/

------------------------------------------------------------
-- Values With Their Fields In Order
------------------------------------------------------------

namespace BranchingStory

namespace Json

/- Fields in the order of their keys. -/
def orderFields
    (fields : List (String × Json)) :
    List (String × Json) :=
  fields.mergeSort fun f g => f.1 ≤ g.1

mutual

/- A value with the fields of all objects in their order. -/
def sorted : Json → Json
  | .array vs => .array (sortedItems vs)
  | .object fs => ofFields (orderFields (sortedFields fs))
  | v => v

/- Items with the fields of all objects in their order. -/
def sortedItems : List Json → List Json
  | [] => []
  | v :: vs => sorted v :: sortedItems vs

/- Fields whose values have all fields in their order. -/
def sortedFields :
    List (String × Json) → List (String × Json)
  | [] => []
  | (k, v) :: fs => (k, sorted v) :: sortedFields fs

end

theorem sortedItems_eq
    (vs : List Json) :
    sortedItems vs = vs.map sorted := by
  induction vs with
  | nil => rw [sortedItems, List.map_nil]
  | cons v vs ih => rw [sortedItems, ih, List.map_cons]

theorem sortedFields_eq
    (fs : List (String × Json)) :
    sortedFields fs = fs.map fun f => (f.1, f.2.sorted) := by
  induction fs with
  | nil => rw [sortedFields, List.map_nil]
  | cons f fs ih => rw [sortedFields, ih, List.map_cons]

theorem writeItems_eq
    (level : Nat)
    (vs : List Json) :
    writeItems level vs = vs.map (writeAt level) := by
  induction vs with
  | nil => rw [writeItems, List.map_nil]
  | cons v vs ih => rw [writeItems, ih, List.map_cons]

theorem writeFields_eq
    (level : Nat)
    (fs : List (String × Json)) :
    writeFields level fs =
      fs.map fun f => (f.1, writeAt level f.2) := by
  induction fs with
  | nil => rw [writeFields, List.map_nil]
  | cons f fs ih => rw [writeFields, ih, List.map_cons]

/-
  What holds of all plain values, of an array if it holds of
  its items, and of an object if it holds of the values of its
  fields, holds of every value.
-/
theorem induct
    {P : Json → Prop}
    (hNull : P .null)
    (hBool : ∀ b, P (.bool b))
    (hInt : ∀ n, P (.int n))
    (hFloat : ∀ x, P (.float x))
    (hString : ∀ s, P (.string s))
    (hArray : ∀ vs, (∀ v ∈ vs, P v) → P (.array vs))
    (hObject : ∀ fs : List (String × Json),
      (∀ f ∈ fs, P f.2) → P (.object fs))
    (v : Json) :
    P v := by
  refine @Json.rec P (fun vs => ∀ v ∈ vs, P v)
    (fun fs => ∀ f ∈ fs, P f.2) (fun f => P f.2)
    hNull hBool hInt hFloat hString hArray hObject
    ?_ ?_ ?_ ?_ ?_ v
  · exact nofun
  · intro v vs hHead hTail
    exact List.forall_mem_cons.mpr ⟨hHead, hTail⟩
  · exact nofun
  · intro f fs hHead hTail
    exact List.forall_mem_cons.mpr ⟨hHead, hTail⟩
  · intro k v hValue
    exact hValue

end Json

end BranchingStory

------------------------------------------------------------
-- Fields In Their Order
------------------------------------------------------------

namespace BranchingStory

namespace Json

variable {fs : List (String × Json)}

/- Where no key stands twice, all fields are kept. -/
theorem sorted_object
    (hNodup : (fs.map Prod.fst).Nodup) :
    sorted (.object fs) =
      .object (orderFields
        (fs.map fun f => (f.1, f.2.sorted))) := by
  have hKeys :
      ((orderFields
        (fs.map fun f => (f.1, f.2.sorted))).map
          Prod.fst).Nodup := by
    refine ((List.mergeSort_perm _ _).map _).nodup_iff.mpr ?_
    simpa [Function.comp_def] using hNodup
  rw [sorted, sortedFields_eq, ofFields_eq,
    Table.ofList_of_nodup hKeys]

/- Then every key has the value that it had. -/
theorem field?_order
    (hNodup : (fs.map Prod.fst).Nodup)
    (key : String) :
    field?
        (orderFields (fs.map fun f => (f.1, f.2.sorted))) key =
      (field? fs key).map sorted := by
  let t : Table String Json :=
    ⟨fs.map fun f => (f.1, f.2.sorted)⟩
  have hKeys : t.keys.Nodup := by
    simpa [t, Table.keys, Function.comp_def] using hNodup
  refine (Table.lookup_of_perm hKeys
    (List.mergeSort_perm _ _) key).trans ?_
  exact Table.lookup_mapValues sorted ⟨fs⟩ key

end Json

end BranchingStory

------------------------------------------------------------
-- Reading A Value
------------------------------------------------------------

namespace BranchingStory

variable {rest close gap : List Char}

/- Blanks are skipped up to what is none. -/
theorem skipJsonBlanks_append
    (hBlank : ∀ c ∈ gap, isJsonBlank c = true)
    (hStop : ∀ c, rest.head? = some c → isJsonBlank c = false) :
    skipJsonBlanks (gap ++ rest) = rest := by
  rw [skipJsonBlanks, List.dropWhile_append_of_pos hBlank]
  cases rest with
  | nil => rfl
  | cons c rest =>
      rw [List.dropWhile_cons_of_neg (by simp [hStop c rfl])]

/- After blanks, and before a mark, a number has ended. -/
theorem endsJsonNumber_of_close
    (hBlank : ∀ c ∈ close, isJsonBlank c = true)
    {c : Char}
    (hMark : c ∈ [',', ']', '\x7d']) :
    EndsJsonNumber (close ++ c :: rest) := by
  have hMarks :
      ([',', ']', '\x7d'].all fun c =>
        !c.isDigit && c ≠ '.' && c ≠ 'e' && c ≠ 'E') = true := by
    decide
  intro d hHead
  cases close with
  | nil =>
      cases hHead
      simpa [and_assoc] using List.all_eq_true.mp hMarks c hMark
  | cons b close =>
      cases hHead
      have hSome := hBlank d List.mem_cons_self
      simp only [isJsonBlank, Bool.or_eq_true, beq_iff_eq]
        at hSome
      rcases hSome with ((rfl | rfl) | rfl) | rfl
      · decide
      · decide
      · decide
      · decide

/- A number has ended before a comma. -/
theorem endsJsonNumber_comma
    (rest : List Char) :
    EndsJsonNumber (',' :: rest) := by
  rintro d ⟨⟩
  decide

/-
  Whether a text is read as a value, whatever follows it that
  does not go on with a number.  The bound of the nesting may
  be twice the length of the text.
-/
structure Json.IsReadAs
    (text : List Char)
    (v : Json) : Prop where
  head : ∃ c cs, text = c :: cs ∧ isJsonBlank c = false ∧
    c ≠ ']' ∧ c ≠ '\uFEFF'
  read : ∀ rest bound, EndsJsonNumber rest →
    2 * text.length ≤ bound →
      readJsonValue bound (text ++ rest) = .ok (v, rest)

/- A text that is read as a value has a first character. -/
theorem Json.IsReadAs.length_pos
    {text : List Char}
    {v : Json}
    (hRead : IsReadAs text v) :
    0 < text.length := by
  rcases hRead.head with ⟨c, cs, rfl, _⟩
  exact Nat.succ_pos _

/- Blanks before a text that is read as a value are skipped. -/
theorem Json.IsReadAs.skip
    {text : List Char}
    {v : Json}
    (hRead : IsReadAs text v)
    (hBlank : ∀ c ∈ gap, isJsonBlank c = true)
    (rest : List Char) :
    skipJsonBlanks (gap ++ (text ++ rest)) = text ++ rest := by
  rcases hRead.head with ⟨c, cs, rfl, hStop, _⟩
  refine skipJsonBlanks_append hBlank ?_
  rintro d ⟨⟩
  exact hStop

end BranchingStory

------------------------------------------------------------
-- Items And Fields
------------------------------------------------------------

namespace BranchingStory

variable {rest close gap : List Char}

/- Texts that are put together begin with the first of them. -/
theorem exists_intercalate_cons
    {α : Type}
    (gap x : List α)
    (xs : List (List α)) :
    ∃ others, gap.intercalate (x :: xs) = x ++ others := by
  cases xs with
  | nil => exact ⟨[], by simp⟩
  | cons y ys =>
      refine ⟨gap ++ gap.intercalate (y :: ys), ?_⟩
      rw [List.intercalate_cons_cons, List.append_assoc]

/- An item is the last one before a bracket. -/
theorem readJsonItems_last
    {bound : Nat}
    {cs after rest : List Char}
    {v : Json}
    (hValue : readJsonValue bound cs = .ok (v, after))
    (hMark : skipJsonBlanks after = ']' :: rest) :
    readJsonItems (bound + 1) cs = .ok ([v], rest) := by
  simp [readJsonItems, hValue, hMark]

/- An item is followed by others after a comma. -/
theorem readJsonItems_cons
    {bound : Nat}
    {cs after more rest : List Char}
    {v : Json}
    {vs : List Json}
    (hValue : readJsonValue bound cs = .ok (v, after))
    (hMark : skipJsonBlanks after = ',' :: more)
    (hMore :
      readJsonItems bound (skipJsonBlanks more) =
        .ok (vs, rest)) :
    readJsonItems (bound + 1) cs = .ok (v :: vs, rest) := by
  simp [readJsonItems, hValue, hMark, hMore]

/- Items are read one after the other, up to the bracket. -/
theorem readJsonItems_text
    {xs : List (List Char × Json)}
    (hSome : xs ≠ [])
    (hRead : ∀ x ∈ xs, Json.IsReadAs x.1 x.2)
    (hGap : ∀ c ∈ gap, isJsonBlank c = true)
    (hClose : ∀ c ∈ close, isJsonBlank c = true)
    {bound : Nat}
    (hBound :
      2 * ((',' :: gap).intercalate
        (xs.map Prod.fst)).length < bound) :
    readJsonItems bound
        ((',' :: gap).intercalate (xs.map Prod.fst) ++
          (close ++ ']' :: rest)) =
      .ok (xs.map Prod.snd, rest) := by
  induction xs generalizing bound with
  | nil => exact absurd rfl hSome
  | cons x xs ih =>
      rw [List.forall_mem_cons] at hRead
      have hPositive := hRead.1.length_pos
      obtain ⟨n, rfl⟩ : ∃ n, bound = n + 1 :=
        ⟨bound - 1, by omega⟩
      cases xs with
      | nil =>
          simp only [List.map_cons, List.map_nil,
            List.intercalate_singleton] at hBound ⊢
          have hEnds :
              EndsJsonNumber (close ++ ']' :: rest) :=
            endsJsonNumber_of_close hClose (by decide)
          refine readJsonItems_last
            (hRead.1.read _ n hEnds (by omega)) ?_
          exact skipJsonBlanks_append hClose (by rintro d ⟨⟩; rfl)
      | cons y ys =>
          simp only [List.map_cons, List.intercalate_cons_cons,
            List.append_assoc, List.cons_append,
            List.length_append, List.length_cons]
            at hBound ih ⊢
          rcases exists_intercalate_cons (',' :: gap) y.1
              (ys.map Prod.fst) with
            ⟨others, hFirst⟩
          have hMore : readJsonItems n _ = _ :=
            ih (List.cons_ne_nil _ _) hRead.2 (by omega)
          refine readJsonItems_cons
            (hRead.1.read _ n (endsJsonNumber_comma _)
              (by omega)) rfl ?_
          rw [hFirst, List.append_assoc] at hMore ⊢
          rw [(hRead.2 y List.mem_cons_self).skip hGap]
          exact hMore

/- The text of a field, given that of its value. -/
def fieldText
    (key : String)
    (text : List Char) : List Char :=
  (jsonString key).toList ++ ':' :: ' ' :: text

/- The text of a field begins with a quote. -/
theorem fieldText_eq
    (key : String)
    (text : List Char) :
    fieldText key text =
      '"' :: (key.toList.flatMap jsonChar ++
        '"' :: ':' :: ' ' :: text) := by
  simp [fieldText, jsonString]

/- A field is the last one before a brace. -/
theorem readJsonFields_last
    {bound : Nat}
    {text after rest : List Char}
    {key : String}
    {v : Json}
    (hValue :
      readJsonValue bound (skipJsonBlanks text) = .ok (v, after))
    (hMark : skipJsonBlanks after = '\x7d' :: rest) :
    readJsonFields (bound + 1)
        ('"' :: (key.toList.flatMap jsonChar ++
          '"' :: ':' :: text)) =
      .ok ([(key, v)], rest) := by
  have hColon : skipJsonBlanks (':' :: text) = ':' :: text := rfl
  simp [readJsonFields, readJsonString_append, hColon, hValue,
    hMark]

/- A field is followed by others after a comma. -/
theorem readJsonFields_cons
    {bound : Nat}
    {text after more rest : List Char}
    {key : String}
    {v : Json}
    {fs : List (String × Json)}
    (hValue :
      readJsonValue bound (skipJsonBlanks text) = .ok (v, after))
    (hMark : skipJsonBlanks after = ',' :: more)
    (hMore :
      readJsonFields bound (skipJsonBlanks more) =
        .ok (fs, rest)) :
    readJsonFields (bound + 1)
        ('"' :: (key.toList.flatMap jsonChar ++
          '"' :: ':' :: text)) =
      .ok ((key, v) :: fs, rest) := by
  have hColon : skipJsonBlanks (':' :: text) = ':' :: text := rfl
  simp [readJsonFields, readJsonString_append, hColon, hValue,
    hMark, hMore]

/- Fields are read one after the other, up to the brace. -/
theorem readJsonFields_text
    {xs : List (String × List Char × Json)}
    (hSome : xs ≠ [])
    (hRead : ∀ x ∈ xs, Json.IsReadAs x.2.1 x.2.2)
    (hGap : ∀ c ∈ gap, isJsonBlank c = true)
    (hClose : ∀ c ∈ close, isJsonBlank c = true)
    {bound : Nat}
    (hBound :
      2 * ((',' :: gap).intercalate
        (xs.map fun x => fieldText x.1 x.2.1)).length < bound) :
    readJsonFields bound
        ((',' :: gap).intercalate
            (xs.map fun x => fieldText x.1 x.2.1) ++
          (close ++ '\x7d' :: rest)) =
      .ok (xs.map fun x => (x.1, x.2.2), rest) := by
  induction xs generalizing bound with
  | nil => exact absurd rfl hSome
  | cons x xs ih =>
      rw [List.forall_mem_cons] at hRead
      have hPositive := hRead.1.length_pos
      have hSkip (tail : List Char) :
          skipJsonBlanks (' ' :: (x.2.1 ++ tail)) =
            x.2.1 ++ tail :=
        hRead.1.skip (List.forall_mem_singleton.mpr rfl) tail
      obtain ⟨n, rfl⟩ : ∃ n, bound = n + 1 :=
        ⟨bound - 1, by omega⟩
      cases xs with
      | nil =>
          simp only [List.map_cons, List.map_nil,
            List.intercalate_singleton, fieldText_eq,
            List.length_cons, List.length_append] at hBound
          simp only [List.map_cons, List.map_nil,
            List.intercalate_singleton, fieldText_eq,
            List.cons_append, List.append_assoc]
          have hEnds :
              EndsJsonNumber (close ++ '\x7d' :: rest) :=
            endsJsonNumber_of_close hClose (by decide)
          refine readJsonFields_last ?_
            (skipJsonBlanks_append hClose (by rintro d ⟨⟩; rfl))
          rw [hSkip]
          exact hRead.1.read _ n hEnds (by omega)
      | cons y ys =>
          simp only [List.map_cons, List.intercalate_cons_cons,
            List.append_assoc, List.cons_append,
            List.length_append, List.length_cons]
            at hBound ih ⊢
          rcases exists_intercalate_cons (',' :: gap)
              (fieldText y.1 y.2.1)
              (ys.map fun x => fieldText x.1 x.2.1) with
            ⟨others, hFirst⟩
          have hMore : readJsonFields n _ = _ :=
            ih (List.cons_ne_nil _ _) hRead.2 (by omega)
          have hLength :
              x.2.1.length ≤ (fieldText x.1 x.2.1).length := by
            simp only [fieldText_eq, List.length_cons,
              List.length_append]
            omega
          have hValue (tail : List Char) :
              readJsonValue n
                  (skipJsonBlanks
                    (' ' :: (x.2.1 ++ ',' :: tail))) =
                .ok (x.2.2, ',' :: tail) := by
            rw [hSkip]
            exact hRead.1.read _ n (endsJsonNumber_comma _)
              (by omega)
          rw [fieldText_eq x.1]
          simp only [List.cons_append, List.append_assoc]
          refine readJsonFields_cons (hValue _) rfl ?_
          rw [hFirst, fieldText_eq, List.append_assoc]
            at hMore ⊢
          rw [skipJsonBlanks_append hGap (by rintro d ⟨⟩; rfl)]
          exact hMore

end BranchingStory

------------------------------------------------------------
-- All Values
------------------------------------------------------------

namespace BranchingStory

namespace Json

/- A new line consists of blanks. -/
theorem isJsonBlank_newLine
    (level : Nat) :
    ∀ c ∈ (newLine level).toList, isJsonBlank c = true := by
  rw [newLine, String.toList_ofList]
  intro c hMem
  rcases List.mem_cons.mp hMem with rfl | hMem
  · rfl
  · rw [List.eq_of_mem_replicate hMem]
    rfl

/- It is enough to read a text at bounds that are not zero. -/
theorem isReadAs_of_succ
    {text : List Char}
    {v : Json}
    (hHead : ∃ c cs, text = c :: cs ∧
      isJsonBlank c = false ∧ c ≠ ']' ∧ c ≠ '\uFEFF')
    (hRead : ∀ rest n, EndsJsonNumber rest →
      2 * text.length ≤ n + 1 →
        readJsonValue (n + 1) (text ++ rest) = .ok (v, rest)) :
    IsReadAs text v := by
  refine ⟨hHead, ?_⟩
  intro rest bound hEnds hBound
  rcases hHead with ⟨c, cs, rfl, _⟩
  cases bound with
  | zero => simp at hBound
  | succ n => exact hRead rest n hEnds hBound

/- A word is read as the value that it is for. -/
theorem isReadAs_word
    {w : List Char × Json}
    (hWord : w ∈ jsonWords) :
    IsReadAs w.1 w.2 := by
  simp only [jsonWords, List.mem_cons, List.not_mem_nil,
    or_false] at hWord
  rcases hWord with rfl | rfl | rfl | rfl | rfl | rfl
  all_goals
    exact isReadAs_of_succ ⟨_, _, rfl, rfl, by decide⟩
      fun rest n _ _ => rfl

/- A string is read from its text. -/
theorem isReadAs_string
    (s : String) :
    IsReadAs (jsonString s).toList (.string s) := by
  have hText :
      (jsonString s).toList =
        '"' :: (s.toList.flatMap jsonChar ++ ['"']) := by
    rw [jsonString, String.toList_ofList, List.cons_append]
  rw [hText]
  refine isReadAs_of_succ ⟨_, _, rfl, rfl, by decide⟩ ?_
  intro rest n _ _
  simp only [List.cons_append, List.append_assoc,
    List.nil_append, readJsonValue, readJsonString_append]

/-
  A text that begins with a digit, perhaps after a sign, is
  read as a value if it is read as a number.
-/
theorem isReadAs_number
    {negative : Bool}
    {d : Char}
    {ds : List Char}
    {v : Json}
    (hDigit : d.isDigit = true)
    (hRead : ∀ rest, EndsJsonNumber rest →
      readJsonNumber?
          (Numeral.signText negative ++ d :: ds ++ rest) =
        some (.ok (v, rest))) :
    IsReadAs (Numeral.signText negative ++ d :: ds) v := by
  have hOther (c : Char) (hNone : c.isDigit = false) :
      d ≠ c := by
    rintro rfl
    rw [hDigit] at hNone
    cases hNone
  have hBlank : isJsonBlank d = false := by
    simp [isJsonBlank, hOther ' ' rfl, hOther '\t' rfl,
      hOther '\n' rfl, hOther '\r' rfl]
  refine isReadAs_of_succ ?_ ?_
  · cases negative with
    | true => exact ⟨_, _, rfl, rfl, by decide⟩
    | false =>
        exact ⟨_, _, rfl, hBlank, hOther ']' rfl,
          hOther '\uFEFF' rfl⟩
  intro rest n hEnds _
  have hNumber := hRead rest hEnds
  have hWord :
      readJsonWord?
          (Numeral.signText negative ++ d :: ds ++ rest) =
        none := by
    cases negative with
    | true =>
        simp [readJsonWord?, jsonWords, Numeral.signText,
          (hOther 'I' rfl).symm]
    | false =>
        simp [readJsonWord?, jsonWords, Numeral.signText,
          (hOther 'I' rfl).symm, (hOther 'n' rfl).symm,
          (hOther 't' rfl).symm, (hOther 'f' rfl).symm,
          (hOther 'N' rfl).symm, (hOther '-' rfl).symm]
  have hFirst (c : Char) (cs : List Char)
      (hNone : c.isDigit = false) (hSign : c ≠ '-') :
      Numeral.signText negative ++ d :: ds ++ rest ≠
        c :: cs := by
    intro hCons
    cases negative with
    | true => exact hSign (List.cons.inj hCons).1.symm
    | false =>
        exact hOther c hNone (List.cons.inj hCons).1
  unfold readJsonValue
  split
  · next hCons =>
      exact absurd hCons (hFirst _ _ rfl (by decide))
  · next hCons =>
      exact absurd hCons (hFirst _ _ rfl (by decide))
  · next hCons =>
      exact absurd hCons (hFirst _ _ rfl (by decide))
  · rw [hWord, hNumber]

/- A number is read from its numeral. -/
theorem isReadAs_numeral
    {negative : Bool}
    {n : Numeral}
    {v : Json}
    (hPlain : n.IsPlain)
    (hRead : ∀ rest, EndsJsonNumber rest →
      readJsonNumber?
          (Numeral.signText negative ++ n.text ++ rest) =
        some (.ok (v, rest))) :
    IsReadAs (Numeral.signText negative ++ n.text) v := by
  rcases Numeral.exists_text_eq hPlain with
    ⟨d, ds, hText, hDigit⟩
  rw [hText] at hRead ⊢
  exact isReadAs_number hDigit hRead

/- An integer that is not too long is read from its text. -/
theorem isReadAs_int
    {n : Int}
    (hShort : isShortInt n = true) :
    IsReadAs (toString n).toList (.int n) := by
  have hRead (rest : List Char)
      (hEnds : EndsJsonNumber rest) :=
    readJsonNumber?_int hShort hEnds
  rw [toString_intNumeral] at hRead ⊢
  exact isReadAs_numeral (isPlain_intNumeral n) hRead

/- A double is read from its text, or from its name. -/
theorem isReadAs_float
    (x : Float) :
    IsReadAs (jsonFloat x).toList (.float x) := by
  cases hFinite : finite? x with
  | some f =>
      have hText : jsonFloat x = doubleText x := by
        rw [jsonFloat, hFinite]
      have hRead (rest : List Char)
          (hEnds : EndsJsonNumber rest) :=
        readJsonNumber?_float hFinite hEnds
      rw [hText]
      rw [doubleText_of_finite? hFinite] at hRead ⊢
      exact isReadAs_numeral
        (isFloat_of_finite? hFinite).toIsPlain hRead
  | none =>
      -- The names are compared bit by bit.
      have hName :
          ((jsonFloat x).toList, Json.float x) ∈ jsonWords := by
        rcases eq_of_finite?_none hFinite with
          rfl | ⟨negative, rfl⟩
        · have hText : jsonFloat notANumber = "NaN" := by
            decide +kernel
          simp [jsonWords, hText]
        · cases negative with
          | false =>
              have hText :
                  jsonFloat (infinity false) = "Infinity" := by
                decide +kernel
              simp [jsonWords, hText]
          | true =>
              have hText :
                  jsonFloat (infinity true) = "-Infinity" := by
                decide +kernel
              simp [jsonWords, hText]
      exact isReadAs_word hName

variable {gap close : List Char}

/- Items are read as an array from within brackets. -/
theorem isReadAs_items
    {xs : List (List Char × Json)}
    (hSome : xs ≠ [])
    (hRead : ∀ x ∈ xs, IsReadAs x.1 x.2)
    (hGap : ∀ c ∈ gap, isJsonBlank c = true)
    (hClose : ∀ c ∈ close, isJsonBlank c = true) :
    IsReadAs
      ('[' :: (gap ++
        ((',' :: gap).intercalate (xs.map Prod.fst) ++
          (close ++ [']']))))
      (.array (xs.map Prod.snd)) := by
  refine isReadAs_of_succ ⟨_, _, rfl, rfl, by decide⟩ ?_
  intro rest n _ hBound
  simp only [List.length_cons, List.length_append] at hBound
  have hItems : readJsonItems n _ = .ok (_, rest) :=
    readJsonItems_text hSome hRead hGap hClose (by omega)
  rcases List.exists_cons_of_ne_nil hSome with ⟨x, ys, rfl⟩
  have hFirst := hRead x List.mem_cons_self
  rcases exists_intercalate_cons (',' :: gap) x.1
      (ys.map Prod.fst) with
    ⟨others, hBody⟩
  rw [List.map_cons, hBody] at hItems ⊢
  simp only [List.cons_append, List.append_assoc,
    List.nil_append] at hItems ⊢
  rw [readJsonValue, hFirst.skip hGap]
  split
  · next hCons =>
      rcases hFirst.head with ⟨c, cs, hText, _, hOther, _⟩
      rw [hText] at hCons
      exact absurd (List.cons.inj hCons).1 hOther
  · rw [hItems]

/- Fields are read as an object from within braces. -/
theorem isReadAs_fields
    {xs : List (String × List Char × Json)}
    (hSome : xs ≠ [])
    (hRead : ∀ x ∈ xs, IsReadAs x.2.1 x.2.2)
    (hGap : ∀ c ∈ gap, isJsonBlank c = true)
    (hClose : ∀ c ∈ close, isJsonBlank c = true) :
    IsReadAs
      ('\x7b' :: (gap ++
        ((',' :: gap).intercalate
            (xs.map fun x => fieldText x.1 x.2.1) ++
          (close ++ ['\x7d']))))
      (ofFields (xs.map fun x => (x.1, x.2.2))) := by
  refine isReadAs_of_succ ⟨_, _, rfl, rfl, by decide⟩ ?_
  intro rest n _ hBound
  simp only [List.length_cons, List.length_append] at hBound
  have hFields : readJsonFields n _ = .ok (_, rest) :=
    readJsonFields_text hSome hRead hGap hClose (by omega)
  rcases List.exists_cons_of_ne_nil hSome with ⟨x, ys, rfl⟩
  rcases exists_intercalate_cons (',' :: gap)
      (fieldText x.1 x.2.1)
      (ys.map fun x => fieldText x.1 x.2.1) with
    ⟨others, hBody⟩
  rw [List.map_cons, hBody, fieldText_eq] at hFields ⊢
  simp only [List.cons_append, List.append_assoc,
    List.nil_append] at hFields ⊢
  rw [readJsonValue,
    skipJsonBlanks_append hGap (by rintro d ⟨⟩; rfl)]
  split
  · next hCons =>
      exact absurd (List.cons.inj hCons).1 (by decide)
  · rw [hFields]

/- An array is read from its text if its items are. -/
theorem isReadAs_array
    {level : Nat}
    {vs : List Json}
    (hItems : ∀ v ∈ vs,
      IsReadAs (writeAt (level + 1) v).toList v.sorted) :
    IsReadAs (writeAt level (.array vs)).toList
      (sorted (.array vs)) := by
  rw [sorted, sortedItems_eq]
  cases vs with
  | nil =>
      rw [writeAt]
      exact isReadAs_of_succ ⟨'[', [']'], rfl, rfl, by decide⟩
        fun rest n _ _ => rfl
  | cons v vs =>
      rw [writeAt, writeItems_eq]
      let xs :=
        (v :: vs).map fun v =>
          ((writeAt (level + 1) v).toList, v.sorted)
      have hAll : ∀ x ∈ xs, IsReadAs x.1 x.2 :=
        List.forall_mem_map.mpr hItems
      have hRead :=
        isReadAs_items (List.cons_ne_nil _ _) hAll
          (isJsonBlank_newLine (level + 1))
          (isJsonBlank_newLine level)
      simpa [xs, Function.comp_def] using hRead

/- What is done to the values of fields keeps their order. -/
theorem map_mergeSort_fields
    {α β : Type}
    (f : α → β)
    (xs : List (String × α)) :
    (xs.map fun x => (x.1, f x.2)).mergeSort
        (fun x y => x.1 ≤ y.1) =
      (xs.mergeSort fun x y => x.1 ≤ y.1).map
        fun x => (x.1, f x.2) := by
  symm
  apply List.map_mergeSort
  intro x _ y _
  rfl

/- An object is read from its text if its values are. -/
theorem isReadAs_object
    {level : Nat}
    {fs : List (String × Json)}
    (hFields : ∀ f ∈ fs,
      IsReadAs (writeAt (level + 1) f.2).toList f.2.sorted) :
    IsReadAs (writeAt level (.object fs)).toList
      (sorted (.object fs)) := by
  rw [sorted, sortedFields_eq, orderFields,
    map_mergeSort_fields]
  cases fs with
  | nil =>
      rw [writeAt, List.mergeSort_nil]
      exact isReadAs_of_succ
        ⟨'\x7b', ['\x7d'], rfl, rfl, by decide⟩
        fun rest n _ _ => rfl
  | cons f fs =>
      rw [writeAt, writeFields_eq, sortFields,
        map_mergeSort_fields]
      generalize hOrder :
        ((f :: fs).mergeSort fun x y => x.1 ≤ y.1) = ordered
      have hPerm : ordered.Perm (f :: fs) := by
        rw [← hOrder]
        exact List.mergeSort_perm _ _
      let xs :=
        ordered.map fun f =>
          (f.1, (writeAt (level + 1) f.2).toList, f.2.sorted)
      have hSome : xs ≠ [] := by
        intro hNone
        have hEmpty := List.map_eq_nil_iff.mp hNone
        rw [hEmpty] at hPerm
        exact List.cons_ne_nil _ _ hPerm.nil_eq.symm
      have hAll : ∀ x ∈ xs, IsReadAs x.2.1 x.2.2 :=
        List.forall_mem_map.mpr
          fun f hMem => hFields f (hPerm.subset hMem)
      have hRead :=
        isReadAs_fields hSome hAll
          (isJsonBlank_newLine (level + 1))
          (isJsonBlank_newLine level)
      simpa [xs, Function.comp_def, fieldText] using hRead

/- Every value that can be written is read from its text. -/
theorem isReadAs_writeAt
    {v : Json}
    (hShort : v.isWritable = true)
    (level : Nat) :
    IsReadAs (writeAt level v).toList v.sorted := by
  induction v using induct generalizing level with
  | hNull =>
      exact isReadAs_word (w := ("null".toList, .null))
        List.mem_cons_self
  | hBool b =>
      cases b with
      | true =>
          exact isReadAs_word (w := ("true".toList, .bool true))
            (by simp [jsonWords])
      | false =>
          exact isReadAs_word
            (w := ("false".toList, .bool false))
            (by simp [jsonWords])
  | hInt n =>
      rw [writeAt]
      exact isReadAs_int hShort
  | hFloat x =>
      rw [writeAt]
      exact isReadAs_float x
  | hString s =>
      rw [writeAt]
      exact isReadAs_string s
  | hArray vs ih =>
      rw [isWritable_array_iff] at hShort
      exact isReadAs_array fun v hMem =>
        ih v hMem (hShort v hMem) (level + 1)
  | hObject fs ih =>
      rw [isWritable_object_iff] at hShort
      exact isReadAs_object fun f hMem =>
        ih f hMem (hShort f hMem) (level + 1)

/-
  A value that can be written is read back from its text, with
  the fields of all objects in the order of their keys.
-/
theorem read_write
    {v : Json}
    (hShort : v.isWritable = true) :
    Json.read v.write = .ok v.sorted := by
  have hRead := isReadAs_writeAt hShort 0
  have hSkip :
      skipJsonBlanks (writeAt 0 v).toList =
        (writeAt 0 v).toList := by
    rw [← List.append_nil (writeAt 0 v).toList]
    exact hRead.skip (List.forall_mem_nil _) []
  have hValue :=
    hRead.read [] (2 * (writeAt 0 v).toList.length + 1)
      nofun (by omega)
  rw [List.append_nil] at hValue
  have hSteps :
      readSteps (writeAt 0 v).toList = .ok v.sorted := by
    rcases hRead.head with ⟨c, cs, hText, _, _, hMark⟩
    unfold readSteps
    split
    · next hCons =>
        rw [hText] at hCons
        exact absurd (List.cons.inj hCons).1 hMark
    · rw [hSkip, hValue]
      rfl
  rw [Json.read, write, hSteps]

end Json

end BranchingStory

------------------------------------------------------------
-- Characters Of Texts
------------------------------------------------------------

namespace BranchingStory

/- Whether a character is printable ASCII, or ends a line. -/
def isJsonTextChar
    (c : Char) : Bool :=
  c == '\n' || (32 ≤ c.toNat && c.toNat < 127)

/- A printable character is one of texts. -/
theorem isJsonTextChar_of_range
    {c : Char}
    (hLow : 32 ≤ c.toNat)
    (hHigh : c.toNat < 127) :
    isJsonTextChar c = true := by
  simp [isJsonTextChar, hLow, hHigh]

/- A digit is printable. -/
theorem isJsonTextChar_of_isDigit
    {c : Char}
    (hDigit : c.isDigit = true) :
    isJsonTextChar c = true := by
  rw [Char.isDigit, Bool.and_eq_true, decide_eq_true_eq,
    decide_eq_true_eq] at hDigit
  have hLow : 48 ≤ c.toNat := hDigit.1
  have hHigh : c.toNat ≤ 57 := hDigit.2
  exact isJsonTextChar_of_range (by omega) (by omega)

/- The escape of a unit is printable. -/
theorem all_unitEscape
    {u : Nat}
    (hUnit : u < 0x10000) :
    (unitEscape u).all isJsonTextChar = true := by
  have hDigit :
      ∀ d < 16, isJsonTextChar (Nat.digitChar d) = true := by
    decide
  rw [unitEscape, hexDigits_of_lt hUnit]
  simp only [List.all_cons, List.all_nil, Bool.and_true,
    hDigit (u / 4096) (by omega),
    hDigit (u / 256 % 16) (by omega),
    hDigit (u / 16 % 16) (by omega),
    hDigit (u % 16) (by omega)]
  rfl

/- A character is written in printable ones. -/
theorem all_jsonChar
    (c : Char) :
    (jsonChar c).all isJsonTextChar = true := by
  have hRange := toNat_range c
  rw [jsonChar]
  split
  · next hQuote =>
      rcases hQuote with rfl | rfl
      · rfl
      · rfl
  · split
    · next hPlain =>
        simp [isJsonTextChar_of_range hPlain.1 hPlain.2]
    · repeat' split
      · rfl
      · rfl
      · rfl
      · rfl
      · rfl
      · next hUnit => exact all_unitEscape hUnit
      · rw [List.all_append, all_unitEscape (by omega),
          all_unitEscape (by omega)]
        rfl

/- A numeral is written in printable characters. -/
theorem all_numeral
    {n : Numeral}
    (hPlain : n.IsPlain)
    (negative : Bool) :
    (Numeral.signText negative ++ n.text).all isJsonTextChar =
      true := by
  have hMarks :
      ['.', 'e', '-', '+'].all isJsonTextChar = true := rfl
  rw [List.all_append, Bool.and_eq_true]
  refine ⟨?_, ?_⟩
  · cases negative with
    | true => rfl
    | false => rfl
  · refine List.all_eq_true.mpr ?_
    intro c hMem
    rcases Numeral.mem_text hPlain hMem with hDigit | hMark
    · exact isJsonTextChar_of_isDigit hDigit
    · exact List.all_eq_true.mp hMarks c hMark

namespace Json

/- Texts that are put together have the characters of each. -/
theorem all_intercalate
    {P : Char → Bool}
    {gap : List Char}
    {xs : List (List Char)}
    (hGap : gap.all P = true)
    (hAll : ∀ x ∈ xs, x.all P = true) :
    (gap.intercalate xs).all P = true := by
  induction xs with
  | nil => rfl
  | cons x xs ih =>
      rw [List.forall_mem_cons] at hAll
      cases xs with
      | nil =>
          rw [List.intercalate_singleton]
          exact hAll.1
      | cons y ys =>
          rw [List.intercalate_cons_cons, List.all_append,
            List.all_append, hAll.1, hGap, ih hAll.2]
          rfl

/- A new line is made of characters of texts. -/
theorem all_newLine
    (level : Nat) :
    (newLine level).toList.all isJsonTextChar = true := by
  rw [newLine, String.toList_ofList, List.all_cons,
    List.all_replicate]
  simp [isJsonTextChar]

/- A string is written in such characters. -/
theorem all_jsonString
    (s : String) :
    (jsonString s).toList.all isJsonTextChar = true := by
  rw [jsonString, String.toList_ofList, List.cons_append,
    List.all_cons, List.all_append, List.all_flatMap]
  simp only [all_jsonChar]
  simp [isJsonTextChar]

/- A float is written in such characters. -/
theorem all_jsonFloat
    (x : Float) :
    (jsonFloat x).toList.all isJsonTextChar = true := by
  rw [jsonFloat]
  split
  · next f hFinite =>
      rw [doubleText_of_finite? hFinite]
      exact all_numeral (isFloat_of_finite? hFinite).toIsPlain
        f.negative
  · split
    · rfl
    · split
      · rfl
      · rfl

/-
  A value is written in printable ASCII and line feeds,
  whatever its strings contain.
-/
theorem all_writeAt
    (v : Json)
    (level : Nat) :
    (writeAt level v).toList.all isJsonTextChar = true := by
  induction v using induct generalizing level with
  | hNull =>
      rw [writeAt]
      rfl
  | hBool b =>
      rw [writeAt]
      cases b with
      | true => rfl
      | false => rfl
  | hInt n =>
      rw [writeAt, toString_intNumeral]
      exact all_numeral (isPlain_intNumeral n) _
  | hFloat x =>
      rw [writeAt]
      exact all_jsonFloat x
  | hString s =>
      rw [writeAt]
      exact all_jsonString s
  | hArray vs ih =>
      cases vs with
      | nil =>
          rw [writeAt]
          rfl
      | cons v vs =>
          rw [writeAt, writeItems_eq]
          simp only [String.toList_append, List.all_append,
            all_newLine, String.toList_intercalate]
          rw [all_intercalate]
          · rfl
          · simp [all_newLine]
            rfl
          · simp only [List.forall_mem_map]
            exact fun v hMem => ih v hMem (level + 1)
  | hObject fs ih =>
      cases fs with
      | nil =>
          rw [writeAt]
          rfl
      | cons f fs =>
          rw [writeAt, writeFields_eq]
          simp only [String.toList_append, List.all_append,
            all_newLine, String.toList_intercalate]
          rw [all_intercalate]
          · rfl
          · simp [all_newLine]
            rfl
          · simp only [sortFields, List.forall_mem_map,
              String.toList_append, List.all_append,
              all_jsonString]
            intro field hMem
            rcases List.mem_map.mp
                ((List.mergeSort_perm _ _).subset hMem) with
              ⟨f, hField, rfl⟩
            rw [ih f hField (level + 1)]
            rfl

end Json

end BranchingStory

namespace BranchingStory

/- A text without carriage returns has its lines unified. -/
theorem unifyLineEnds_of_notMem
    {cs : List Char}
    (hNone : '\r' ∉ cs) :
    unifyLineEnds cs = cs := by
  induction cs with
  | nil => rfl
  | cons c cs ih =>
      rw [List.mem_cons, not_or] at hNone
      unfold unifyLineEnds
      split
      · next hCons => cases hCons
      · next hCons =>
          exact absurd (List.cons.inj hCons).1.symm hNone.1
      · next hCons =>
          cases hCons
          rw [if_neg (Ne.symm hNone.1), ih hNone.2]

/- The text of a value is read from a file as it was written. -/
theorem Json.unifyLineEnds_write
    (v : Json) :
    String.ofList (unifyLineEnds v.write.toList) = v.write := by
  rw [unifyLineEnds_of_notMem, String.ofList_toList]
  intro hMem
  have hReturn :=
    List.all_eq_true.mp (all_writeAt v 0) '\r' hMem
  cases hReturn

end BranchingStory
