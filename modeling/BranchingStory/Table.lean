/-
  This file defines tables: finite maps that keep their
  entries in the order in which the keys first came in.

  Key definitions include:
    * `Table`
    * `Table.empty`
    * `Table.lookup`
    * `Table.contains`
    * `Table.insert`
    * `Table.keys`
    * `Table.values`
    * `Table.mapValues`

  Key theorems include:
    * `Table.lookup_insert`
    * `Table.keys_insert`
    * `Table.lookup_mapValues`
    * `Table.contains_eq_true`
-/

------------------------------------------------------------
-- Tables
------------------------------------------------------------

namespace BranchingStory

/-
  A finite map, kept as a list of entries.  The first entry of
  a key is the one that counts.
-/
structure Table (K V : Type) where
  entries : List (K × V)
deriving Repr, DecidableEq

namespace Table

variable {K V W : Type}

/- The table without entries. -/
def empty : Table K V :=
  ⟨[]⟩

instance : Inhabited (Table K V) :=
  ⟨empty⟩

/- The keys, in the order in which they came in. -/
def keys
    (t : Table K V) : List K :=
  t.entries.map Prod.fst

/- The values, in the order of their keys. -/
def values
    (t : Table K V) : List V :=
  t.entries.map Prod.snd

/- Change every value, keeping the keys. -/
def mapValues
    (f : V → W)
    (t : Table K V) : Table K W :=
  ⟨t.entries.map fun e => (e.1, f e.2)⟩

variable [DecidableEq K]

/- The value of a key, if the table has one. -/
def lookup
    (t : Table K V)
    (k : K) : Option V :=
  (t.entries.find? fun e => e.1 = k).map Prod.snd

/- Whether a key has a value. -/
def contains
    (t : Table K V)
    (k : K) : Bool :=
  (t.lookup k).isSome

/- Set the value of a key in a list of entries. -/
def insertEntry
    (k : K)
    (v : V) : List (K × V) → List (K × V)
  | [] => [(k, v)]
  | e :: rest =>
      if e.1 = k then (k, v) :: rest
      else e :: insertEntry k v rest

/-
  Set the value of a key.  A key that is new comes last; one
  that is known keeps its place.
-/
def insert
    (t : Table K V)
    (k : K)
    (v : V) : Table K V :=
  ⟨insertEntry k v t.entries⟩

/- The table of a list of entries, later ones winning. -/
def ofList
    (es : List (K × V)) : Table K V :=
  es.foldl (fun t e => t.insert e.1 e.2) empty

end Table

end BranchingStory

------------------------------------------------------------
-- Lookup After Insertion
------------------------------------------------------------

namespace BranchingStory

namespace Table

variable {K V : Type} [DecidableEq K]

/- Looking up a key sees the value set last. -/
theorem lookup_insert
    (t : Table K V)
    (k k' : K)
    (v : V) :
    (t.insert k v).lookup k' =
      if k = k' then some v else t.lookup k' := by
  obtain ⟨es⟩ := t
  induction es with
  | nil =>
      by_cases h : k = k' <;>
        simp [insert, insertEntry, lookup, h]
  | cons e rest ih =>
      by_cases he : e.1 = k
      · by_cases h : k = k'
        · simp [insert, insertEntry, lookup, he, h]
        · simp [insert, insertEntry, lookup, he, h]
      · by_cases he' : e.1 = k'
        · subst he'
          have hk : k ≠ e.1 := fun h => he h.symm
          simp [insert, insertEntry, lookup, he, hk]
        · simp only [insert, lookup] at ih
          simp [insert, insertEntry, lookup, he, he', ih]

end Table

end BranchingStory

------------------------------------------------------------
-- Keys
------------------------------------------------------------

namespace BranchingStory

namespace Table

variable {K V W : Type} [DecidableEq K]

/- A key has a value if and only if it is among the keys. -/
theorem contains_eq_true
    (t : Table K V)
    (k : K) :
    t.contains k = true ↔ k ∈ t.keys := by
  obtain ⟨es⟩ := t
  simp [contains, lookup, keys]

/- A known key keeps its place, and a new key comes last. -/
theorem keys_insert
    (t : Table K V)
    (k : K)
    (v : V) :
    (t.insert k v).keys =
      if k ∈ t.keys then t.keys else t.keys ++ [k] := by
  obtain ⟨es⟩ := t
  induction es with
  | nil => simp [insert, insertEntry, keys]
  | cons e rest ih =>
      by_cases he : e.1 = k
      · simp [insert, insertEntry, keys, he]
      · have hk : k ≠ e.1 := fun h => he h.symm
        simp only [insert, keys] at ih
        by_cases hr : k ∈ rest.map Prod.fst
        · simp only [hr, if_true] at ih
          simp only [insert, insertEntry, keys, he, if_false,
            List.map_cons, List.mem_cons, hr, or_true,
            if_true, ih]
        · simp only [hr, if_false] at ih
          simp only [insert, insertEntry, keys, he, if_false,
            List.map_cons, List.mem_cons, hk, hr, or_false,
            ih, List.cons_append]

/- Changing every value changes the value of each key. -/
theorem lookup_mapValues
    (f : V → W)
    (t : Table K V)
    (k : K) :
    (t.mapValues f).lookup k = (t.lookup k).map f := by
  simp only [mapValues, lookup, List.find?_map, Option.map_map]
  rfl

end Table

end BranchingStory
