import BranchingStory.Table
import Mathlib.Data.List.Nodup

/-
  This file collects the laws of tables: what their entries,
  keys and values are after an insertion, and when a list of
  entries is the table that is made from it.

  Key theorems include:
    * `Table.lookup_of_mem`
    * `Table.mem_entries_insert`
    * `Table.nodup_keys_insert`
    * `Table.ofList_of_nodup`
-/

------------------------------------------------------------
-- Entries
------------------------------------------------------------

namespace BranchingStory

namespace Table

variable {K V W : Type}

@[simp] theorem keys_mapValues
    (f : V → W)
    (t : Table K V) :
    (t.mapValues f).keys = t.keys := by
  simp [mapValues, keys]

@[simp] theorem values_mapValues
    (f : V → W)
    (t : Table K V) :
    (t.mapValues f).values = t.values.map f := by
  simp [mapValues, values]

/- Values may be changed in the other order. -/
theorem mapValues_comm
    {g h h' : V → V}
    (hSame : ∀ v, h (g v) = g (h' v))
    (t : Table K V) :
    (t.mapValues g).mapValues h =
      (t.mapValues h').mapValues g := by
  simp only [mapValues, List.map_map, Function.comp_def,
    hSame]

@[simp] theorem keys_empty :
    (empty : Table K V).keys = [] := rfl

@[simp] theorem values_empty :
    (empty : Table K V).values = [] := rfl

/- A table is known by its entries. -/
theorem eq_of_entries
    {t u : Table K V}
    (hEntries : t.entries = u.entries) :
    t = u := by
  cases t
  cases u
  cases hEntries
  rfl

/- A key has an entry of its own. -/
theorem mem_keys_iff
    (t : Table K V)
    (k : K) :
    k ∈ t.keys ↔ ∃ v, (k, v) ∈ t.entries := by
  simp [keys]

/- A value has an entry of its own. -/
theorem mem_values_iff
    (t : Table K V)
    (v : V) :
    v ∈ t.values ↔ ∃ k, (k, v) ∈ t.entries := by
  simp [values]

variable [DecidableEq K]

/- The value of a key stands in an entry. -/
theorem mem_entries_of_lookup
    {t : Table K V}
    {k : K}
    {v : V}
    (hLookup : t.lookup k = some v) :
    (k, v) ∈ t.entries := by
  rw [lookup, Option.map_eq_some_iff] at hLookup
  rcases hLookup with ⟨e, hFound, hValue⟩
  have hKey : e.1 = k := by
    simpa using List.find?_some hFound
  have hMem := List.mem_of_find?_eq_some hFound
  rw [← hKey, ← hValue]
  exact hMem

/- Where no key stands twice, an entry tells a value. -/
theorem lookup_of_mem
    {t : Table K V}
    (hNodup : t.keys.Nodup)
    {k : K}
    {v : V}
    (hMem : (k, v) ∈ t.entries) :
    t.lookup k = some v := by
  have hKey : t.contains k = true :=
    (contains_eq_true t k).mpr
      ((mem_keys_iff t k).mpr ⟨v, hMem⟩)
  rcases Option.isSome_iff_exists.mp hKey with ⟨w, hLookup⟩
  have hSame :
      (k, w) = (k, v) :=
    List.inj_on_of_nodup_map hNodup
      (mem_entries_of_lookup hLookup) hMem rfl
  rw [hLookup, (Prod.mk.inj hSame).2]

/- A value that is looked up is one of the values. -/
theorem mem_values_of_lookup
    {t : Table K V}
    {k : K}
    {v : V}
    (hLookup : t.lookup k = some v) :
    v ∈ t.values :=
  (mem_values_iff t v).mpr ⟨k, mem_entries_of_lookup hLookup⟩

/- A key that is looked up is one of the keys. -/
theorem mem_keys_of_lookup
    {t : Table K V}
    {k : K}
    {v : V}
    (hLookup : t.lookup k = some v) :
    k ∈ t.keys :=
  (mem_keys_iff t k).mpr ⟨v, mem_entries_of_lookup hLookup⟩

/- A key without a value is none of the keys. -/
theorem lookup_eq_none_iff
    (t : Table K V)
    (k : K) :
    t.lookup k = none ↔ k ∉ t.keys := by
  rw [← contains_eq_true, contains]
  simp

/- A table is looked up alike in whatever order it is. -/
theorem lookup_of_perm
    {t t' : Table K V}
    (hNodup : t.keys.Nodup)
    (hPerm : t'.entries.Perm t.entries)
    (k : K) :
    t'.lookup k = t.lookup k := by
  have hKeys : t'.keys.Perm t.keys := hPerm.map Prod.fst
  cases hLookup : t'.lookup k with
  | none =>
      rw [lookup_eq_none_iff, hKeys.mem_iff] at hLookup
      exact ((lookup_eq_none_iff t k).mpr hLookup).symm
  | some v =>
      have hMem := mem_entries_of_lookup hLookup
      exact (lookup_of_mem hNodup (hPerm.subset hMem)).symm

@[simp] theorem contains_mapValues
    (f : V → W)
    (t : Table K V)
    (k : K) :
    (t.mapValues f).contains k = t.contains k := by
  rw [contains, lookup_mapValues, Option.isSome_map, contains]

end Table

end BranchingStory

------------------------------------------------------------
-- Insertion
------------------------------------------------------------

namespace BranchingStory

namespace Table

variable {K V : Type} [DecidableEq K]

/- An insertion makes one entry and keeps others. -/
theorem mem_entries_insert
    {t : Table K V}
    {k : K}
    {v : V}
    {e : K × V}
    (hMem : e ∈ (t.insert k v).entries) :
    e = (k, v) ∨ e ∈ t.entries := by
  rcases t with ⟨es⟩
  change e ∈ insertEntry k v es at hMem
  induction es with
  | nil =>
      rw [insertEntry, List.mem_singleton] at hMem
      exact Or.inl hMem
  | cons e' rest ih =>
      rw [insertEntry] at hMem
      split at hMem
      · rcases List.mem_cons.mp hMem with hSame | hRest
        · exact Or.inl hSame
        · exact Or.inr (List.mem_cons_of_mem _ hRest)
      · rcases List.mem_cons.mp hMem with hSame | hRest
        · exact Or.inr (hSame ▸ List.mem_cons_self)
        · rcases ih hRest with hNew | hOld
          · exact Or.inl hNew
          · exact Or.inr (List.mem_cons_of_mem _ hOld)

/- A new key comes last. -/
theorem entries_insert_of_notMem
    {t : Table K V}
    {k : K}
    (hNew : k ∉ t.keys)
    (v : V) :
    (t.insert k v).entries = t.entries ++ [(k, v)] := by
  rcases t with ⟨es⟩
  change insertEntry k v es = es ++ [(k, v)]
  induction es with
  | nil => rfl
  | cons e rest ih =>
      rw [keys, List.map_cons, List.mem_cons, not_or] at hNew
      have hOther : e.1 ≠ k := fun hSame => hNew.1 hSame.symm
      rw [insertEntry, if_neg hOther, ih hNew.2,
        List.cons_append]

/- A known key leaves the keys as they are. -/
theorem keys_insert_of_mem
    {t : Table K V}
    {k : K}
    (hKnown : k ∈ t.keys)
    (v : V) :
    (t.insert k v).keys = t.keys := by
  rw [keys_insert, if_pos hKnown]

/- Values are changed after an insertion as well as before. -/
theorem mapValues_insert
    {W : Type}
    (f : V → W)
    (t : Table K V)
    (k : K)
    (v : V) :
    (t.insert k v).mapValues f =
      (t.mapValues f).insert k (f v) := by
  rcases t with ⟨es⟩
  apply eq_of_entries
  change (insertEntry k v es).map (fun e => (e.1, f e.2)) =
    insertEntry k (f v) (es.map fun e => (e.1, f e.2))
  induction es with
  | nil => rfl
  | cons e rest ih =>
      rw [insertEntry, List.map_cons, insertEntry]
      split
      · rfl
      · rw [List.map_cons, ih]

/- An insertion brings in no other key. -/
theorem mem_keys_insert
    {t : Table K V}
    {k k' : K}
    {v : V}
    (hMem : k' ∈ (t.insert k v).keys) :
    k' = k ∨ k' ∈ t.keys := by
  rw [keys_insert] at hMem
  split at hMem
  · exact Or.inr hMem
  · rcases List.mem_append.mp hMem with hOld | hNew
    · exact Or.inr hOld
    · exact Or.inl (List.mem_singleton.mp hNew)

/- No key stands twice after an insertion. -/
theorem nodup_keys_insert
    {t : Table K V}
    (hNodup : t.keys.Nodup)
    (k : K)
    (v : V) :
    (t.insert k v).keys.Nodup := by
  rw [keys_insert]
  split
  · exact hNodup
  · next hNew =>
      refine List.nodup_append.mpr ⟨hNodup, by simp, ?_⟩
      intro k' hOld k'' hLast hSame
      rw [List.mem_singleton] at hLast
      subst hLast hSame
      exact hNew hOld

/- What holds of all entries holds after an insertion. -/
theorem forall_entries_insert
    {t : Table K V}
    {Q : K × V → Prop}
    (hAll : ∀ e ∈ t.entries, Q e)
    {k : K}
    {v : V}
    (hNew : Q (k, v)) :
    ∀ e ∈ (t.insert k v).entries, Q e := by
  intro e hMem
  rcases mem_entries_insert hMem with rfl | hOld
  · exact hNew
  · exact hAll e hOld

end Table

end BranchingStory

------------------------------------------------------------
-- Tables Of Lists
------------------------------------------------------------

namespace BranchingStory

namespace Table

variable {K V : Type} [DecidableEq K]

/- Entries with new keys are put at the end, in their order. -/
theorem foldl_insert_of_nodup
    (es : List (K × V))
    (t : Table K V)
    (hNodup : (t.keys ++ es.map Prod.fst).Nodup) :
    es.foldl (fun t e => t.insert e.1 e.2) t =
      ⟨t.entries ++ es⟩ := by
  induction es generalizing t with
  | nil => simp
  | cons e rest ih =>
      have hNew : e.1 ∉ t.keys := by
        intro hOld
        rw [List.nodup_append] at hNodup
        exact hNodup.2.2 e.1 hOld e.1 (by simp) rfl
      rw [List.foldl_cons, ih, entries_insert_of_notMem hNew]
      · simp
      · rw [keys_insert, if_neg hNew]
        simpa using hNodup

/- A list in which no key stands twice is its own table. -/
theorem ofList_of_nodup
    {es : List (K × V)}
    (hNodup : (es.map Prod.fst).Nodup) :
    ofList es = ⟨es⟩ := by
  rw [ofList, foldl_insert_of_nodup es empty]
  · rfl
  · simpa using hNodup

/- What holds of all entries of a list holds of its table. -/
theorem forall_entries_ofList
    {es : List (K × V)}
    {Q : K × V → Prop}
    (hAll : ∀ e ∈ es, Q e) :
    ∀ e ∈ (ofList es).entries, Q e := by
  have hGeneral :
      ∀ (es : List (K × V)) (t : Table K V),
        (∀ e ∈ es, Q e) → (∀ e ∈ t.entries, Q e) →
          ∀ e ∈ (es.foldl
            (fun t e => t.insert e.1 e.2) t).entries, Q e := by
    intro es
    induction es with
    | nil =>
        intro t _ hTable
        exact hTable
    | cons e rest ih =>
        intro t hList hTable
        apply ih
        · intro e' hMem
          exact hList e' (List.mem_cons_of_mem _ hMem)
        · exact forall_entries_insert hTable
            (hList e List.mem_cons_self)
  exact hGeneral es empty hAll fun e hMem => by cases hMem

/- No key stands twice in a table of a list. -/
theorem nodup_keys_ofList
    (es : List (K × V)) :
    (ofList es).keys.Nodup := by
  have hGeneral :
      ∀ (es : List (K × V)) (t : Table K V),
        t.keys.Nodup →
          (es.foldl
            (fun t e => t.insert e.1 e.2) t).keys.Nodup := by
    intro es
    induction es with
    | nil =>
        intro t hNodup
        exact hNodup
    | cons e rest ih =>
        intro t hNodup
        exact ih _ (nodup_keys_insert hNodup e.1 e.2)
  exact hGeneral es empty List.nodup_nil

end Table

end BranchingStory

------------------------------------------------------------
-- Equality
------------------------------------------------------------

namespace BranchingStory

namespace Table

variable {K V : Type} [DecidableEq K]

/- To set a key to the value that it has changes nothing. -/
theorem insert_of_lookup
    {t : Table K V}
    {k : K}
    {v : V}
    (hLookup : t.lookup k = some v) :
    t.insert k v = t := by
  rcases t with ⟨es⟩
  apply eq_of_entries
  change insertEntry k v es = es
  induction es with
  | nil => cases hLookup
  | cons e rest ih =>
      rw [insertEntry]
      split
      · next hKey =>
          have hValue : e.2 = v := by
            simpa [lookup, hKey] using hLookup
          rw [← hKey, ← hValue]
      · next hKey =>
          rw [ih (by simpa [lookup, hKey] using hLookup)]

/-
  Tables in which no key stands twice are equal if they have
  the same keys with the same values.
-/
theorem eq_of_lookup
    {t u : Table K V}
    (hKeys : t.keys = u.keys)
    (hNodup : t.keys.Nodup)
    (hValues : ∀ k ∈ t.keys, t.lookup k = u.lookup k) :
    t = u := by
  apply eq_of_entries
  apply List.ext_getElem
  · simpa [keys] using congrArg List.length hKeys
  · intro n hLeft hRight
    have hEntry : t.entries[n] ∈ t.entries :=
      List.getElem_mem hLeft
    have hEntry' : u.entries[n] ∈ u.entries :=
      List.getElem_mem hRight
    have hKey : t.entries[n].1 = u.entries[n].1 := by
      have hGet := congrArg (fun ks => ks[n]?) hKeys
      simpa [keys, hLeft, hRight] using hGet
    have hValue :
        t.lookup t.entries[n].1 = some t.entries[n].2 :=
      lookup_of_mem hNodup hEntry
    have hValue' :
        u.lookup u.entries[n].1 = some u.entries[n].2 :=
      lookup_of_mem (hKeys ▸ hNodup) hEntry'
    have hSame :=
      hValues t.entries[n].1
        ((mem_keys_iff t _).mpr ⟨_, hEntry⟩)
    rw [hValue, hKey, hValue'] at hSame
    exact Prod.ext hKey (Option.some.inj hSame)

end Table

end BranchingStory
