import BranchingStory.Proofs.Generators
import BranchingStory.Proofs.Kinds
import BranchingStory.Proofs.Numerals
import BranchingStory.Proofs.Paths
import BranchingStory.Save.Restore

/-
  This file shows that every state that fits its story is
  restored from its own saved form as it was.  Only a key that
  is too long to be read can stand in the way.

  Key definitions include:
    * `Recovers`
    * `State.HasShortKeys`
    * `State.IsSavable`

  Key theorems include:
    * `restoreVariables_toJson`
    * `State.restore_save_recovers`
-/

------------------------------------------------------------
-- Recovering Values
------------------------------------------------------------

namespace BranchingStory

variable {α β : Type}

/-
  Whether a restoring yields a value under a condition, and
  no other value in any case.
-/
structure Recovers
    (P : Prop)
    (a : α)
    (r : Restoring α) : Prop where
  ok : P → r = .ok a
  only : ∀ b, r = .ok b → b = a

namespace Recovers

variable {P : Prop}

/- A restoring that yields a value yields no other. -/
theorem of_eq
    {a : α}
    {r : Restoring α}
    (hOk : r = .ok a) :
    Recovers P a r := by
  refine ⟨fun _ => hOk, ?_⟩
  intro b hOther
  rw [hOk] at hOther
  cases hOther
  rfl

/- A condition may be replaced by one that implies it. -/
theorem imp
    {P' : Prop}
    {a : α}
    {r : Restoring α}
    (hRecovers : Recovers P a r)
    (hImp : P' → P) :
    Recovers P' a r :=
  ⟨fun hHolds => hRecovers.ok (hImp hHolds), hRecovers.only⟩

/- Values are recovered one after the other. -/
theorem bind
    {a : α}
    {b : β}
    {r : Restoring α}
    {f : α → Restoring β}
    (hFirst : Recovers P a r)
    (hThen : Recovers P b (f a)) :
    Recovers P b (r >>= f) := by
  constructor
  · intro hHolds
    rw [hFirst.ok hHolds]
    exact hThen.ok hHolds
  · intro b' hBind
    rcases except_bind_ok.mp hBind with ⟨a', hValue, hRest⟩
    rw [hFirst.only a' hValue] at hRest
    exact hThen.only b' hRest

/- A list is recovered if each of its elements is. -/
theorem mapM
    {write : β → α}
    {read : α → Restoring β}
    {xs : List β}
    (hEach : ∀ x ∈ xs, Recovers P x (read (write x))) :
    Recovers P xs ((xs.map write).mapM read) := by
  induction xs with
  | nil => exact of_eq rfl
  | cons x xs ih =>
      rw [List.forall_mem_cons] at hEach
      rw [List.map_cons, List.mapM_cons]
      apply hEach.1.bind
      exact (ih hEach.2).bind (of_eq rfl)

end Recovers

end BranchingStory

------------------------------------------------------------
-- Objects
------------------------------------------------------------

namespace BranchingStory

/- Fields are set as in a table. -/
theorem Json.ofFields_eq
    (fields : List (String × Json)) :
    Json.ofFields fields =
      .object (Table.ofList fields).entries := by
  have hGeneral (fs gs : List (String × Json)) :
      fs.foldl (fun gs f => setField gs f.1 f.2) gs =
        (fs.foldl (fun t f => Table.insert t f.1 f.2)
          ⟨gs⟩).entries := by
    induction fs generalizing gs with
    | nil => rfl
    | cons f fs ih =>
        rw [List.foldl_cons, List.foldl_cons]
        exact ih (setField gs f.1 f.2)
  rw [ofFields, hGeneral]
  rfl

variable {K V : Type}

/- A table with unambiguous keys is written entry by entry. -/
theorem Table.toJson_eq
    {key : K → String}
    {value : V → Json}
    {t : Table K V}
    (hNodup : (t.keys.map key).Nodup) :
    t.toJson key value =
      .object
        (t.entries.map fun e => (key e.1, value e.2)) := by
  rw [toJson, Json.ofFields_eq, ofList_of_nodup]
  simpa [keys, Function.comp_def] using hNodup

/- The field of a key holds the value of the key. -/
theorem Json.fieldOrNull_entries
    {t : Table String V}
    {name : String}
    {v : V}
    (write : V → Json)
    (hLookup : t.lookup name = some v) :
    Json.fieldOrNull
        (t.entries.map fun e => (e.1, write e.2)) name =
      write v := by
  have hField :=
    Table.lookup_mapValues write t name
  rw [hLookup] at hField
  change ((t.mapValues write).lookup name).getD .null = _
  rw [hField]
  rfl

end BranchingStory

------------------------------------------------------------
-- Plain Parts
------------------------------------------------------------

namespace BranchingStory

variable {o : Outline}

/- A place is restored from its path. -/
theorem requireAddress_path
    (hSound : o.IsSound)
    {a : Address}
    (hAddress : o.hasAddress a = true)
    (part : String) :
    requireAddress o part (.string a.path) = .ok a := by
  unfold requireAddress
  change (if o.hasAddress (Address.ofPath a.path) then _
    else _) = _
  rw [hSound.ofPath_path hAddress, hAddress]
  rfl

/- A number of a part is restored as it is. -/
theorem requireNode_int
    {n : Nat}
    (hBound : n < o.size)
    (part : String) :
    requireNode o part (.int n) = .ok n := by
  have hRange : (0 : Int) ≤ n ∧ (n : Int) < o.size := by
    omega
  unfold requireNode
  change (if (0 : Int) ≤ n ∧ (n : Int) < o.size then _
    else _) = _
  rw [if_pos hRange]
  rfl

/- A key is recovered unless it is too long to be read. -/
theorem requireKey_recovers
    (part : String)
    (n : Int) :
    Recovers (isShortInt n = true) n
      (requireKey part (toString n)) := by
  unfold requireKey
  rw [readInt?_toString]
  constructor
  · intro hShort
    rw [if_pos hShort]
  · intro m hRead
    split at hRead
    · next k hSome =>
        cases hRead
        split at hSome
        · cases hSome
          rfl
        · cases hSome
    · cases hRead

/- A status is restored from its written form. -/
theorem restoreStatus_text
    (t : Status) :
    restoreStatus (.string t.text) = .ok t := by
  cases t <;> rfl

/- A value is restored within its kind. -/
theorem restoreValue_toJson
    (hSound : o.IsSound)
    {name : String}
    {k : Kind}
    {v : Value}
    (hFits : v.Fits o.IsPath k) :
    restoreValue o name k v.toJson = .ok v := by
  have hKind := hFits.kind
  subst hKind
  cases v with
  | int n => rfl
  | float x => rfl
  | bool b => rfl
  | string s => rfl
  | divert s =>
      rcases hFits.path s rfl with ⟨a, hAddress, rfl⟩
      change (requireAddress o _ (.string a.path)).map _ = _
      rw [requireAddress_path hSound hAddress]
      rfl

end BranchingStory

------------------------------------------------------------
-- Variables
------------------------------------------------------------

namespace BranchingStory

variable {o : Outline}

/- The kind of a value is told by its name. -/
theorem namesKind_name
    (k : Kind) :
    namesKind k (.string k.name) = true := by
  rw [namesKind, decide_eq_true_eq]

/- A variable is restored from the field of its name. -/
theorem restoreVariable_toJson
    (hSound : o.IsSound)
    {vars : Table String Value}
    {d : Declaration}
    {v : Value}
    (hLookup : vars.lookup d.name = some v)
    (hFits : v.Fits o.IsPath d.initial.kind) :
    restoreVariable o
        (vars.entries.map fun e => (e.1, e.2.toTaggedJson))
        d =
      .ok (d.name, v) := by
  unfold restoreVariable
  rw [Json.fieldOrNull_entries Value.toTaggedJson hLookup]
  change (if namesKind d.initial.kind (.string v.kind.name)
    then restoreValue o d.name d.initial.kind v.toJson >>= _
    else _) = _
  rw [← hFits.kind, if_pos (namesKind_name v.kind),
    hFits.kind, restoreValue_toJson hSound hFits]
  rfl

/- A variable is declared under its own name. -/
theorem VarsAreSound.lookup_name
    (hVars : VarsAreSound o.vars)
    {d : Declaration}
    (hMem : d ∈ o.vars.values) :
    o.vars.lookup d.name = some d := by
  rcases (Table.mem_values_iff o.vars d).mp hMem with
    ⟨name, hEntry⟩
  have hName : d.name = name := hVars.names _ hEntry
  rw [hName]
  exact Table.lookup_of_mem hVars.nodup hEntry

/- The variables are declared under their names. -/
theorem VarsAreSound.map_name
    (hVars : VarsAreSound o.vars) :
    o.vars.values.map Declaration.name = o.vars.keys := by
  rw [Table.values, Table.keys, List.map_map]
  exact List.map_congr_left hVars.names

/- The values of all variables make up a fitting memory. -/
theorem Memory.Fits.vars_eq
    {m : Memory}
    {P : String → Prop}
    (hVars : VarsAreSound o.vars)
    (hNames : m.vars.keys = o.vars.keys)
    (hFits : m.Fits o P) :
    Table.ofList (o.vars.values.map fun d =>
        (d.name, (m.vars.lookup d.name).getD d.initial)) =
      m.vars := by
  have hKeys :
      (o.vars.values.map fun d => (d.name,
        (m.vars.lookup d.name).getD d.initial)).map
          Prod.fst = o.vars.keys := by
    rw [List.map_map]
    exact hVars.map_name
  have hNodup := hVars.nodup
  rw [← hKeys] at hNodup
  rw [Table.ofList_of_nodup hNodup]
  apply Table.eq_of_lookup
  · exact hKeys.trans hNames.symm
  · exact hNodup
  · intro name hMem
    rcases List.mem_map.mp hMem with ⟨e, hEntry, rfl⟩
    rw [Table.lookup_of_mem hNodup hEntry]
    rcases List.mem_map.mp hEntry with ⟨d, hDeclared, rfl⟩
    rcases hFits d.name d (hVars.lookup_name hDeclared) with
      ⟨v, hLookup, _⟩
    rw [hLookup]
    rfl

/-
  All variables of a story are restored as they are, in
  whatever order they were saved.
-/
theorem restoreVariables_toJson
    (hSound : o.IsSound)
    {m : Memory}
    (hNames : m.vars.keys = o.vars.keys)
    (hFits : m.Fits o o.IsPath)
    {t : Table String Value}
    (hPerm : t.entries.Perm m.vars.entries) :
    restoreVariables o (t.toJson id Value.toTaggedJson) =
      .ok m.vars := by
  have hKeys : t.keys.Perm o.vars.keys :=
    hNames ▸ hPerm.map Prod.fst
  have hNodup : m.vars.keys.Nodup :=
    hNames ▸ hSound.vars.nodup
  have hValues :
      o.vars.values.mapM (restoreVariable o
          (t.entries.map fun e =>
            (e.1, e.2.toTaggedJson))) =
        .ok (o.vars.values.map fun d =>
          (d.name, (m.vars.lookup d.name).getD d.initial)) := by
    apply mapM_eq_map
    intro d hMem
    rcases hFits d.name d (hSound.vars.lookup_name hMem) with
      ⟨v, hLookup, hValue⟩
    have hSaved := Table.lookup_of_perm hNodup hPerm d.name
    rw [restoreVariable_toJson hSound (hSaved.trans hLookup)
      hValue, hLookup]
    rfl
  have hKnown :
      ((t.entries.map fun e =>
          (e.1, e.2.toTaggedJson)).map Prod.fst).filter
        (fun n => !o.vars.contains n) = [] := by
    rw [List.filter_eq_nil_iff]
    intro name hMem
    have hKey : name ∈ o.vars.keys := by
      apply hKeys.subset
      simpa [Table.keys] using hMem
    simpa using (Table.contains_eq_true o.vars name).mpr hKey
  unfold restoreVariables
  rw [Table.toJson_eq (by
    simpa using hKeys.nodup_iff.mpr hSound.vars.nodup)]
  change (o.vars.values.mapM (restoreVariable o
    (t.entries.map fun e =>
      (e.1, e.2.toTaggedJson))) >>= _) = _
  rw [hValues]
  change (if (((t.entries.map fun e =>
      (e.1, e.2.toTaggedJson)).map Prod.fst).filter
        (fun n => !o.vars.contains n)).isEmpty then
    _ else _) = _
  rw [hKnown]
  exact congrArg Except.ok
    (hFits.vars_eq hSound.vars hNames)

end BranchingStory

------------------------------------------------------------
-- Frames And Offers
------------------------------------------------------------

namespace BranchingStory

variable {o : Outline}

/- A list is restored if each of its elements is. -/
theorem restoreIndexed_map
    {α : Type}
    {read : Nat → Json → Restoring α}
    {write : α → Json}
    {xs : List α}
    (hEach : ∀ i, ∀ x ∈ xs, read i (write x) = .ok x)
    (n : Nat) :
    restoreIndexed read n (xs.map write) = .ok xs := by
  induction xs generalizing n with
  | nil => rfl
  | cons x xs ih =>
      have hHead := hEach n x List.mem_cons_self
      have hTail :=
        ih (fun i y hMem =>
          hEach i y (List.mem_cons_of_mem _ hMem)) (n + 1)
      rw [List.map_cons, restoreIndexed, hHead]
      change (restoreIndexed read (n + 1) (xs.map write) >>= _)
        = _
      rw [hTail]
      rfl

/- A frame in a block of the story is restored as it is. -/
theorem restoreFrame_toJson
    {f : Frame}
    (hBound : f.block < o.size)
    (hBlock : (o.block? f.block).isSome = true)
    (i : Nat) :
    restoreFrame o i f.toJson = .ok f := by
  have hSome : (o.block? f.block).isNone = false := by
    rw [← Option.not_isSome, hBlock]
    rfl
  unfold restoreFrame
  change (requireNode o _ (.int f.block) >>= _) = _
  rw [requireNode_int hBound]
  change (if (o.block? f.block).isNone then _ else _) = _
  rw [hSome]
  rfl

/- An offer of a branch of the story is restored as it is. -/
theorem restoreOffer_toJson
    {x : Offer}
    (hBound : x.branch < o.size)
    (hBranch : (o.branch? x.branch).isSome = true)
    (i : Nat) :
    restoreOffer o i x.toJson = .ok x := by
  have hSome : (o.branch? x.branch).isNone = false := by
    rw [← Option.not_isSome, hBranch]
    rfl
  have hTags (part : String) :
      (x.tags.map Json.string).mapM (requireString part) =
        .ok x.tags := by
    have hEach :=
      mapM_eq_map (f := requireString part ∘ Json.string)
        (g := id) fun s (_ : s ∈ x.tags) => rfl
    rw [List.mapM_map, hEach, List.map_id]
  unfold restoreOffer
  change (requireNode o _ (.int x.branch) >>= _) = _
  rw [requireNode_int hBound]
  change (if (o.branch? x.branch).isNone then _ else _) = _
  rw [hSome]
  change ((x.tags.map Json.string).mapM
    (requireString _) >>= fun tags =>
      (.ok ⟨x.branch, x.text, tags⟩ : Restoring Offer)) = _
  rw [hTags]
  rfl

/- Frames in blocks of the story are restored as they are. -/
theorem restoreFrames_toJson
    {fs : List Frame}
    (hFrames : ∀ f ∈ fs,
      f.block < o.size ∧ (o.block? f.block).isSome = true) :
    restoreFrames o (.array (fs.reverse.map Frame.toJson)) =
      .ok fs := by
  have hEach (i : Nat) (f : Frame) (hMem : f ∈ fs.reverse) :
      restoreFrame o i f.toJson = .ok f := by
    rcases hFrames f (List.mem_reverse.mp hMem) with
      ⟨hBound, hBlock⟩
    exact restoreFrame_toJson hBound hBlock i
  unfold restoreFrames
  change (restoreIndexed (restoreFrame o) 0
    (fs.reverse.map Frame.toJson) >>= fun gs =>
      (.ok gs.reverse : Restoring (List Frame))) = _
  rw [restoreIndexed_map hEach]
  exact congrArg Except.ok (List.reverse_reverse fs)

/- Offers of branches of the story are restored as they are. -/
theorem restoreOffers_toJson
    {xs : List Offer}
    (hOffers : ∀ x ∈ xs,
      x.branch < o.size ∧
        (o.branch? x.branch).isSome = true) :
    restoreOffers o (.array (xs.map Offer.toJson)) =
      .ok xs := by
  unfold restoreOffers
  exact restoreIndexed_map
    (fun i x hMem =>
      restoreOffer_toJson (hOffers x hMem).1
        (hOffers x hMem).2 i) 0

end BranchingStory

------------------------------------------------------------
-- Counts
------------------------------------------------------------

namespace BranchingStory

variable {o : Outline}

/-
  A table is recovered if each of its entries is and the keys
  are written unambiguously.
-/
theorem Recovers.table
    {K V : Type}
    [DecidableEq K]
    {P : Prop}
    {key : K → String}
    {value : V → Json}
    {read : String × Json → Restoring (K × V)}
    {t : Table K V}
    (hKeys : (t.keys.map key).Nodup)
    (hEach : ∀ e ∈ t.entries,
      Recovers P e (read (key e.1, value e.2)))
    (part : String) :
    Recovers P t (do
      let fields ← requireObject part (t.toJson key value)
      let entries ← fields.mapM read
      return .ofList entries) := by
  rw [Table.toJson_eq hKeys]
  apply Recovers.bind (Recovers.of_eq rfl)
  refine (Recovers.mapM hEach).bind (Recovers.of_eq ?_)
  exact congrArg Except.ok
    (Table.ofList_of_nodup (hKeys.of_map key))

/- Places of the story are told by their paths. -/
theorem nodup_paths
    (hSound : o.IsSound)
    {t : Table Address Int}
    (hNodup : t.keys.Nodup)
    (hPlaces : ∀ a ∈ t.keys, o.hasAddress a = true) :
    (t.keys.map Address.path).Nodup :=
  hNodup.map_on fun a hMem b hMem' hSame =>
    hSound.path_injOn (hPlaces a hMem) (hPlaces b hMem') hSame

/- Visits to places of the story are recovered. -/
theorem restoreVisits_recovers
    (hSound : o.IsSound)
    {t : Table Address Int}
    (hNodup : t.keys.Nodup)
    (hPlaces : ∀ a ∈ t.keys, o.hasAddress a = true)
    (P : Prop) :
    Recovers P t
      (restoreVisits o (t.toJson Address.path Json.int)) := by
  unfold restoreVisits
  refine Recovers.table
    (nodup_paths hSound hNodup hPlaces) ?_ _
  intro e hMem
  have hAddress :=
    requireAddress_path hSound
      (hPlaces e.1 (List.mem_map_of_mem hMem))
      "state.visit_counts"
  apply Recovers.bind (Recovers.of_eq hAddress)
  exact Recovers.of_eq rfl

/- Counts are recovered unless a key is too long. -/
theorem restoreCounts_recovers
    {t : Table Int Int}
    (hNodup : t.keys.Nodup)
    (part : String) :
    Recovers (∀ n ∈ t.keys, isShortInt n = true) t
      (restoreCounts part (t.toJson toString Json.int)) := by
  unfold restoreCounts
  refine Recovers.table (hNodup.map toString_injective) ?_ _
  intro e hMem
  have hKnown : e.1 ∈ t.keys := List.mem_map_of_mem hMem
  apply Recovers.bind (Recovers.of_eq rfl)
  refine Recovers.bind
    ((requireKey_recovers _ e.1).imp fun hShort =>
      hShort e.1 hKnown) ?_
  exact Recovers.of_eq rfl

/- Orders are recovered unless a key is too long. -/
theorem restoreOrders_recovers
    {t : Table Int (List Int)}
    (hNodup : t.keys.Nodup) :
    Recovers (∀ n ∈ t.keys, isShortInt n = true) t
      (restoreOrders (t.toJson toString fun order =>
        .array (order.map Json.int))) := by
  unfold restoreOrders
  refine Recovers.table (hNodup.map toString_injective) ?_ _
  intro e hMem
  have hKnown : e.1 ∈ t.keys := List.mem_map_of_mem hMem
  apply Recovers.bind (Recovers.of_eq rfl)
  refine Recovers.bind
    (Recovers.mapM fun n _ => Recovers.of_eq rfl) ?_
  refine Recovers.bind
    ((requireKey_recovers _ e.1).imp fun hShort =>
      hShort e.1 hKnown) ?_
  exact Recovers.of_eq rfl

end BranchingStory

------------------------------------------------------------
-- States
------------------------------------------------------------

namespace BranchingStory

variable {o : Outline}

/-
  Whether a state fits its story well enough to be saved: its
  places, blocks and branches exist, its variables keep their
  kinds, and there are offers while it presents them.
-/
structure State.IsSavable
    (o : Outline)
    (s : State) : Prop where
  location : o.hasAddress s.location = true
  names : s.memory.vars.keys = o.vars.keys
  fits : s.memory.Fits o o.IsPath
  visits : s.memory.visits.keys.Nodup
  visited : ∀ a ∈ s.memory.visits.keys, o.hasAddress a = true
  frames : ∀ f ∈ s.frames,
    f.block < o.size ∧ (o.block? f.block).isSome = true
  chosen : s.chosen.keys.Nodup
  cursors : s.cursors.keys.Nodup
  orders : s.orders.keys.Nodup
  offers : ∀ x ∈ s.offers,
    x.branch < o.size ∧ (o.branch? x.branch).isSome = true
  presenting : s.status = .presenting → s.offers ≠ []

/- Whether all numbers that are keys can be read back. -/
structure State.HasShortKeys
    (s : State) : Prop where
  chosen : ∀ n ∈ s.chosen.keys, isShortInt n = true
  cursors : ∀ n ∈ s.cursors.keys, isShortInt n = true
  orders : ∀ n ∈ s.orders.keys, isShortInt n = true

/- A state that can be saved is restored from what is saved. -/
theorem State.restore_save_recovers
    (hSound : o.IsSound)
    {s : State}
    (hSavable : s.IsSavable o)
    (savedAt : String) :
    Recovers s.HasShortKeys s (restore o (s.save savedAt)) := by
  change Recovers s.HasShortKeys s
    (restoreState o s.generator.snapshot _)
  unfold restoreState
  apply Recovers.bind (Recovers.of_eq rfl)
  simp only [Generator.restore_snapshot]
  apply Recovers.bind (Recovers.of_eq rfl)
  refine Recovers.bind (Recovers.of_eq
    (requireAddress_path hSound hSavable.location _)) ?_
  refine Recovers.bind (Recovers.of_eq
    (restoreVariables_toJson hSound hSavable.names
      hSavable.fits (List.Perm.refl _))) ?_
  refine Recovers.bind (Recovers.of_eq
    (restoreStatus_text s.status)) ?_
  refine Recovers.bind (Recovers.of_eq
    (restoreFrames_toJson hSavable.frames)) ?_
  refine Recovers.bind
    (restoreVisits_recovers hSound hSavable.visits
      hSavable.visited _) ?_
  refine Recovers.bind
    ((restoreCounts_recovers hSavable.chosen _).imp
      HasShortKeys.chosen) ?_
  refine Recovers.bind
    ((restoreCounts_recovers hSavable.cursors _).imp
      HasShortKeys.cursors) ?_
  refine Recovers.bind
    ((restoreOrders_recovers hSavable.orders).imp
      HasShortKeys.orders) ?_
  refine Recovers.bind (Recovers.of_eq
    (restoreOffers_toJson hSavable.offers)) ?_
  have hOffered :
      ¬ (s.status = .presenting ∧ s.offers.isEmpty = true) := by
    rintro ⟨hPresenting, hEmpty⟩
    exact hSavable.presenting hPresenting
      (List.isEmpty_iff.mp hEmpty)
  simp only [if_neg hOffered]
  exact Recovers.of_eq rfl

end BranchingStory
