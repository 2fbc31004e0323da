import BranchingStory.Proofs.Saves

/-
  This file shows that whatever is restored fits its story,
  however the saved form came about: it can be saved again,
  and all its keys can be read back.

  Key theorems include:
    * `restoreVariables_ok`
    * `restore_ok`
    * `State.isSavable_of_restore`
-/

------------------------------------------------------------
-- Plain Parts
------------------------------------------------------------

namespace BranchingStory

variable {o : Outline}
variable {part : String}
variable {v : Json}

/- A list that is found is the part. -/
theorem requireList_ok
    {vs : List Json}
    (hOk : requireList part v = .ok vs) :
    v = .array vs := by
  cases v <;> cases hOk
  rfl

/- An object that is found is the part. -/
theorem requireObject_ok
    {fields : List (String × Json)}
    (hOk : requireObject part v = .ok fields) :
    v = .object fields := by
  cases v <;> cases hOk
  rfl

/- An integer that is found is the part. -/
theorem requireInt_ok
    {n : Int}
    (hOk : requireInt part v = .ok n) :
    v = .int n := by
  cases v <;> cases hOk
  rfl

/- A place that is restored exists. -/
theorem requireAddress_ok
    {a : Address}
    (hOk : requireAddress o part v = .ok a) :
    o.hasAddress a = true := by
  unfold requireAddress at hOk
  rcases except_bind_ok.mp hOk with ⟨path, _, hOk⟩
  simp only at hOk
  split at hOk
  · next hAddress =>
      cases hOk
      exact hAddress
  · cases hOk

/- A number that is restored is that of a part. -/
theorem requireNode_ok
    {n : Nat}
    (hOk : requireNode o part v = .ok n) :
    n < o.size := by
  unfold requireNode at hOk
  rcases except_bind_ok.mp hOk with ⟨m, _, hOk⟩
  split at hOk
  · next hRange =>
      cases hOk
      omega
  · cases hOk

/- A key that is restored can be read back. -/
theorem requireKey_ok
    {key : String}
    {n : Int}
    (hOk : requireKey part key = .ok n) :
    isShortInt n = true := by
  unfold requireKey at hOk
  split at hOk
  · next m hRead =>
      cases hOk
      exact isShortInt_of_readInt? hRead
  · cases hOk

/- A value that is restored fits its kind. -/
theorem restoreValue_ok
    {name : String}
    {k : Kind}
    {w : Value}
    (hOk : restoreValue o name k v = .ok w) :
    w.Fits o.IsPath k := by
  unfold restoreValue at hOk
  split at hOk
  · cases hOk
    exact Value.fits_bool _
  · cases hOk
  · rcases except_map_ok.mp hOk with ⟨n, _, rfl⟩
    exact Value.fits_int n
  · cases hOk
    exact Value.fits_float _
  · split at hOk
    · cases hOk
      exact Value.fits_float _
    · cases hOk
  · cases hOk
  · rcases except_map_ok.mp hOk with ⟨a, hAddress, rfl⟩
    refine ⟨rfl, ?_⟩
    intro s hDivert
    cases hDivert
    exact ⟨a, requireAddress_ok hAddress, rfl⟩
  · rcases except_map_ok.mp hOk with ⟨s, _, rfl⟩
    exact Value.fits_string s

end BranchingStory

------------------------------------------------------------
-- Variables
------------------------------------------------------------

namespace BranchingStory

variable {o : Outline}
variable {v : Json}

/- A variable that is restored has a value that fits it. -/
theorem restoreVariable_ok
    {fields : List (String × Json)}
    {d : Declaration}
    {p : String × Value}
    (hOk : restoreVariable o fields d = .ok p) :
    p.1 = d.name ∧ p.2.Fits o.IsPath d.initial.kind := by
  unfold restoreVariable at hOk
  rcases except_bind_ok.mp hOk with ⟨entry, _, hOk⟩
  simp only at hOk
  split at hOk
  · rcases except_bind_ok.mp hOk with ⟨w, hValue, hOk⟩
    cases hOk
    exact ⟨rfl, restoreValue_ok hValue⟩
  · cases hOk

/- Variables that are restored stand under their names. -/
theorem map_fst_of_restoreVariable
    {fields : List (String × Json)}
    {ds : List Declaration}
    {entries : List (String × Value)}
    (hOk : ds.mapM (restoreVariable o fields) = .ok entries) :
    entries.map Prod.fst = ds.map Declaration.name := by
  have hPairs := mapM_ok hOk
  clear hOk
  induction hPairs with
  | nil => rfl
  | cons hHead _ ih =>
      rw [List.map_cons, List.map_cons, ih,
        (restoreVariable_ok hHead).1]

/- Variables that are restored are those of the story. -/
theorem restoreVariables_ok
    (hVars : VarsAreSound o.vars)
    {t : Table String Value}
    (hOk : restoreVariables o v = .ok t) :
    t.keys = o.vars.keys ∧
      ∀ visits, Memory.Fits o o.IsPath ⟨t, visits⟩ := by
  unfold restoreVariables at hOk
  rcases except_bind_ok.mp hOk with ⟨fields, _, hOk⟩
  rcases except_bind_ok.mp hOk with ⟨entries, hEntries, hOk⟩
  simp only at hOk
  split at hOk
  · cases hOk
    have hNames :
        entries.map Prod.fst = o.vars.keys := by
      rw [← hVars.map_name]
      exact map_fst_of_restoreVariable hEntries
    have hNodup : (entries.map Prod.fst).Nodup :=
      hNames ▸ hVars.nodup
    rw [Table.ofList_of_nodup hNodup]
    refine ⟨hNames, ?_⟩
    intro visits name d hLookup
    rcases
        exists_result_of_mapM_ok hEntries
          (Table.mem_values_of_lookup hLookup) with
      ⟨p, hMem, hVariable⟩
    rcases restoreVariable_ok hVariable with ⟨hName, hFits⟩
    have hSame : d.name = name :=
      hVars.names _ (Table.mem_entries_of_lookup hLookup)
    refine ⟨p.2, ?_, hFits⟩
    apply Table.lookup_of_mem hNodup
    rw [← hSame, ← hName]
    exact hMem
  · cases hOk

end BranchingStory

------------------------------------------------------------
-- Frames And Offers
------------------------------------------------------------

namespace BranchingStory

variable {o : Outline}
variable {v : Json}

/- Every element of a list that is restored was restored. -/
theorem restoreIndexed_ok
    {α : Type}
    {read : Nat → Json → Restoring α}
    {n : Nat}
    {vs : List Json}
    {xs : List α}
    (hOk : restoreIndexed read n vs = .ok xs)
    {x : α}
    (hMem : x ∈ xs) :
    ∃ i w, read i w = .ok x := by
  induction vs generalizing n xs with
  | nil =>
      cases hOk
      cases hMem
  | cons w vs ih =>
      rw [restoreIndexed] at hOk
      rcases except_bind_ok.mp hOk with ⟨y, hHead, hOk⟩
      rcases except_bind_ok.mp hOk with ⟨ys, hTail, hOk⟩
      cases hOk
      rcases List.mem_cons.mp hMem with rfl | hRest
      · exact ⟨n, w, hHead⟩
      · exact ih hTail hRest

/- A frame that is restored is in a block of the story. -/
theorem restoreFrame_ok
    {i : Nat}
    {f : Frame}
    (hOk : restoreFrame o i v = .ok f) :
    f.block < o.size ∧ (o.block? f.block).isSome = true := by
  unfold restoreFrame at hOk
  rcases except_bind_ok.mp hOk with ⟨vs, _, hOk⟩
  split at hOk
  · rcases except_bind_ok.mp hOk with ⟨id, hId, hOk⟩
    simp only at hOk
    split at hOk
    · cases hOk
    · next hBlock =>
        rcases except_bind_ok.mp hOk with ⟨n, _, hOk⟩
        cases hOk
        refine ⟨requireNode_ok hId, ?_⟩
        simpa [Option.isSome_iff_ne_none] using hBlock
  · cases hOk

/- An offer that is restored is of a branch of the story. -/
theorem restoreOffer_ok
    {i : Nat}
    {x : Offer}
    (hOk : restoreOffer o i v = .ok x) :
    x.branch < o.size ∧
      (o.branch? x.branch).isSome = true := by
  unfold restoreOffer at hOk
  rcases except_bind_ok.mp hOk with ⟨fields, _, hOk⟩
  rcases except_bind_ok.mp hOk with ⟨id, hId, hOk⟩
  simp only at hOk
  split at hOk
  · cases hOk
  · next hBranch =>
      rcases except_bind_ok.mp hOk with ⟨tags, _, hOk⟩
      rcases except_bind_ok.mp hOk with ⟨text, _, hOk⟩
      rcases except_bind_ok.mp hOk with ⟨tags', _, hOk⟩
      cases hOk
      refine ⟨requireNode_ok hId, ?_⟩
      simpa [Option.isSome_iff_ne_none] using hBranch

/- Frames that are restored are in blocks of the story. -/
theorem restoreFrames_ok
    {fs : List Frame}
    (hOk : restoreFrames o v = .ok fs)
    {f : Frame}
    (hMem : f ∈ fs) :
    f.block < o.size ∧ (o.block? f.block).isSome = true := by
  unfold restoreFrames at hOk
  rcases except_bind_ok.mp hOk with ⟨vs, _, hOk⟩
  rcases except_bind_ok.mp hOk with ⟨gs, hFrames, hOk⟩
  cases hOk
  rcases
      restoreIndexed_ok hFrames (List.mem_reverse.mp hMem) with
    ⟨i, w, hFrame⟩
  exact restoreFrame_ok hFrame

/- Offers that are restored are of branches of the story. -/
theorem restoreOffers_ok
    {xs : List Offer}
    (hOk : restoreOffers o v = .ok xs)
    {x : Offer}
    (hMem : x ∈ xs) :
    x.branch < o.size ∧
      (o.branch? x.branch).isSome = true := by
  unfold restoreOffers at hOk
  rcases except_bind_ok.mp hOk with ⟨vs, _, hOk⟩
  rcases restoreIndexed_ok hOk hMem with ⟨i, w, hOffer⟩
  exact restoreOffer_ok hOffer

end BranchingStory

------------------------------------------------------------
-- Counts
------------------------------------------------------------

namespace BranchingStory

variable {o : Outline}
variable {v : Json}

/-
  What holds of every entry that can be read holds of a table
  that is restored, in which no key stands twice.
-/
theorem table_ok
    {K V : Type}
    [DecidableEq K]
    {read : String × Json → Restoring (K × V)}
    {part : String}
    {t : Table K V}
    {Q : K → Prop}
    (hEach : ∀ f e, read f = .ok e → Q e.1)
    (hOk : (do
      let fields ← requireObject part v
      let entries ← fields.mapM read
      return Table.ofList entries) = .ok t) :
    t.keys.Nodup ∧ ∀ k ∈ t.keys, Q k := by
  rcases except_bind_ok.mp hOk with ⟨fields, _, hOk⟩
  rcases except_bind_ok.mp hOk with ⟨entries, hEntries, hOk⟩
  cases hOk
  refine ⟨Table.nodup_keys_ofList entries, ?_⟩
  intro k hKey
  rcases List.mem_map.mp hKey with ⟨e, hMem, rfl⟩
  refine Table.forall_entries_ofList
    (Q := fun e => Q e.1) ?_ e hMem
  intro e hMem
  rcases exists_of_mapM_ok hEntries hMem with ⟨f, _, hRead⟩
  exact hEach f e hRead

/- Visits that are restored are to places of the story. -/
theorem restoreVisits_ok
    {t : Table Address Int}
    (hOk : restoreVisits o v = .ok t) :
    t.keys.Nodup ∧
      ∀ a ∈ t.keys, o.hasAddress a = true := by
  refine table_ok ?_ hOk
  intro f e hRead
  rcases except_bind_ok.mp hRead with ⟨a, hAddress, hRead⟩
  rcases except_bind_ok.mp hRead with ⟨n, _, hRead⟩
  cases hRead
  exact requireAddress_ok hAddress

/- Counts that are restored have keys that can be read. -/
theorem restoreCounts_ok
    {part : String}
    {t : Table Int Int}
    (hOk : restoreCounts part v = .ok t) :
    t.keys.Nodup ∧ ∀ n ∈ t.keys, isShortInt n = true := by
  refine table_ok ?_ hOk
  intro f e hRead
  rcases except_bind_ok.mp hRead with ⟨n, _, hRead⟩
  rcases except_bind_ok.mp hRead with ⟨k, hKey, hRead⟩
  cases hRead
  exact requireKey_ok hKey

/- Orders that are restored have keys that can be read. -/
theorem restoreOrders_ok
    {t : Table Int (List Int)}
    (hOk : restoreOrders v = .ok t) :
    t.keys.Nodup ∧ ∀ n ∈ t.keys, isShortInt n = true := by
  refine table_ok ?_ hOk
  intro f e hRead
  rcases except_bind_ok.mp hRead with ⟨vs, _, hRead⟩
  rcases except_bind_ok.mp hRead with ⟨ns, _, hRead⟩
  rcases except_bind_ok.mp hRead with ⟨k, hKey, hRead⟩
  cases hRead
  exact requireKey_ok hKey

end BranchingStory

------------------------------------------------------------
-- States
------------------------------------------------------------

namespace BranchingStory

variable {o : Outline}

/- A state that is restored can be saved again. -/
theorem State.isSavable_of_restoreState
    (hSound : o.IsSound)
    {generator : Json}
    {fields : List (String × Json)}
    {s : State}
    (hOk : restoreState o generator fields = .ok s) :
    s.IsSavable o ∧ s.HasShortKeys := by
  unfold restoreState at hOk
  rcases except_bind_ok.mp hOk with ⟨seed, _, hOk⟩
  simp only at hOk
  split at hOk
  case h_2 => cases hOk
  rcases except_bind_ok.mp hOk with ⟨g, _, hOk⟩
  rcases except_bind_ok.mp hOk with ⟨location, hLocation, hOk⟩
  rcases except_bind_ok.mp hOk with ⟨vars, hVars, hOk⟩
  rcases except_bind_ok.mp hOk with ⟨status, _, hOk⟩
  rcases except_bind_ok.mp hOk with ⟨frames, hFrames, hOk⟩
  rcases except_bind_ok.mp hOk with ⟨visits, hVisits, hOk⟩
  rcases except_bind_ok.mp hOk with ⟨chosen, hChosen, hOk⟩
  rcases except_bind_ok.mp hOk with ⟨cursors, hCursors, hOk⟩
  rcases except_bind_ok.mp hOk with ⟨orders, hOrders, hOk⟩
  rcases except_bind_ok.mp hOk with ⟨offers, hOffers, hOk⟩
  split at hOk
  · cases hOk
  · next hOffered =>
      cases hOk
      rcases restoreVariables_ok hSound.vars hVars with
        ⟨hNames, hFits⟩
      have hVisits' := restoreVisits_ok hVisits
      have hChosen' := restoreCounts_ok hChosen
      have hCursors' := restoreCounts_ok hCursors
      have hOrders' := restoreOrders_ok hOrders
      refine ⟨?_, hChosen'.2, hCursors'.2, hOrders'.2⟩
      exact {
        location := requireAddress_ok hLocation
        names := hNames
        fits := hFits visits
        visits := hVisits'.1
        visited := hVisits'.2
        frames := fun f => restoreFrames_ok hFrames
        chosen := hChosen'.1
        cursors := hCursors'.1
        orders := hOrders'.1
        offers := fun x => restoreOffers_ok hOffers
        presenting := by
          intro hPresenting hEmpty
          exact hOffered
            ⟨hPresenting, List.isEmpty_iff.mpr hEmpty⟩ }

/- A saved form that is accepted has all its sections. -/
theorem restore_ok
    {v : Json}
    {s : State}
    (hOk : restore o v = .ok s) :
    ∃ fields rng state, v = .object fields ∧
      (Json.fieldOrNull fields "save_version").equalsInt
          saveVersion = true ∧
        Json.fieldOrNull fields "rng" = .object rng ∧
        Json.fieldOrNull fields "state" = .object state ∧
        restoreState o (.object rng) state = .ok s := by
  unfold restore at hOk
  split at hOk
  · next fields =>
      dsimp only at hOk
      split at hOk
      · next hVersion =>
          split at hOk
          · next rng state hGenerator hState =>
              exact ⟨fields, rng, state, rfl, hVersion,
                hGenerator, hState, hOk⟩
          · cases hOk
      · cases hOk
  · cases hOk

/- Whatever is restored can be saved again. -/
theorem State.isSavable_of_restore
    (hSound : o.IsSound)
    {v : Json}
    {s : State}
    (hOk : restore o v = .ok s) :
    s.IsSavable o ∧ s.HasShortKeys := by
  rcases restore_ok hOk with ⟨_, _, _, rfl, _, _, _, hState⟩
  exact isSavable_of_restoreState hSound hState

end BranchingStory
