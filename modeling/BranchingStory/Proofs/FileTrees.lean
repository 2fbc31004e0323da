import BranchingStory.Files.Tree
import Mathlib.Data.List.Infix

/-
  This file is about trees of files.  A directory stays where
  it is whatever is made or written, so that a path that leads
  somewhere goes on leading there; and nothing but the place of
  a file changes when it is written.

  Key definitions include:
    * `FilePath.below`
    * `FilePath.IsUsable`
    * `FileTree.Extends`
    * `FileTree.Has`
    * `FileTree.Lacks`

  Key theorems include:
    * `FileTree.entryAt_put`
    * `FileTree.locate_of_extends`
    * `FileTree.Has.below`
    * `FileTree.Lacks.below`
    * `Filing.makeDirectory_ok`
    * `Filing.makeDirectory_below`
-/

------------------------------------------------------------
-- Paths
------------------------------------------------------------

namespace BranchingStory

/- Whether a text is a single name on a path. -/
structure IsPlainName
    (s : String) : Prop where
  notEmpty : s ≠ ""
  notHere : s ≠ "."
  notAbove : s ≠ ".."
  noSlash : '/' ∉ s.toList

/- A text without a mark is not split at it. -/
theorem splitAtMark_of_notMem
    {mark : Char}
    {cs : List Char}
    (hMark : mark ∉ cs) :
    splitAtMark mark cs = [cs] := by
  induction cs with
  | nil => rfl
  | cons c cs ih =>
      rw [List.mem_cons, not_or] at hMark
      rw [splitAtMark, if_neg fun hSame => hMark.1 hSame.symm,
        ih hMark.2]
      rfl

namespace FilePath

/- The path of a name right below a path. -/
def below
    (p : FilePath)
    (name : String) : FilePath :=
  ⟨p.root, p.parts ++ [name]⟩

/- What is right below a path has the path as its parent. -/
theorem parent_below
    (p : FilePath)
    (name : String) :
    (p.below name).parent = p := by
  rw [below, parent, List.dropLast_concat]

/- A plain name leads right below a path. -/
theorem child_of_isPlainName
    {name : String}
    (hPlain : IsPlainName name)
    (p : FilePath) :
    p.child name = p.below name := by
  have hStart : name.toList.takeWhile (· == '/') = [] := by
    have hSlash := hPlain.noSlash
    cases hChars : name.toList with
    | nil => rfl
    | cons c cs =>
        rw [hChars, List.mem_cons, not_or] at hSlash
        exact List.takeWhile_cons_of_neg
          (by simpa using Ne.symm hSlash.1)
  have hText : ofText name = ⟨"", [name]⟩ := by
    rw [ofText, hStart, splitAtMark_of_notMem hPlain.noSlash]
    simp [rootOf, hPlain.notEmpty, hPlain.notHere]
  rw [child, hText, join]
  rfl

/- A path that the system takes: no part of it is too long. -/
structure IsUsable
    (p : FilePath) : Prop where
  noNull : '\x00' ∉ p.text.toList
  short : p.text.utf8ByteSize ≤ FileTree.maxPathBytes
  parts : ∀ part ∈ p.parts,
    part.utf8ByteSize ≤ FileTree.maxNameBytes

/- Texts with one more at the end begin with those before. -/
theorem exists_intercalate_concat
    {α : Type}
    (gap x : List α)
    (xs : List (List α)) :
    ∃ tail, gap.intercalate (xs ++ [x]) =
        gap.intercalate xs ++ (tail ++ x) := by
  induction xs with
  | nil => exact ⟨[], by simp⟩
  | cons y ys ih =>
      cases ys with
      | nil => exact ⟨gap, by simp⟩
      | cons z zs =>
          rcases ih with ⟨tail, hTail⟩
          refine ⟨tail, ?_⟩
          rw [List.cons_append, List.cons_append,
            List.intercalate_cons_cons, ← List.cons_append,
            hTail, List.intercalate_cons_cons,
            List.append_assoc, List.append_assoc,
            List.append_assoc]

/-
  The text of a path goes on where a name is put below it.  The
  path of the current directory has a text of its own.
-/
theorem text_below
    (p : FilePath)
    {name : String}
    (hName : name ≠ "") :
    ∃ start tail, (p.below name).text = start ++ tail ∧
      tail ≠ "" ∧ (p.text = start ∨ p.text = ".") := by
  rcases exists_intercalate_concat ['/'] name.toList
      (p.parts.map String.toList) with
    ⟨tail, hTail⟩
  let start := p.root ++ "/".intercalate p.parts
  have hWhole :
      p.root ++ "/".intercalate (p.parts ++ [name]) =
        start ++ String.ofList (tail ++ name.toList) := by
    apply String.toList_inj.mp
    have hSlash : "/".toList = ['/'] := rfl
    simp only [start, String.toList_append,
      String.toList_intercalate, String.toList_ofList, hSlash,
      List.map_append, List.map_cons, List.map_nil, hTail,
      List.append_assoc]
  have hSome : String.ofList (tail ++ name.toList) ≠ "" := by
    intro hNone
    have hChars := congrArg String.toList hNone
    rw [String.toList_ofList] at hChars
    exact hName (String.toList_inj.mp
      (List.append_eq_nil_iff.mp hChars).2)
  refine ⟨start, _, ?_, hSome, ?_⟩
  · rw [text, below]
    dsimp only
    rw [hWhole, if_neg]
    rw [String.isEmpty_iff]
    intro hNone
    exact hSome (String.append_eq_empty_iff.mp hNone).2
  · rw [text]
    split
    · exact Or.inr rfl
    · exact Or.inl rfl

/- The system takes a path if it takes one below it. -/
theorem IsUsable.of_below
    {p : FilePath}
    {name : String}
    (hName : name ≠ "")
    (hUsable : (p.below name).IsUsable) :
    p.IsUsable := by
  rcases text_below p hName with
    ⟨start, tail, hText, hSome, hStart⟩
  have hNull := hUsable.noNull
  have hShort := hUsable.short
  rw [hText, String.toList_append, List.mem_append, not_or]
    at hNull
  rw [hText, String.utf8ByteSize_append] at hShort
  refine ⟨?_, ?_, ?_⟩
  · rcases hStart with hStart | hStart
    · exact hStart ▸ hNull.1
    · rw [hStart]
      decide
  · rcases hStart with hStart | hStart
    · rw [hStart]
      omega
    · rw [hStart]
      decide
  · intro part hMem
    exact hUsable.parts part (List.mem_append_left _ hMem)

end FilePath

end BranchingStory

------------------------------------------------------------
-- Places
------------------------------------------------------------

namespace BranchingStory

namespace FileTree

variable {t t' : FileTree}
variable {place : List String}

/-
  An entry is put at its place.  It makes directories of the
  places above it where there is nothing yet, and changes no
  other place.
-/
theorem entryAt_put
    (t : FileTree)
    (place other : List String)
    (e : FileEntry) :
    (t.put place e).entryAt other =
      if place = other then some e
      else (t.entryAt other).or
        (if other <+: place then some .directory else none) := by
  unfold entryAt put
  dsimp only
  rw [Table.lookup_insert]
  by_cases hSame : place = other
  · rw [if_pos hSame, if_pos hSame]
  · rw [if_neg hSame, if_neg hSame]
    cases t.entries.lookup other with
    | some e' => rfl
    | none =>
        have hKeys :
            ((t.entries.insert place e).keys.any
                fun k => other.isPrefixOf k) =
              ((t.entries.keys.any
                fun k => other.isPrefixOf k) ||
                other.isPrefixOf place) := by
          rw [Table.keys_insert]
          split
          · next hMem =>
              rw [Bool.eq_iff_iff, Bool.or_eq_true]
              constructor
              · exact Or.inl
              · rintro (hAny | hPrefix)
                · exact hAny
                · exact List.any_eq_true.mpr
                    ⟨place, hMem, hPrefix⟩
          · simp
        dsimp only
        rw [hKeys, ← Bool.or_assoc]
        cases hAny : (other.isPrefixOf t.here ||
            t.entries.keys.any fun k => other.isPrefixOf k) with
        | true => rfl
        | false =>
            simp only [Bool.false_or, Bool.false_eq_true,
              if_false, Option.none_or,
              List.isPrefixOf_iff_prefix]

/- Whether all directories of a tree are those of another. -/
structure Extends
    (t t' : FileTree) : Prop where
  here : t'.here = t.here
  directories : ∀ place,
    t.entryAt place = some .directory →
      t'.entryAt place = some .directory

/- What is put where there is no directory destroys none. -/
theorem extends_put
    {e : FileEntry}
    (hOther : t.entryAt place ≠ some .directory) :
    t.Extends (t.put place e) := by
  refine ⟨rfl, ?_⟩
  intro other hDirectory
  rw [entryAt_put, if_neg, hDirectory]
  · rfl
  · rintro rfl
    exact hOther hDirectory

/- A way that can be walked can be walked in larger trees. -/
theorem walk_of_extends
    (hExtends : t.Extends t')
    {start : List String}
    {parts : List String}
    (hWalk : t.walk start parts = .ok place) :
    t'.walk start parts = .ok place := by
  induction parts generalizing start with
  | nil => exact hWalk
  | cons part parts ih =>
      rw [walk] at hWalk ⊢
      split at hWalk
      · cases hWalk
      · cases hWalk
      · next hDirectory =>
          rw [hExtends.directories _ hDirectory]
          dsimp only
          split at hWalk
          · cases hWalk
          · next hShort =>
              rw [if_neg hShort]
              exact ih hWalk

/- A path leads in larger trees to where it led before. -/
theorem locate_of_extends
    (hExtends : t.Extends t')
    {p : FilePath}
    (hPlace : t.locate p = .ok place) :
    t'.locate p = .ok place := by
  have hStart : t'.startOf p = t.startOf p := by
    rw [startOf, startOf, hExtends.here]
  unfold locate at hPlace ⊢
  split at hPlace
  · cases hPlace
  · next hNull =>
      rw [if_neg hNull]
      split at hPlace
      · cases hPlace
      · next hShort =>
          rw [if_neg hShort, hStart]
          exact walk_of_extends hExtends hPlace

/- A way with one more name is walked on from its end. -/
theorem walk_concat
    (start parts : List String)
    (part : String) :
    t.walk start (parts ++ [part]) =
      (t.walk start parts).bind fun place =>
        t.walk place [part] := by
  induction parts generalizing start with
  | nil => rfl
  | cons first parts ih =>
      rw [List.cons_append, walk, walk]
      split
      · rfl
      · rfl
      · split
        · rfl
        · exact ih _

/- Whether a path leads to a place with an entry. -/
structure Has
    (t : FileTree)
    (p : FilePath)
    (place : List String)
    (e : FileEntry) : Prop where
  leads : t.locate p = .ok place
  entry : t.entryAt place = some e

/- Whether there is nothing where a path leads. -/
def Lacks
    (t : FileTree)
    (p : FilePath) : Prop :=
  t.locate p = .error .missing ∨
    ∃ place, t.locate p = .ok place ∧ t.entryAt place = none

variable {p : FilePath}
variable {name : String}

/- A path that can be used is walked from its start. -/
theorem locate_of_isUsable
    (hUsable : p.IsUsable) :
    t.locate p = t.walk (t.startOf p) p.parts := by
  rw [locate, if_neg (by simpa using hUsable.noNull),
    if_neg (Nat.not_lt.mpr hUsable.short)]

/- A name below a path is looked up where the path leads. -/
theorem locate_below
    (hName : name ≠ "")
    (hUsable : (p.below name).IsUsable) :
    t.locate (p.below name) =
      (t.locate p).bind fun place => t.walk place [name] := by
  rw [locate_of_isUsable hUsable,
    locate_of_isUsable (hUsable.of_below hName)]
  exact walk_concat _ _ _

/- A name below a directory leads to a place below it. -/
theorem Has.locate_below
    (hHas : t.Has p place .directory)
    (hName : name ≠ "")
    (hAbove : name ≠ "..")
    (hUsable : (p.below name).IsUsable) :
    t.locate (p.below name) = .ok (place ++ [name]) := by
  have hShort :=
    hUsable.parts name
      (List.mem_append_right _ List.mem_cons_self)
  rw [FileTree.locate_below hName hUsable, hHas.leads]
  change t.walk place [name] = _
  rw [walk, hHas.entry]
  dsimp only
  rw [if_neg (Nat.not_lt.mpr hShort), walk, stepTo,
    if_neg hAbove]

/- There is nothing below what is not there. -/
theorem Lacks.locate_below
    (hLacks : t.Lacks p)
    (hName : name ≠ "")
    (hUsable : (p.below name).IsUsable) :
    t.locate (p.below name) = .error .missing := by
  rw [FileTree.locate_below hName hUsable]
  rcases hLacks with hNone | ⟨place, hPlace, hNone⟩
  · rw [hNone]
    rfl
  · rw [hPlace]
    change t.walk place [name] = _
    rw [walk, hNone]

/- A path without anything holds nothing. -/
theorem Lacks.holds
    (hLacks : t.Lacks p) :
    t.holds p = .ok false := by
  unfold FileTree.holds find?
  rcases hLacks with hNone | ⟨place, hPlace, hNone⟩
  · rw [hNone]
    rfl
  · rw [hPlace]
    dsimp only
    rw [hNone]
    rfl

/- Nothing is read from a path without anything. -/
theorem Lacks.read
    (hLacks : t.Lacks p) :
    t.read p = .error (.file ⟨.missing, p⟩) := by
  unfold FileTree.read contentAt
  rcases hLacks with hNone | ⟨place, hPlace, hNone⟩
  · rw [hNone]
  · rw [hPlace]
    dsimp only
    rw [hNone]

/- A path with an entry holds something. -/
theorem Has.holds
    {e : FileEntry}
    (hHas : t.Has p place e) :
    t.holds p = .ok true := by
  unfold FileTree.holds find?
  rw [hHas.leads]
  dsimp only
  rw [hHas.entry]
  rfl

/- The text of a file is read from its path. -/
theorem Has.read
    {s : String}
    (hHas : t.Has p place (.file (.text s))) :
    t.read p =
      .ok (String.ofList (unifyLineEnds s.toList)) := by
  unfold FileTree.read contentAt
  rw [hHas.leads]
  dsimp only
  rw [hHas.entry]
  rfl

/- What is there stays there in larger trees. -/
theorem Has.of_extends
    (hHas : t.Has p place .directory)
    (hExtends : t.Extends t') :
    t'.Has p place .directory :=
  ⟨locate_of_extends hExtends hHas.leads,
    hExtends.directories _ hHas.entry⟩

end FileTree

end BranchingStory

------------------------------------------------------------
-- Making Directories
------------------------------------------------------------

namespace BranchingStory

/- What comes after an action that is followed by another. -/
theorem run_bind_action
    {ε σ α β : Type}
    (x : ExceptT ε (StateM σ) α)
    (next : α → ExceptT ε (StateM σ) β)
    (s : σ) :
    ExceptT.run (x >>= next) s =
      match x.run s with
      | (.ok a, s') => (next a).run s'
      | (.error e, s') => (.error e, s') := by
  rw [ExceptT.run_bind]
  change StateT.bind x.run _ s = _
  unfold StateT.bind
  generalize x.run s = r
  rcases r with ⟨e | a, s'⟩
  · rfl
  · rfl

namespace Filing

open FileTree

variable {t t' : FileTree}
variable {p : FilePath}
variable {place : List String}
variable {name : String}

/- What comes after an action that may be recovered from. -/
theorem run_tryCatch
    (x : Filing Unit)
    (recover : FileError → Filing Unit)
    (t : FileTree) :
    (tryCatch x recover).run t =
      match x.run t with
      | (.ok u, t') => (.ok u, t')
      | (.error e, t') => (recover e).run t' := by
  change ExceptT.run (ExceptT.tryCatch x recover) t = _
  unfold ExceptT.tryCatch
  rw [ExceptT.run_mk]
  change StateT.bind x.run _ t = _
  unfold StateT.bind
  generalize x.run t = r
  rcases r with ⟨e | u, t'⟩
  · rfl
  · rfl

/- A new directory needs a place with nothing in it. -/
theorem run_makeNew
    (p : FilePath)
    (t : FileTree) :
    (makeNew p).run t =
      match t.locate p with
      | .error fault => (.error ⟨fault, p⟩, t)
      | .ok place =>
          if (t.entryAt place).isSome then
            (.error ⟨.alreadyThere, p⟩, t)
          else (.ok (), t.put place .directory) := by
  change ExceptT.run
    ((match t.locate p with
      | .error fault => throw ⟨fault, p⟩
      | .ok place =>
          if (t.entryAt place).isSome then
            throw ⟨.alreadyThere, p⟩
          else set (t.put place .directory)) : Filing Unit)
    t = _
  cases t.locate p with
  | error fault => rfl
  | ok place =>
      dsimp only
      split
      · rfl
      · rfl

/- A fault is passed over where there is a directory. -/
theorem run_tolerate
    (p : FilePath)
    (e : FileError)
    (t : FileTree) :
    (tolerate p e).run t =
      match t.find? p with
      | .error e' => (.error e', t)
      | .ok entry =>
          if entry = some .directory then (.ok (), t)
          else (.error e, t) := by
  change ExceptT.run
    ((match t.find? p with
      | .error e' => throw e'
      | .ok entry =>
          if entry = some .directory then pure ()
          else throw e) : Filing Unit) t = _
  cases t.find? p with
  | error e' => rfl
  | ok entry =>
      dsimp only
      split
      · rfl
      · rfl

/- A fault that is passed over leaves the tree as it was. -/
theorem tolerate_ok
    {e : FileError}
    (hRun : (tolerate p e).run t = (.ok (), t')) :
    t' = t ∧ ∃ place, t.Has p place .directory := by
  rw [run_tolerate] at hRun
  split at hRun
  · cases hRun
  · next entry hFind =>
      split at hRun
      · next hDirectory =>
          cases hRun
          refine ⟨rfl, ?_⟩
          unfold find? at hFind
          split at hFind
          · next place hPlace =>
              cases hFind
              exact ⟨place, hPlace, hDirectory⟩
          · cases hFind
          · cases hFind
            cases hDirectory
      · cases hRun

/- A directory that is new is where its path leads. -/
theorem makeNew_ok
    (hRun : (makeNew p).run t = (.ok (), t')) :
    t.Lacks p ∧ ∃ place, t.locate p = .ok place ∧
      t' = t.put place .directory ∧
        t'.Has p place .directory := by
  rw [run_makeNew] at hRun
  split at hRun
  · cases hRun
  · next place hPlace =>
      split at hRun
      · cases hRun
      · next hFree =>
          cases hRun
          rw [Option.isSome_iff_ne_none, not_not] at hFree
          have hExtends : t.Extends (t.put place .directory) :=
            extends_put (by simp [hFree])
          refine ⟨Or.inr ⟨place, hPlace, hFree⟩, place, hPlace,
            rfl, locate_of_extends hExtends hPlace, ?_⟩
          rw [entryAt_put, if_pos rfl]

/- A directory that cannot be made changes nothing. -/
theorem makeNew_error
    {e : FileError}
    (hRun : (makeNew p).run t = (.error e, t')) :
    t' = t := by
  rw [run_makeNew] at hRun
  split at hRun
  · cases hRun
    rfl
  · split at hRun
    · cases hRun
      rfl
    · cases hRun

/- How a directory is made, once what is above it is there. -/
def makeLast
    (p : FilePath) : Filing Unit :=
  tryCatch (makeNew p) (tolerate p)

/-
  If it is made, it is there in the end; and unless it is new,
  nothing has changed.
-/
theorem makeLast_ok
    (hRun : (makeLast p).run t = (.ok (), t')) :
    (∃ place, t'.Has p place .directory) ∧
      (t' = t ∨ t.Lacks p) := by
  rw [makeLast, run_tryCatch] at hRun
  split at hRun
  · next hNew =>
      cases hRun
      rcases makeNew_ok hNew with ⟨hLacks, place, _, _, hHas⟩
      exact ⟨⟨place, hHas⟩, Or.inr hLacks⟩
  · next hNew =>
      rcases tolerate_ok hRun with ⟨rfl, hHas⟩
      exact ⟨hHas, Or.inl (makeNew_error hNew)⟩

/- Where the way of a path does not end too early. -/
theorem run_makeDirectory_of_not
    (hThere : ¬ (t.locate p = .error .missing ∧ p.parts ≠ [])) :
    (makeDirectory p).run t = (makeLast p).run t := by
  rw [makeDirectory, makeLast, run_tryCatch, run_tryCatch]
  cases hNew : (makeNew p).run t with
  | mk r t' =>
      cases r with
      | ok u => rfl
      | error e =>
          dsimp only
          rw [if_neg]
          rintro ⟨hMissing, hParts⟩
          refine hThere ⟨?_, hParts⟩
          rw [run_makeNew] at hNew
          split at hNew
          · next fault hFault =>
              cases hNew
              exact hMissing ▸ hFault
          · split at hNew
            · cases hNew
              cases hMissing
            · cases hNew

/- Where it does, what is above is made first. -/
theorem run_makeDirectory_of_missing
    (hMissing : t.locate p = .error .missing)
    (hParts : p.parts ≠ []) :
    (makeDirectory p).run t =
      match (makeDirectory p.parent).run t with
      | (.ok _, t') => (makeLast p).run t'
      | (.error e, t') => (.error e, t') := by
  have hNew :
      (makeNew p).run t = (.error ⟨.missing, p⟩, t) := by
    rw [run_makeNew, hMissing]
  rw [makeDirectory, run_tryCatch, hNew]
  dsimp only
  rw [if_pos ⟨rfl, hParts⟩]
  rw [run_bind_action]
  rcases (makeDirectory p.parent).run t with ⟨e | u, t'⟩
  · rfl
  · rfl

/- The same with the directories above. -/
theorem makeDirectory_ok
    (hRun : (makeDirectory p).run t = (.ok (), t')) :
    (∃ place, t'.Has p place .directory) ∧
      (t' = t ∨ t.Lacks p) := by
  by_cases hEarly :
      t.locate p = .error .missing ∧ p.parts ≠ []
  · rw [run_makeDirectory_of_missing hEarly.1 hEarly.2] at hRun
    split at hRun
    · exact ⟨(makeLast_ok hRun).1, Or.inr (Or.inl hEarly.1)⟩
    · cases hRun
  · rw [run_makeDirectory_of_not hEarly] at hRun
    exact makeLast_ok hRun

/- What is right below a directory is made in one step. -/
theorem makeDirectory_below
    (hHas : t.Has p place .directory)
    (hName : name ≠ "")
    (hAbove : name ≠ "..")
    (hUsable : (p.below name).IsUsable)
    (hFree : ∀ content,
      t.entryAt (place ++ [name]) ≠ some (.file content)) :
    (makeDirectory (p.below name)).run t =
      (.ok (),
        if t.entryAt (place ++ [name]) = none then
          t.put (place ++ [name]) .directory
        else t) := by
  have hPlace := hHas.locate_below hName hAbove hUsable
  rw [run_makeDirectory_of_not (by simp [hPlace]), makeLast,
    run_tryCatch, run_makeNew, hPlace]
  dsimp only
  cases hEntry : t.entryAt (place ++ [name]) with
  | none => rfl
  | some e =>
      cases e with
      | file content => exact absurd hEntry (hFree content)
      | directory =>
          simp only [Option.isSome_some, if_true]
          rw [run_tolerate, find?, hPlace]
          simp [hEntry]

/-
  It does not matter whether the directory above has been made
  before or is made on the way.
-/
theorem makeDirectory_below_of_ok
    (hRun : (makeDirectory p).run t = (.ok (), t'))
    (hName : name ≠ "")
    (hAbove : name ≠ "..")
    (hUsable : (p.below name).IsUsable) :
    (makeDirectory (p.below name)).run t =
      (makeDirectory (p.below name)).run t' := by
  rcases makeDirectory_ok hRun with
    ⟨⟨place, hHas⟩, rfl | hLacks⟩
  · rfl
  · have hPlace := hHas.locate_below hName hAbove hUsable
    rw [run_makeDirectory_of_missing
        (hLacks.locate_below hName hUsable)
        (List.concat_ne_nil _ _),
      FilePath.parent_below, hRun,
      run_makeDirectory_of_not (by simp [hPlace])]

/- A file is written where there is no directory. -/
theorem write_below
    (hHas : t.Has p place .directory)
    (hName : name ≠ "")
    (hAbove : name ≠ "..")
    (hUsable : (p.below name).IsUsable)
    (hFree : t.entryAt (place ++ [name]) ≠ some .directory)
    (content : FileContent) :
    (Filing.write (p.below name) content).run t =
      (.ok (), t.put (place ++ [name]) (.file content)) := by
  have hGet : (get : Filing FileTree).run t = (.ok t, t) := rfl
  unfold Filing.write
  rw [run_bind_action, hGet]
  dsimp only
  rw [hHas.locate_below hName hAbove hUsable]
  dsimp only
  split
  · next hDirectory => exact absurd hDirectory hFree
  · rfl

end Filing

end BranchingStory
