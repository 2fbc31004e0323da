import BranchingStory.Files.Path
import BranchingStory.Table
import BranchingStory.Text.Quoted
import BranchingStory.Text.Utf8

/-
  This file defines trees of files, with the faults of reading
  and writing in them.

  Key definitions include:
    * `FileFault`
    * `FileError`
    * `FileError.message`
    * `ReadFault`
    * `FileContent`
    * `FileTree`
    * `FileTree.entryAt`
    * `FileTree.locate`
    * `FileTree.holds`
    * `FileTree.read`
    * `Filing`
    * `Filing.write`
    * `Filing.makeDirectory`
    * `FileTree.childNames`
    * `FileTree.filesBelow`
-/

------------------------------------------------------------
-- Faults
------------------------------------------------------------

namespace BranchingStory

/- What can be wrong with a path. -/
inductive FileFault where
  | missing
  | alreadyThere
  | notADirectory
  | isADirectory
  | nameTooLong
  | nullCharacter
deriving DecidableEq, Repr

/- The wording of a fault, and its number if it has one. -/
def FileFault.text : FileFault → String
  | .missing => "[Errno 2] No such file or directory"
  | .alreadyThere => "[Errno 17] File exists"
  | .notADirectory => "[Errno 20] Not a directory"
  | .isADirectory => "[Errno 21] Is a directory"
  | .nameTooLong => "[Errno 36] File name too long"
  | .nullCharacter => "embedded null byte"

/- A fault, and the path that it is about. -/
structure FileError where
  fault : FileFault
  path : FilePath
deriving DecidableEq, Repr

/- The wording of an error.  It shows the path if it can be. -/
def FileError.message
    (e : FileError) : String :=
  if e.fault = .nullCharacter then e.fault.text
  else s!"{e.fault.text}: {quotedText e.path.text}"

/- Why a text cannot be read from a file. -/
inductive ReadFault where
  | file (e : FileError)
  | encoding (e : Utf8.Error)
deriving DecidableEq, Repr

/- The wording of a fault of reading. -/
def ReadFault.message : ReadFault → String
  | .file e => e.message
  | .encoding e => e.message

end BranchingStory

------------------------------------------------------------
-- Contents
------------------------------------------------------------

namespace BranchingStory

/- What a file holds: a text in UTF-8, or any bytes. -/
inductive FileContent where
  | text (s : String)
  | bytes (bs : List UInt8)
deriving DecidableEq, Repr

/- The text of a file before its line ends are unified. -/
def FileContent.decode :
    FileContent → Except Utf8.Error String
  | .text s => .ok s
  | .bytes bs => Utf8.decode bs

/- The text of a file, with line feeds for all line ends. -/
def FileContent.read
    (c : FileContent) : Except Utf8.Error String :=
  c.decode.map fun s =>
    String.ofList (unifyLineEnds s.toList)

/- What stands at a place of a tree. -/
inductive FileEntry where
  | file (content : FileContent)
  | directory
deriving DecidableEq, Repr

end BranchingStory

------------------------------------------------------------
-- Trees
------------------------------------------------------------

namespace BranchingStory

/-
  A tree of files.  Its places are lists of names from the root
  on; `here` is the place that relative paths start from.
-/
structure FileTree where
  here : List String
  entries : Table (List String) FileEntry

namespace FileTree

/- The tree without any entry. -/
def empty
    (here : List String) : FileTree :=
  ⟨here, .empty⟩

/- Put an entry at a place. -/
def put
    (place : List String)
    (e : FileEntry)
    (t : FileTree) : FileTree :=
  { t with entries := t.entries.insert place e }

/-
  What stands at a place.  The places above an entry, and those
  above the current place, are directories.
-/
def entryAt
    (t : FileTree)
    (place : List String) : Option FileEntry :=
  match t.entries.lookup place with
  | some e => some e
  | none =>
      if place.isPrefixOf t.here ||
          t.entries.keys.any fun k => place.isPrefixOf k then
        some .directory
      else none

/- The place that a name leads to from another place. -/
def stepTo
    (place : List String)
    (part : String) : List String :=
  if part = ".." then place.dropLast else place ++ [part]

/- The most bytes that a name can have. -/
def maxNameBytes : Nat :=
  255

/- The most bytes that a path can have. -/
def maxPathBytes : Nat :=
  4095

/-
  The place that some names lead to from a directory.  A name
  that is too long is noticed where it is looked up.
-/
def walk
    (t : FileTree)
    (place : List String) :
    List String → Except FileFault (List String)
  | [] => .ok place
  | part :: rest =>
      match t.entryAt place with
      | none => .error .missing
      | some (.file _) => .error .notADirectory
      | some .directory =>
          if maxNameBytes < part.utf8ByteSize then
            .error .nameTooLong
          else t.walk (stepTo place part) rest

/- The place where the way of a path begins. -/
def startOf
    (t : FileTree)
    (p : FilePath) : List String :=
  if p.root.isEmpty then t.here else []

/- The place of a path. -/
def locate
    (t : FileTree)
    (p : FilePath) : Except FileFault (List String) :=
  if p.text.toList.contains '\x00' then .error .nullCharacter
  else if maxPathBytes < p.text.utf8ByteSize then
    .error .nameTooLong
  else t.walk (t.startOf p) p.parts

/- What stands at a path, if anything does. -/
def find?
    (t : FileTree)
    (p : FilePath) : Except FileError (Option FileEntry) :=
  match t.locate p with
  | .ok place => .ok (t.entryAt place)
  | .error .nameTooLong => .error ⟨.nameTooLong, p⟩
  | .error _ => .ok none

/-
  Whether there is anything at a path.  Only a name that is too
  long makes the question itself a fault.
-/
def holds
    (t : FileTree)
    (p : FilePath) : Except FileError Bool :=
  (t.find? p).map Option.isSome

end FileTree

end BranchingStory

------------------------------------------------------------
-- Reading And Writing
------------------------------------------------------------

namespace BranchingStory

namespace FileTree

/- What the file at a path holds. -/
def contentAt
    (t : FileTree)
    (p : FilePath) : Except FileError FileContent :=
  match t.locate p with
  | .error fault => .error ⟨fault, p⟩
  | .ok place =>
      match t.entryAt place with
      | none => .error ⟨.missing, p⟩
      | some .directory => .error ⟨.isADirectory, p⟩
      | some (.file c) => .ok c

/- The text of the file at a path. -/
def read
    (t : FileTree)
    (p : FilePath) : Except ReadFault String :=
  match t.contentAt p with
  | .error e => .error (.file e)
  | .ok c => c.read.mapError .encoding

end FileTree

/-
  An action on a tree of files.  A fault does not undo what has
  been done before it.
-/
abbrev Filing :=
  ExceptT FileError (StateM FileTree)

namespace Filing

/- Give the file at a path its content. -/
def write
    (p : FilePath)
    (content : FileContent) : Filing Unit := do
  let t ← get
  match t.locate p with
  | .error fault => throw ⟨fault, p⟩
  | .ok place =>
      match t.entryAt place with
      | some .directory => throw ⟨.isADirectory, p⟩
      | _ => set (t.put place (.file content))

/- Make the directory at a path, where there is nothing yet. -/
def makeNew
    (p : FilePath) : Filing Unit := do
  let t ← get
  match t.locate p with
  | .error fault => throw ⟨fault, p⟩
  | .ok place =>
      if (t.entryAt place).isSome then
        throw ⟨.alreadyThere, p⟩
      else set (t.put place .directory)

/- Pass over a fault if there is a directory at a path. -/
def tolerate
    (p : FilePath)
    (e : FileError) : Filing Unit := do
  match (← get).find? p with
  | .error e' => throw e'
  | .ok entry =>
      if entry = some .directory then return ()
      else throw e

/-
  Make the directory at a path and those above it, as far as
  they are not there yet.
-/
def makeDirectory
    (p : FilePath) : Filing Unit :=
  tryCatch (makeNew p) fun e =>
    if e.fault = .missing ∧ p.parts ≠ [] then do
      makeDirectory p.parent
      tryCatch (makeNew p) (tolerate p)
    else tolerate p e
termination_by p.parts.length
decreasing_by
  rename_i h
  have : 0 < p.parts.length :=
    List.length_pos_iff.mpr h.2
  simp only [FilePath.parent, List.length_dropLast]
  omega

end Filing

end BranchingStory

------------------------------------------------------------
-- Listing
------------------------------------------------------------

namespace BranchingStory

namespace FileTree

/- The names right below a place, each once, in order. -/
def childNames
    (t : FileTree)
    (place : List String) : List String :=
  let names :=
    t.entries.keys.filterMap fun k =>
      if place.isPrefixOf k then k[place.length]? else none
  names.eraseDups.mergeSort fun a b => a ≤ b

/- The ways from a place to all the files below it. -/
def filesBelow
    (t : FileTree)
    (place : List String) : List (List String) :=
  t.entries.entries.filterMap fun (k, e) =>
    match e with
    | .file _ =>
        if place.isPrefixOf k then some (k.drop place.length)
        else none
    | .directory => none

end FileTree

end BranchingStory
