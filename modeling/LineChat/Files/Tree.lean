/-
**A tree of files.**

A tree of files is a list of what is at which place, a place being the names that lead there from
the root.  Every operation first finds the place that a path stands for, passing through directories
only; names may lead back up.

Main definitions:

* `LineChat.FileTree` — files and directories by their places, and the place that paths start from;
* `LineChat.FileTree.place` — **the place a path stands for**;
* `LineChat.FileTree.read`, `LineChat.FileTree.write`, `LineChat.FileTree.makeDirectory`,
  `LineChat.FileTree.entriesOf` — the operations;
* `LineChat.FileTree.files` — all files.
-/

import LineChat.Files.Access

set_option autoImplicit false

namespace LineChat

/-- **What is at a place**: a file with its content, or a directory. -/
inductive FileEntry where
  | file (content : Bytes)
  | directory
  deriving DecidableEq, Repr

/-- **Files and directories by their places**, and the place that paths start from. -/
structure FileTree where
  nodes : List (List FileName × FileEntry) := []
  here : List FileName := []
  deriving DecidableEq, Repr

namespace FileTree

/-- What is at a place.  The root is a directory. -/
def entry? (t : FileTree) (place : List FileName) : Option FileEntry :=
  if place = [] then some .directory else (t.nodes.find? (·.1 == place)).map (·.2)

/-- The place one name further, if there is a directory to start from. -/
def enter (t : FileTree) (place : List FileName) (name : FileName) :
    Except IoError (List FileName) :=
  match t.entry? place with
  | none => .error (.ofKind .notFound)
  | some (.file _) => .error (.ofKind .notADirectory)
  | some .directory =>
      if 255 < name.bytes.length then .error (.ofKind .invalidFilename)
      else if name = ".." then .ok place.dropLast
      else .ok (place ++ [name])

/-- **The place a path stands for**; whether something is there is another question. -/
def place (t : FileTree) (path : String) : Except IoError (List FileName) :=
  if path = "" then .error (.ofKind .notFound)
  else if path.toList.contains '\x00' then .error .badPath
  else (Path.steps path).foldlM t.enter (if Path.isAbsolute path then [] else t.here)

/-- What a path leads to. -/
def find (t : FileTree) (path : String) : Except IoError FileEntry := do
  match t.entry? (← t.place path) with
  | none => .error (.ofKind .notFound)
  | some .directory => .ok .directory
  | some (.file content) =>
      if Path.wantsDirectory path then .error (.ofKind .notADirectory) else .ok (.file content)

/-- The content of a file. -/
def read (t : FileTree) (path : String) : Except IoError Bytes := do
  match ← t.find path with
  | .file content => .ok content
  | .directory => .error (.ofKind .isADirectory)

/-- A node put at a place. -/
def put (t : FileTree) (place : List FileName) (entry : FileEntry) : FileTree :=
  if (t.nodes.any (·.1 == place)) then
    { t with nodes := t.nodes.map fun n => if n.1 = place then (place, entry) else n }
  else { t with nodes := t.nodes ++ [(place, entry)] }

/-- Writes a file. -/
def write (t : FileTree) (path : String) (content : Bytes) : Except IoError FileTree := do
  let place ← t.place path
  match t.entry? place with
  | some .directory => .error (.ofKind .isADirectory)
  | _ =>
      if Path.wantsDirectory path then .error (.ofKind .isADirectory)
      else if (t.entry? place.dropLast) = some .directory then .ok (t.put place (.file content))
      else .error (.ofKind .notFound)

/-- Makes a directory. -/
def makeDirectory (t : FileTree) (path : String) : Except IoError FileTree := do
  let place ← t.place path
  match t.entry? place with
  | some _ => .error (.ofKind .alreadyExists)
  | none => .ok (t.put place .directory)

/-- The names in a directory, in the order in which they were made. -/
def entriesOf (t : FileTree) (path : String) : Except IoError (List FileName) := do
  match ← t.find path with
  | .file _ => .error (.ofKind .notADirectory)
  | .directory =>
      let place ← t.place path
      .ok ((t.nodes.filter fun n => n.1 ≠ [] ∧ n.1.dropLast = place).filterMap (·.1.getLast?))

/-- **All files under a place** that a text leads to from there, by these texts, sorted. -/
def files (t : FileTree) (place : List FileName) : List String :=
  let below := t.nodes.filter fun n => place.isPrefixOf n.1 && n.2 != .directory
  let shown := below.filterMap fun n =>
    ((n.1.drop place.length).mapM FileName.text?).map ("/".intercalate ·)
  shown.mergeSort fun a b => decide (a ≤ b)

/-- A state change that may fail. -/
def attempt (change : FileTree → Except IoError FileTree) :
    StateM FileTree (Except IoError Unit) := do
  match change (← get) with
  | .ok t => set t; return .ok ()
  | .error e => return .error e

instance : FileAccess (StateM FileTree) where
  read path := return (← get).read path
  write path content := attempt (·.write path content)
  exists? path := return ((← get).find path).toBool
  isDirectory path := return ((← get).find path).toOption = some .directory
  makeDirectory path := attempt (·.makeDirectory path)
  entries path := return (← get).entriesOf path

end FileTree

end LineChat
