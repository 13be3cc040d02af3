/-
**Paths.**

A path is a text, cut at slashes.  It is kept as it was given, since messages show it that way;
where a path is joined to another or its parent is taken, repeated slashes and single points count
for nothing.  Paths that are given to the program are text; the names in a directory need not be.

Main definitions:

* `LineChat.Path.isAbsolute`, `LineChat.Path.join` — **one path under another**;
* `LineChat.Path.parent?`, `LineChat.Path.ancestors` — the directories above;
* `LineChat.Path.steps` — the names that lead to a file.

Main results:

* `LineChat.Path.join_of_isAbsolute` — an absolute path stays what it is under any other.
-/

import LineChat.Files.Name

set_option autoImplicit false

namespace LineChat.Path

/-- Whether a path starts at the root. -/
def isAbsolute (path : String) : Bool := path.toList.head? = some '/'

/-- **One path under another**, with a slash between them unless there is one. -/
def join (directory path : String) : String :=
  if isAbsolute path ∨ directory = "" then path
  else if directory.toList.getLast? = some '/' then directory ++ path
  else directory ++ "/" ++ path

/-- An absolute path stays what it is under any other. -/
theorem join_of_isAbsolute {path : String} (h : isAbsolute path = true) (directory : String) :
    join directory path = path := by
  simp [join, h]

/-- The parts of a path between slashes. -/
def parts (path : String) : List String := (path.toList.splitOn '/').map String.ofList

/-- Whether a part leads nowhere: it is empty or a single point. -/
def isIdle (part : String) : Bool := part = "" || part = "."

/-- The names that lead from where a path starts to a file. -/
def steps (path : String) : List FileName :=
  ((parts path).filter (!isIdle ·)).map FileName.ofText

/-- Whether a path says that it leads to a directory: it ends with a slash or a single point. -/
def wantsDirectory (path : String) : Bool := (parts path).getLast?.any isIdle

/-- Parts without those at their end that lead nowhere. -/
def dropIdle (ps : List String) : List String := (ps.reverse.dropWhile isIdle).reverse

/-- **The directory that holds a file**, the empty path for a path of a single name. -/
def parent? (path : String) : Option String :=
  let absolute := isAbsolute path
  let names := dropIdle (if absolute then (parts path).drop 1 else parts path)
  if names = [] then none
  else some ((if absolute then "/" else "") ++ "/".intercalate (dropIdle names.dropLast))

/-- Up to `fuel` directories above a path, the nearest first. -/
def ancestorsUpTo : Nat → String → List String
  | 0, _ => []
  | fuel + 1, path =>
      match parent? path with
      | some parent => parent :: ancestorsUpTo fuel parent
      | none => []

/-- **The directories above a path**, the nearest first; every one is shorter than the one below. -/
def ancestors (path : String) : List String := ancestorsUpTo path.length path

end LineChat.Path
