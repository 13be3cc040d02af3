/-
**Access to files.**

What the program does with files is said in terms of a few operations, which the operating system
provides when it runs and a tree of files provides when it is reasoned about.  Every operation may
fail, and says how.

Main definitions:

* `LineChat.FileAccess` — **the operations**;
* `LineChat.readText` — a file as text;
* `LineChat.createDirectories` — a directory with those above it.
-/

import LineChat.Files.Path
import LineChat.Host.Failure
import LineChat.Text.Utf8

set_option autoImplicit false

namespace LineChat

/-- **Operations on files.** -/
class FileAccess (m : Type → Type) where
  /-- The content of a file. -/
  read : String → m (Except IoError Bytes)
  /-- Writes a file, replacing what it held. -/
  write : String → Bytes → m (Except IoError Unit)
  /-- Whether there is a file or a directory. -/
  exists? : String → m Bool
  /-- Whether there is a directory. -/
  isDirectory : String → m Bool
  /-- Makes a directory in one that is there. -/
  makeDirectory : String → m (Except IoError Unit)
  /-- The names in a directory, in any order. -/
  entries : String → m (Except IoError (List FileName))

variable {m : Type → Type} [Monad m] [FileAccess m]

/-- **A file as text.** -/
def readText (path : String) : m (Except IoError String) := do
  match ← FileAccess.read path with
  | .error e => return .error e
  | .ok bytes => return (Text.ofUtf8 bytes).mapError fun _ => .notText

/-- Makes the first of some directories, each of which is in the next; those that are there already
are left alone. -/
def createFirst : List String → m (Except IoError Unit)
  | [] => return .ok ()
  | path :: above =>
      if path = "" then return .ok ()
      else do
        match ← FileAccess.makeDirectory path with
        | .ok () => return .ok ()
        | .error e =>
            if e.kind = .notFound then
              match ← createFirst above with
              | .error e => return .error e
              | .ok () => settle (← FileAccess.makeDirectory path) path
            else settle (.error e) path
where
  /-- A directory that could not be made is as good as made if it is there. -/
  settle (made : Except IoError Unit) (path : String) : m (Except IoError Unit) := do
    match made with
    | .ok () => return .ok ()
    | .error e => if ← FileAccess.isDirectory path then return .ok () else return .error e

/-- **A directory with those above it.** -/
def createDirectories (path : String) : m (Except IoError Unit) :=
  createFirst (path :: Path.ancestors path)

end LineChat
