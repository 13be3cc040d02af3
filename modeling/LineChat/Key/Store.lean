/-
**Key files.**

Private and public keys are text files; the users that may log in are the public keys in one
directory, each in a file named for its user; the secret for private messages is a file of
hexadecimal digits.  A file of the directory whose name is no user's counts for nothing, be it text
or not, and one that is a user's must be readable, or nobody's key is loaded.  A file that exists is
never overwritten.

Main definitions:

* `LineChat.KeyFileError` — what can go wrong with key files;
* `LineChat.loadPrivateKey`, `LineChat.loadPublicKey`, `LineChat.loadSecret` — reading one file;
* `LineChat.userOf?` — whose key a file name says it holds;
* `LineChat.loadUsers` — **reading the directory of users**;
* `LineChat.generateSecret`, `LineChat.generatePair` — writing new files.
-/

import LineChat.Files.Access
import LineChat.Handshake.Message
import LineChat.Key.Generate
import LineChat.Private.Sealed
import LineChat.Registry

set_option autoImplicit false

namespace LineChat

/-! ### Errors -/

/-- **What can go wrong with key files.** -/
inductive KeyFileError where
  | read (path : String) (source : IoError)
  | write (path : String) (source : IoError)
  /-- The file was read, and holds no key. -/
  | invalid (path : String) (source : LineError)
  /-- The key to be made is too small. -/
  | keyTooSmall (bits : Nat)
  /-- No key could be made. -/
  | generation (detail : String)
  | alreadyExists (path : String)
  deriving DecidableEq, Repr

/-- The smallest size of a key, in bits, whose envelopes hold the second message of a handshake. -/
def minKeyBits : Nat := 2048

/-- The size of a new key if none is asked for. -/
def defaultKeyBits : Nat := 2048

namespace KeyFileError

/-- The wording of an error. -/
def message : KeyFileError → String
  | read path source => s!"failed to read {path}: {source.text}"
  | write path source => s!"failed to write {path}: {source.text}"
  | invalid path source => s!"invalid key in {path}: {source.message}"
  | keyTooSmall bits => s!"key size must be at least {minKeyBits} bits, got {bits}"
  | generation detail => s!"key generation failed: {detail}"
  | alreadyExists path => s!"{path} already exists"

/-- The name of an error's kind. -/
def name : KeyFileError → String
  | read _ _ => "Read"
  | write _ _ => "Write"
  | invalid _ _ => "Invalid"
  | keyTooSmall _ => "KeyTooSmall"
  | generation _ => "Generation"
  | alreadyExists _ => "AlreadyExists"

/-- The wording of the errors behind an error. -/
def causes : KeyFileError → List String
  | read _ source | write _ source => [source.text]
  | invalid _ source => [source.message]
  | _ => []

end KeyFileError

/-! ### Reading -/

variable {m : Type → Type} [Monad m] [FileAccess m]

/-- Reads a file and makes something of its text. -/
def loadWith {α : Type} (parse : String → Except LineError α) (path : String) :
    m (Except KeyFileError α) := do
  match ← readText path with
  | .error e => return .error (.read path e)
  | .ok text =>
      match parse text with
      | .ok a => return .ok a
      | .error e => return .error (.invalid path e)

/-- Reads a private key. -/
def loadPrivateKey (path : String) : m (Except KeyFileError PrivateKey) :=
  loadWith PrivateKey.ofText path

/-- Reads a public key. -/
def loadPublicKey (path : String) : m (Except KeyFileError PublicKey) :=
  loadWith PublicKey.ofText path

/-- Reads a shared secret. -/
def loadSecret (path : String) : m (Except KeyFileError SharedSecret) :=
  loadWith SharedSecret.ofHex path

/-- What the name of a public key's file ends with. -/
def publicKeyEnding : String := ".pub.pem"

/-- **The name of the file that holds a user's public key.** -/
def userFile (user : String) : String := user ++ publicKeyEnding

/-- A text without its ending, if it ends so. -/
def dropEnding? (ending text : String) : Option String :=
  if ending.toList.isSuffixOf text.toList then
    some (String.ofList (text.toList.take (text.length - ending.length)))
  else none

/-- **Whose key a file name says it holds**: a user's who can log in, or nobody's.  A name that is
not text is nobody's. -/
def userOf? (name : FileName) : Option String := do
  let user ← dropEnding? publicKeyEnding (← name.text?)
  match checkUsername user with
  | .ok _ => some user
  | .error _ => none

/-- Reads the keys of some files of a directory, those of users behind those in `done`. -/
def loadUsersFrom (directory : String) (done : List (String × PublicKey)) :
    List FileName → m (Except KeyFileError (List (String × PublicKey)))
  | [] => return .ok done
  | name :: names =>
      match userOf? name with
      | none => loadUsersFrom directory done names
      | some user => do
          match ← loadPublicKey (Path.join directory (userFile user)) with
          | .error e => return .error e
          | .ok key => loadUsersFrom directory (done ++ [(user, key)]) names

/-- **Reads the directory of users.** -/
def loadUsers (directory : String) : m (Except KeyFileError (List (String × PublicKey))) := do
  match ← FileAccess.entries directory with
  | .error e => return .error (.read directory e)
  | .ok names => loadUsersFrom directory [] names

/-- The registry of the users of a directory, none of them logged in. -/
def loadRegistry (directory : String) : m (Except KeyFileError Registry) := do
  return (← loadUsers directory).map Registry.ofKeys

/-! ### Writing -/

/-- Writes a file, making the directories it is in. -/
def writeFile (path text : String) : m (Except KeyFileError Unit) := do
  match Path.parent? path with
  | none => finish
  | some parent =>
      match ← createDirectories parent with
      | .error e => return .error (.write parent e)
      | .ok () => finish
where
  /-- Writes the file into a directory that is there. -/
  finish : m (Except KeyFileError Unit) := do
    match ← FileAccess.write path (Text.utf8 text) with
    | .error e => return .error (.write path e)
    | .ok () => return .ok ()

/-- The number of bytes of a new secret. -/
def secretLength : Nat := 32

/-- **Writes a new secret**, made of random bytes. -/
def generateSecret (path : String) (random : Bytes) : m (Except KeyFileError Unit) := do
  if ← FileAccess.exists? path then return .error (.alreadyExists path)
  else writeFile path (Hex.encode random ++ "\n")

/-- The files of a new key pair: the private key's and the public key's. -/
def pairFiles (directory name : String) : String × String :=
  (Path.join directory (name ++ ".pem"), Path.join directory (userFile name))

/-- **Refuses a new key pair** whose keys are too small or whose files are there already. -/
def checkPair (directory name : String) (bits : Nat) : m (Except KeyFileError Unit) := do
  let files := pairFiles directory name
  if bits < minKeyBits then return .error (.keyTooSmall bits)
  else if ← FileAccess.exists? files.1 then return .error (.alreadyExists files.1)
  else if ← FileAccess.exists? files.2 then return .error (.alreadyExists files.2)
  else return .ok ()

/-- The number of random bytes that a key pair of so many bits is made of. -/
def pairRandomness (bits : Nat) : Nat := bits / 8 + 16

/-- **Writes a new key pair**, made of random bytes; the files come with it. -/
def generatePair [RandomSource m] (directory name : String) (bits : Nat) :
    m (Except KeyFileError (String × String)) := do
  match ← checkPair directory name bits with
  | .error e => return .error e
  | .ok () =>
      let files := pairFiles directory name
      match PrivateKey.ofRandom? bits (← RandomSource.draw (pairRandomness bits)).toList with
      | none => return .error (.generation "no primes found")
      | some key =>
          match ← writeFile files.1 key.toText with
          | .error e => return .error e
          | .ok () =>
              return (← writeFile files.2 key.toPublic.toText).map fun () => files

end LineChat
