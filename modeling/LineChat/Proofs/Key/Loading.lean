/-
**Whose keys are loaded, and who can log in with them.**

Reading the directory of users takes the keys of all files that are named for a user.  It makes sure
that the name can stand in a login and that the key is one, and of no more than 4096 bits.  It does
not ask how small the key is, nor how long the name.  So the first message of a handshake may be too
long for the server's key, and the second one for the user's: that user is loaded and can never log
in.  All others can, as far as the sizes of the messages go.

Main definitions:

* `LineChat.FileTree.keyAt` — the public key in a file;
* `LineChat.PublicKey.Carries` — **a line that can be written under a key**;
* `LineChat.CanLogIn` — both messages that are written under a key can be written.

Main results:

* `LineChat.mem_loadUsers` — **whose keys are loaded**;
* `LineChat.PublicKey.carries_iff` — how long a line may be;
* `LineChat.canLogIn_of_loadUsers` — **which of the users that are loaded can log in**;
* `LineChat.not_every_loaded_user_logs_in` — not all of them can.
-/

import LineChat.Files.Tree
import LineChat.Key.Store
import LineChat.Proofs.Channel.EnvelopeCipher
import LineChat.Proofs.Handshake.Message
import LineChat.Proofs.Key.RoundTrip

set_option autoImplicit false

namespace LineChat

/-! ### Keys that are read -/

namespace PublicKey

variable {k : PublicKey} {bs : Bytes} {text : String}

theorem isValid_of_check? {k' : PublicKey} (h : check? k = some k') : k'.isValid = true := by
  rw [check?] at h
  split at h
  · rename_i hvalid
    cases h
    exact hvalid
  · cases h

theorem isValid_of_read? (h : read? bs = some k) : k.isValid = true := by
  simp only [read?, Option.bind_eq_bind, Option.bind_eq_some_iff] at h
  obtain ⟨content, -, elements, -, numbers, -, h⟩ := h
  split at h
  · exact isValid_of_check? h
  · cases h

theorem isValid_of_unwrap? (h : unwrap? bs = some k) : k.isValid = true := by
  simp only [unwrap?, Option.bind_eq_bind, Option.bind_eq_some_iff] at h
  obtain ⟨content, -, elements, -, h⟩ := h
  split at h
  · split at h
    · obtain ⟨bits, -, hread⟩ := Option.bind_eq_some_iff.1 h
      exact isValid_of_read? hread
    · cases h
  · cases h

/-- **A key that was read was checked.** -/
theorem isValid_of_ofText (h : ofText text = .ok k) : k.isValid = true := by
  rw [ofText, ofText?] at h
  split at h
  next k' hfound =>
    cases h
    split at hfound
    next hwrapped =>
      cases hfound
      obtain ⟨content, -, hunwrap⟩ := Option.bind_eq_some_iff.1 hwrapped
      exact isValid_of_unwrap? hunwrap
    next =>
      obtain ⟨content, -, hread⟩ := Option.bind_eq_some_iff.1 hfound
      exact isValid_of_read? hread
  next => cases h

theorem bits_le_of_isValid (h : k.isValid = true) : k.bits ≤ maxBits := by
  rw [isValid, Bool.and_eq_true, decide_eq_true_eq] at h
  exact h.1

end PublicKey

/-! ### The directory -/

theorem checkUsername_of_userOf? {name : FileName} {user : String}
    (h : userOf? name = some user) : checkUsername user = .ok () := by
  simp only [userOf?, Option.bind_eq_bind, Option.bind_eq_some_iff] at h
  obtain ⟨text, -, front, -, hcheck⟩ := h
  split at hcheck
  next hname =>
    cases hcheck
    exact hname
  next => cases hcheck

variable {tree : FileTree} {directory path : String} {users : List (String × PublicKey)}

/-- **The public key in a file.** -/
def FileTree.keyAt (tree : FileTree) (path : String) : Except KeyFileError PublicKey :=
  match tree.read path with
  | .error e => .error (.read path e)
  | .ok bytes =>
      match Text.ofUtf8 bytes with
      | .error _ => .error (.read path .notText)
      | .ok text => (PublicKey.ofText text).mapError (.invalid path)

/-- Reading a key changes no file. -/
theorem loadPublicKey_eq (tree : FileTree) (path : String) :
    loadPublicKey (m := StateM FileTree) path tree = (tree.keyAt path, tree) := by
  have hread : FileAccess.read (m := StateM FileTree) path tree = (tree.read path, tree) := rfl
  have hpure : ∀ r : Except IoError String, (pure r : StateM FileTree _) tree = (r, tree) :=
    fun _ => rfl
  simp only [loadPublicKey, loadWith, readText, bind, StateT.bind, hread]
  rw [FileTree.keyAt]
  cases tree.read path with
  | error e => rfl
  | ok bytes =>
      simp only [hpure]
      cases Text.ofUtf8 bytes with
      | error fault => rfl
      | ok text =>
          simp only [Except.mapError]
          cases PublicKey.ofText text <;> rfl

theorem isValid_of_keyAt {key : PublicKey} (h : tree.keyAt path = .ok key) :
    key.isValid = true := by
  rw [FileTree.keyAt] at h
  split at h
  next => cases h
  next =>
    split at h
    next => cases h
    next text _ =>
      cases hkey : PublicKey.ofText text with
      | error e =>
          rw [hkey] at h
          cases h
      | ok key' =>
          rw [hkey] at h
          cases h
          exact PublicKey.isValid_of_ofText hkey

/-- **The files that are read**: a file that is named for a user must hold a key. -/
theorem loadUsersFrom_cons (done : List (String × PublicKey)) (name : FileName)
    (names : List FileName) :
    loadUsersFrom (m := StateM FileTree) directory done (name :: names) tree =
      match userOf? name with
      | none => loadUsersFrom (m := StateM FileTree) directory done names tree
      | some user =>
          match tree.keyAt (Path.join directory (userFile user)) with
          | .error e => (.error e, tree)
          | .ok key =>
              loadUsersFrom (m := StateM FileTree) directory (done ++ [(user, key)]) names
                tree := by
  rw [loadUsersFrom]
  cases userOf? name with
  | none => rfl
  | some user =>
      simp only [bind, StateT.bind, loadPublicKey_eq]
      cases tree.keyAt (Path.join directory (userFile user)) <;> rfl

/-- A user of a directory, whose key is in the file that is named for the user. -/
def FileTree.HoldsUser (tree : FileTree) (directory : String) (names : List FileName)
    (user : String × PublicKey) : Prop :=
  ∃ name ∈ names, userOf? name = some user.1 ∧
    tree.keyAt (Path.join directory (userFile user.1)) = .ok user.2

theorem mem_loadUsersFrom {done : List (String × PublicKey)} {names : List FileName}
    (h : (loadUsersFrom (m := StateM FileTree) directory done names tree).1 = .ok users)
    (user : String × PublicKey) :
    user ∈ users ↔ user ∈ done ∨ tree.HoldsUser directory names user := by
  induction names generalizing done with
  | nil =>
      cases h
      simp [FileTree.HoldsUser]
  | cons name names ih =>
      rw [loadUsersFrom_cons] at h
      split at h
      next hname => simp [ih h, FileTree.HoldsUser, hname]
      next first hname =>
        split at h
        next => cases h
        next key hkey =>
          have hfirst : user = (first, key) ↔ userOf? name = some user.1 ∧
              tree.keyAt (Path.join directory (userFile user.1)) = .ok user.2 := by
            obtain ⟨other, key'⟩ := user
            rw [hname, Prod.mk.injEq, Option.some_inj, eq_comm]
            refine and_congr_right fun hsame => ?_
            rw [← hsame, hkey, Except.ok.injEq, eq_comm]
          rw [ih h, List.mem_append, List.mem_singleton, hfirst, FileTree.HoldsUser,
            FileTree.HoldsUser, List.exists_mem_cons_iff, or_assoc]

/-- **Whose keys are loaded**: those of all files of the directory that are named for a user. -/
theorem mem_loadUsers (h : (loadUsers (m := StateM FileTree) directory tree).1 = .ok users) :
    ∃ names, tree.entriesOf directory = .ok names ∧
      ∀ user, user ∈ users ↔ tree.HoldsUser directory names user := by
  have hentries : FileAccess.entries (m := StateM FileTree) directory tree =
      (tree.entriesOf directory, tree) := rfl
  simp only [loadUsers, bind, StateT.bind, hentries] at h
  cases hnames : tree.entriesOf directory with
  | error e =>
      rw [hnames] at h
      cases h
  | ok names =>
      rw [hnames] at h
      exact ⟨names, rfl, fun user => by simp [mem_loadUsersFrom h]⟩

/-! ### Lines and keys -/

/-- **A line that can be written under a key**, whoever writes it and whatever it is padded with. -/
def PublicKey.Carries (k : PublicKey) (line : String) : Prop :=
  ∀ (own : PrivateKey) (seeds : Nat → Oaep.Seed) (c : LineCodec EnvelopeCipher),
    c.cipher = .between k own seeds → c.policy = .fail → ∃ bytes c', c.encode line = (.ok bytes, c')

/-- **How long a line may be** that is written under a key. -/
theorem PublicKey.carries_iff {k : PublicKey} {line : String}
    (hline : LineCodec.hasLineEnd line = false) :
    k.Carries line ↔ k.bits ≤ maxBits ∧ (Text.utf8 line).length + 66 ≤ k.size := by
  rw [← takes_iff]
  constructor
  · intro h
    by_contra htakes
    -- some writer has to fail: any will do, since the size of a line does not depend on the writer
    let c : LineCodec EnvelopeCipher :=
      { cipher := .between k ⟨0, 0, 0, 0, 0⟩ fun _ => Vector.replicate _ 0, policy := .fail }
    obtain ⟨e, c', herror⟩ := LineCodec.encode_of_not_fits (c := c) rfl rfl hline htakes
    obtain ⟨bytes, c'', hok⟩ := h _ _ c rfl rfl
    cases herror.symm.trans hok
  · intro htakes own seeds c hcipher hpolicy
    obtain ⟨envelope, -, hencode⟩ := LineCodec.encode_of_fits hcipher hpolicy hline htakes
    exact ⟨_, _, hencode⟩

/-- **Both messages of a login that are written under a key** can be written: the first one under
the server's key, and the second one under the user's. -/
structure CanLogIn (server : PublicKey) (user : String) (key : PublicKey) : Prop where
  first : ∀ challenge, server.Carries (Authenticate.render ⟨user, challenge⟩)
  second : ∀ m : ServerOk, key.Carries m.render

theorem canLogIn_iff {server key : PublicKey} {user : String} (hname : checkUsername user = .ok ())
    (hserver : server.bits ≤ PublicKey.maxBits) (hkey : key.bits ≤ PublicKey.maxBits) :
    CanLogIn server user key ↔
      (Text.utf8 user).length + 125 ≤ server.size ∧ 229 ≤ key.size := by
  have hfirst : ∀ challenge, server.Carries (Authenticate.render ⟨user, challenge⟩) ↔
      (Text.utf8 user).length + 125 ≤ server.size := by
    intro challenge
    rw [PublicKey.carries_iff (Authenticate.hasLineEnd_render hname), Authenticate.length_render,
      and_iff_right hserver]
  have hsecond : ∀ m : ServerOk, key.Carries m.render ↔ 229 ≤ key.size := by
    intro m
    rw [PublicKey.carries_iff m.hasLineEnd_render, ServerOk.length_render, and_iff_right hkey]
  constructor
  · rintro ⟨h₁, h₂⟩
    let zeros : Challenge := ⟨Vector.replicate _ 0⟩
    let session : SessionKey := ⟨Vector.replicate _ 0, Vector.replicate _ 0⟩
    exact ⟨(hfirst zeros).1 (h₁ zeros), (hsecond _).1 (h₂ ⟨zeros, zeros, session⟩)⟩
  · rintro ⟨h₁, h₂⟩
    exact ⟨fun challenge => (hfirst challenge).2 h₁, fun m => (hsecond m).2 h₂⟩

/-- **Which of the users that are loaded can log in** at a server with a key of 2048 to 4096 bits:
the name must leave room for the rest of the first message under the server's key, and the user's
own key must have 229 bytes.  A name of no more than 131 bytes and a key that could have been made
here are enough. -/
theorem canLogIn_of_loadUsers {server key : PublicKey} {user : String}
    (hload : (loadUsers (m := StateM FileTree) directory tree).1 = .ok users)
    (huser : (user, key) ∈ users)
    (hserver : minKeyBits ≤ server.bits ∧ server.bits ≤ PublicKey.maxBits) :
    (CanLogIn server user key ↔
        (Text.utf8 user).length + 125 ≤ server.size ∧ 229 ≤ key.size) ∧
      ((Text.utf8 user).length ≤ 131 → minKeyBits ≤ key.bits → CanLogIn server user key) := by
  obtain ⟨names, -, hmem⟩ := mem_loadUsers hload
  obtain ⟨name, -, hname, hkey⟩ := (hmem (user, key)).1 huser
  have hkeyBits : key.bits ≤ PublicKey.maxBits :=
    PublicKey.bits_le_of_isValid (isValid_of_keyAt hkey)
  have hcheck : checkUsername user = .ok () := checkUsername_of_userOf? hname
  have hiff := canLogIn_iff hcheck hserver.2 hkeyBits
  refine ⟨hiff, fun hshort hbits => hiff.2 ?_⟩
  have hserverBits := hserver.1
  rw [minKeyBits] at hserverBits hbits
  rw [PublicKey.size, PublicKey.size]
  constructor <;> omega

/-! ### A key that is too small -/

/-- A key of 512 bits. -/
def smallKey : PublicKey := ⟨2 ^ 511 + 1, 65537⟩

/-- A key of 2048 bits. -/
def largeKey : PublicKey := ⟨2 ^ 2047 + 1, 65537⟩

/-- The key of 512 bits as it stands in a file. -/
def smallKeyText : String :=
  "-----BEGIN PUBLIC KEY-----\n" ++
    "MFwwDQYJKoZIhvcNAQEBBQADSwAwSAJBAIAAAAAAAAAAAAAAAAAAAAAAAAAAAAAA\n" ++
    "AAAAAAAAAAAAAAAAAAAAAAAAAAAAAAAAAAAAAAAAAAAAAAAAAAAAAAECAwEAAQ==\n" ++
    "-----END PUBLIC KEY-----\n"

/-- A directory with one user, whose key is that one. -/
def smallKeyTree : FileTree :=
  { nodes := [(["users"], .directory), (["users", "ann.pub.pem"], .file (Text.utf8 smallKeyText))] }

theorem loadUsers_smallKeyTree :
    (loadUsers (m := StateM FileTree) "/users" smallKeyTree).1 = .ok [("ann", smallKey)] := by
  decide +kernel

/-- The user is loaded, and cannot log in although the server's key is large enough. -/
theorem ann_is_loaded_and_cannot_log_in :
    (loadUsers (m := StateM FileTree) "/users" smallKeyTree).1 = .ok [("ann", smallKey)] ∧
      ¬CanLogIn largeKey "ann" smallKey := by
  have hserver : minKeyBits ≤ largeKey.bits ∧ largeKey.bits ≤ PublicKey.maxBits := by decide +kernel
  have hiff := (canLogIn_of_loadUsers loadUsers_smallKeyTree (List.mem_singleton_self _) hserver).1
  exact ⟨loadUsers_smallKeyTree, fun hcan => absurd (hiff.1 hcan).2 (by decide +kernel)⟩

/-- **Not all users that are loaded can log in.** -/
theorem not_every_loaded_user_logs_in :
    ¬∀ (directory : String) (tree : FileTree) (users : List (String × PublicKey))
      (user : String) (key server : PublicKey),
      (loadUsers (m := StateM FileTree) directory tree).1 = .ok users →
      (user, key) ∈ users → minKeyBits ≤ server.bits ∧ server.bits ≤ PublicKey.maxBits →
      CanLogIn server user key := by
  intro h
  have hcan := h _ _ _ "ann" smallKey largeKey loadUsers_smallKeyTree (List.mem_singleton_self _)
    (by decide +kernel)
  have hsizes := (canLogIn_iff (by decide) (by decide +kernel) (by decide +kernel)).1 hcan
  exact absurd hsizes.2 (by decide +kernel)

end LineChat
