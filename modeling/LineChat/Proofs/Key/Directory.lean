/-
**The directory of users, loaded exactly.**

The files of a directory that are named for a user are all that counts.  Every one of them must hold
a key, and then the keys that are loaded are the keys in them, each under the name of its file's
user.  Whatever else the directory holds has no part in it: a file whose name ends differently, or
is nothing but the ending, or has a blank in front of it, is not even read, and neither is one whose
name is not text.  In which order the names are listed makes no difference, since no two files are
named for the same user.

Main definitions:

* `LineChat.FileTree.HoldsKey` — **a file that holds a key**;
* `LineChat.Listed` — access to files that lists directories in some order;
* `LineChat.UserDirectory` — a directory with the names in it;
* `LineChat.UserDirectory.LoadedExactly` — **what loading a directory comes to**.

Main results:

* `LineChat.userOf?_eq_some_iff` — whose file a name is;
* `LineChat.exists_loadUsersFrom_iff` — **when loading succeeds**;
* `LineChat.Registry.lookup_ofKeys` — a registry answers with the keys that it was made of;
* `LineChat.UserDirectory.loaded_exactly` — **every directory is loaded exactly**, in every order.
-/

import LineChat.Proofs.Key.Loading
import LineChat.Proofs.Registry.Histories

set_option autoImplicit false

namespace LineChat

/-! ### Names of files -/

theorem userFile_injective {user other : String} (h : userFile user = userFile other) :
    user = other := by
  have hlist := congrArg String.toList h
  rw [userFile, userFile, String.toList_append, String.toList_append] at hlist
  exact String.toList_inj.1 (List.append_cancel_right hlist)

/-- The ending comes off once, from the end. -/
theorem dropEnding?_eq_some_iff {ending text front : String} :
    dropEnding? ending text = some front ↔ text = front ++ ending := by
  have htake : ∀ cs : List Char,
      (cs ++ ending.toList).take ((cs ++ ending.toList).length - ending.toList.length) = cs := by
    intro cs
    rw [List.length_append, Nat.add_sub_cancel, List.take_left]
  rw [dropEnding?, ← String.length_toList, ← String.length_toList, ← String.toList_inj,
    String.toList_append]
  constructor
  · intro h
    split at h
    next hending =>
      obtain ⟨cs, hcs⟩ := List.isSuffixOf_iff_suffix.1 hending
      rw [← hcs, htake] at h
      cases h
      rw [String.toList_ofList, hcs]
    next => cases h
  · intro htext
    have hending : ending.toList.isSuffixOf text.toList = true := by
      rw [List.isSuffixOf_iff_suffix, htext]
      exact List.suffix_append _ _
    rw [if_pos hending, htext, htake, String.ofList_toList]

/-- **Whose file a name is.**  A name that is not text is nobody's. -/
theorem userOf?_eq_some_iff {name : FileName} {user : String} :
    userOf? name = some user ↔ name = .ofText (userFile user) ∧ checkUsername user = .ok () := by
  simp only [userOf?, Option.bind_eq_bind, Option.bind_eq_some_iff, FileName.text?_eq_some_iff,
    dropEnding?_eq_some_iff]
  constructor
  · rintro ⟨text, hname, front, htext, hcheck⟩
    split at hcheck
    next hok =>
      cases hcheck
      exact ⟨hname.trans (congrArg FileName.ofText htext), hok⟩
    next => cases hcheck
  · rintro ⟨hname, hcheck⟩
    exact ⟨userFile user, hname, user, rfl, by rw [hcheck]⟩

/-! ### Files that hold keys -/

/-- **A file that holds a public key**: it can be read, it is text, and the text is the key. -/
def FileTree.HoldsKey (tree : FileTree) (path : String) (key : PublicKey) : Prop :=
  ∃ bytes text, tree.read path = .ok bytes ∧ Text.ofUtf8 bytes = .ok text ∧
    PublicKey.ofText text = .ok key

theorem FileTree.keyAt_eq_ok_iff {tree : FileTree} {path : String} {key : PublicKey} :
    tree.keyAt path = .ok key ↔ tree.HoldsKey path key := by
  rw [FileTree.keyAt, FileTree.HoldsKey]
  cases tree.read path with
  | error e => simp
  | ok bytes =>
      cases htext : Text.ofUtf8 bytes with
      | error fault => simp [htext]
      | ok text =>
          cases hkey : PublicKey.ofText text with
          | error e => simp [htext, hkey, Except.mapError]
          | ok key' => simp [htext, hkey, Except.mapError]

/-! ### Loading the listed files -/

variable {tree : FileTree} {directory : String} {names : List FileName}
  {users done : List (String × PublicKey)}

/-- **Loading succeeds** exactly if each of the files that are named for a user holds a key. -/
theorem exists_loadUsersFrom_iff :
    (∃ users, (loadUsersFrom (m := StateM FileTree) directory done names tree).1 = .ok users) ↔
      ∀ user, checkUsername user = .ok () → .ofText (userFile user) ∈ names →
        ∃ key, tree.HoldsKey (Path.join directory (userFile user)) key := by
  induction names generalizing done with
  | nil => exact ⟨fun _ _ _ hmem => absurd hmem List.not_mem_nil, fun _ => ⟨done, rfl⟩⟩
  | cons name names ih =>
      rw [loadUsersFrom_cons]
      cases hname : userOf? name with
      | none =>
          refine ih.trans ⟨fun h user hcheck hmem => ?_, fun h user hcheck hmem => ?_⟩
          · rcases List.mem_cons.1 hmem with rfl | hmem
            · rw [userOf?_eq_some_iff.2 ⟨rfl, hcheck⟩] at hname
              cases hname
            · exact h user hcheck hmem
          · exact h user hcheck (List.mem_cons_of_mem _ hmem)
      | some first =>
          obtain ⟨rfl, hfirst⟩ := userOf?_eq_some_iff.1 hname
          simp only
          cases hkey : tree.keyAt (Path.join directory (userFile first)) with
          | error e =>
              refine ⟨fun ⟨_, h⟩ => (nomatch h), fun h => ?_⟩
              obtain ⟨key, hholds⟩ := h first hfirst List.mem_cons_self
              rw [FileTree.keyAt_eq_ok_iff.2 hholds] at hkey
              cases hkey
          | ok key =>
              refine ih.trans ⟨fun h user hcheck hmem => ?_, fun h user hcheck hmem => ?_⟩
              · rcases List.mem_cons.1 hmem with heq | hmem
                · rw [userFile_injective (FileName.ofText_injective heq)]
                  exact ⟨key, FileTree.keyAt_eq_ok_iff.1 hkey⟩
                · exact h user hcheck hmem
              · exact h user hcheck (List.mem_cons_of_mem _ hmem)

/-- The users that are loaded come in the order of their files. -/
theorem map_fst_loadUsersFrom
    (h : (loadUsersFrom (m := StateM FileTree) directory done names tree).1 = .ok users) :
    users.map (·.1) = done.map (·.1) ++ names.filterMap userOf? := by
  induction names generalizing done with
  | nil =>
      cases h
      simp
  | cons name names ih =>
      rw [loadUsersFrom_cons] at h
      split at h
      next hname => rw [ih h, List.filterMap_cons_none hname]
      next first hname =>
        split at h
        next => cases h
        next key _ => rw [ih h, List.filterMap_cons_some hname, List.map_append]; simp

/-- **Whose keys are loaded**, and which. -/
theorem mem_loadUsersFrom_iff
    (h : (loadUsersFrom (m := StateM FileTree) directory [] names tree).1 = .ok users)
    (user : String) (key : PublicKey) :
    (user, key) ∈ users ↔ checkUsername user = .ok () ∧ .ofText (userFile user) ∈ names ∧
      tree.HoldsKey (Path.join directory (userFile user)) key := by
  rw [mem_loadUsersFrom h]
  constructor
  · rintro (hmem | ⟨name, hmem, hname, hkey⟩)
    · cases hmem
    · obtain ⟨rfl, hcheck⟩ := userOf?_eq_some_iff.1 hname
      exact ⟨hcheck, hmem, FileTree.keyAt_eq_ok_iff.1 hkey⟩
  · rintro ⟨hcheck, hmem, hkey⟩
    exact Or.inr ⟨.ofText (userFile user), hmem, userOf?_eq_some_iff.2 ⟨rfl, hcheck⟩,
      FileTree.keyAt_eq_ok_iff.2 hkey⟩

/-! ### Lists of keys as maps -/

/-- No user has two keys. -/
def IsKeyMap (users : List (String × PublicKey)) : Prop :=
  ∀ user key key', (user, key) ∈ users → (user, key') ∈ users → key = key'

theorem IsKeyMap.of_cons {u : String × PublicKey} (h : IsKeyMap (u :: users)) : IsKeyMap users :=
  fun user key key' hk hk' =>
    h user key key' (List.mem_cons_of_mem _ hk) (List.mem_cons_of_mem _ hk')

theorem IsKeyMap.lookup_eq_some_iff (h : IsKeyMap users) {user : String} {key : PublicKey} :
    users.lookup user = some key ↔ (user, key) ∈ users := by
  induction users with
  | nil => simp
  | cons u users ih =>
      obtain ⟨first, key₁⟩ := u
      by_cases hu : user = first
      · subst hu
        rw [List.lookup_cons_self]
        constructor
        · intro hkey
          cases hkey
          exact List.mem_cons_self
        · intro hmem
          rw [h user key₁ key List.mem_cons_self hmem]
      · have hne : (user == first) = false := beq_eq_false_iff_ne.2 hu
        rw [List.lookup_cons, hne, ih h.of_cons, List.mem_cons, Prod.mk.injEq]
        simp [hu]

theorem isKeyMap_loadUsersFrom
    (h : (loadUsersFrom (m := StateM FileTree) directory [] names tree).1 = .ok users) :
    IsKeyMap users := by
  intro user key key' hkey hkey'
  have hholds := FileTree.keyAt_eq_ok_iff.2 ((mem_loadUsersFrom_iff h user key).1 hkey).2.2
  have hholds' := FileTree.keyAt_eq_ok_iff.2 ((mem_loadUsersFrom_iff h user key').1 hkey').2.2
  rw [hholds] at hholds'
  exact Except.ok.inj hholds'

namespace Registry

theorem ofKeys_concat (users : List (String × PublicKey)) (u : String × PublicKey) :
    ofKeys (users ++ [u]) = ((ofKeys users).register u.1 u.2).2 := by
  rw [ofKeys, List.foldl_append]
  rfl

/-- **A registry answers with the keys that it was made of.** -/
theorem lookup_ofKeys (h : IsKeyMap users) (user : String) :
    (ofKeys users).lookup user = users.lookup user := by
  induction users using List.reverseRecOn with
  | nil => rfl
  | append_singleton users u ih =>
      have hfront : IsKeyMap users := fun user key key' hk hk' =>
        h user key key' (List.mem_append_left _ hk) (List.mem_append_left _ hk')
      rw [ofKeys_concat, lookup_register, ih hfront]
      by_cases hu : user = u.1
      · have hmem : (user, u.2) ∈ users ++ [u] := by simp [hu]
        rw [if_pos hu, h.lookup_eq_some_iff.2 hmem]
      · have hne : (user == u.1) = false := beq_eq_false_iff_ne.2 hu
        have hlast : [u].lookup user = none := by rw [List.lookup_cons, hne]; rfl
        rw [if_neg hu, List.lookup_append, hlast, Option.or_none]

/-- **Nobody is logged in** on a registry that was made of keys. -/
theorem session?_ofKeys (users : List (String × PublicKey)) (user : String) :
    (ofKeys users).session? user = none := by
  induction users using List.reverseRecOn with
  | nil => rfl
  | append_singleton users u ih => rw [ofKeys_concat, session?_register, ih]

end Registry

/-! ### Directories in any order -/

/-- **Access to a tree of files** that lists the names in a directory in some order. -/
def Listed (_order : List FileName → List FileName) (α : Type) : Type := StateM FileTree α

section Listed

variable (order : List FileName → List FileName)

instance : Monad (Listed order) := inferInstanceAs (Monad (StateM FileTree))

instance : FileAccess (Listed order) where
  read path := (FileAccess.read path : StateM FileTree _)
  write path content := (FileAccess.write path content : StateM FileTree _)
  exists? path := (FileAccess.exists? path : StateM FileTree _)
  isDirectory path := (FileAccess.isDirectory path : StateM FileTree _)
  makeDirectory path := (FileAccess.makeDirectory path : StateM FileTree _)
  entries path := fun tree => ((tree.entriesOf path).map order, tree)

theorem Listed.bind_apply {α β : Type} (x : Listed order α) (f : α → Listed order β)
    (tree : FileTree) : (x >>= f) tree = f (x tree).1 (x tree).2 := rfl

/-- The files themselves are the same in any order. -/
theorem loadUsersFrom_listed (directory : String) (done : List (String × PublicKey))
    (names : List FileName) (tree : FileTree) :
    loadUsersFrom (m := Listed order) directory done names tree =
      loadUsersFrom (m := StateM FileTree) directory done names tree := by
  induction names generalizing done with
  | nil => rfl
  | cons name names ih =>
      have hkey : ∀ path, loadPublicKey (m := Listed order) path tree =
          (tree.keyAt path, tree) := loadPublicKey_eq tree
      rw [loadUsersFrom_cons, loadUsersFrom]
      cases userOf? name with
      | none => exact ih done
      | some user =>
          simp only [Listed.bind_apply, hkey]
          cases tree.keyAt (Path.join directory (userFile user)) with
          | error e => rfl
          | ok key => exact ih _

end Listed

/-- **A directory with the names in it.** -/
structure UserDirectory where
  tree : FileTree
  path : String
  names : List FileName
  lists : tree.entriesOf path = .ok names

namespace UserDirectory

variable (d : UserDirectory) (order : List FileName → List FileName)

/-- Loading the directory when it is listed in some order. -/
def load : Except KeyFileError (List (String × PublicKey)) :=
  (loadUsers (m := Listed order) d.path d.tree).1

/-- Loading the registry of the directory when it is listed in some order. -/
def registry : Except KeyFileError Registry :=
  (loadRegistry (m := Listed order) d.path d.tree).1

/-- The directory has a file that is named for a user. -/
def Names (user : String) : Prop :=
  checkUsername user = .ok () ∧ .ofText (userFile user) ∈ d.names

/-- The file of a user holds a key. -/
def Holds (user : String) (key : PublicKey) : Prop :=
  d.tree.HoldsKey (Path.join d.path (userFile user)) key

/-- **Two directories with the same files of users**, whatever else they hold. -/
def SameUsers (d d' : UserDirectory) : Prop :=
  ∀ user, (d.Names user ↔ d'.Names user) ∧
    (d.Names user → ∀ key, d.Holds user key ↔ d'.Holds user key)

/-- **What loading a directory comes to.** -/
structure LoadedExactly : Prop where
  /-- It succeeds exactly if every file that is named for a user holds a key. -/
  succeeds_iff : (∃ users, d.load order = .ok users) ↔
    ∀ user, d.Names user → ∃ key, d.Holds user key
  /-- The users are those whom a file is named for, each with the key in that file. -/
  lookup_iff : ∀ users, d.load order = .ok users → ∀ user key,
    users.lookup user = some key ↔ d.Names user ∧ d.Holds user key
  /-- Nobody is in it twice. -/
  nodup : d.names.Nodup → ∀ users, d.load order = .ok users → (users.map (·.1)).Nodup
  /-- Only the files of users count, and neither the others nor the order. -/
  depends_on_users : ∀ (d' : UserDirectory) (order' : List FileName → List FileName),
    (∀ names, (order' names).Perm names) → d.SameUsers d' →
      ((∃ users, d.load order = .ok users) ↔ ∃ users, d'.load order' = .ok users) ∧
        ∀ users users', d.load order = .ok users → d'.load order' = .ok users' →
          ∀ user, users.lookup user = users'.lookup user
  /-- The registry of the directory is there exactly if the users are, and has their keys and
  nobody logged in. -/
  registry_succeeds_iff : (∃ r, d.registry order = .ok r) ↔ ∃ users, d.load order = .ok users
  registry_eq : ∀ r, d.registry order = .ok r → ∃ users, d.load order = .ok users ∧
    ∀ user, r.lookup user = users.lookup user ∧ r.session? user = none

theorem load_eq :
    d.load order = (loadUsersFrom (m := StateM FileTree) d.path [] (order d.names) d.tree).1 := by
  have hentries : FileAccess.entries (m := Listed order) d.path d.tree =
      (.ok (order d.names), d.tree) := by
    change ((d.tree.entriesOf d.path).map order, d.tree) = _
    rw [d.lists]
    rfl
  rw [load, loadUsers, ← loadUsersFrom_listed order]
  rw [Listed.bind_apply, hentries]

theorem registry_eq_map : d.registry order = (d.load order).map Registry.ofKeys := rfl

variable {d order}

theorem load_succeeds_iff (horder : ∀ names, (order names).Perm names) :
    (∃ users, d.load order = .ok users) ↔ ∀ user, d.Names user → ∃ key, d.Holds user key := by
  rw [load_eq, exists_loadUsersFrom_iff]
  constructor
  · rintro h user ⟨hcheck, hmem⟩
    exact h user hcheck ((horder _).mem_iff.2 hmem)
  · intro h user hcheck hmem
    exact h user ⟨hcheck, (horder _).mem_iff.1 hmem⟩

theorem lookup_load_iff (horder : ∀ names, (order names).Perm names)
    {users : List (String × PublicKey)} (h : d.load order = .ok users) (user : String)
    (key : PublicKey) : users.lookup user = some key ↔ d.Names user ∧ d.Holds user key := by
  rw [load_eq] at h
  rw [(isKeyMap_loadUsersFrom h).lookup_eq_some_iff, mem_loadUsersFrom_iff h, (horder _).mem_iff,
    Names, Holds, and_assoc]

/-- No two names in a directory are for the same user. -/
theorem nodup_load (horder : ∀ names, (order names).Perm names) (hnames : d.names.Nodup)
    {users : List (String × PublicKey)} (h : d.load order = .ok users) :
    (users.map (·.1)).Nodup := by
  rw [load_eq] at h
  rw [map_fst_loadUsersFrom h, List.map_nil, List.nil_append]
  refine List.Nodup.filterMap ?_ ((horder _).nodup_iff.2 hnames)
  intro name name' user hname hname'
  rw [(userOf?_eq_some_iff.1 hname).1, (userOf?_eq_some_iff.1 hname').1]

/-- **Every directory is loaded exactly**, in whatever order it is listed. -/
theorem loaded_exactly (d : UserDirectory) (order : List FileName → List FileName)
    (horder : ∀ names, (order names).Perm names) : d.LoadedExactly order where
  succeeds_iff := load_succeeds_iff horder
  lookup_iff _ h := lookup_load_iff horder h
  nodup hnames _ h := nodup_load horder hnames h
  depends_on_users d' order' horder' hsame := by
    have hholds : ∀ user key,
        d.Names user ∧ d.Holds user key ↔ d'.Names user ∧ d'.Holds user key := by
      intro user key
      rw [← (hsame user).1]
      exact and_congr_right fun hnames => (hsame user).2 hnames key
    constructor
    · rw [load_succeeds_iff horder, load_succeeds_iff horder']
      refine forall_congr' fun user => ?_
      rw [← (hsame user).1]
      exact forall_congr' fun hnames => exists_congr fun key => (hsame user).2 hnames key
    · intro users users' h h' user
      ext key
      rw [lookup_load_iff horder h, lookup_load_iff horder' h', hholds]
  registry_succeeds_iff := by
    rw [registry_eq_map]
    cases d.load order with
    | error e => exact ⟨fun ⟨_, h⟩ => (nomatch h), fun ⟨_, h⟩ => (nomatch h)⟩
    | ok users => exact ⟨fun _ => ⟨users, rfl⟩, fun _ => ⟨_, rfl⟩⟩
  registry_eq r h := by
    rw [registry_eq_map] at h
    cases hload : d.load order with
    | error e =>
        rw [hload] at h
        cases h
    | ok users =>
        rw [hload] at h
        cases h
        have hmap : IsKeyMap users := by
          rw [load_eq] at hload
          exact isKeyMap_loadUsersFrom hload
        exact ⟨users, rfl, fun user =>
          ⟨Registry.lookup_ofKeys hmap user, Registry.session?_ofKeys users user⟩⟩

/-- A name that ends as a user's file does, and is not text. -/
def brokenName : FileName := ⟨0xff :: Text.utf8 publicKeyEnding⟩

/-- A directory with two users, one of whom has the ending in the name, and with files that are
nobody's and hold no key. -/
def mixed : UserDirectory where
  tree :=
    { nodes :=
        [(["users"], .directory), (["users", "notes.txt"], .file [0xff]),
         (["users", brokenName], .file [0xff]), (["users", ".pub.pem"], .file [0xff]),
         (["users", "a b.pub.pem"], .file [0xff]),
         (["users", "bob.pub.pem.pub.pem"], .file (Text.utf8 smallKeyText)),
         (["users", "ann.pub.pem"], .file (Text.utf8 smallKeyText))] }
  path := "/users"
  names :=
    ["notes.txt", brokenName, ".pub.pem", "a b.pub.pem", "bob.pub.pem.pub.pem", "ann.pub.pem"]
  lists := by decide +kernel

theorem loaded_exactly_mixed :
    (∀ names : List FileName, names.reverse.Perm names) ∧ mixed.LoadedExactly List.reverse ∧
      brokenName ∈ mixed.names ∧ brokenName.text? = none ∧
      mixed.load List.reverse = .ok [("ann", smallKey), ("bob.pub.pem", smallKey)] :=
  ⟨List.reverse_perm, loaded_exactly mixed List.reverse List.reverse_perm, by decide,
    by decide +kernel, by decide +kernel⟩

end UserDirectory

end LineChat
