/-
**Reading keys.**

A private key comes as a block that names its algorithm and wraps the key, or as the bare key; a
public key likewise.  Whichever of the two it is, the numbers are checked before they are used.

Main definitions:

* `LineChat.PublicKey.ofText`, `LineChat.PrivateKey.ofText` — **reading a key file's text**;
* `LineChat.PublicKey.wrap` — the bytes of a public key with its algorithm;
* `LineChat.PublicKey.fingerprint` — what a public key is recognised by.
-/

import LineChat.Channel.Error
import LineChat.Key.Armor
import LineChat.Key.Der
import LineChat.Key.Rsa
import LineChat.Text.Hex

set_option autoImplicit false

namespace LineChat

/-! ### The algorithm -/

/-- The identifier of RSA keys. -/
def rsaIdentifier : Bytes := [0x2a, 0x86, 0x48, 0x86, 0xf7, 0x0d, 0x01, 0x01, 0x01]

/-- The content of the element that names the algorithm: the identifier, and no parameters. -/
def rsaAlgorithm : Bytes := Der.write Der.identifierTag rsaIdentifier ++ Der.write Der.nullTag []

/-- Whether an element names the algorithm. -/
def isRsaAlgorithm (e : Der.Element) : Bool :=
  e.tag = Der.sequenceTag && e.content = rsaAlgorithm

/-! ### Public keys -/

namespace PublicKey

/-- A public key from its numbers, if they are accepted. -/
def check? (k : PublicKey) : Option PublicKey := if k.isValid then some k else none

/-- The bytes of a bare public key. -/
def write (k : PublicKey) : Bytes :=
  Der.write Der.sequenceTag (Der.writeUnsigned k.modulus ++ Der.writeUnsigned k.exponent)

/-- **The bytes of a public key with its algorithm.** -/
def wrap (k : PublicKey) : Bytes :=
  Der.write Der.sequenceTag
    (Der.write Der.sequenceTag rsaAlgorithm ++ Der.write Der.bitStringTag (0 :: k.write))

/-- Reads a bare public key. -/
def read? (bs : Bytes) : Option PublicKey := do
  let content ← Der.only? Der.sequenceTag bs
  let elements ← Der.elements? content
  match ← elements.mapM Der.unsigned? with
  | [n, e] => check? ⟨n, e⟩
  | _ => none

/-- Reads a public key with its algorithm. -/
def unwrap? (bs : Bytes) : Option PublicKey := do
  let content ← Der.only? Der.sequenceTag bs
  match ← Der.elements? content with
  | [algorithm, key] =>
      if isRsaAlgorithm algorithm && key.tag = Der.bitStringTag then
        (Der.wholeBits? key.content).bind read?
      else none
  | _ => none

/-- The public key of a key file's text, in either form. -/
def ofText? (text : String) : Option PublicKey :=
  match (Armor.contentOf? "PUBLIC KEY" text).bind unwrap? with
  | some k => some k
  | none => (Armor.contentOf? "RSA PUBLIC KEY" text).bind read?

/-- **The public key of a key file's text.** -/
def ofText (text : String) : Except LineError PublicKey :=
  match ofText? text with
  | some k => .ok k
  | none => .error (.invalidKey "unreadable public key")

/-- **What a public key is recognised by**: the first sixteen bytes of the hash of its bytes, in
groups of four hexadecimal digits. -/
def fingerprint (k : PublicKey) : String :=
  let hash := (Sha256.digest k.wrap).toList.take 16
  ":".intercalate ((blocks 2 hash).map Hex.encode)

end PublicKey

/-! ### Private keys -/

namespace PrivateKey

/-- A private key from its numbers, if they are accepted. -/
def check? (k : PrivateKey) : Option PrivateKey := if k.isValid then some k else none

/-- Reads a bare private key: a version, which must be zero, and eight numbers, of which the last
three only repeat what the others say. -/
def read? (bs : Bytes) : Option PrivateKey := do
  let content ← Der.only? Der.sequenceTag bs
  let elements ← Der.elements? content
  match ← elements.mapM Der.unsigned? with
  | [0, n, e, d, p, q, _, _, _] => check? ⟨n, e, d, p, q⟩
  | _ => none

/-- Whether an element is tagged for its place in the wrapping: its class bits say so. -/
def isContextual (e : Der.Element) : Bool := e.tag &&& 0xc0 = 0x80

/-- Whether an element is an extension to be ignored: one element in a contextual wrapping. -/
def isExtension (e : Der.Element) : Bool :=
  isContextual e && e.tag &&& 0x20 = 0x20 &&
    match Der.elements? e.content with
    | some [_] => true
    | _ => false

/-- Whether what follows the wrapped key is well formed: attributes, the public key if the version
asks for it, and extensions. -/
def isTail (withPublicKey : Bool) (es : List Der.Element) : Bool :=
  match es.dropWhile fun e => e.tag = 0x80 ∨ e.tag = 0xa0 with
  | e :: rest =>
      if e.tag = 0x81 then
        withPublicKey && (Der.wholeBits? e.content).isSome && rest.all isExtension
      else !withPublicKey && e.tag ≠ 0xa1 && (e :: rest).all isExtension
  | [] => !withPublicKey

/-- Reads a private key with its algorithm. -/
def unwrap? (bs : Bytes) : Option PrivateKey := do
  let content ← Der.only? Der.sequenceTag bs
  match ← Der.elements? content with
  | version :: algorithm :: key :: tail =>
      let version ← Der.unsigned? version
      if version ≤ 1 && isRsaAlgorithm algorithm && key.tag = Der.octetStringTag &&
          isTail (version = 1) tail then
        read? key.content
      else none
  | _ => none

/-- The private key of a key file's text, in either form. -/
def ofText? (text : String) : Option PrivateKey :=
  match (Armor.contentOf? "PRIVATE KEY" text).bind unwrap? with
  | some k => some k
  | none => (Armor.contentOf? "RSA PRIVATE KEY" text).bind read?

/-- **The private key of a key file's text.** -/
def ofText (text : String) : Except LineError PrivateKey :=
  match ofText? text with
  | some k => .ok k
  | none => .error (.invalidKey "unreadable private key")

end PrivateKey

end LineChat
