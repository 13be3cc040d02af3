/-
**The cipher of a session.**

After the handshake every line is encrypted in counter mode under the session key.  No counter may
be used twice under one key, and the two directions share the key, so each direction owns half of
the counters: the responder starts with the top bit of the initial counter flipped.  Line `n` of a
direction starts 2³² blocks after line `n - 1`.  A direction protects a limited number of lines.

In legacy mode every line of both directions starts at the initial counter, which repeats the
keystream; it is there for peers that know nothing else.

A ciphertext line that is not base64 uses up no line number when it is read; any other line does,
whatever it decrypts to, so that tampering with a line does not misalign those after it.

Main definitions:

* `LineChat.KeystreamMode`, `LineChat.Role` — how counters are laid out, and for whom;
* `LineChat.Direction`, `LineChat.Direction.claim` — **one direction, claiming a line's counter**;
* `LineChat.SessionCipher` — the cipher, with `start`, `encrypt` and `decrypt`.

Main results:

* `LineChat.Direction.claim_eq_error_iff` — a line is refused exactly when the limit is reached;
* `LineChat.Direction.lines_claim` — a claimed line is counted.
-/

import LineChat.Channel.Cipher
import LineChat.Crypto.Aes
import LineChat.Crypto.CounterMode
import LineChat.Handshake.Material

set_option autoImplicit false

namespace LineChat

open CounterMode (Counter)

/-- **How counters are laid out** over lines and directions. -/
inductive KeystreamMode where
  /-- Every line of every direction has counters of its own. -/
  | sequenced
  /-- Every line starts at the initial counter. -/
  | legacy
  deriving DecidableEq, Repr

/-- A mode as diagnostics show it. -/
def KeystreamMode.debug : KeystreamMode → String
  | sequenced => "Sequenced"
  | legacy => "Legacy"

/-- **Which side of the handshake a party plays.** -/
inductive Role where
  /-- Sends the first message. -/
  | initiator
  /-- Answers it. -/
  | responder
  deriving DecidableEq, Repr

/-! ### Counters -/

/-- The blocks reserved for one line. -/
def lineStride : Nat := Nat.pow 2 32

/-- What tells the two directions apart: the top bit of the counter. -/
def directionBit : Counter := BitVec.ofNat 128 (Nat.pow 2 127)

/-- The counter at which a direction starts: that of the lines which `sender` encrypts. -/
def baseCounter (mode : KeystreamMode) (iv : Vector UInt8 16) (sender : Role) : Counter :=
  let start := CounterMode.counterOfBlock iv
  match mode, sender with
  | .sequenced, .responder => start ^^^ directionBit
  | _, _ => start

/-- The counter at which line `n` of a direction starts. -/
def lineCounter (mode : KeystreamMode) (base : Counter) (n : Nat) : Counter :=
  match mode with
  | .sequenced => base + BitVec.ofNat 128 (n * lineStride)
  | .legacy => base

/-- **One direction of a session**: where its counters start, and the lines it protected. -/
structure Direction where
  base : Counter
  lines : Nat := 0
  deriving DecidableEq, Repr

/-- **Claims the counter of the next line**, unless the limit is reached. -/
def Direction.claim (d : Direction) (mode : KeystreamMode) (limit : UInt64) :
    Except LineError (Counter × Direction) :=
  if limit.toNat ≤ d.lines then .error (.keystreamExhausted limit.toNat)
  else .ok (lineCounter mode d.base d.lines, { d with lines := d.lines + 1 })

/-- A line is refused exactly when the limit is reached. -/
theorem Direction.claim_eq_error_iff (d : Direction) (mode : KeystreamMode) (limit : UInt64)
    (e : LineError) :
    d.claim mode limit = .error e ↔
      limit.toNat ≤ d.lines ∧ e = .keystreamExhausted limit.toNat := by
  unfold Direction.claim
  split
  · rename_i h
    constructor
    · intro he; cases he; exact ⟨h, rfl⟩
    · rintro ⟨_, rfl⟩; rfl
  · rename_i h
    constructor
    · intro he; cases he
    · rintro ⟨h', _⟩; exact absurd h' h

/-- A claimed line is counted. -/
theorem Direction.lines_claim {d d' : Direction} {mode : KeystreamMode} {limit : UInt64}
    {c : Counter} (h : d.claim mode limit = .ok (c, d')) :
    d'.lines = d.lines + 1 ∧ d'.base = d.base := by
  unfold Direction.claim at h
  split at h
  · cases h
  · cases h; exact ⟨rfl, rfl⟩

/-! ### The cipher -/

/-- **The cipher of one side of a session.** -/
structure SessionCipher where
  key : Aes.Key
  outbound : Direction
  inbound : Direction
  mode : KeystreamMode
  maxLines : UInt64
  deriving DecidableEq, Repr

namespace SessionCipher

/-- The number of lines a session key protects per direction, unless configured otherwise. -/
def defaultMaxLines : UInt64 := 4294967296

/-- The other role. -/
def peerOf : Role → Role
  | .initiator => .responder
  | .responder => .initiator

/-- **The cipher of one side of a fresh session.** -/
def start (session : SessionKey) (role : Role) (mode : KeystreamMode) (maxLines : UInt64) :
    SessionCipher where
  key := session.key
  outbound := { base := baseCounter mode session.iv role }
  inbound := { base := baseCounter mode session.iv (peerOf role) }
  mode := mode
  maxLines := maxLines

/-- The number of lines encrypted so far. -/
def linesSent (s : SessionCipher) : Nat := s.outbound.lines

/-- The number of lines decrypted or lost so far. -/
def linesReceived (s : SessionCipher) : Nat := s.inbound.lines

/-- Some bytes with the keystream from a counter on added to them. -/
def applyFrom (s : SessionCipher) (c : Counter) (bytes : Bytes) : Bytes :=
  CounterMode.apply (Aes.encryptBlock (Aes.roundKeys s.key)) c bytes

/-- Encrypts one line. -/
def encrypt (s : SessionCipher) (line : String) : Except LineError String × SessionCipher :=
  match s.outbound.claim s.mode s.maxLines with
  | .error e => (.error e, s)
  | .ok (c, outbound) =>
      (.ok (Base64.encode (s.applyFrom c (Text.utf8 line))), { s with outbound })

/-- **Decrypts one line.**  Only base64 uses up a line number. -/
def decrypt (s : SessionCipher) (line : String) : Except LineError String × SessionCipher :=
  match decodeBase64 line with
  | .error e => (.error e, s)
  | .ok bytes =>
      match s.inbound.claim s.mode s.maxLines with
      | .error e => (.error e, s)
      | .ok (c, inbound) => (decodeUtf8 (s.applyFrom c bytes), { s with inbound })

/-- The cipher as diagnostics show it. -/
def debug (s : SessionCipher) : String :=
  Text.record "AesCtrCryptor"
    [("key", Text.quote Text.redacted), ("mode", s.mode.debug),
     ("lines_sent", s.linesSent.repr), ("lines_received", s.linesReceived.repr)]

end SessionCipher

instance : LineCipher SessionCipher where
  encrypt := SessionCipher.encrypt
  decrypt := SessionCipher.decrypt
  ciphertextLength? _ n := some (Base64.encodedLength n)

end LineChat
