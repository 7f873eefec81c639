import Noa.Edge.Wire

namespace Noa.Edge
open Noa.Framework Noa.Channel

/-- Bytes of the stream header each side sends before its first encrypted frame. -/
def streamHeaderBytes : Nat := 24

/-- Bytes a `secretstream` frame is longer than its plaintext. -/
def aBytes : Nat := 17

abbrev SessionKey := Bytes

/-- The primitives taken from the crypto library. What a call draws at random is an argument;
a failure carries the library's own text. -/
structure Crypto where
  KeyPair : Type
  Entropy : Type
  Push : Type
  Pull : Type
  publicKey : KeyPair → Bytes
  /-- Receive and transmit keys. -/
  newClient : KeyPair → Bytes → Except String (SessionKey × SessionKey)
  newServer : KeyPair → Bytes → Except String (SessionKey × SessionKey)
  initPush : SessionKey → Entropy → Push × Bytes
  push : Push → Bytes → Except String (Bytes × Push)
  initPull : SessionKey → Bytes → Pull
  pull : Pull → Bytes → Except String (Bytes × Pull)

/-- What is assumed of them: both sides of a key exchange derive each other's keys, and a pull
stream opened with the push stream's header undoes its frames in order. -/
structure Crypto.Lawful (C : Crypto) where
  publicKey_length : ∀ kp, (C.publicKey kp).length = 32
  keys_match : ∀ kc ks rx tx, C.newClient kc (C.publicKey ks) = .ok (rx, tx) →
    C.newServer ks (C.publicKey kc) = .ok (tx, rx)
  header_length : ∀ key e, (C.initPush key e).2.length = streamHeaderBytes
  Synced : C.Push → C.Pull → Prop
  synced_init : ∀ key e, Synced (C.initPush key e).1 (C.initPull key (C.initPush key e).2)
  synced_push : ∀ p d plain cipher p', Synced p d → C.push p plain = .ok (cipher, p') →
    cipher.length = plain.length + aBytes ∧ ∃ d', C.pull d cipher = .ok (plain, d') ∧ Synced p' d'

/-- The crypto state of one connection: `rxKey` waits for the peer's stream header, which turns
it into the decryptor. -/
structure ConnCrypto (C : Crypto) where
  sender : C.Push
  decryptor : Option C.Pull
  rxKey : Option SessionKey

/-- The display text of a key exchange failure. -/
def keyExchangeFailed (e : String) : EdgeError := .crypto ("key exchange failed: " ++ e)

def streamFailed (e : String) : EdgeError := .crypto ("secretstream failed: " ++ e)

/-- The method byte of a peer, libsodium where it sent none. -/
def cryptoMethod (msg : Message) : UInt8 :=
  (msg.headers[hdrCryptoMethod]?.bind fun v => v.head?).getD cryptoMethodLibsodium

/-- The exchange both sides run on the peer's message: `none` where they agree on plaintext.
`peer` names the other side in the error text. -/
def cryptoSetup (C : Crypto) (peer : String)
    (sessionKeys : C.KeyPair → Bytes → Except String (SessionKey × SessionKey))
    (keypair : Option C.KeyPair) (msg : Message) (e : C.Entropy) :
    Except EdgeError (Option (ConnCrypto C × Bytes)) :=
  match keypair, msg.headers[hdrPublicKey]? with
  | some kp, some pk =>
    if cryptoMethod msg ≠ cryptoMethodLibsodium then .error .unsupportedCrypto
    else if pk.length ≠ 32 then
      .error (.crypto s!"{peer} public key must be 32 bytes, got {pk.length}")
    else match sessionKeys kp pk with
      | .error text => .error (keyExchangeFailed text)
      | .ok (rx, tx) =>
        let (sender, header) := C.initPush tx e
        .ok (some (⟨sender, none, some rx⟩, header))
  | _, _ => .ok none

/-- The host's side, on the inbound `Dial`. -/
def serverCryptoSetup (C : Crypto) (keypair : Option C.KeyPair) (dial : Message) (e : C.Entropy) :
    Except EdgeError (Option (ConnCrypto C × Bytes)) :=
  cryptoSetup C "dialer" C.newServer keypair dial e

/-- The dialer's side, on the `StateConnected` reply, up to the header it then writes. -/
def clientCryptoSetup (C : Crypto) (keypair : Option C.KeyPair) (reply : Message) (e : C.Entropy) :
    Except EdgeError (Option (ConnCrypto C × Bytes)) :=
  cryptoSetup C "host" C.newClient keypair reply e

/-- An instance to evaluate the model on: no secrecy, a fixed exchange, frames padded by
`aBytes`. -/
def padCrypto : Crypto where
  KeyPair := Unit
  Entropy := Unit
  Push := Unit
  Pull := Unit
  publicKey := fun _ => List.replicate 32 0
  newClient := fun _ pk => if pk = List.replicate 32 1 then .error "bad key" else .ok ([1], [2])
  newServer := fun _ pk => if pk = List.replicate 32 1 then .error "bad key" else .ok ([2], [1])
  initPush := fun _ _ => ((), List.replicate streamHeaderBytes 0)
  push := fun _ plain => .ok (plain ++ List.replicate aBytes 0, ())
  initPull := fun _ _ => ()
  pull := fun _ cipher => .ok (cipher.take (cipher.length - aBytes), ())

def padCrypto_lawful : padCrypto.Lawful where
  publicKey_length := fun _ => rfl
  keys_match := by
    intro kc ks rx tx h
    simp only [padCrypto] at h ⊢
    rw [if_neg (by decide)] at h ⊢
    cases h
    rfl
  header_length := fun _ _ => rfl
  Synced := fun _ _ => True
  synced_init := fun _ _ => trivial
  synced_push := by
    intro p d plain cipher p' _ h
    simp only [padCrypto, Except.ok.injEq] at h
    obtain ⟨rfl, -⟩ := h
    exact ⟨by simp, (), by simp [padCrypto], trivial⟩

end Noa.Edge
