import StakingHub.Protocol.Request
import StakingHub.Relay.Sealed

/-!
# Answers about relay keys, sealing and symmetric encryption

Sealing and encryption draw their fresh bytes from a source that starts anew for each request.
A payload may be damaged before it is opened again: `tamper` flips every bit of one byte
inside the payload, then `truncate` keeps a prefix.
-/

namespace StakingHub.Protocol

open Json Relay

/-- The payload after the requested damage. -/
def damage (req : Value) (payload : List UInt8) : List UInt8 :=
  let tampered := match optNat req "tamper" with
    | some i => if i < payload.length then payload.modify i (· ^^^ 0xff) else payload
    | none => payload
  match optNat req "truncate" with
  | some n => tampered.take n
  | none => tampered

/-- A relay identity of 32 secret bytes given as hex. -/
def identityOfHex (text : String) : Except Failure Identity := do
  let secret ← requestHex32 text
  match Identity.ofBytes? secret with
  | some id => pure id
  | none => malformed ("expected 32 bytes, got " ++ toString secret.length)

/-- A 32-byte relay secret of the request. -/
def needIdentity (req : Value) (name : String) : Except Failure Identity := do
  identityOfHex (← needString req name)

/-- An optional 32-byte relay secret of the request; a field that is no string reads as
absent. -/
def optIdentity (req : Value) (name : String) : Except Failure (Option Identity) :=
  match optString req name with
  | some text => some <$> identityOfHex text
  | none => .ok none

/-- `{"recipient", "secret"}` of a relay secret. -/
def answerRelayRecipient (req : Value) : Outcome := do
  let id ← needIdentity req "secret"
  pure (.object [("recipient", .string id.recipient.toHex), ("secret", .string (Hex.encode id.secret))])

/-- A recipient key read back. -/
def answerRecipientParse (req : Value) : Outcome := do
  let r ← liftCrypto (Recipient.parse (← needString req "input"))
  pure (.object [("recipient", .string r.toHex)])

/-- A sealed payload opened. -/
def answerRelayOpen (req : Value) : Outcome := do
  let id ← needIdentity req "secret"
  let sealed ← needHex req "sealed"
  let message ← liftCrypto (id.openSealed sealed)
  pure (.object [("plaintext", .string (Hex.encode message))])

/-- A message sealed, damaged as requested, and opened again. -/
def answerRelaySealOpen (req : Value) : Outcome := do
  let opener ← needIdentity req "secret"
  let recipient ← match optString req "recipient" with
    | some text => liftCrypto (Recipient.parse text)
    | none => do pure (((← optIdentity req "recipient_secret").getD opener).recipient)
  let message ← needData req "plaintext"
  let sealed ← liftCrypto (recipient.sealFresh message {}).1
  let damaged := damage req sealed
  let opened ← liftCrypto (opener.openSealed damaged)
  pure (.object [("sealed_len", .nat sealed.length), ("plaintext", .string (Hex.encode opened))])

/-- A message encrypted, damaged as requested, and decrypted again, possibly under another key
or with a nonce of zeros of the requested length. -/
def answerSymRoundtrip (req : Value) : Outcome := do
  let key ← needHex32 req "key"
  let message ← needData req "plaintext"
  let nonce := ((({} : Entropy).draw).1).take Cipher.nonceLength
  let ciphertext := Cipher.encrypt key nonce message
  let damaged := damage req ciphertext
  let decryptKey ← match optString req "decrypt_key" with
    | some text => requestHex32 text
    | none => pure key
  let openNonce ← match optNat req "nonce_len" with
    | some n => liftCrypto (Cipher.nonceOfSlice (List.replicate n 0))
    | none => pure nonce
  match Cipher.decrypt decryptKey openNonce damaged with
  | some opened =>
    pure (.object [("ciphertext_len", .nat ciphertext.length), ("plaintext", .string (Hex.encode opened))])
  | none => throw (.crypto .decryptionFailed)

end StakingHub.Protocol
