import StakingHub.Protocol.Signing
import StakingHub.Protocol.Relay
import StakingHub.Protocol.Records
import StakingHub.Service.Basic

/-!
# A scenario's state and the arguments of its steps

A scenario runs steps against one service. Besides the service it keeps named signing keys, the
nonce and token of every session it opened (sessions are referred to by their number, which
stays valid after a revert or a logout removed the session), and the deposit-data set it
assembled last.

Arguments of steps are read as follows.

* An address is `"@name"`, the address of the named key, or hex text read as an address.
* A token or a nonce is text, or `{"session": i}` for that of the `i`-th session opened.
* A signature is given as hex, or as a key that signs a login or registration message, possibly
  with other templates, address, nonce, email or message, and then altered byte by byte.
* An exit is a validator key with a ready ciphertext, with bytes to seal, or with an exit
  message to seal, sealed to a recipient and possibly damaged.
-/

namespace StakingHub.Protocol

open Json Secp256k1 Relay

/-- A named signing key of a scenario, with its address. -/
structure NamedKey where
  name : String
  key : Except CryptoFault SecretKey
  address : Except CryptoFault Address

/-- The named keys of a scenario, read from their secrets. -/
def NamedKey.ofSecret (name secret : String) : NamedKey :=
  let key := SecretKey.parse secret
  { name, key, address := key.map SecretKey.address }

/-- What a scenario keeps between steps. -/
structure Scenario where
  service : Service
  keys : List NamedKey := []
  sessions : List Session := []
  lastSet : List DepositRecord := []

namespace Scenario

/-- The named key `name`. -/
def namedKey (sc : Scenario) (name : String) : Except Failure NamedKey :=
  match sc.keys.find? (·.name = name) with
  | some k => .ok k
  | none => malformed ("unknown key " ++ name)

/-- The name after `@`, if the text names a key. -/
def keyName? (text : String) : Option String :=
  match text.toList with
  | '@' :: name => some (String.ofList name)
  | _ => none

/-- An address given as `"@name"` or as hex. -/
def addressOf (sc : Scenario) (text : String) : Except Failure Address := do
  match keyName? text with
  | some name => liftCrypto (← sc.namedKey name).address
  | none => liftCrypto (Address.parse text)

/-- An address field. -/
def needAddress (sc : Scenario) (req : Value) (name : String) : Except Failure Address := do
  sc.addressOf (← needString req name)

/-- A secret key given as `"@name"` or as hex. -/
def secretKeyOf (sc : Scenario) (text : String) : Except Failure SecretKey := do
  match keyName? text with
  | some name => liftCrypto (← sc.namedKey name).key
  | none => liftCrypto (SecretKey.parse text)

/-- The session of a number. -/
def session (sc : Scenario) (i : Nat) : Except Failure Session :=
  match sc.sessions[i]? with
  | some s => .ok s
  | none => malformed ("no session " ++ toString i)

/-- Text given literally or as `{"session": i}`, taking a part of that session. -/
def sessionText (sc : Scenario) (part : Session → String) (name : String) :
    Value → Except Failure String
  | .string s => .ok s
  | v@(.object _) =>
    match natOf? (v.field? "session") with
    | some i => part <$> sc.session i
    | none => malformed "session index must be an integer"
  | _ => malformed (name ++ " must be a string or \x7bsession\x7d")

/-- A token field. -/
def needToken (sc : Scenario) (req : Value) : Except Failure String := do
  sc.sessionText Session.token "token" (← need req "token")

/-- A vault named by the `deployment` and `vault` fields. -/
def needVaultKey (sc : Scenario) (req : Value) : Except Failure VaultKey := do
  let deployment ← needString req "deployment"
  let vault ← sc.needAddress req "vault"
  pure { deployment, vault }

/-! ### Signatures -/

/-- Which message a signature is for. -/
inductive SignedFor where
  | login (nonce : String)
  | register (email : String)

/-- The signature bytes altered as asked: the recovery byte lowered by 27, or set to a count
modulo 256, and one byte's bits flipped. -/
def alterSignature (spec : Value) (bytes : List UInt8) : List UInt8 :=
  let lowered := match spec.field? "v_raw" with
    | some (.bool true) => bytes.modify 64 (· - 27)
    | _ => bytes
  let set := match optNat spec "v" with
    | some v => lowered.modify 64 fun _ => v.toUInt8
    | none => lowered
  match optNat spec "flip" with
  | some i => set.modify (i % signatureLength) (· ^^^ 0xff)
  | none => set

/-- The message a signature spec signs. -/
def specMessage (sc : Scenario) (spec : Value) (a : Address) (signedFor : SignedFor) :
    Except Failure (List UInt8) := do
  let templates ← match optString spec "generation" with
    | some t => do pure (← generationOf (some t)).templates
    | none => pure sc.service.templates
  let templates : Templates := match optString spec "template" with
    | some t => { login := t, register := t }
    | none => templates
  let a ← match optString spec "address" with
    | some t => sc.addressOf t
    | none => pure a
  match optString spec "message" with
  | some message => pure message.toUTF8.toList
  | none =>
    match signedFor with
    | .login nonce => do
      let nonce ← match spec.field? "nonce" with
        | some v => sc.sessionText Session.nonce "nonce" v
        | none => pure nonce
      pure (templates.loginMessage nonce a).toUTF8.toList
    | .register email =>
      let email := (optString spec "email").getD email
      pure (templates.registerMessage email a).toUTF8.toList

/-- The signature a spec stands for. -/
def signatureOf (sc : Scenario) (spec : Value) (a : Address) (signedFor : SignedFor) :
    Except Failure Signature := do
  match spec.field? "hex" with
  | some v => liftCrypto (Signature.parse ((stringOf? (some v)).getD ""))
  | none =>
    let key ← sc.secretKeyOf (← needString spec "key")
    let message ← sc.specMessage spec a signedFor
    let sig ← liftCrypto (signPersonal key message)
    liftCrypto (Signature.ofBytes (alterSignature spec sig.bytes))

/-! ### Records and exits -/

/-- Deposit records given as `"last_set": true` or as a JSON array. -/
def needRecords (sc : Scenario) (req : Value) : Except Failure (List DepositRecord) := do
  match req.field? "last_set" with
  | some (.bool true) => pure sc.lastSet
  | _ =>
    match ← need req "records" with
    | .array items => (items.mapM DepositRecord.ofValue).mapError .record
    | v => throw (.record { fault := .invalidType v.found "a sequence" })

/-- The recipient an exit is sealed to: the spec's own, the service's, or the default. -/
def exitRecipientFor (sc : Scenario) (spec : Value) : Except Failure Recipient := do
  match ← optIdentity spec "recipient_secret" with
  | some id => pure id.recipient
  | none => pure (sc.service.exitRecipient.getD defaultRecipient)

/-- Draws fresh bytes from the service's source for an operation of the scenario. -/
def withEntropy (sc : Scenario) (f : Entropy → α × Entropy) : α × Scenario :=
  let (x, entropy) := f sc.service.entropy
  (x, { sc with service := { sc.service with entropy } })

/-- The sealed hex of an exit spec: a ready ciphertext, or else bytes or an exit message sealed
to the spec's recipient, which is read first. -/
def exitCiphertext (sc : Scenario) (spec : Value) : Except Failure (String × Scenario) := do
  match optString spec "ciphertext" with
  | some text => pure (text, sc)
  | none =>
    let recipient ← sc.exitRecipientFor spec
    if has spec "plaintext" || has spec "plaintext_hex" then
      let message ← needData spec "plaintext"
      let (sealed, sc) := sc.withEntropy (recipient.sealFresh message)
      pure (Hex.bare (damage spec (← liftCrypto sealed)), sc)
    else
      let m ← (ExitMessage.ofValue (← need spec "exit")).mapError .record
      let (sealedHex, sc) := sc.withEntropy (encryptExit m recipient.toHex)
      let sealed ← requestHex (← liftService sealedHex)
      pure (Hex.bare (damage spec sealed), sc)

/-- One exit spec. -/
def exitOf (sc : Scenario) (spec : Value) : Except Failure (EncryptedExit × Scenario) := do
  let pubkey ← liftCrypto (ValidatorPubkey.parse (← needString spec "pubkey"))
  let (ciphertext, sc) ← sc.exitCiphertext spec
  pure ({ pubkey, ciphertext }, sc)

/-- The exits of the `exits` field, built in order. -/
def needExits (sc : Scenario) (req : Value) : Except Failure (List EncryptedExit × Scenario) := do
  (← needArray req "exits").foldlM (fun (acc : List EncryptedExit × Scenario) spec => do
    let (e, sc) ← acc.2.exitOf spec
    pure (acc.1 ++ [e], sc)) ([], sc)

end Scenario

end StakingHub.Protocol
