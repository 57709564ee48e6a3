import StakingHub.Protocol.Relay
import StakingHub.Relay.Sealed
import StakingHub.Store.Basic
import StakingHub.Service.Config

/-!
# Answers about records, templates, generations and lifecycle checks
-/

namespace StakingHub.Protocol

open Json Relay

/-- The answer of a check: `"ok"` or the fault. -/
def checkAnswer (r : Except ServiceFault Unit) : Value :=
  match r with
  | .ok () => .string "ok"
  | .error f => (Failure.service f).toValue

/-- A validator key read back in both forms. -/
def answerPubkeyParse (req : Value) : Outcome := do
  let k ← liftCrypto (ValidatorPubkey.parse (← needString req "input"))
  pure (.object [("pubkey", .string k.toHex), ("json", .string k.toBare)])

/-- A deposit record read, written back, and checked against a vault. -/
def answerDepositDataParse (req : Value) : Outcome := do
  let record ← (DepositRecord.ofValue (← need req "record")).mapError .record
  let vault ← liftCrypto (Address.parse (← needString req "vault"))
  pure (.object [("record", record.toValue),
    ("withdrawal_address", .string record.withdrawalAddress.checksum),
    ("batch_check", checkAnswer (checkDepositBatch [record] vault))])

/-- An exit message read and written back. -/
def answerExitMessageParse (req : Value) : Outcome := do
  let m ← (ExitMessage.ofValue (← need req "exit")).mapError .record
  pure (.object [("exit", m.toValue)])

/-- The relay secret used when a request names no recipient. -/
def defaultRelaySecret : List UInt8 := List.replicate 32 0x42

/-- The recipient key of the default relay secret. -/
def defaultRecipient : Recipient :=
  match Identity.ofBytes? defaultRelaySecret with
  | some id => id.recipient
  | none => ⟨List.replicate 32 0, List.length_replicate⟩

/-- An exit message sealed through the relay, damaged as requested, and opened again. -/
def answerExitRoundtrip (req : Value) : Outcome := do
  let m ← (ExitMessage.ofValue (← need req "exit")).mapError .record
  let identity ← optIdentity req "secret"
  let recipientKey := (optString req "recipient").getD defaultRecipient.toHex
  let sealedHex ← liftService (encryptExit m recipientKey {}).1
  let sealed ← requestHex sealedHex
  let damaged := damage req sealed
  let opened ← liftService (decryptExit identity (Hex.bare damaged))
  pure (.object [("exit", opened.toValue)])

/-- An exit message opened from its sealed hex. -/
def answerDecryptExit (req : Value) : Outcome := do
  let identity ← optIdentity req "secret"
  let ciphertext ← needString req "ciphertext"
  let m ← liftService (decryptExit identity ciphertext)
  pure (.object [("exit", m.toValue)])

/-- A generation named by text, or the default when the text is absent. -/
def generationOf (text : Option String) : Except Failure Generation :=
  match text with
  | some t =>
    match Generation.parse? t with
    | some g => .ok g
    | none => malformed ("bad generation " ++ t)
  | none => .ok .v3

/-- Login and registration templates given as an object with two strings. -/
def templatesOf (v : Value) : Except Failure Templates := do
  pure { login := ← needString v "login", register := ← needString v "register" }

/-- Rendered login and registration messages. -/
def answerTemplates (req : Value) : Outcome := do
  let templates ← match req.field? "custom" with
    | some custom => templatesOf custom
    | none => do pure (← generationOf (optString req "generation")).templates
  let address ← liftCrypto (Address.parse (← needString req "address"))
  let nonce ← needString req "nonce"
  let email ← needString req "email"
  pure (.object [("login", .string (templates.loginMessage nonce address)),
    ("register", .string (templates.registerMessage email address))])

/-- A generation read from text, with its exit policy. -/
def answerGenerationParse (req : Value) : Outcome := do
  match Generation.parse? (← needString req "input") with
  | some g => pure (.object [("generation", .string g.name), ("exit_policy", .string g.exitPolicy.name)])
  | none => pure (.object [("generation", .null), ("exit_policy", .null)])

/-- A status named by its record name; another name is an unknown variant of the
enumeration. -/
def ValidatorStatus.ofName (name : String) : Except Json.Error ValidatorStatus :=
  match ValidatorStatus.ofWireName? name with
  | some s => .ok s
  | none => .error { fault := .unknownVariant name (ValidatorStatus.all.map ValidatorStatus.wireName) }

/-- A status field: a string holding a record name. -/
def needStatus (req : Value) (name : String) : Except Failure ValidatorStatus := do
  (ValidatorStatus.ofName (← needString req name)).mapError fun e =>
    .request ("bad status: " ++ e.message)

/-- The validator key lifecycle checks are shown with. -/
def sampleValidator : ValidatorPubkey :=
  ⟨List.replicate validatorPubkeyLength 0x11, List.length_replicate⟩

/-- Whether one status may follow another. -/
def answerStatusTransition (req : Value) : Outcome := do
  let src ← needStatus req "from"
  let dst ← needStatus req "to"
  pure (.object [("allowed", .bool (src.canTransitionTo dst)),
    ("from_terminal", .bool src.isTerminal),
    ("check", checkAnswer (checkStatusTransition sampleValidator src dst))])

/-- A minipool limit field: `null` for none, else a 32-bit count. -/
def needLimit (req : Value) : Except Failure (Option Nat) := do
  match ← need req "limit" with
  | .null => pure none
  | v =>
    match natOf? (some v) with
    | some n => if n < Nat.pow 2 32 then pure (some n) else malformed "limit"
    | none => malformed "limit"

/-- Whether a user has reached a minipool limit. -/
def answerMinipoolLimit (req : Value) : Outcome := do
  let limit ← needLimit req
  let user ← needString req "user"
  let owned ← needNat req "owned"
  match checkMinipoolLimit user owned limit with
  | .ok () => pure (.object [("ok", .bool true)])
  | .error f => throw (.service f)

end StakingHub.Protocol
