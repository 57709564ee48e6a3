import StakingHub.Protocol.Scenario.Dump

/-!
# The steps of a scenario

Each step names a service operation under `op` and reads its arguments in a fixed order; the
first argument that does not read is the step's answer, and the scenario stays as it was. An
operation that fails answers its fault, and the service keeps whatever the operation did before
it failed.

Each step calls one method of `MockManager` (`crates/ns-mock/src/service.rs:115-352`).
-/

namespace StakingHub.Protocol

open Json

namespace Scenario

/-- The answer of a step that only succeeds. -/
def okValue : Value :=
  .object [("ok", .bool true)]

/-- A step that runs an operation of the service: the operation's answer, or its failure's, and
the service as the operation left it. -/
def perform (sc : Scenario) (m : ServiceM α) (answer : α → Value) :
    Except Failure (Value × Scenario) :=
  match m.run sc.service with
  | .ok x service => .ok (answer x, { sc with service })
  | .error e service => .ok ((Failure.service e).toValue, { sc with service })

/-- A step whose operation only succeeds or fails. -/
def apply (sc : Scenario) (m : ServiceM Unit) : Except Failure (Value × Scenario) :=
  sc.perform m fun _ => okValue

/-- A step whose operation acts on the live store only. -/
def applyStore (sc : Scenario) (m : StoreM Unit) : Except Failure (Value × Scenario) :=
  sc.apply (Service.onStore m)

/-- A step that reads and changes nothing. -/
def reply (sc : Scenario) (r : Except ServiceFault α) (answer : α → Value) :
    Except Failure (Value × Scenario) := do
  pure (answer (← liftService r), sc)

/-- A validator key field. -/
def needPubkey (req : Value) (name : String) : Except Failure ValidatorPubkey := do
  liftCrypto (ValidatorPubkey.parse (← needString req name))

/-- A single-number answer. -/
def numberValue (name : String) (n : Nat) : Value :=
  .object [(name, .nat n)]

/-- An issued approval. -/
def issuedValue (i : IssuedSignature) : Value :=
  .object [("signature", .string i.signature.toHex), ("nonce", .nat i.nonce),
    ("chain_id", .nat i.chainId), ("contract", addressValue i.contract)]

/-- What a node is told about a StakeWise validator. -/
def stakeWiseInfoValue (v : StakeWiseValidatorInfo) : Value :=
  .object [("pubkey", .string v.pubkey.toBare), ("status", .string v.status.wireName),
    ("exit_message_uploaded", .bool v.exitUploaded)]

/-- What a node is told about a minipool validator. -/
def minipoolInfoValue (v : MinipoolValidatorInfo) : Value :=
  .object [("pubkey", .string v.pubkey.toBare), ("minipool", .string (Hex.bare v.minipool.bytes)),
    ("requires_exit_message", .bool v.needsExitMessage)]

/-- Administration steps. -/
def adminStep (sc : Scenario) (req : Value) : String → Except Failure (Value × Scenario)
  | "add_user" => do
    sc.applyStore (Store.addUser (← needString req "email"))
  | "whitelist_node" => do
    let email ← needString req "email"
    let a ← sc.needAddress req "address"
    sc.applyStore (Store.whitelistNode email a)
  | "add_deployment" => do
    let name ← needString req "name"
    let chainId ← needNat req "chain_id"
    let whitelist ← sc.needAddress req "whitelist"
    let factory ← sc.needAddress req "factory"
    sc.apply (Service.addDeployment name chainId whitelist factory)
  | "set_admin_key" => do
    let key ← sc.secretKeyOf (← needString req "secret")
    let name ← needString req "deployment"
    sc.apply (Service.setAdminKey name key)
  | "set_minipool_limit" => do
    let limit ← needLimit req
    let name ← needString req "deployment"
    sc.apply (Service.setMinipoolLimit name limit)
  | "add_vault" => do
    let name ← needString req "deployment"
    let vault ← sc.needAddress req "vault"
    sc.applyStore (Store.addVault name vault)
  | "set_exit_identity" => do
    let id ← needIdentity req "secret"
    pure (okValue, { sc with service := sc.service.setExitIdentity id })
  | "exit_recipient" =>
    pure (.object [("recipient", optionValue (fun r => .string r.toHex) sc.service.exitRecipient)],
      sc)
  | "whitelist_nonce" => do
    let name ← needString req "deployment"
    let a ← sc.needAddress req "address"
    sc.reply (sc.service.whitelistNonce name a) (numberValue "nonce")
  | "deposit_nonce" => do
    let name ← needString req "deployment"
    let a ← sc.needAddress req "address"
    sc.reply (sc.service.depositNonce name a) (numberValue "nonce")
  | "increment_whitelist_nonce" => do
    let name ← needString req "deployment"
    let a ← sc.needAddress req "address"
    sc.perform (Service.onStore (Store.incrementWhitelistNonce name a)) (numberValue "nonce")
  | "increment_deposit_nonce" => do
    let name ← needString req "deployment"
    let a ← sc.needAddress req "address"
    sc.perform (Service.onStore (Store.incrementDepositNonce name a)) (numberValue "nonce")
  | "add_minipool" => do
    let name ← needString req "deployment"
    let a ← sc.needAddress req "node"
    let minipool ← sc.needAddress req "minipool"
    let pk ← needPubkey req "pubkey"
    sc.applyStore (Store.addMinipool name a minipool pk)
  | op => malformed ("unknown step " ++ op)

/-- StakeWise administration steps. -/
def stakeWiseStep (sc : Scenario) (req : Value) : String → Except Failure (Value × Scenario)
  | "create_deposit_data_set" => do
    let k ← sc.needVaultKey req
    let limit ← needNat req "limit"
    let set ← liftService (sc.service.store.depositDataSet k limit)
    pure (.object [("pubkeys", .array (set.map fun r => .string r.pubkey.toHex))],
      { sc with lastSet := set })
  | "commit_deposit_data_set" => do
    let records ← sc.needRecords req
    let k ← sc.needVaultKey req
    sc.perform (Service.onStore (Store.commitDepositDataSet k records)) (numberValue "version")
  | "mark_validators_registered" => do
    let pks ← (← needArray req "pubkeys").mapM fun v =>
      liftCrypto (ValidatorPubkey.parse ((stringOf? (some v)).getD ""))
    let k ← sc.needVaultKey req
    sc.applyStore (Store.markValidatorsRegistered k pks)
  | "mark_validator_removed" => do
    let k ← sc.needVaultKey req
    let pk ← needPubkey req "pubkey"
    sc.applyStore (Store.markValidatorRemoved k pk)
  | "override_validator_status" => do
    let k ← sc.needVaultKey req
    let pk ← needPubkey req "pubkey"
    let status ← needStatus req "status"
    sc.applyStore (Store.overrideValidatorStatus k pk status)
  | op => sc.adminStep req op

/-- Session steps. -/
def sessionStep (sc : Scenario) (req : Value) : String → Except Failure (Value × Scenario)
  | "create_session" =>
    let (session, service) := sc.service.createSession
    pure (.object [("session", .nat sc.sessions.length),
        ("nonce_len", .nat session.nonce.utf8ByteSize), ("verified", .bool session.isVerified)],
      { sc with service, sessions := sc.sessions ++ [session] })
  | "register_node" => do
    let email ← needString req "email"
    let a ← sc.needAddress req "address"
    let sig ← sc.signatureOf (← need req "sig") a (.register email)
    sc.apply (Service.registerNode email a sig)
  | "login" => do
    let a ← sc.needAddress req "address"
    let nonce ← sc.sessionText Session.nonce "nonce" (← need req "nonce")
    let sig ← sc.signatureOf (← need req "sig") a (.login nonce)
    let index (token : String) : Value :=
      optionValue Value.nat (sc.sessions.findIdx? fun s => s.token = token)
    sc.perform (Service.login a nonce sig) fun token => .object [("token_session", index token)]
  | "logout" => do
    sc.apply (Service.logout (← sc.needToken req))
  | op => sc.stakeWiseStep req op

/-- Node-facing steps, which act as the node of a session token. -/
def nodeStep (sc : Scenario) (req : Value) : String → Except Failure (Value × Scenario)
  | "upload_deposit_data" => do
    let records ← sc.needRecords req
    let token ← sc.needToken req
    let k ← sc.needVaultKey req
    sc.perform (Service.uploadDepositData token k records) (numberValue "stored")
  | "get_deposit_data_meta" => do
    let token ← sc.needToken req
    let k ← sc.needVaultKey req
    sc.reply (sc.service.depositDataMeta token k) (numberValue "version")
  | "get_deposit_data" => do
    let token ← sc.needToken req
    let k ← sc.needVaultKey req
    sc.reply (sc.service.depositData token k) fun (version, set) =>
      .object [("version", .nat version), ("deposit_data", .array (set.map DepositRecord.toValue))]
  | "get_stakewise_validators" => do
    let token ← sc.needToken req
    let k ← sc.needVaultKey req
    sc.reply (sc.service.stakeWiseValidators token k) fun vs => .array (vs.map stakeWiseInfoValue)
  | "upload_signed_exits" => do
    let (exits, sc) ← sc.needExits req
    let token ← sc.needToken req
    let k ← sc.needVaultKey req
    sc.perform (Service.uploadSignedExits token k exits) (numberValue "stored")
  | "get_whitelist_signature" => do
    let token ← sc.needToken req
    let name ← needString req "deployment"
    sc.reply (sc.service.whitelistSignature token name) issuedValue
  | "get_minipool_deposit_signature" => do
    let token ← sc.needToken req
    let name ← needString req "deployment"
    let minipool ← sc.needAddress req "minipool"
    let salt ← needSalt req
    sc.reply (sc.service.minipoolDepositSignature token name minipool salt) issuedValue
  | "get_constellation_validators" => do
    let token ← sc.needToken req
    let name ← needString req "deployment"
    sc.reply (sc.service.constellationValidators token name) fun vs =>
      .array (vs.map minipoolInfoValue)
  | "upload_constellation_exits" => do
    let (exits, sc) ← sc.needExits req
    let token ← sc.needToken req
    let name ← needString req "deployment"
    sc.perform (Service.uploadConstellationExits token name exits) (numberValue "stored")
  | op => sc.sessionStep req op

/-- One step: its answer and the scenario after it. -/
def step (sc : Scenario) (req : Value) : Except Failure (Value × Scenario) := do
  match ← needString req "op" with
  | "snapshot" => do
    pure (okValue, { sc with service := sc.service.snapshot (← needString req "name") })
  | "revert" => do sc.apply (Service.revert (← needString req "name"))
  | "delete_snapshot" => do sc.apply (Service.deleteSnapshot (← needString req "name"))
  | "snapshot_names" =>
    pure (.object [("names", .array (sc.service.snapshotNames.map Value.string))], sc)
  | "state" => pure (sc.dump, sc)
  | op => sc.nodeStep req op

/-- Runs one step; a failed step answers its failure and changes nothing. -/
def runStep (sc : Scenario) (req : Value) : Value × Scenario :=
  match sc.step req with
  | .ok (answer, sc') => (answer, sc')
  | .error f => (f.toValue, sc)

/-- Runs the steps in order; their answers and the scenario after the last. -/
def runSteps (sc : Scenario) : List Value → List Value × Scenario
  | [] => ([], sc)
  | req :: rest =>
    let (answer, sc) := sc.runStep req
    let (answers, sc) := sc.runSteps rest
    (answer :: answers, sc)

end Scenario

end StakingHub.Protocol
