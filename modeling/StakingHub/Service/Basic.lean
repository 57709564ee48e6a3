import StakingHub.Store.Session
import StakingHub.Store.Approval
import StakingHub.Store.Minipool
import StakingHub.Relay.Sealed

/-!
# The service

The service holds its configuration, the live store, named snapshots of the store, and a source
of fresh bytes for session nonces and tokens. Reverting to a snapshot replaces the live store and
nothing else: the snapshots stay, and fresh bytes never repeat.

Operations that cannot fail are functions of the service; those that can change the service in
place and keep what they did before a failure, as the store's operations do. Node-facing
operations take a session token and act as the node the token is logged in as; an unknown or
unverified token is an invalid session, reported before anything else.

Modelled on `MockManager` (`crates/ns-mock/src/service.rs:50-352`), its snapshot registry
(`crates/ns-mock/src/store/snapshot.rs:9-46`) and `create_session`
(`crates/ns-mock/src/auth/session.rs:13-20`).
-/

namespace StakingHub

open Secp256k1 Relay

/-- The service: configuration, live store, snapshots by name, and fresh bytes. -/
structure Service where
  config : Config
  store : Store := {}
  snapshots : List (String × Store) := []
  entropy : Entropy := {}
  deriving DecidableEq

/-- A session token in the form of a random (version 4) UUID, from 16 fresh bytes. -/
def uuidText (bytes : List UInt8) : String :=
  let marked := (bytes.take 16).modify 6 (fun b => (b &&& 0x0f) ||| 0x40)
    |>.modify 8 (fun b => (b &&& 0x3f) ||| 0x80)
  let group (start count : Nat) := Hex.bare ((marked.drop start).take count)
  group 0 4 ++ "-" ++ group 4 2 ++ "-" ++ group 6 2 ++ "-" ++ group 8 2 ++ "-" ++ group 10 6

/-- A change to the service that may fail part way; what it changed before the failure
stays. -/
abbrev ServiceM := EStateM ServiceFault Service

namespace Service

variable {α : Type}

/-- The templates in force. -/
def templates (svc : Service) : Templates :=
  svc.config.templates

/-- A lookup on the service as it is; it changes nothing. -/
def read (f : Service → Except ServiceFault α) : ServiceM α := fun svc =>
  match f svc with
  | .ok a => .ok a svc
  | .error e => .error e svc

/-- Runs a store operation on the live store; the rest of the service stays. -/
def onStore (m : StoreM α) : ServiceM α := fun svc =>
  match m.run svc.store with
  | .ok a store => .ok a { svc with store }
  | .error e store => .error e { svc with store }

/-! ### Snapshots -/

/-- Keeps a copy of the live store under a name, replacing one of the same name. -/
def snapshot (svc : Service) (name : String) : Service :=
  { svc with snapshots := Keyed.put Prod.fst (name, svc.store) svc.snapshots }

/-- The snapshot of a name, which must exist. -/
def snapshotOf (svc : Service) (name : String) : Except ServiceFault Store :=
  match Keyed.get? Prod.fst name svc.snapshots with
  | some (_, store) => .ok store
  | none => .error (.snapshotNotFound name)

/-- Makes a snapshot the live store again; the snapshot stays. -/
def revert (name : String) : ServiceM Unit := do
  let store ← read (·.snapshotOf name)
  modify fun svc => { svc with store }

/-- Forgets a snapshot. -/
def deleteSnapshot (name : String) : ServiceM Unit := do
  if !Keyed.contains Prod.fst name (← get).snapshots then throw (.snapshotNotFound name)
  modify fun svc => { svc with snapshots := Keyed.erase Prod.fst name svc.snapshots }

/-- The snapshots' names, in order. -/
def snapshotNames (svc : Service) : List String :=
  svc.snapshots.map Prod.fst

/-! ### Administration -/

/-- Adds a deployment with no admin key, no limit, no vaults and no minipools. -/
def addDeployment (name : String) (chainId : Nat) (whitelist factory : Address) :
    ServiceM Unit :=
  onStore (Store.addDeployment { name, chainId, whitelist, factory })

/-- Sets the key a deployment signs approvals with. -/
def setAdminKey (name : String) (key : SecretKey) : ServiceM Unit :=
  onStore (Store.deploymentMut name fun d => pure ((), { d with admin := some key }))

/-- Sets or lifts a deployment's minipool limit per user. -/
def setMinipoolLimit (name : String) (limit : Option Nat) : ServiceM Unit :=
  onStore (Store.deploymentMut name fun d => pure ((), { d with minipoolLimit := limit }))

/-- Sets the relay identity exit messages are sealed to. -/
def setExitIdentity (svc : Service) (id : Identity) : Service :=
  { svc with store := { svc.store with identity := some id } }

/-- The recipient key exit messages are sealed to, once an identity is set. -/
def exitRecipient (svc : Service) : Option Recipient :=
  svc.store.identity.map Identity.recipient

/-- A node's whitelist counter at a deployment. -/
def whitelistNonce (svc : Service) (name : String) (a : Address) : Except ServiceFault Nat := do
  pure ((← svc.store.deployment name).whitelistNonce a)

/-- A node's deposit counter at a deployment. -/
def depositNonce (svc : Service) (name : String) (a : Address) : Except ServiceFault Nat := do
  pure ((← svc.store.deployment name).depositNonce a)

/-! ### Sessions -/

/-- Opens a session with a fresh nonce (64 hex digits) and a fresh token. -/
def createSession (svc : Service) : Session × Service :=
  let (nonceBytes, entropy) := svc.entropy.draw
  let (tokenBytes, entropy) := entropy.draw
  let nonce := Hex.bare nonceBytes
  let token := uuidText tokenBytes
  ({ nonce, token }, { svc with store := svc.store.addSession nonce token, entropy })

/-- Registers a node by its signature of the registration message. -/
def registerNode (email : String) (a : Address) (sig : Signature) : ServiceM Unit := do
  let svc ← get
  onStore (Store.register svc.templates email a sig)

/-- Logs a node in; the session's token. -/
def login (a : Address) (nonce : String) (sig : Signature) : ServiceM String := do
  let svc ← get
  onStore (Store.login svc.templates svc.config.noncePolicy a nonce sig)

/-- Ends every session of a token. -/
def logout (token : String) : ServiceM Unit :=
  onStore (Store.logout token)

/-! ### Node-facing operations -/

/-- The node a token is logged in as. -/
def authenticate (token : String) : ServiceM Address :=
  read (·.store.authenticate token)

/-- Stores deposit records for a vault as the token's node; how many were new. -/
def uploadDepositData (token : String) (k : VaultKey) (records : List DepositRecord) :
    ServiceM Nat := do
  let a ← authenticate token
  onStore (Store.uploadDepositData k a records)

/-- The version of a vault's deposit-data set. -/
def depositDataMeta (svc : Service) (token : String) (k : VaultKey) : Except ServiceFault Nat := do
  let _ ← svc.store.authenticate token
  svc.store.depositDataVersion k

/-- The version and records of a vault's deposit-data set. -/
def depositData (svc : Service) (token : String) (k : VaultKey) :
    Except ServiceFault (Nat × List DepositRecord) := do
  let _ ← svc.store.authenticate token
  let v ← svc.store.vault k
  pure (v.version, v.currentSet)

/-- The token's node's validators of a vault. -/
def stakeWiseValidators (svc : Service) (token : String) (k : VaultKey) :
    Except ServiceFault (List StakeWiseValidatorInfo) := do
  let a ← svc.store.authenticate token
  svc.store.stakeWiseValidatorsOf k a

/-- Stores exit messages for the token's node's validators of a vault; how many. -/
def uploadSignedExits (token : String) (k : VaultKey) (exits : List EncryptedExit) :
    ServiceM Nat := do
  let a ← authenticate token
  onStore (Store.uploadSignedExits k a exits)

/-- The whitelist approval for the token's node. -/
def whitelistSignature (svc : Service) (token : String) (name : String) :
    Except ServiceFault IssuedSignature := do
  let a ← svc.store.authenticate token
  svc.store.whitelistSignature name a

/-- The minipool deposit approval for the token's node. -/
def minipoolDepositSignature (svc : Service) (token : String) (name : String) (minipool : Address)
    (salt : Nat) : Except ServiceFault IssuedSignature := do
  let a ← svc.store.authenticate token
  svc.store.depositSignature name a minipool salt

/-- The token's node's minipool validators of a deployment. -/
def constellationValidators (svc : Service) (token : String) (name : String) :
    Except ServiceFault (List MinipoolValidatorInfo) := do
  let a ← svc.store.authenticate token
  svc.store.minipoolValidatorsOf name a

/-- Stores exit messages for the token's node's minipool validators; how many. -/
def uploadConstellationExits (token : String) (name : String) (exits : List EncryptedExit) :
    ServiceM Nat := do
  let a ← authenticate token
  let policy := (← get).config.exitPolicy
  onStore (Store.uploadMinipoolExits name a exits policy)

end Service

end StakingHub
