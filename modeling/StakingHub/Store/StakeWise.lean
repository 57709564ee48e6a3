import StakingHub.Store.Basic
import StakingHub.Relay.Sealed

/-!
# The StakeWise validator lifecycle

Registered nodes upload deposit records to a vault; a record whose validator key the vault has
seen before, from any node or earlier in the same batch, is skipped. The administrator assembles
a deposit-data set taking, for every user in turn, up to a fixed number of batchable validators
from the user's registered nodes, and commits a set: its validators become used and move from
pending to uploaded, and the vault's version goes up by one. Statuses then move along the
lifecycle (or are overridden), and nodes upload the exit messages of their validators, sealed to
the relay identity.

A validator of a vault is looked up at the first node, in address order, that holds its key for
that vault. Operations that touch several validators check all of them before they change any.

Modelled on `crates/ns-mock/src/lifecycle/stakewise.rs:17-250`, from `owner_of` to
`upload_signed_exits`.
-/

namespace StakingHub

open Relay

/-- What a node is told about one of its StakeWise validators. -/
structure StakeWiseValidatorInfo where
  pubkey : ValidatorPubkey
  status : ValidatorStatus
  exitUploaded : Bool

/-- An exit message for a validator, as uploaded: the validator's key and the sealed message in
hex. -/
structure EncryptedExit where
  pubkey : ValidatorPubkey
  ciphertext : String

/-- The records of a batch whose keys are new, and the known keys after taking them. -/
def freshRecords (known : List ValidatorPubkey) :
    List DepositRecord → List DepositRecord × List ValidatorPubkey
  | [] => ([], known)
  | r :: rs =>
    if known.contains r.pubkey then freshRecords known rs
    else
      let (fresh, known') := freshRecords (Keyed.put id r.pubkey known) rs
      (r :: fresh, known')

/-- A validator taken into a committed set: used, and uploaded if it was pending. -/
def StakeWiseValidator.use (v : StakeWiseValidator) : StakeWiseValidator :=
  { v with used := true, status := if v.status = .pending then .uploaded else v.status }

namespace Node

/-- Appends validators to a vault's list, opening the list if the node has none. -/
def appendValidators (n : Node) (k : VaultKey) (vs : List StakeWiseValidator) : Node :=
  { n with stakewise := Keyed.put Prod.fst (k, n.validatorsIn k ++ vs) n.stakewise }

/-- Changes the first of a vault's validators that has a key. -/
def modifyValidator (n : Node) (k : VaultKey) (pk : ValidatorPubkey)
    (f : StakeWiseValidator → StakeWiseValidator) : Node :=
  let inVault (e : VaultKey × List StakeWiseValidator) :=
    (e.1, Keyed.modifyFirst (fun v => v.pubkey = pk) f e.2)
  { n with stakewise := Keyed.modify Prod.fst k inVault n.stakewise }

end Node

namespace Store

/-- The node holding a validator of a vault: the first in address order. -/
def ownerOf (s : Store) (k : VaultKey) (pk : ValidatorPubkey) : Except ServiceFault Address :=
  match s.nodes.find? (fun n => (n.validatorsIn k).any (·.pubkey = pk)) with
  | some n => .ok n.address
  | none => .error (.validatorNotFound pk)

/-- A validator of a vault. -/
def validator (s : Store) (k : VaultKey) (pk : ValidatorPubkey) :
    Except ServiceFault StakeWiseValidator := do
  let n ← s.whitelistedNode (← s.ownerOf k pk)
  match (n.validatorsIn k).find? (·.pubkey = pk) with
  | some v => pure v
  | none => throw (.validatorNotFound pk)

/-- A validator of a vault held for change: at the node `ownerOf` names, the first validator
of the key. `f` looks at it and either fails, having changed nothing, or gives its new value. -/
def validatorMut (k : VaultKey) (pk : ValidatorPubkey)
    (f : StakeWiseValidator → Except ServiceFault StakeWiseValidator) : StoreM Unit := do
  let owner ← StoreM.read (·.ownerOf k pk)
  nodeMut owner fun n =>
    match (n.validatorsIn k).find? (·.pubkey = pk) with
    | some v => do
      let v' ← f v
      pure ((), n.modifyValidator k pk fun _ => v')
    | none => throw (.validatorNotFound pk)

/-- Stores a registered node's deposit records for a vault; how many were new. The vault takes
up the new keys before the node is held to store them. -/
def uploadDepositData (k : VaultKey) (a : Address) (records : List DepositRecord) :
    StoreM Nat := do
  let _ ← StoreM.read (·.registeredNode a)
  StoreM.read fun _ => checkDepositBatch records k.vault
  let fresh ← vaultMut k fun v =>
    let (fresh, known) := freshRecords v.knownPubkeys records
    pure (fresh, { v with knownPubkeys := known })
  nodeMut a fun n => pure ((), n.appendValidators k (fresh.map fun r => { record := r }))
  pure fresh.length

/-- The next deposit-data set of a vault: for every user in the order they were added, up to
`limit` batchable validators of the user's registered nodes, node by node in whitelist order. -/
def depositDataSet (s : Store) (k : VaultKey) (limit : Nat) :
    Except ServiceFault (List DepositRecord) := do
  let _ ← s.vault k
  pure <| s.users.flatMap fun u =>
    (((s.registeredNodesOf u).flatMap (·.validatorsIn k)).filter (·.isBatchable)).take limit
      |>.map (·.record)

/-- Commits a deposit-data set to a vault; the vault's new version. Every record's validator is
looked up before any of them changes. -/
def commitDepositDataSet (k : VaultKey) (set : List DepositRecord) : StoreM Nat := do
  let _ ← StoreM.read (·.vault k)
  set.forM fun r => do let _ ← StoreM.read (·.validator k r.pubkey)
  set.forM fun r => validatorMut k r.pubkey fun v => pure v.use
  vaultMut k fun v =>
    let v := { v with version := v.version + 1, currentSet := set }
    pure (v.version, v)

/-- The version of a vault's deposit-data set. -/
def depositDataVersion (s : Store) (k : VaultKey) : Except ServiceFault Nat := do
  pure (← s.vault k).version

/-- Marks validators of a vault registered; each must be uploaded. All are checked before any
changes. -/
def markValidatorsRegistered (k : VaultKey) (pks : List ValidatorPubkey) : StoreM Unit := do
  let _ ← StoreM.read (·.vault k)
  pks.forM fun pk => StoreM.read fun s => do
    checkStatusTransition pk (← s.validator k pk).status .registered
  pks.forM fun pk => validatorMut k pk fun v => pure { v with status := .registered, active := true }

/-- Marks a validator of a vault removed. -/
def markValidatorRemoved (k : VaultKey) (pk : ValidatorPubkey) : StoreM Unit := do
  let _ ← StoreM.read (·.vault k)
  validatorMut k pk fun v => do
    checkStatusTransition pk v.status .removed
    pure { v with status := .removed }

/-- Sets a validator's status whatever the lifecycle says. -/
def overrideValidatorStatus (k : VaultKey) (pk : ValidatorPubkey) (status : ValidatorStatus) :
    StoreM Unit := do
  let _ ← StoreM.read (·.vault k)
  validatorMut k pk fun v => pure { v with status }

/-- A registered node's validators of a vault, in upload order. -/
def stakeWiseValidatorsOf (s : Store) (k : VaultKey) (a : Address) :
    Except ServiceFault (List StakeWiseValidatorInfo) := do
  let _ ← s.vault k
  let n ← s.registeredNode a
  pure <| (n.validatorsIn k).map fun v => ⟨v.pubkey, v.status, v.exitUploaded⟩

/-- Opens the exit messages a node uploads for its validators of a vault, entry by entry: each
must name one of `owned` and must open. -/
def openSignedExits (s : Store) (owned : List StakeWiseValidator) (exits : List EncryptedExit) :
    Except ServiceFault (List (ValidatorPubkey × ExitMessage)) :=
  exits.mapM fun e => do
    if !owned.any (·.pubkey = e.pubkey) then
      throw (.invalidPermissions ("validator " ++ e.pubkey.toHex ++ " does not belong to this node"))
    pure (e.pubkey, ← decryptExit s.identity e.ciphertext)

/-- Stores the exit messages a registered node uploads for its validators of a vault; each
must be the node's and must open, and all are opened before the node is held to store them. -/
def uploadSignedExits (k : VaultKey) (a : Address) (exits : List EncryptedExit) :
    StoreM Nat := do
  let _ ← StoreM.read (·.vault k)
  let owned := (← StoreM.read (·.registeredNode a)).validatorsIn k
  let opened ← StoreM.read (·.openSignedExits owned exits)
  let store (n : Node) : Node := opened.foldl (fun n (pk, m) => n.modifyValidator k pk fun v =>
    { v with exitMessage := some m, exitUploaded := true }) n
  nodeMut a fun n => pure ((), store n)
  pure opened.length

end Store

end StakingHub
