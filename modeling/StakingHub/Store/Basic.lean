import StakingHub.Store.Keyed
import StakingHub.Record.Deposit
import StakingHub.Record.Exit
import StakingHub.Relay.Sealed
import StakingHub.Secp256k1.Ecdsa
import StakingHub.Service.Fault

/-!
# The service's store

The store holds users, the nodes whitelisted for them, login sessions, deployments and the
relay identity that exit messages are sealed to.

* Users keep the order they were added in; each lists its nodes in the order they were
  whitelisted.
* Nodes are kept by address, deployments by name, and within a deployment the vaults by address,
  the replay counters by address and the minipool validators by validator key.
* A node keeps its StakeWise validators per vault, in the order they were uploaded.
* Sessions keep the order they were opened in.

Looking up a node, a deployment or a vault that is not there is a fault naming it; the
operations below report the first missing thing in the order the service looks.

An operation changes the store in place, step by step, and may fail part way: what it changed
before the failure stays. An entry held for change (a user, a node, a deployment, a vault) is
written back only once the look at it succeeded (`crates/ns-mock/src/domain/entities.rs:13-260`,
`crates/ns-mock/src/store/database.rs:12-280`).

Checks made before the store changes (`crates/ns-mock/src/domain/invariants.rs:16-53`): a batch
of deposit records must all withdraw to the vault they are uploaded to, the first that does not
being reported; a validator's status may only move along the lifecycle; a user may own minipools
up to the deployment's limit, if it has one.
-/

namespace StakingHub

open Secp256k1 Relay

/-- A user: an email and the addresses of its nodes in the order they were whitelisted. -/
structure User where
  email : String
  nodes : List Address := []
  deriving DecidableEq

/-- A vault of a deployment, named by the deployment and the vault's address. -/
structure VaultKey where
  deployment : String
  vault : Address
  deriving DecidableEq

/-- Vault keys are ordered by deployment name, then by vault address. -/
def VaultKey.compare (a b : VaultKey) : Ordering :=
  (Ord.compare a.deployment b.deployment).then (Ord.compare a.vault b.vault)

instance : Ord VaultKey := ⟨VaultKey.compare⟩

/-- A StakeWise validator that a node uploaded a deposit record for. Its key is the record's. -/
structure StakeWiseValidator where
  record : DepositRecord
  status : ValidatorStatus := .pending
  used : Bool := false
  active : Bool := false
  exitMessage : Option ExitMessage := none
  exitUploaded : Bool := false
  deriving DecidableEq

namespace StakeWiseValidator

/-- The validator's key. -/
def pubkey (v : StakeWiseValidator) : ValidatorPubkey :=
  v.record.pubkey

/-- Whether the next deposit-data set may take the validator: not yet used, still pending. -/
def isBatchable (v : StakeWiseValidator) : Bool :=
  !v.used && v.status == .pending

end StakeWiseValidator

/-- A whitelisted node: its owner's email, whether it registered, and its StakeWise validators
for each vault, vaults in key order. -/
structure Node where
  address : Address
  owner : String
  registered : Bool := false
  stakewise : List (VaultKey × List StakeWiseValidator) := []
  deriving DecidableEq

/-- The node's validators for one vault, in upload order. -/
def Node.validatorsIn (n : Node) (k : VaultKey) : List StakeWiseValidator :=
  ((Keyed.get? Prod.fst k n.stakewise).map Prod.snd).getD []

/-- A login session: the nonce a node signs, the token the session is used by, and the node it
was verified for (none while only the nonce is issued). -/
structure Session where
  nonce : String
  token : String
  node : Option Address := none
  deriving DecidableEq

/-- Whether a node logged in with the session. -/
def Session.isVerified (s : Session) : Bool :=
  s.node.isSome

/-- A StakeWise vault: every validator key uploaded to it, the deposit-data set committed last,
and how many sets were committed. -/
structure Vault where
  address : Address
  knownPubkeys : List ValidatorPubkey := []
  currentSet : List DepositRecord := []
  version : Nat := 0
  deriving DecidableEq

/-- A validator of a Constellation minipool, with the node owning it and its exit message. -/
structure MinipoolValidator where
  pubkey : ValidatorPubkey
  node : Address
  minipool : Address
  exitMessage : Option ExitMessage := none
  deriving DecidableEq

/-- Whether the validator still lacks an exit message. -/
def MinipoolValidator.needsExitMessage (v : MinipoolValidator) : Bool :=
  v.exitMessage.isNone

/-- A deployment: its chain, its whitelist and factory contracts, the admin key that signs
approvals, replay counters per node, the minipool limit per user, its StakeWise vaults and its
minipool validators. -/
structure Deployment where
  name : String
  chainId : Nat
  whitelist : Address
  factory : Address
  admin : Option SecretKey := none
  whitelistNonces : List (Address × Nat) := []
  depositNonces : List (Address × Nat) := []
  minipoolLimit : Option Nat := none
  vaults : List Vault := []
  minipools : List MinipoolValidator := []
  deriving DecidableEq

namespace Deployment

/-- A counter's value for an address; zero until it first moves. -/
def counter (counters : List (Address × Nat)) (a : Address) : Nat :=
  ((Keyed.get? Prod.fst a counters).map Prod.snd).getD 0

/-- The whitelist counter of an address. -/
def whitelistNonce (d : Deployment) (a : Address) : Nat :=
  counter d.whitelistNonces a

/-- The deposit counter of an address. -/
def depositNonce (d : Deployment) (a : Address) : Nat :=
  counter d.depositNonces a

/-- The minipool validators a node owns, in key order. -/
def minipoolsOf (d : Deployment) (a : Address) : List MinipoolValidator :=
  d.minipools.filter fun v => v.node = a

end Deployment

/-- Everything the service holds. -/
structure Store where
  users : List User := []
  nodes : List Node := []
  sessions : List Session := []
  deployments : List Deployment := []
  identity : Option Identity := none
  deriving DecidableEq

/-- A change to the store that may fail part way, as the service's operations change the store
they hold for writing: whatever was changed before the failure stays. -/
abbrev StoreM := EStateM ServiceFault Store

namespace StoreM

variable {α β X : Type}

/-- A lookup on the store as it is; it changes nothing. -/
def read (f : Store → Except ServiceFault α) : StoreM α := fun s =>
  match f s with
  | .ok a => .ok a s
  | .error e => .error e s

/-- An entry of the store held for change: `find` locates it or fails; `f` looks at it and either
fails, having changed nothing, or gives a result and the entry's new value, which `write` puts
in its place. -/
def borrow (find : Store → Except ServiceFault X) (write : X → Store → Store)
    (f : X → Except ServiceFault (β × X)) : StoreM β := fun s =>
  match find s >>= f with
  | .ok (b, x) => .ok b (write x s)
  | .error e => .error e s

end StoreM

namespace Store

/-! ### Users and nodes -/

/-- The user of an email. -/
def user? (s : Store) (email : String) : Option User :=
  s.users.find? fun u => u.email = email

/-- The user of an email, which must exist. -/
def existingUser (s : Store) (email : String) : Except ServiceFault User :=
  match s.user? email with
  | some u => .ok u
  | none => .error (.userNotFound email)

/-- Adds a user; an email is taken once. -/
def addUser (email : String) : StoreM Unit := do
  if ((← get).user? email).isSome then throw (.userAlreadyExists email)
  modify fun s => { s with users := s.users ++ [{ email }] }

/-- The node of an address. -/
def node? (s : Store) (a : Address) : Option Node :=
  Keyed.get? Node.address a s.nodes

/-- The node of an address, which must be whitelisted. -/
def whitelistedNode (s : Store) (a : Address) : Except ServiceFault Node :=
  match s.node? a with
  | some n => .ok n
  | none => .error (.addressMissingWhitelist a)

/-- The node of an address, which must be whitelisted and registered. -/
def registeredNode (s : Store) (a : Address) : Except ServiceFault Node := do
  let n ← s.whitelistedNode a
  if n.registered then pure n else throw (.unregisteredNode a)

/-- A user's registered nodes, in the order they were whitelisted. -/
def registeredNodesOf (s : Store) (u : User) : List Node :=
  (u.nodes.filterMap s.node?).filter Node.registered

/-- Changes the user of an email. -/
def modifyUser (s : Store) (email : String) (f : User → User) : Store :=
  { s with users := Keyed.modifyFirst (fun u => u.email = email) f s.users }

/-- Changes the node of an address. -/
def modifyNode (s : Store) (a : Address) (f : Node → Node) : Store :=
  { s with nodes := Keyed.modify Node.address a f s.nodes }

/-- The user of an email held for change. -/
def userMut (email : String) (f : User → Except ServiceFault (β × User)) : StoreM β :=
  StoreM.borrow (·.existingUser email) (fun u s => s.modifyUser email fun _ => u) f

/-- The node of an address held for change; it must be whitelisted. -/
def nodeMut (a : Address) (f : Node → Except ServiceFault (β × Node)) : StoreM β :=
  StoreM.borrow (·.whitelistedNode a) (fun n s => s.modifyNode a fun _ => n) f

/-- Whitelists a node for a user: an address once, and only for a user that exists. The user
lists the address before the node is created. -/
def whitelistNode (email : String) (a : Address) : StoreM Unit := do
  if ((← get).node? a).isSome then throw (.nodeAlreadyWhitelisted a)
  userMut email fun u => pure ((), { u with nodes := u.nodes ++ [a] })
  modify fun s => { s with nodes := Keyed.put Node.address { address := a, owner := email } s.nodes }

/-! ### Deployments and vaults -/

/-- The deployment of a name. -/
def deployment (s : Store) (name : String) : Except ServiceFault Deployment :=
  match Keyed.get? Deployment.name name s.deployments with
  | some d => .ok d
  | none => .error (.deploymentNotFound name)

/-- Changes the deployment of a name. -/
def modifyDeployment (s : Store) (name : String) (f : Deployment → Deployment) : Store :=
  { s with deployments := Keyed.modify Deployment.name name f s.deployments }

/-- The deployment of a name held for change; it must exist. -/
def deploymentMut (name : String) (f : Deployment → Except ServiceFault (β × Deployment)) :
    StoreM β :=
  StoreM.borrow (·.deployment name) (fun d s => s.modifyDeployment name fun _ => d) f

/-- Adds a deployment; a name is taken once. -/
def addDeployment (d : Deployment) : StoreM Unit := do
  if Keyed.contains Deployment.name d.name (← get).deployments then
    throw (.deploymentAlreadyExists d.name)
  modify fun s => { s with deployments := Keyed.put Deployment.name d s.deployments }

/-- Adds a StakeWise vault to a deployment; an address is taken once per deployment. -/
def addVault (name : String) (a : Address) : StoreM Unit :=
  deploymentMut name fun d => do
    if Keyed.contains Vault.address a d.vaults then throw (.vaultAlreadyExists a)
    pure ((), { d with vaults := Keyed.put Vault.address { address := a } d.vaults })

/-- The vault of a key: its deployment first, then the vault. -/
def vault (s : Store) (k : VaultKey) : Except ServiceFault Vault := do
  let d ← s.deployment k.deployment
  match Keyed.get? Vault.address k.vault d.vaults with
  | some v => pure v
  | none => throw (.vaultNotFound k.vault)

/-- Changes the vault of a key; nothing changes when it is missing. -/
def modifyVault (s : Store) (k : VaultKey) (f : Vault → Vault) : Store :=
  let inDeployment (d : Deployment) : Deployment :=
    { d with vaults := Keyed.modify Vault.address k.vault f d.vaults }
  { s with deployments := Keyed.modify Deployment.name k.deployment inDeployment s.deployments }

/-- The vault of a key held for change; its deployment and the vault must exist. -/
def vaultMut (k : VaultKey) (f : Vault → Except ServiceFault (β × Vault)) : StoreM β :=
  StoreM.borrow (·.vault k) (fun v s => s.modifyVault k fun _ => v) f

end Store

/-! ### Checks made before the store changes -/

/-- The first record of a batch that does not withdraw to the vault, as a fault. -/
def checkDepositBatch (records : List DepositRecord) (vault : Address) :
    Except ServiceFault Unit :=
  match records.find? (fun r => r.withdrawalAddress ≠ vault) with
  | some r => .error (.vaultMismatch r.pubkey vault)
  | none => .ok ()

/-- A status change that the lifecycle does not allow, as a fault. -/
def checkStatusTransition (pubkey : ValidatorPubkey) (src dst : ValidatorStatus) :
    Except ServiceFault Unit :=
  if src.canTransitionTo dst then .ok () else .error (.invalidStatusTransition pubkey src dst)

/-- Whether a user owning `owned` minipools has reached the limit, as a fault. -/
def checkMinipoolLimit (user : String) (owned : Nat) (limit : Option Nat) :
    Except ServiceFault Unit :=
  match limit with
  | some l => if owned ≥ l then .error (.minipoolLimitReached user l) else .ok ()
  | none => .ok ()

end StakingHub
