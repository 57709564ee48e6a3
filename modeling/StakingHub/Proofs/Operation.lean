import StakingHub.Proofs.Transaction

/-!
# The operations of the service and its runs

Every request that takes the service's state for writing is an operation: the administrator's,
the snapshot registry's and the nodes'. Requests that only read get the state as it is and cannot
change it, so runs leave them out. The nonce and token of a new session are given with the
operation, as the values the source of fresh bytes produced: the source is outside the store.

`Service.step` applies one operation and keeps the state it left, whether it succeeded or failed,
as the service does. A run applies operations in order; `Reachable` holds of the states runs reach
from a new service.
-/

namespace StakingHub

open Secp256k1 Relay

/-- A request that takes the service's state for writing. -/
inductive Op where
  | addUser (email : String)
  | whitelistNode (email : String) (node : Address)
  | addDeployment (name : String) (chainId : Nat) (whitelist factory : Address)
  | setAdminKey (name : String) (key : SecretKey)
  | setMinipoolLimit (name : String) (limit : Option Nat)
  | addVault (name : String) (vault : Address)
  | setExitIdentity (id : Identity)
  | incrementWhitelistNonce (name : String) (node : Address)
  | incrementDepositNonce (name : String) (node : Address)
  | commitDepositDataSet (k : VaultKey) (set : List DepositRecord)
  | markValidatorsRegistered (k : VaultKey) (pubkeys : List ValidatorPubkey)
  | markValidatorRemoved (k : VaultKey) (pubkey : ValidatorPubkey)
  | overrideValidatorStatus (k : VaultKey) (pubkey : ValidatorPubkey) (status : ValidatorStatus)
  | addMinipool (name : String) (node minipool : Address) (pubkey : ValidatorPubkey)
  | snapshot (name : String)
  | revert (name : String)
  | deleteSnapshot (name : String)
  | createSession (nonce token : String)
  | registerNode (email : String) (node : Address) (sig : Signature)
  | login (node : Address) (nonce : String) (sig : Signature)
  | logout (token : String)
  | uploadDepositData (token : String) (k : VaultKey) (records : List DepositRecord)
  | uploadSignedExits (token : String) (k : VaultKey) (exits : List EncryptedExit)
  | uploadConstellationExits (token : String) (name : String) (exits : List EncryptedExit)

namespace Service

/-- What an operation does to the service; its answer is dropped. -/
def exec : Op → ServiceM Unit
  | .addUser email => onStore (Store.addUser email)
  | .whitelistNode email a => onStore (Store.whitelistNode email a)
  | .addDeployment name chainId whitelist factory => addDeployment name chainId whitelist factory
  | .setAdminKey name key => setAdminKey name key
  | .setMinipoolLimit name limit => setMinipoolLimit name limit
  | .addVault name vault => onStore (Store.addVault name vault)
  | .setExitIdentity id => modify (·.setExitIdentity id)
  | .incrementWhitelistNonce name a => do let _ ← onStore (Store.incrementWhitelistNonce name a)
  | .incrementDepositNonce name a => do let _ ← onStore (Store.incrementDepositNonce name a)
  | .commitDepositDataSet k set => do let _ ← onStore (Store.commitDepositDataSet k set)
  | .markValidatorsRegistered k pks => onStore (Store.markValidatorsRegistered k pks)
  | .markValidatorRemoved k pk => onStore (Store.markValidatorRemoved k pk)
  | .overrideValidatorStatus k pk status => onStore (Store.overrideValidatorStatus k pk status)
  | .addMinipool name a minipool pk => onStore (Store.addMinipool name a minipool pk)
  | .snapshot name => modify (·.snapshot name)
  | .revert name => revert name
  | .deleteSnapshot name => deleteSnapshot name
  | .createSession nonce token =>
    modify fun svc => { svc with store := svc.store.addSession nonce token }
  | .registerNode email a sig => registerNode email a sig
  | .login a nonce sig => do let _ ← login a nonce sig
  | .logout token => logout token
  | .uploadDepositData token k records => do let _ ← uploadDepositData token k records
  | .uploadSignedExits token k exits => do let _ ← uploadSignedExits token k exits
  | .uploadConstellationExits token name exits =>
    do let _ ← uploadConstellationExits token name exits

/-- The state an operation leaves, whether it succeeded or failed. -/
def step (svc : Service) (op : Op) : Service :=
  match (exec op).run svc with
  | .ok _ svc' => svc'
  | .error _ svc' => svc'

/-- The state after a run of operations. -/
def runOps (svc : Service) (ops : List Op) : Service :=
  ops.foldl step svc

theorem runOps_append (svc : Service) (ops : List Op) (op : Op) :
    svc.runOps (ops ++ [op]) = (svc.runOps ops).step op := by
  simp [runOps, List.foldl_append]

theorem runOps_cons (svc : Service) (op : Op) (ops : List Op) :
    svc.runOps (op :: ops) = (svc.step op).runOps ops := rfl

theorem runOps_runOps (svc : Service) (ops ops' : List Op) :
    svc.runOps (ops ++ ops') = (svc.runOps ops).runOps ops' := by
  simp [runOps, List.foldl_append]

theorem createSession_eq (svc : Service) :
    svc.createSession =
      let (nonceBytes, entropy) := svc.entropy.draw
      let (tokenBytes, entropy) := entropy.draw
      let nonce := Hex.bare nonceBytes
      let token := uuidText tokenBytes
      ({ nonce, token }, step { svc with entropy } (.createSession nonce token)) := rfl

end Service

/-- The states a service reaches from a new one. -/
inductive Reachable : Service → Prop
  | init (config : Config) : Reachable { config }
  | step {svc : Service} (op : Op) : Reachable svc → Reachable (svc.step op)

theorem Reachable.runOps {svc : Service} (reach : Reachable svc) (ops : List Op) :
    Reachable (svc.runOps ops) := by
  induction ops generalizing svc with
  | nil => exact reach
  | cons op ops ih => exact ih (reach.step op)

/-! ### A sample run

Two nodes of two users register and log in with signatures of the text `hello`; the first uploads
a record to a vault, the administrator commits that key with other withdrawal credentials, the
live store is saved, the second node joins and uploads two records, the first uploads another,
its committed validator is registered and a minipool is assigned to it. The states after the
commit and at the end are evaluated once, as `forgedService` and `sampleService`; facts about the
run are read off them. -/

/-- A configuration whose login and registration messages are both the text `hello`. -/
def helloConfig : Config := { templates? := some ⟨"hello", "hello"⟩ }

/-- The account of the secret key `0x11…11`. -/
def sampleNode : Address :=
  ⟨[0x19, 0xe7, 0xe3, 0x76, 0xe7, 0xc2, 0x13, 0xb7, 0xe7, 0xe7, 0xe4, 0x6c, 0xc7, 0x0a, 0x5d, 0xd0,
    0x86, 0xda, 0xff, 0x2a], rfl⟩

/-- The signature of `hello` by the secret key `0x11…11`. -/
def sampleSignature : Signature :=
  ⟨[0x92, 0x08, 0xd5, 0xf8, 0x6a, 0x1f, 0x5d, 0x9c, 0x19, 0x08, 0xdb, 0xb4, 0x29, 0x69, 0x92, 0x56,
    0x75, 0xce, 0xb3, 0x88, 0x61, 0x6f, 0xc5, 0xb1, 0x86, 0xc2, 0x48, 0xe4, 0x96, 0x7a, 0x03, 0xe0,
    0x2e, 0x9d, 0x28, 0xa1, 0xad, 0xcb, 0x8c, 0xce, 0x60, 0xeb, 0xce, 0xf9, 0x75, 0x6d, 0xee, 0x20,
    0x52, 0x2a, 0x29, 0x87, 0xaf, 0xea, 0x30, 0x55, 0xf4, 0xed, 0xd8, 0x38, 0x0d, 0x42, 0x5f, 0x89,
    0x1b], rfl⟩

/-- The account of the secret key `0x22…22`. -/
def secondNode : Address :=
  ⟨[0x15, 0x63, 0x91, 0x5e, 0x19, 0x4d, 0x8c, 0xfb, 0xa1, 0x94, 0x35, 0x70, 0x60, 0x3f, 0x76, 0x06,
    0xa3, 0x11, 0x55, 0x08], rfl⟩

/-- The signature of `hello` by the secret key `0x22…22`. -/
def secondSignature : Signature :=
  ⟨[0x1b, 0x45, 0x71, 0x65, 0x96, 0xd1, 0x1d, 0x87, 0x0d, 0x42, 0x3d, 0xc2, 0x5a, 0x27, 0xe1, 0xa0,
    0x11, 0xe6, 0xd7, 0x14, 0x70, 0xed, 0x9d, 0x9c, 0x05, 0xfe, 0x6e, 0x7e, 0x2d, 0x9d, 0xed, 0xc8,
    0x0b, 0x37, 0x39, 0xb0, 0xa3, 0x95, 0xe7, 0xb9, 0xdc, 0x30, 0x54, 0x7c, 0xb9, 0xb4, 0xcf, 0xe2,
    0x61, 0xd6, 0xc9, 0x22, 0x10, 0xd1, 0x53, 0x97, 0xa3, 0x7a, 0x95, 0xb2, 0xf8, 0x86, 0x20, 0xcc,
    0x1b], rfl⟩

/-- The vault at `0xaa…aa` of deployment `dev`. -/
def sampleVault : VaultKey := ⟨"dev", ⟨List.replicate 20 0xaa, rfl⟩⟩

/-- A deposit record of key `0x11…11` that withdraws to the vault. -/
def sampleRecord : DepositRecord :=
  ⟨⟨List.replicate 48 0x11, rfl⟩, [0x01] ++ List.replicate 11 0 ++ List.replicate 20 0xaa,
    32000000000, List.replicate 96 0x11, List.replicate 32 0x0d, List.replicate 32 0x0e,
    [0x01, 0x01, 0x70, 0x00], "holesky"⟩

/-- The same record with withdrawal credentials that pay out to `0xbb…bb`. -/
def forgedRecord : DepositRecord :=
  { sampleRecord with withdrawalCredentials := [0x01] ++ List.replicate 11 0 ++ List.replicate 20 0xbb }

/-- The validator key of 48 bytes `b`. -/
def repeatedKey (b : UInt8) : ValidatorPubkey := ⟨List.replicate 48 b, rfl⟩

/-- The sample record under the key of 48 bytes `b`. -/
def recordWithKey (b : UInt8) : DepositRecord := { sampleRecord with pubkey := repeatedKey b }

/-- The minipool at `0xcc…cc`. -/
def sampleMinipool : Address := ⟨List.replicate 20 0xcc, rfl⟩

/-- A node registers, logs in and uploads the record to the vault; the administrator then commits
the forged record, whose key the vault holds. -/
def forgedCommitRun : List Op :=
  [.addDeployment "dev" 17000 Address.zero Address.zero, .addVault "dev" sampleVault.vault,
    .addUser "u", .whitelistNode "u" sampleNode, .registerNode "u" sampleNode sampleSignature,
    .createSession "n" "t", .login sampleNode "n" sampleSignature,
    .uploadDepositData "t" sampleVault [sampleRecord], .commitDepositDataSet sampleVault [forgedRecord]]

/-- The state after `forgedCommitRun`. -/
def forgedService : Service where
  config := helloConfig
  store :=
    { users := [{ email := "u", nodes := [sampleNode] }]
      nodes := [{ address := sampleNode, owner := "u", registered := true,
                  stakewise := [(sampleVault, [{ record := sampleRecord, status := .uploaded,
                                                 used := true }])] }]
      sessions := [{ nonce := "n", token := "t", node := some sampleNode }]
      deployments := [{ name := "dev", chainId := 17000, whitelist := Address.zero,
                        factory := Address.zero,
                        vaults := [{ address := sampleVault.vault, knownPubkeys := [sampleRecord.pubkey],
                                     currentSet := [forgedRecord], version := 1 }] }] }

/-- From the state after the commit: the store is saved, a second user's node joins, both nodes
upload, the committed validator is registered, a minipool is assigned to the first node and its
deposit counter moves. -/
def sampleOps : List Op :=
  [.snapshot "base", .addUser "w", .whitelistNode "w" secondNode,
    .registerNode "w" secondNode secondSignature, .createSession "n2" "t2",
    .login secondNode "n2" secondSignature,
    .uploadDepositData "t2" sampleVault [recordWithKey 0x33, recordWithKey 0x44],
    .uploadDepositData "t" sampleVault [recordWithKey 0x22],
    .markValidatorsRegistered sampleVault [sampleRecord.pubkey],
    .addMinipool "dev" sampleNode sampleMinipool (repeatedKey 0x55),
    .incrementDepositNonce "dev" sampleNode]

/-- The whole sample run. -/
def sampleRun : List Op := forgedCommitRun ++ sampleOps

/-- The state at the end of `sampleRun`. -/
def sampleService : Service where
  config := helloConfig
  store :=
    { users := [{ email := "u", nodes := [sampleNode] }, { email := "w", nodes := [secondNode] }]
      nodes := [{ address := secondNode, owner := "w", registered := true,
                  stakewise := [(sampleVault, [{ record := recordWithKey 0x33 },
                                               { record := recordWithKey 0x44 }])] },
                { address := sampleNode, owner := "u", registered := true,
                  stakewise := [(sampleVault, [{ record := sampleRecord, status := .registered,
                                                 used := true, active := true },
                                               { record := recordWithKey 0x22 }])] }]
      sessions := [{ nonce := "n", token := "t", node := some sampleNode },
                   { nonce := "n2", token := "t2", node := some secondNode }]
      deployments := [{ name := "dev", chainId := 17000, whitelist := Address.zero,
                        factory := Address.zero, depositNonces := [(sampleNode, 1)],
                        vaults := [{ address := sampleVault.vault,
                                     knownPubkeys := [sampleRecord.pubkey, repeatedKey 0x22,
                                                      repeatedKey 0x33, repeatedKey 0x44],
                                     currentSet := [forgedRecord], version := 1 }],
                        minipools := [{ pubkey := repeatedKey 0x55, node := sampleNode,
                                        minipool := sampleMinipool }] }] }
  snapshots := [("base", forgedService.store)]

/-- The sample run passes through `forgedService` on its way to `sampleService`. Both legs are
computed in this one declaration, one after the other. -/
theorem runOps_sampleRun_legs :
    ({ config := helloConfig } : Service).runOps forgedCommitRun = forgedService ∧
      forgedService.runOps sampleOps = sampleService :=
  ⟨by decide +kernel, by decide +kernel⟩

theorem runOps_forgedCommitRun :
    ({ config := helloConfig } : Service).runOps forgedCommitRun = forgedService :=
  runOps_sampleRun_legs.1

theorem runOps_sampleOps : forgedService.runOps sampleOps = sampleService :=
  runOps_sampleRun_legs.2

theorem runOps_sampleRun : ({ config := helloConfig } : Service).runOps sampleRun = sampleService := by
  rw [sampleRun, Service.runOps_runOps, runOps_forgedCommitRun, runOps_sampleOps]

theorem reachable_forgedService : Reachable forgedService :=
  runOps_forgedCommitRun ▸ (Reachable.init helloConfig).runOps forgedCommitRun

theorem reachable_sampleService : Reachable sampleService :=
  runOps_sampleRun ▸ (Reachable.init helloConfig).runOps sampleRun

theorem runOps_take_runOps_drop (n : Nat) :
    (({ config := helloConfig } : Service).runOps (sampleRun.take n)).runOps (sampleRun.drop n) =
      sampleService := by
  rw [← Service.runOps_runOps, List.take_append_drop, runOps_sampleRun]

theorem revert_not_mem_sampleRun (name : String) : Op.revert name ∉ sampleRun := by
  simp [sampleRun, forgedCommitRun, sampleOps]

theorem sampleNode_listed : ∃ m ∈ sampleService.store.nodes,
    m.address = sampleNode ∧ m.owner = "u" ∧ m.registered = true :=
  ⟨_, List.mem_cons_of_mem _ (List.mem_singleton_self _), rfl, rfl, rfl⟩

end StakingHub
