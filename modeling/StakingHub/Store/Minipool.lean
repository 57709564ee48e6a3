import StakingHub.Store.StakeWise
import StakingHub.Service.Config

/-!
# Constellation minipools

The administrator assigns a validator key, with its minipool, to a whitelisted node; a key is
assigned once per deployment. A registered node lists its minipool validators and uploads their
exit messages, sealed to the relay identity. Every uploaded exit must name a validator the node
owns; under the policy that refuses duplicates, a key named twice in one batch or already
holding an exit message is refused; and every message must open. Entries are checked one by one,
in that order, before any message is stored.

Modelled on `crates/ns-mock/src/lifecycle/constellation.rs:13-98` (`add_minipool`,
`validators_of`, `upload_exits`).
-/

namespace StakingHub

/-- What a node is told about one of its minipool validators. -/
structure MinipoolValidatorInfo where
  pubkey : ValidatorPubkey
  minipool : Address
  needsExitMessage : Bool

namespace Store

/-- Assigns a validator key and its minipool to a whitelisted node. -/
def addMinipool (name : String) (a : Address) (minipool : Address) (pk : ValidatorPubkey) :
    StoreM Unit := do
  let _ ← StoreM.read (·.whitelistedNode a)
  deploymentMut name fun d => do
    if Keyed.contains MinipoolValidator.pubkey pk d.minipools then
      throw (.minipoolAlreadyAssigned pk)
    let v : MinipoolValidator := { pubkey := pk, node := a, minipool }
    pure ((), { d with minipools := Keyed.put MinipoolValidator.pubkey v d.minipools })

/-- A registered node's minipool validators of a deployment, in key order. -/
def minipoolValidatorsOf (s : Store) (name : String) (a : Address) :
    Except ServiceFault (List MinipoolValidatorInfo) := do
  let d ← s.deployment name
  let _ ← s.registeredNode a
  pure <| (d.minipoolsOf a).map fun v => ⟨v.pubkey, v.minipool, v.needsExitMessage⟩

/-- Checks one uploaded exit against the node's minipool validators and the keys seen earlier
in the batch, and opens it. -/
def openMinipoolExit (s : Store) (d : Deployment) (a : Address) (policy : ExitPolicy)
    (seen : List ValidatorPubkey) (e : EncryptedExit) :
    Except ServiceFault (ValidatorPubkey × ExitMessage) := do
  let owned := (Keyed.get? MinipoolValidator.pubkey e.pubkey d.minipools).filter (·.node = a)
  let some v := owned
    | throw (.invalidPermissions ("validator " ++ e.pubkey.toHex ++ " is not owned by this node"))
  let duplicate := seen.contains e.pubkey || v.exitMessage.isSome
  if duplicate && policy = .rejectDuplicate then throw (.exitMessageAlreadyExists e.pubkey)
  pure (e.pubkey, ← Relay.decryptExit s.identity e.ciphertext)

/-- Opens a batch of uploaded exits entry by entry; the keys seen so far ride along. -/
def openMinipoolExits (s : Store) (d : Deployment) (a : Address) (policy : ExitPolicy) :
    List ValidatorPubkey → List EncryptedExit →
      Except ServiceFault (List (ValidatorPubkey × ExitMessage))
  | _, [] => .ok []
  | seen, e :: es => do
    let opened ← s.openMinipoolExit d a policy seen e
    let rest ← s.openMinipoolExits d a policy (e.pubkey :: seen) es
    pure (opened :: rest)

/-- Stores the exit messages a registered node uploads for its minipool validators; how many.
All are opened before the deployment is held to store them. -/
def uploadMinipoolExits (name : String) (a : Address) (exits : List EncryptedExit)
    (policy : ExitPolicy) : StoreM Nat := do
  let _ ← StoreM.read (·.registeredNode a)
  let d ← StoreM.read (·.deployment name)
  let opened ← StoreM.read (·.openMinipoolExits d a policy [] exits)
  let storeOne (vs : List MinipoolValidator) (entry : ValidatorPubkey × ExitMessage) :=
    Keyed.modify MinipoolValidator.pubkey entry.1 (fun v => { v with exitMessage := some entry.2 }) vs
  deploymentMut name fun d => pure ((), { d with minipools := opened.foldl storeOne d.minipools })
  pure opened.length

end Store

end StakingHub
