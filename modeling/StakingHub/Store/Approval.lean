import StakingHub.Store.Basic
import StakingHub.Approval.Digest

/-!
# Approvals signed by a deployment

A registered node asks a deployment for two approvals, signed by the deployment's admin key over
the personal-message digest of the approval digest.

* Joining the whitelist contract: the digest binds the node, the contract, the node's current
  whitelist counter and the chain.
* A minipool deposit: the node's owner must be below the deployment's minipool limit, counting
  the minipool validators of all the owner's nodes, and every minipool validator of the node
  must already have an exit message. The digest binds the minipool, the salt, the node, the
  factory contract, the node's current deposit counter and the chain.

Issuing an approval leaves the counters alone; they move only when asked to, by one.

Modelled on `crates/ns-mock/src/signing/engine.rs:12-112` (`sign_for`,
`whitelist_signature`, `minipool_deposit_signature`, the counter increments) and
`check_exit_messages` (`crates/ns-mock/src/domain/invariants.rs:55-65`).
-/

namespace StakingHub

open Secp256k1

/-- A signed approval, with the counter and chain it was signed for and the contract that
checks it. -/
structure IssuedSignature where
  signature : Signature
  nonce : Nat
  chainId : Nat
  contract : Address

/-- The first minipool validator without an exit message, as a fault. -/
def checkExitMessages (owned : List MinipoolValidator) : Except ServiceFault Unit :=
  match owned.find? MinipoolValidator.needsExitMessage with
  | some v => .error (.missingExitMessage v.pubkey)
  | none => .ok ()

namespace Deployment

/-- The admin key's signature over the personal-message digest of an approval digest. -/
def signApproval (d : Deployment) (digest : List UInt8) : Except ServiceFault Signature :=
  match d.admin with
  | none => .error (.missingPrivateKey d.name)
  | some key => (signPersonal key digest).mapError ServiceFault.ofCrypto

/-- One more for an address's counter; the new value. -/
def bump (counters : List (Address × Nat)) (a : Address) : Nat × List (Address × Nat) :=
  let n := counter counters a + 1
  (n, Keyed.put Prod.fst (a, n) counters)

end Deployment

namespace Store

/-- The approval for a registered node to join a deployment's whitelist contract. -/
def whitelistSignature (s : Store) (name : String) (a : Address) :
    Except ServiceFault IssuedSignature := do
  let d ← s.deployment name
  let _ ← s.registeredNode a
  let nonce := d.whitelistNonce a
  let signature ← d.signApproval (Approval.whitelistHash a d.whitelist nonce d.chainId)
  pure { signature, nonce, chainId := d.chainId, contract := d.whitelist }

/-- How many minipool validators of a deployment the nodes of a user own. -/
def minipoolsOfUser (s : Store) (d : Deployment) (email : String) : Nat :=
  match s.user? email with
  | some u => u.nodes.foldl (fun owned a => owned + (d.minipoolsOf a).length) 0
  | none => 0

/-- The approval for a registered node's minipool deposit. -/
def depositSignature (s : Store) (name : String) (a : Address) (minipool : Address)
    (salt : Nat) : Except ServiceFault IssuedSignature := do
  let d ← s.deployment name
  let n ← s.registeredNode a
  checkMinipoolLimit n.owner (s.minipoolsOfUser d n.owner) d.minipoolLimit
  checkExitMessages (d.minipoolsOf a)
  let nonce := d.depositNonce a
  let subject : Approval.DepositSubject :=
    { minipool, salt, node := a, factory := d.factory, nonce, chainId := d.chainId }
  let signature ← d.signApproval (Approval.depositHash subject)
  pure { signature, nonce, chainId := d.chainId, contract := d.factory }

/-- Moves an address's whitelist counter on by one; the new value. -/
def incrementWhitelistNonce (name : String) (a : Address) : StoreM Nat :=
  deploymentMut name fun d =>
    let (n, counters) := Deployment.bump d.whitelistNonces a
    pure (n, { d with whitelistNonces := counters })

/-- Moves an address's deposit counter on by one; the new value. -/
def incrementDepositNonce (name : String) (a : Address) : StoreM Nat :=
  deploymentMut name fun d =>
    let (n, counters) := Deployment.bump d.depositNonces a
    pure (n, { d with depositNonces := counters })

end Store

end StakingHub
