import StakingHub.Protocol.Scenario.State

/-!
# The state of a scenario as JSON

The dump shows the whole store and the scenario's sessions.

* Users in the order they were added, each with its nodes in whitelist order.
* Nodes by address, each with its StakeWise validators per vault, vaults in key order and
  validators in upload order.
* One entry per session the scenario opened, telling whether the store still holds a session
  with its token and, if so, whether it is verified and for which node.
* Deployments by name, with counters, vaults and minipool validators in key order.
* The relay recipient key, if an identity is set, and the snapshots' names.

Addresses are written in checksum form and validator keys as `0x` hex; deposit records and exit
messages are written as their JSON records.
-/

namespace StakingHub.Protocol

open Json

/-- An address in checksum form. -/
def addressValue (a : Address) : Value :=
  .string a.checksum

/-- A value, or `null`. -/
def optionValue (f : α → Value) : Option α → Value
  | some x => f x
  | none => .null

/-- A user. -/
def userValue (u : User) : Value :=
  .object [("email", .string u.email), ("nodes", .array (u.nodes.map addressValue))]

/-- A StakeWise validator. -/
def stakeWiseValidatorValue (v : StakeWiseValidator) : Value :=
  .object [("pubkey", .string v.pubkey.toHex), ("status", .string v.status.wireName),
    ("used", .bool v.used), ("marked_active", .bool v.active),
    ("exit_uploaded", .bool v.exitUploaded),
    ("exit_message", optionValue ExitMessage.toValue v.exitMessage),
    ("deposit_data", v.record.toValue)]

/-- A node with its validators per vault. -/
def nodeValue (n : Node) : Value :=
  let vault (entry : VaultKey × List StakeWiseValidator) : Value :=
    .object [("deployment", .string entry.1.deployment), ("vault", addressValue entry.1.vault),
      ("validators", .array (entry.2.map stakeWiseValidatorValue))]
  .object [("address", addressValue n.address), ("owner", .string n.owner),
    ("registered", .bool n.registered), ("stakewise", .array (n.stakewise.map vault))]

/-- A session the scenario opened, as the store holds it now. -/
def sessionValue (s : Store) (opened : Session) : Value :=
  match s.sessionByToken? opened.token with
  | some x =>
    .object [("present", .bool true), ("verified", .bool x.isVerified),
      ("node", optionValue addressValue x.node)]
  | none => .object [("present", .bool false)]

/-- Counters as `[address, value]` pairs. -/
def countersValue (counters : List (Address × Nat)) : Value :=
  .array (counters.map fun (a, n) => .array [addressValue a, .nat n])

/-- A StakeWise vault. -/
def vaultValue (v : Vault) : Value :=
  .object [("address", addressValue v.address), ("version", .nat v.version),
    ("known_pubkeys", .array (v.knownPubkeys.map fun k => .string k.toHex)),
    ("current_set", .array (v.currentSet.map fun r => .string r.pubkey.toHex))]

/-- A minipool validator. -/
def minipoolValue (v : MinipoolValidator) : Value :=
  .object [("pubkey", .string v.pubkey.toHex), ("node", addressValue v.node),
    ("minipool", addressValue v.minipool),
    ("requires_exit_message", .bool v.needsExitMessage),
    ("exit_message", optionValue ExitMessage.toValue v.exitMessage)]

/-- A deployment. -/
def deploymentValue (d : Deployment) : Value :=
  .object [("name", .string d.name), ("chain_id", .nat d.chainId),
    ("whitelist", addressValue d.whitelist), ("factory", addressValue d.factory),
    ("admin", optionValue (fun k => addressValue k.address) d.admin),
    ("minipool_limit", optionValue Value.nat d.minipoolLimit),
    ("whitelist_nonces", countersValue d.whitelistNonces),
    ("deposit_nonces", countersValue d.depositNonces),
    ("vaults", .array (d.vaults.map vaultValue)),
    ("constellation", .array (d.minipools.map minipoolValue))]

/-- The whole state of a scenario. -/
def Scenario.dump (sc : Scenario) : Value :=
  let s := sc.service.store
  .object [("users", .array (s.users.map userValue)),
    ("nodes", .array (s.nodes.map nodeValue)),
    ("sessions", .array (sc.sessions.map (sessionValue s))),
    ("session_count", .nat s.sessions.length),
    ("deployments", .array (s.deployments.map deploymentValue)),
    ("exit_recipient", optionValue (fun r => .string r.toHex) sc.service.exitRecipient),
    ("snapshots", .array (sc.service.snapshotNames.map Value.string))]

end StakingHub.Protocol
