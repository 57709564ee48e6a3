import Mathlib.Data.List.Flatten
import Mathlib.Data.List.Perm.Subperm
import StakingHub.Proofs.Approvals

/-!
# Fair shares of the next deposit-data set

The next deposit-data set of a vault gives every user, in the order users were added, the records
of its first `limit` batchable validators: address by address in the order the user's nodes were
whitelisted, registered nodes only, each node's unused pending validators in upload order. The
service takes the first `limit` of one filter over all the validators of the user's registered
nodes, across node boundaries; `depositDataSet_of_vault` shows this is the per-address reading
`fairShare`. Under the invariant a node is listed once, by its owner only, so no key is offered
twice.
-/

namespace StakingHub

namespace Store

variable {s : Store} {k : VaultKey}

/-- The validators of a vault that a user may put in the next set: for each address the user
listed, in whitelist order, whose node is registered, that node's unused pending validators of
the vault in upload order. -/
def batchableOf (s : Store) (k : VaultKey) (u : User) : List StakeWiseValidator :=
  u.nodes.flatMap fun x =>
    match s.node? x with
    | some n => if n.registered then (n.validatorsIn k).filter (·.isBatchable) else []
    | none => []

/-- A user's share of the next set: the records of its first `limit` batchable validators. -/
def fairShare (s : Store) (k : VaultKey) (limit : Nat) (u : User) : List DepositRecord :=
  ((s.batchableOf k u).take limit).map (·.record)

theorem filter_flatMap_registered (xs : List Address) :
    (((xs.filterMap s.node?).filter Node.registered).flatMap (·.validatorsIn k)).filter
        (·.isBatchable) =
      xs.flatMap fun x =>
        match s.node? x with
        | some n => if n.registered then (n.validatorsIn k).filter (·.isBatchable) else []
        | none => [] := by
  induction xs with
  | nil => rfl
  | cons x xs ih =>
    rw [List.flatMap_cons, ← ih]
    cases found : s.node? x with
    | none => simp [found]
    | some n =>
      by_cases registered : n.registered
      · simp [found, registered, List.filter_append]
      · simp [found, registered]

theorem registeredNodesOf_batchable (u : User) :
    ((s.registeredNodesOf u).flatMap (·.validatorsIn k)).filter (·.isBatchable) =
      s.batchableOf k u :=
  filter_flatMap_registered u.nodes

/-- Once the vault is found, the next set is every user's fair share, users in store order. -/
theorem depositDataSet_of_vault {v : Vault} (found : s.vault k = .ok v) (limit : Nat) :
    s.depositDataSet k limit = .ok (s.users.flatMap (s.fairShare k limit)) := by
  simp only [depositDataSet, found, bind, Except.bind, pure, Except.pure,
    registeredNodesOf_batchable]
  rfl

theorem Inv.vault_of_mem_deployment (h : s.Inv) {d : Deployment} (hd : d ∈ s.deployments)
    (named : d.name = k.deployment) :
    s.vault k = match Keyed.get? Vault.address k.vault d.vaults with
      | some v => .ok v
      | none => .error (.vaultNotFound k.vault) := by
  have found := h.deployment_of_mem hd
  rw [named] at found
  exact Store.vault_of_deployment found

/-! ### What a share holds -/

theorem mem_batchableOf {u : User} {w : StakeWiseValidator} :
    w ∈ s.batchableOf k u ↔ ∃ x ∈ u.nodes, ∃ n, s.node? x = some n ∧ n.registered ∧
      w ∈ n.validatorsIn k ∧ w.isBatchable := by
  simp only [batchableOf, List.mem_flatMap]
  constructor
  · rintro ⟨x, hx, held⟩
    cases found : s.node? x with
    | none => simp [found] at held
    | some n =>
      by_cases registered : n.registered
      · simp only [found, registered, if_true, List.mem_filter] at held
        exact ⟨x, hx, n, found, registered, held⟩
      · simp [found, registered] at held
  · rintro ⟨x, hx, n, found, registered, held, batchable⟩
    exact ⟨x, hx, by simp [found, registered, held, batchable]⟩

theorem length_fairShare (limit : Nat) (u : User) :
    (s.fairShare k limit u).length = min limit (s.batchableOf k u).length := by
  simp [fairShare]

theorem Inv.mem_fairShare (h : s.Inv) {u : User} (hu : u ∈ s.users) {limit : Nat}
    {r : DepositRecord} (hr : r ∈ s.fairShare k limit u) :
    ∃ n ∈ s.nodes, n.owner = u.email ∧ n.registered ∧
      ∃ w ∈ n.validatorsIn k, w.isBatchable ∧ w.record = r := by
  obtain ⟨w, taken, rfl⟩ := List.mem_map.mp hr
  obtain ⟨x, hx, n, found, registered, held, batchable⟩ :=
    mem_batchableOf.mp (List.mem_of_mem_take taken)
  obtain ⟨hn, rfl⟩ := mem_of_node? found
  exact ⟨n, hn, (h.mem_nodes_iff hu hn).mp hx, registered, w, held, batchable, rfl⟩

/-! ### No key twice -/

theorem map_address_filterMap_node? (xs : List Address) :
    (xs.filterMap s.node?).map Node.address = xs.filter fun x => (s.node? x).isSome := by
  induction xs with
  | nil => rfl
  | cons x xs ih =>
    cases found : s.node? x with
    | none => simp [found, ih]
    | some n => simp [found, ih, (mem_of_node? found).2]

theorem map_address_registeredNodesOf_sublist (u : User) :
    ((s.registeredNodesOf u).map Node.address).Sublist u.nodes := by
  have registered : (s.registeredNodesOf u).Sublist (u.nodes.filterMap s.node?) :=
    List.filter_sublist
  calc ((s.registeredNodesOf u).map Node.address).Sublist
        ((u.nodes.filterMap s.node?).map Node.address) := registered.map _
    _ = u.nodes.filter fun x => (s.node? x).isSome := map_address_filterMap_node? u.nodes
    List.Sublist _ u.nodes := List.filter_sublist

theorem Inv.nodup_listed (h : s.Inv) : (s.users.flatMap User.nodes).Nodup := by
  refine List.nodup_flatMap.mpr ⟨fun u hu => h.nodup_nodes_of_user hu, ?_⟩
  have distinct : s.users.Pairwise fun u u' => u.email ≠ u'.email :=
    List.pairwise_map.mp h.emails_nodup
  refine distinct.imp_of_mem fun {u u'} hu hu' differ x listed listed' => ?_
  obtain ⟨n, hn, rfl⟩ := List.mem_map.mp (h.listed_whitelisted u hu x listed)
  have owner := (h.mem_nodes_iff hu hn).mp listed
  have owner' := (h.mem_nodes_iff hu' hn).mp listed'
  exact differ (owner.symm.trans owner')

theorem Inv.nodup_registeredNodes (h : s.Inv) : (s.users.flatMap s.registeredNodesOf).Nodup := by
  have sub : ((s.users.flatMap s.registeredNodesOf).map Node.address).Sublist
      (s.users.flatMap User.nodes) := by
    rw [List.map_flatMap]
    exact List.Sublist.flatMap_right _ fun u _ => map_address_registeredNodesOf_sublist u
  exact List.Nodup.of_map Node.address (h.nodup_listed.sublist sub)

theorem registeredNodes_subset :
    s.users.flatMap s.registeredNodesOf ⊆ s.nodes := by
  intro n hn
  obtain ⟨u, -, hn⟩ := List.mem_flatMap.mp hn
  obtain ⟨x, -, found⟩ := List.mem_filterMap.mp (List.mem_filter.mp hn).1
  exact (mem_of_node? found).1

theorem Inv.nodup_registered_pubkeys (h : s.Inv) :
    ((s.users.flatMap s.registeredNodesOf).flatMap fun n =>
      (n.validatorsIn k).map StakeWiseValidator.pubkey).Nodup := by
  obtain ⟨l, perm, sub⟩ := h.nodup_registeredNodes.subperm registeredNodes_subset
  have inStore := (h.pubkeys_nodup k).sublist (sub.flatMap _)
  exact inStore.perm (perm.flatMap_right _)

theorem map_pubkey_fairShare_sublist (limit : Nat) (u : User) :
    ((s.fairShare k limit u).map DepositRecord.pubkey).Sublist
      ((s.registeredNodesOf u).flatMap fun n =>
        (n.validatorsIn k).map StakeWiseValidator.pubkey) := by
  have taken : ((s.batchableOf k u).take limit).Sublist
      ((s.registeredNodesOf u).flatMap (·.validatorsIn k)) := by
    rw [← registeredNodesOf_batchable]
    exact (List.take_sublist _ _).trans List.filter_sublist
  have keys : (s.fairShare k limit u).map DepositRecord.pubkey =
      ((s.batchableOf k u).take limit).map StakeWiseValidator.pubkey := by
    simp only [fairShare, List.map_map]
    rfl
  rw [keys, ← List.map_flatMap]
  exact taken.map _

theorem Inv.nodup_fairShares (h : s.Inv) (limit : Nat) :
    ((s.users.flatMap (s.fairShare k limit)).map DepositRecord.pubkey).Nodup := by
  have sub : ((s.users.flatMap (s.fairShare k limit)).map DepositRecord.pubkey).Sublist
      ((s.users.flatMap s.registeredNodesOf).flatMap fun n =>
        (n.validatorsIn k).map StakeWiseValidator.pubkey) := by
    rw [List.map_flatMap, List.flatMap_assoc]
    exact List.Sublist.flatMap_right _ fun u _ => map_pubkey_fairShare_sublist limit u
  exact h.nodup_registered_pubkeys.sublist sub

end Store

/-- The next deposit-data set of an existing vault is every user's fair share in the order users
were added: the records of the user's first `limit` batchable validators, address by address in
whitelist order over registered nodes. A user contributes `limit` records or all its batchable
ones if fewer, each from a registered node the user owns, and no key appears twice. A missing
deployment or vault is reported as such. Computing the set changes nothing. -/
theorem deposit_sets_share_fairly {s : Store} (h : s.Inv) (k : VaultKey) (limit : Nat) :
    ((∀ d ∈ s.deployments, d.name ≠ k.deployment) →
      s.depositDataSet k limit = .error (.deploymentNotFound k.deployment)) ∧
    (∀ d ∈ s.deployments, d.name = k.deployment →
      ((∀ v ∈ d.vaults, v.address ≠ k.vault) →
        s.depositDataSet k limit = .error (.vaultNotFound k.vault)) ∧
      (∀ v ∈ d.vaults, v.address = k.vault →
        s.depositDataSet k limit = .ok (s.users.flatMap (s.fairShare k limit)))) ∧
    (∀ u ∈ s.users, (s.fairShare k limit u).length = min limit (s.batchableOf k u).length ∧
      ∀ r ∈ s.fairShare k limit u, ∃ n ∈ s.nodes, n.owner = u.email ∧ n.registered ∧
        ∃ w ∈ n.validatorsIn k, w.isBatchable ∧ w.record = r) ∧
    ((s.users.flatMap (s.fairShare k limit)).map DepositRecord.pubkey).Nodup := by
  refine ⟨fun absent => ?_, fun d hd named => ⟨fun absent => ?_, fun v hv addressed => ?_⟩,
    fun u hu => ⟨Store.length_fairShare limit u, fun r hr => h.mem_fairShare hu hr⟩,
    h.nodup_fairShares limit⟩
  · simp [Store.depositDataSet, Store.vault, Store.deployment_of_absent absent, bind, Except.bind]
  · have missing : Keyed.get? Vault.address k.vault d.vaults = none :=
      List.find?_eq_none.mpr fun v hv => by simpa using absent v hv
    simp [Store.depositDataSet, h.vault_of_mem_deployment hd named, missing, bind, Except.bind]
  · have found : Keyed.get? Vault.address k.vault d.vaults = some v := by
      rw [← addressed]
      exact Keyed.get?_eq_some_of_mem (h.vaults_sorted d hd) hv
    have vault : s.vault k = .ok v := by
      rw [h.vault_of_mem_deployment hd named, found]
    exact Store.depositDataSet_of_vault vault limit

theorem sample_deposit_set_shares_fairly :
    sampleService.store.Inv ∧
      sampleService.store.depositDataSet sampleVault 1 = .ok [recordWithKey 0x22, recordWithKey 0x33] ∧
      ∀ u ∈ sampleService.store.users, (sampleService.store.fairShare sampleVault 1 u).length =
        min 1 (sampleService.store.batchableOf sampleVault u).length := by
  have inv := sampleService_inv
  have fair := deposit_sets_share_fairly inv sampleVault 1
  obtain ⟨d, held, named, v, stored, addressed⟩ : ∃ d ∈ sampleService.store.deployments,
      d.name = sampleVault.deployment ∧ ∃ v ∈ d.vaults, v.address = sampleVault.vault :=
    ⟨_, List.mem_singleton_self _, rfl, _, List.mem_singleton_self _, rfl⟩
  have shares : sampleService.store.users.flatMap (sampleService.store.fairShare sampleVault 1) =
      [recordWithKey 0x22, recordWithKey 0x33] := by
    decide
  rw [← shares]
  exact ⟨inv, (fair.2.1 d held named).2 v stored addressed, fun u mem => (fair.2.2.1 u mem).1⟩

end StakingHub
