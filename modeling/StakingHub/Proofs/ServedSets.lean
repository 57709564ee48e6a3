import StakingHub.Proofs.DepositSets
import StakingHub.Proofs.Snapshots

/-!
# What a vault serves

A vault serves the deposit-data set committed to it last. A commit checks each record of the set
by its key only: the key must find a validator of the vault, and the records are then kept as the
administrator gave them. So in every state the service reaches, each record a vault serves
carries the key of a validator stored for that vault, and that validator's own record withdraws
to the vault (`served_records_name_vault_validators`).

The record served is the one committed, not the one stored: a set the vault never offered may
carry other withdrawal credentials under a stored key, and the vault then serves a record that
withdraws elsewhere (`served_record_may_withdraw_elsewhere`).

The live store keeps the property step by step (`Service.step_setsNamed`): a vault found before a
step keeps its set or takes the committed one (`Store.DepositDataStep`), a vault found only after
it is new and empty (`Store.NewVaultsEmpty`), and a validator found before is found after
(`Store.ValidatorsStep`). Snapshots are copies of live stores, so the property holds of every
store the service holds, and reverting keeps it.
-/

namespace StakingHub

namespace Store

open StoreM

variable {s s' : Store} {k : VaultKey}

/-- Every record of every vault's current set carries a key that finds a validator of the vault. -/
def SetsNamed (s : Store) : Prop :=
  ∀ k v, s.vault k = .ok v → ∀ r ∈ v.currentSet, ∃ w, s.validator k r.pubkey = .ok w

/-- A vault found after a step but not before it is new, with no set committed yet. -/
def NewVaultsEmpty (s s' : Store) : Prop :=
  ∀ k v', s'.vault k = .ok v' → (∀ v, s.vault k ≠ .ok v) → v'.currentSet = []

theorem newVaultsEmpty_of_vault (same : ∀ k, s'.vault k = s.vault k) : NewVaultsEmpty s s' :=
  fun k v' found missing => absurd ((same k).symm.trans found) (missing v')

theorem keepsDeployments_newVaultsEmpty {α : Type} {m : StoreM α} (hm : KeepsDeployments m) :
    Keeps NewVaultsEmpty m :=
  fun _ _ _ ran => newVaultsEmpty_of_vault (vault_congr (hm _ _ _ ran))

theorem newVaultsEmpty_modifyDeployment {name : String} {d d' : Deployment}
    (found : s.deployment name = .ok d) (keeps : d'.name = d.name) (vaults : d'.vaults = d.vaults) :
    NewVaultsEmpty s (s.modifyDeployment name fun _ => d') :=
  newVaultsEmpty_of_vault
    (vault_modifyDeployment found (keeps.trans (mem_of_deployment found).2) vaults)

theorem deploymentMut_newVaultsEmpty {β : Type} {name : String}
    {f : Deployment → Except ServiceFault (β × Deployment)}
    (step : ∀ d b d', f d = .ok (b, d') → d'.name = d.name ∧ d'.vaults = d.vaults) :
    Keeps NewVaultsEmpty (deploymentMut name f) := by
  intro s b s' ran
  obtain ⟨d, d', found, changed, rfl⟩ := run_borrow_eq_ok.mp ran
  obtain ⟨same_name, same_vaults⟩ := step d b d' changed
  exact newVaultsEmpty_modifyDeployment found same_name same_vaults

theorem newVaultsEmpty_modifyVault {k₀ : VaultKey} {f : Vault → Vault}
    (keeps : ∀ w, (f w).address = w.address) : NewVaultsEmpty s (s.modifyVault k₀ f) := by
  intro k v' found missing
  rw [vault_modifyVault keeps k] at found
  split at found
  · cases hv : s.vault k₀ with
    | error e => simp [hv, Except.map] at found
    | ok v => exact absurd (by subst_vars; exact hv) (missing v)
  · exact absurd found (missing v')

theorem addDeployment_newVaultsEmpty (d : Deployment) (no_vaults : d.vaults = []) :
    Keeps NewVaultsEmpty (addDeployment d) := by
  intro s _ s' ran k v' found missing
  obtain ⟨-, rfl⟩ := addDeployment_ok ran
  by_cases named : d.name = k.deployment
  · -- the deployment placed has no vault yet
    have placed : ({ s with deployments := Keyed.put Deployment.name d s.deployments } : Store).deployment
        k.deployment = .ok d := by rw [deployment_put, if_pos named]
    rw [vault_of_deployment placed, no_vaults] at found
    cases found
  · have kept : ({ s with deployments := Keyed.put Deployment.name d s.deployments } : Store).vault k =
        s.vault k := vault_congr_deployment (by rw [deployment_put, if_neg named])
    exact absurd (kept.symm.trans found) (missing v')

theorem addVault_newVaultsEmpty (name : String) (a : Address) :
    Keeps NewVaultsEmpty (addVault name a) := by
  intro s _ s' ran k v' found missing
  obtain ⟨d, hd, -, rfl⟩ := addVault_ok ran
  rw [vault_addVault hd] at found
  split at found
  · cases found
    rfl
  · exact absurd found (missing v')

theorem uploadDepositData_newVaultsEmpty (k₀ : VaultKey) (a : Address) (records : List DepositRecord) :
    Keeps NewVaultsEmpty (uploadDepositData k₀ a records) := by
  intro s _ s' ran k v' found missing
  obtain ⟨n, v, fresh, known, -, -, held, -, -, rfl⟩ := uploadDepositData_ok ran
  rw [vault_congr (modifyNode_deployments _ _ _) k, modifyVault_congr (g := fun w => { w with knownPubkeys := known }) held rfl] at found
  exact newVaultsEmpty_modifyVault (by exact fun _ => rfl) k v' found missing

theorem commitDepositDataSet_newVaultsEmpty (k₀ : VaultKey) (set : List DepositRecord) :
    Keeps NewVaultsEmpty (commitDepositDataSet k₀ set) := by
  intro s _ s' ran k v' found missing
  obtain ⟨v, s₁, held, -, -, -, only, -, rfl⟩ := commitDepositDataSet_ok ran
  have same : s₁.deployments = s.deployments := by rw [only]
  rw [modifyVault_congr (g := fun w => { w with version := w.version + 1, currentSet := set })
    ((vault_congr same k₀).trans held) rfl] at found
  exact newVaultsEmpty_modifyVault (s := s₁) (by exact fun _ => rfl) k v' found
    fun w hw => missing w ((vault_congr same k).symm.trans hw)

end Store

namespace Op

theorem committedSet_eq_some {op : Op} {k : VaultKey} {set : List DepositRecord} :
    op.committedSet k = some set ↔ op = .commitDepositDataSet k set := by
  cases op <;> simp [committedSet]

end Op

namespace Service

variable {svc : Service}

theorem newVaultsEmpty_onStore {α : Type} {m : StoreM α} (hm : Store.Keeps Store.NewVaultsEmpty m) :
    Keeps (fun svc svc' => Store.NewVaultsEmpty svc.store svc'.store) (onStore m) :=
  keeps_onStore (fun _ _ created => created) hm

theorem exec_newVaultsEmpty (op : Op) (not_revert : ∀ n, op ≠ .revert n) :
    Keeps (fun svc svc' => Store.NewVaultsEmpty svc.store svc'.store) (exec op) := by
  have unchanged : ∀ {svc svc' : Service}, svc'.store.deployments = svc.store.deployments →
      Store.NewVaultsEmpty svc.store svc'.store := fun same =>
    Store.newVaultsEmpty_of_vault (Store.vault_congr same)
  cases op with
  | addUser email =>
    exact newVaultsEmpty_onStore (Store.keepsDeployments_newVaultsEmpty (Store.addUser_keepsDeployments email))
  | whitelistNode email a =>
    exact newVaultsEmpty_onStore
      (Store.keepsDeployments_newVaultsEmpty (Store.whitelistNode_keepsDeployments email a))
  | addDeployment name chainId whitelist factory =>
    exact newVaultsEmpty_onStore (Store.addDeployment_newVaultsEmpty _ rfl)
  | setAdminKey name key =>
    exact newVaultsEmpty_onStore (Store.deploymentMut_newVaultsEmpty
      fun _ _ _ changed => by cases changed; exact ⟨rfl, rfl⟩)
  | setMinipoolLimit name limit =>
    exact newVaultsEmpty_onStore (Store.deploymentMut_newVaultsEmpty
      fun _ _ _ changed => by cases changed; exact ⟨rfl, rfl⟩)
  | addVault name vault => exact newVaultsEmpty_onStore (Store.addVault_newVaultsEmpty name vault)
  | setExitIdentity id => exact keeps_modify fun _ => unchanged rfl
  | incrementWhitelistNonce name a =>
    refine keeps_discard (newVaultsEmpty_onStore fun s _ s' ran => ?_)
    obtain ⟨d, found, -, rfl⟩ := Store.incrementWhitelistNonce_ok ran
    exact Store.newVaultsEmpty_modifyDeployment found rfl rfl
  | incrementDepositNonce name a =>
    refine keeps_discard (newVaultsEmpty_onStore fun s _ s' ran => ?_)
    obtain ⟨d, found, -, rfl⟩ := Store.incrementDepositNonce_ok ran
    exact Store.newVaultsEmpty_modifyDeployment found rfl rfl
  | commitDepositDataSet k set =>
    exact keeps_discard (newVaultsEmpty_onStore (Store.commitDepositDataSet_newVaultsEmpty k set))
  | markValidatorsRegistered k pks =>
    exact newVaultsEmpty_onStore (Store.keepsDeployments_newVaultsEmpty
      (Store.markValidatorsRegistered_keepsDeployments k pks))
  | markValidatorRemoved k pk =>
    exact newVaultsEmpty_onStore (Store.keepsDeployments_newVaultsEmpty
      (Store.markValidatorRemoved_keepsDeployments k pk))
  | overrideValidatorStatus k pk status =>
    exact newVaultsEmpty_onStore (Store.keepsDeployments_newVaultsEmpty
      (Store.overrideValidatorStatus_keepsDeployments k pk status))
  | addMinipool name a minipool pk =>
    refine newVaultsEmpty_onStore fun s _ s' ran => ?_
    obtain ⟨-, d, found, -, rfl⟩ := Store.addMinipool_ok ran
    exact Store.newVaultsEmpty_modifyDeployment found rfl rfl
  | snapshot name => exact keeps_modify fun _ => unchanged rfl
  | revert name => exact absurd rfl (not_revert name)
  | deleteSnapshot name => exact keeps_deleteSnapshot fun _ => unchanged rfl
  | createSession nonce token => exact keeps_modify fun _ => unchanged rfl
  | registerNode email a sig =>
    exact keeps_get_bind fun _ => newVaultsEmpty_onStore (Store.keepsDeployments_newVaultsEmpty
      (Store.register_keepsDeployments _ email a sig))
  | login a nonce sig =>
    exact keeps_discard (keeps_get_bind fun _ => newVaultsEmpty_onStore
      (Store.keepsDeployments_newVaultsEmpty (Store.login_keepsDeployments _ _ a nonce sig)))
  | logout token =>
    exact newVaultsEmpty_onStore (Store.keepsDeployments_newVaultsEmpty (Store.logout_keepsDeployments token))
  | uploadDepositData token k records =>
    exact keeps_discard (keeps_read_bind fun a => newVaultsEmpty_onStore
      (Store.uploadDepositData_newVaultsEmpty k a records))
  | uploadSignedExits token k exits =>
    exact keeps_discard (keeps_read_bind fun a => newVaultsEmpty_onStore
      (Store.keepsDeployments_newVaultsEmpty (Store.uploadSignedExits_keepsDeployments k a exits)))
  | uploadConstellationExits token name exits =>
    refine keeps_discard (keeps_read_bind fun a => keeps_get_bind fun _ =>
      newVaultsEmpty_onStore fun s _ s' ran => ?_)
    obtain ⟨n, d, opened, -, found, -, -, rfl⟩ := Store.uploadMinipoolExits_ok ran
    exact Store.newVaultsEmpty_modifyDeployment found rfl rfl

theorem exec_keepsSetsNamed (op : Op) (not_revert : ∀ n, op ≠ .revert n) :
    Keeps (fun svc svc' => svc.store.Inv → svc.store.SetsNamed → svc'.store.SetsNamed) (exec op) := by
  intro svc u svc' ran inv named k v' found' r hr
  have moved := exec_validatorsStep op not_revert svc u svc' ran inv
  by_cases before : ∃ v, svc.store.vault k = .ok v
  · obtain ⟨v, found⟩ := before
    have data := exec_depositDataStep k op not_revert svc u svc' ran v.depositData (by rw [found]; rfl)
    rw [found'] at data
    cases committed : op.committedSet k with
    | none =>
      have same : v'.currentSet = v.currentSet := by
        simp [committed, afterCommit, Vault.depositData, Except.map] at data
        exact data.2
      obtain ⟨w, hw⟩ := named k v found r (same ▸ hr)
      obtain ⟨w', hw', -⟩ := moved.kept k r.pubkey w hw
      exact ⟨w', hw'⟩
    | some set =>
      have same : v'.currentSet = set := by
        simp [committed, afterCommit, Vault.depositData, Except.map] at data
        exact data.2
      obtain rfl := Op.committedSet_eq_some.mp committed
      obtain ⟨w, hw, -⟩ := commit_takes ran (same ▸ hr)
      exact ⟨w, hw⟩
  · have empty := exec_newVaultsEmpty op not_revert svc u svc' ran k v' found'
      fun v hv => before ⟨v, hv⟩
    simp [empty] at hr

/-- Every store the service holds, the live one and each snapshot, names validators with its
sets. -/
def SetsNamed (svc : Service) : Prop :=
  svc.store.SetsNamed ∧ ∀ p ∈ svc.snapshots, p.2.SetsNamed

theorem exec_setsNamed (op : Op) :
    Keeps (fun svc svc' => svc.Inv → svc.SetsNamed → svc'.SetsNamed) (exec op) := by
  by_cases reverted : ∃ n, op = .revert n
  · obtain ⟨n, rfl⟩ := reverted
    refine keeps_revert fun svc store found _ named => ⟨?_, named.2⟩
    unfold snapshotOf at found
    split at found
    · rename_i p hp
      cases found
      exact named.2 _ (Keyed.get?_eq_some hp).1
    · cases found
  have not_revert : ∀ n, op ≠ .revert n := fun n same => reverted ⟨n, same⟩
  intro svc u svc' ran inv named
  refine ⟨exec_keepsSetsNamed op not_revert svc u svc' ran inv.store named.1, fun p hp => ?_⟩
  by_cases taken : ∃ n, op = .snapshot n
  · obtain ⟨n, rfl⟩ := taken
    rw [run_modify_eq_ok.mp ran] at hp
    rcases Keyed.mem_put hp with rfl | hp
    · exact named.1
    · exact named.2 p hp
  by_cases deleted : ∃ n, op = .deleteSnapshot n
  · obtain ⟨n, rfl⟩ := deleted
    simp only [exec, deleteSnapshot, run_get_bind, run_check_eq_ok, run_modify_eq_ok] at ran
    rw [ran.2] at hp
    exact named.2 p (List.mem_filter.mp hp).1
  have only := exec_changesOnlyStore op (fun n same => taken ⟨n, same⟩)
    (fun n same => deleted ⟨n, same⟩) svc u svc' ran
  rw [only] at hp
  exact named.2 p hp

theorem step_setsNamed {svc : Service} (inv : svc.Inv) (named : svc.SetsNamed) (op : Op) :
    (svc.step op).SetsNamed :=
  step_keeps (R := fun svc svc' => svc.Inv → svc.SetsNamed → svc'.SetsNamed)
    (fun _ _ named => named) (exec_setsNamed op) svc inv named

end Service

theorem Reachable.setsNamed {svc : Service} (reach : Reachable svc) : svc.SetsNamed := by
  induction reach with
  | init config =>
    refine ⟨fun k v found => ?_, by simp⟩
    simp [Store.vault, Store.deployment, Keyed.get?, bind, Except.bind] at found
  | step op reach named => exact Service.step_setsNamed reach.inv named op

namespace Store

variable {s : Store} {k : VaultKey} {pk : ValidatorPubkey} {w : StakeWiseValidator}

theorem Inv.withdraws_of_validator (h : s.Inv) (found : s.validator k pk = .ok w) :
    w.record.withdrawalAddress = k.vault := by
  obtain ⟨a, n, -, hn, hw⟩ := validator_eq_ok.mp found
  obtain ⟨e, he, rfl, mem⟩ := Node.mem_validatorsIn (List.mem_of_find?_eq_some hw)
  exact h.withdraws_to_vault n (mem_of_node? hn).1 e he w mem

end Store

/-- What a vault serves belongs to the vault by key. In every state the service reaches, every
record of a vault's current set, which is what a logged-in node reads as the vault's deposit
data, carries the key of a validator stored for that vault, found by the lookup the service
uses, and that validator's stored record withdraws to the vault. -/
theorem served_records_name_vault_validators {svc : Service} (reach : Reachable svc) (k : VaultKey) :
    (∀ v, svc.store.vault k = .ok v → ∀ r ∈ v.currentSet,
        ∃ w, svc.store.validator k r.pubkey = .ok w ∧ w.record.withdrawalAddress = k.vault) ∧
      ∀ token version set, svc.depositData token k = .ok (version, set) → ∀ r ∈ set,
        ∃ w, svc.store.validator k r.pubkey = .ok w ∧ w.record.withdrawalAddress = k.vault := by
  have held : ∀ v, svc.store.vault k = .ok v → ∀ r ∈ v.currentSet,
      ∃ w, svc.store.validator k r.pubkey = .ok w ∧ w.record.withdrawalAddress = k.vault := by
    intro v found r hr
    obtain ⟨w, hw⟩ := reach.setsNamed.1 k v found r hr
    exact ⟨w, hw, reach.inv.store.withdraws_of_validator hw⟩
  refine ⟨held, fun token version set served => ?_⟩
  -- the deposit data read is the vault's version and current set
  unfold Service.depositData at served
  cases auth : svc.store.authenticate token with
  | error e => simp [auth, bind, Except.bind] at served
  | ok a =>
    cases found : svc.store.vault k with
    | error e => simp [auth, found, bind, Except.bind] at served
    | ok v =>
      simp only [auth, found, bind, Except.bind, pure, Except.pure, Except.ok.injEq,
        Prod.mk.injEq] at served
      exact served.2 ▸ held v found

theorem forged_record_names_vault_validator :
    Reachable forgedService ∧ forgedService.depositData "t" sampleVault = .ok (1, [forgedRecord]) ∧
      ∃ w, forgedService.store.validator sampleVault forgedRecord.pubkey = .ok w ∧
        w.record.withdrawalAddress = sampleVault.vault := by
  have served : forgedService.depositData "t" sampleVault = .ok (1, [forgedRecord]) := rfl
  exact ⟨reachable_forgedService, served,
    (served_records_name_vault_validators reachable_forgedService sampleVault).2 "t" 1 _ served
      forgedRecord (List.mem_singleton_self _)⟩

/-! ### A committed record that withdraws elsewhere -/

/-- A reachable state in which a vault serves a record that withdraws elsewhere and that no
validator of the vault holds. -/
theorem served_record_may_withdraw_elsewhere :
    ¬ ∀ svc, Reachable svc → ∀ k v, svc.store.vault k = .ok v → ∀ r ∈ v.currentSet,
      r.withdrawalAddress = k.vault ∧ ∃ n ∈ svc.store.nodes, ∃ w ∈ n.validatorsIn k, w.record = r := by
  intro withdrawsToVault
  obtain ⟨v, found, sets⟩ : ∃ v, forgedService.store.vault sampleVault = .ok v ∧
      v.currentSet = [forgedRecord] := ⟨_, rfl, rfl⟩
  have withdraws := (withdrawsToVault _ reachable_forgedService sampleVault v found forgedRecord
    (by simp [sets])).1
  exact absurd withdraws (by decide)

end StakingHub
