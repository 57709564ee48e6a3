import StakingHub.Proofs.Lifecycle
import StakingHub.Proofs.Deployments

/-!
# Deposit-data sets of a vault

A vault keeps the deposit-data set committed to it last and how many sets were committed, its
version. Only a commit to the vault moves them: the version by one and the set to the one
committed (`Service.exec_depositDataStep`). So over a run without revert from where the vault
was added, the version counts the commits to it that succeeded and the set is the last of them
(`Service.runOps_depositData`).

Committing a set takes its validators, and a validator once taken stays taken: no operation
clears the mark (`Store.ValidatorsStep`). The next set offers only validators that are pending
and not yet taken, and under the invariant a key names one validator per vault, so a key of a
committed set is never offered again, whatever comes between.
-/

namespace StakingHub

/-- The set an operation commits to a vault, if it commits one. -/
def Op.committedSet (op : Op) (k : VaultKey) : Option (List DepositRecord) :=
  match op with
  | .commitDepositDataSet k' set => if k' = k then some set else none
  | _ => none

/-- A vault's version and the set committed to it last. -/
def Vault.depositData (v : Vault) : Nat × List DepositRecord :=
  (v.version, v.currentSet)

/-- A vault's version and set after a step that commits `committed`, if anything. -/
def afterCommit : Option (List DepositRecord) → Nat × List DepositRecord → Nat × List DepositRecord
  | some set, (version, _) => (version + 1, set)
  | none, data => data

theorem foldl_afterCommit (k : VaultKey) (ops : List Op) (data : Nat × List DepositRecord) :
    ops.foldl (fun data op => afterCommit (op.committedSet k) data) data =
      (data.1 + (ops.filterMap (Op.committedSet · k)).length,
        ((ops.filterMap (Op.committedSet · k)).getLast?).getD data.2) := by
  induction ops generalizing data with
  | nil => simp
  | cons op ops ih =>
    obtain ⟨version, last⟩ := data
    rw [List.foldl_cons, ih]
    cases committed : op.committedSet k with
    | none => simp [afterCommit, committed]
    | some set =>
      simp only [afterCommit, committed, List.filterMap_cons, List.length_cons, List.getLast?_cons,
        Option.getD_some]
      rw [Nat.add_right_comm, Nat.add_assoc]

namespace Store

open StoreM

variable {s s' : Store} {op : Op} {k : VaultKey}

/-- What a step did to a vault's deposit data, once the vault is found: it moved as `op`
commits. -/
def DepositDataStep (op : Op) (k : VaultKey) (s s' : Store) : Prop :=
  ∀ data, (s.vault k).map Vault.depositData = .ok data →
    (s'.vault k).map Vault.depositData = .ok (afterCommit (op.committedSet k) data)

theorem depositDataStep_of_vault (same : s'.vault k = s.vault k) (quiet : op.committedSet k = none) :
    DepositDataStep op k s s' := by
  intro data found
  rw [same, found, quiet]
  rfl

theorem depositDataStep_of_deployments (same : s'.deployments = s.deployments)
    (quiet : op.committedSet k = none) : DepositDataStep op k s s' :=
  depositDataStep_of_vault (vault_congr same k) quiet

theorem keepsDeployments_depositDataStep {α : Type} {m : StoreM α} (hm : KeepsDeployments m)
    (quiet : op.committedSet k = none) : Keeps (DepositDataStep op k) m :=
  fun _ _ _ ran => depositDataStep_of_deployments (hm _ _ _ ran) quiet

theorem depositDataStep_modifyDeployment {name : String} {d d' : Deployment}
    (found : s.deployment name = .ok d) (keeps : d'.name = d.name) (vaults : d'.vaults = d.vaults)
    (quiet : op.committedSet k = none) :
    DepositDataStep op k s (s.modifyDeployment name fun _ => d') :=
  depositDataStep_of_vault
    (vault_modifyDeployment found (keeps.trans (mem_of_deployment found).2) vaults k) quiet

theorem deploymentMut_depositDataStep {β : Type} {name : String}
    {f : Deployment → Except ServiceFault (β × Deployment)}
    (step : ∀ d b d', f d = .ok (b, d') → d'.name = d.name ∧ d'.vaults = d.vaults)
    (quiet : op.committedSet k = none) : Keeps (DepositDataStep op k) (deploymentMut name f) := by
  intro s b s' ran
  obtain ⟨d, d', found, changed, rfl⟩ := run_borrow_eq_ok.mp ran
  obtain ⟨same_name, same_vaults⟩ := step d b d' changed
  exact depositDataStep_modifyDeployment found same_name same_vaults quiet

theorem addDeployment_depositDataStep (d : Deployment) (quiet : op.committedSet k = none) :
    Keeps (DepositDataStep op k) (addDeployment d) := by
  intro s _ s' ran data found
  obtain ⟨fresh, rfl⟩ := addDeployment_ok ran
  cases hv : s.vault k with
  | error e => simp [hv, Except.map] at found
  | ok v =>
    obtain ⟨e, he, -⟩ := deployment_of_vault hv
    obtain ⟨mem, named⟩ := mem_of_deployment he
    have apart : d.name ≠ k.deployment := fun same =>
      Keyed.key_ne_of_contains_eq_false fresh mem (named.trans same.symm)
    have kept : ({ s with deployments := Keyed.put Deployment.name d s.deployments } : Store).vault k =
        s.vault k := vault_congr_deployment (by rw [deployment_put, if_neg apart])
    exact depositDataStep_of_vault kept quiet data found

theorem addVault_depositDataStep (name : String) (a : Address) (quiet : op.committedSet k = none) :
    Keeps (DepositDataStep op k) (addVault name a) := by
  intro s _ s' ran data found
  obtain ⟨d, hd, fresh, rfl⟩ := addVault_ok ran
  cases hv : s.vault k with
  | error e => simp [hv, Except.map] at found
  | ok v =>
    have apart : k ≠ ⟨name, a⟩ := by
      rintro rfl
      obtain ⟨e, he, hw⟩ := deployment_of_vault hv
      rw [hd] at he
      cases he
      obtain ⟨mem, at_a⟩ := Keyed.get?_eq_some hw
      exact Keyed.key_ne_of_contains_eq_false fresh mem at_a
    exact depositDataStep_of_vault (by rw [vault_addVault hd, if_neg apart]) quiet data found

theorem uploadDepositData_depositDataStep (k' : VaultKey) (a : Address) (records : List DepositRecord)
    (quiet : op.committedSet k = none) : Keeps (DepositDataStep op k) (uploadDepositData k' a records) := by
  intro s _ s' ran
  obtain ⟨n, v, fresh, known, -, -, found, -, -, rfl⟩ := uploadDepositData_ok ran
  have taken : s.modifyVault k' (fun _ => { v with knownPubkeys := known }) =
      s.modifyVault k' fun w => { w with knownPubkeys := known } := modifyVault_congr found rfl
  intro data before
  have after := vault_modifyVault (s := s) (k := k') (f := fun w => { w with knownPubkeys := known })
    (fun _ => rfl) k
  rw [quiet]
  rw [vault_congr (modifyNode_deployments _ _ _) k, taken, after]
  by_cases same : k' = k
  · subst same
    rw [if_pos rfl]
    cases hv : s.vault k' with
    | error e => simp [hv, Except.map] at before
    | ok w => simpa [hv, Except.map, Vault.depositData, afterCommit] using before
  · rw [if_neg same, before]
    rfl

theorem commitDepositDataSet_depositDataStep (k' : VaultKey) (set : List DepositRecord) :
    Keeps (DepositDataStep (.commitDepositDataSet k' set) k) (commitDepositDataSet k' set) := by
  intro s _ s' ran data before
  obtain ⟨v, s₁, found, -, -, -, only, -, rfl⟩ := commitDepositDataSet_ok ran
  have same : s₁.deployments = s.deployments := by rw [only]
  have found₁ : s₁.vault k' = .ok v := (vault_congr same k').trans found
  have bumped : s₁.modifyVault k' (fun _ => { v with version := v.version + 1, currentSet := set }) =
      s₁.modifyVault k' fun w => { w with version := w.version + 1, currentSet := set } :=
    modifyVault_congr found₁ rfl
  have after := vault_modifyVault (s := s₁) (k := k')
    (f := fun w => { w with version := w.version + 1, currentSet := set }) (fun _ => rfl) k
  rw [bumped, after]
  by_cases hit : k' = k
  · subst hit
    rw [found] at before
    simp only [Except.map, Except.ok.injEq] at before
    subst before
    simp [found₁, Except.map, Op.committedSet, Vault.depositData, afterCommit]
  · rw [if_neg hit, vault_congr same k, before]
    simp [Op.committedSet, hit, afterCommit]

end Store

namespace Service

variable {svc : Service} {k : VaultKey}

theorem depositDataStep_onStore {α : Type} {op : Op} {m : StoreM α}
    (hm : Store.Keeps (Store.DepositDataStep op k) m) :
    Keeps (fun svc svc' => Store.DepositDataStep op k svc.store svc'.store) (onStore m) :=
  keeps_onStore (fun _ _ moved => moved) hm

/-- What every operation but a revert does to a vault's deposit data: only a commit to it moves
its version and set. -/
theorem exec_depositDataStep (k : VaultKey) (op : Op) (not_revert : ∀ n, op ≠ .revert n) :
    Keeps (fun svc svc' => Store.DepositDataStep op k svc.store svc'.store) (exec op) := by
  have unchanged : ∀ {svc svc' : Service}, svc'.store = svc.store → op.committedSet k = none →
      Store.DepositDataStep op k svc.store svc'.store := fun same quiet =>
    Store.depositDataStep_of_vault (by rw [same]) quiet
  cases op with
  | addUser email =>
    exact depositDataStep_onStore (Store.keepsDeployments_depositDataStep
      (Store.addUser_keepsDeployments email) rfl)
  | whitelistNode email a =>
    exact depositDataStep_onStore (Store.keepsDeployments_depositDataStep
      (Store.whitelistNode_keepsDeployments email a) rfl)
  | addDeployment name chainId whitelist factory =>
    exact depositDataStep_onStore (Store.addDeployment_depositDataStep _ rfl)
  | setAdminKey name key =>
    exact depositDataStep_onStore (Store.deploymentMut_depositDataStep
      (fun _ _ _ changed => by cases changed; exact ⟨rfl, rfl⟩) rfl)
  | setMinipoolLimit name limit =>
    exact depositDataStep_onStore (Store.deploymentMut_depositDataStep
      (fun _ _ _ changed => by cases changed; exact ⟨rfl, rfl⟩) rfl)
  | addVault name vault => exact depositDataStep_onStore (Store.addVault_depositDataStep name vault rfl)
  | setExitIdentity id => exact keeps_modify fun _ => Store.depositDataStep_of_deployments rfl rfl
  | incrementWhitelistNonce name a =>
    refine keeps_discard (depositDataStep_onStore fun s _ s' ran => ?_)
    obtain ⟨d, found, -, rfl⟩ := Store.incrementWhitelistNonce_ok ran
    exact Store.depositDataStep_modifyDeployment found rfl rfl rfl
  | incrementDepositNonce name a =>
    refine keeps_discard (depositDataStep_onStore fun s _ s' ran => ?_)
    obtain ⟨d, found, -, rfl⟩ := Store.incrementDepositNonce_ok ran
    exact Store.depositDataStep_modifyDeployment found rfl rfl rfl
  | commitDepositDataSet k' set =>
    exact keeps_discard (depositDataStep_onStore (Store.commitDepositDataSet_depositDataStep k' set))
  | markValidatorsRegistered k' pks =>
    exact depositDataStep_onStore (Store.keepsDeployments_depositDataStep
      (Store.markValidatorsRegistered_keepsDeployments k' pks) rfl)
  | markValidatorRemoved k' pk =>
    exact depositDataStep_onStore (Store.keepsDeployments_depositDataStep
      (Store.markValidatorRemoved_keepsDeployments k' pk) rfl)
  | overrideValidatorStatus k' pk status =>
    exact depositDataStep_onStore (Store.keepsDeployments_depositDataStep
      (Store.overrideValidatorStatus_keepsDeployments k' pk status) rfl)
  | addMinipool name a minipool pk =>
    refine depositDataStep_onStore fun s _ s' ran => ?_
    obtain ⟨-, d, found, -, rfl⟩ := Store.addMinipool_ok ran
    exact Store.depositDataStep_modifyDeployment found rfl rfl rfl
  | snapshot name => exact keeps_modify fun _ => unchanged rfl rfl
  | revert name => exact absurd rfl (not_revert name)
  | deleteSnapshot name => exact keeps_deleteSnapshot fun _ => unchanged rfl rfl
  | createSession nonce token =>
    exact keeps_modify fun _ => Store.depositDataStep_of_deployments rfl rfl
  | registerNode email a sig =>
    exact keeps_get_bind fun _ => depositDataStep_onStore (Store.keepsDeployments_depositDataStep
      (Store.register_keepsDeployments _ email a sig) rfl)
  | login a nonce sig =>
    exact keeps_discard (keeps_get_bind fun _ => depositDataStep_onStore
      (Store.keepsDeployments_depositDataStep (Store.login_keepsDeployments _ _ a nonce sig) rfl))
  | logout token =>
    exact depositDataStep_onStore (Store.keepsDeployments_depositDataStep
      (Store.logout_keepsDeployments token) rfl)
  | uploadDepositData token k' records =>
    exact keeps_discard (keeps_read_bind fun a => depositDataStep_onStore
      (Store.uploadDepositData_depositDataStep k' a records rfl))
  | uploadSignedExits token k' exits =>
    exact keeps_discard (keeps_read_bind fun a => depositDataStep_onStore
      (Store.keepsDeployments_depositDataStep (Store.uploadSignedExits_keepsDeployments k' a exits) rfl))
  | uploadConstellationExits token name exits =>
    refine keeps_discard (keeps_read_bind fun a => keeps_get_bind fun _ =>
      depositDataStep_onStore fun s _ s' ran => ?_)
    obtain ⟨n, d, opened, -, found, -, -, rfl⟩ := Store.uploadMinipoolExits_ok ran
    exact Store.depositDataStep_modifyDeployment found rfl rfl rfl

/-- Over a run without revert, a vault that is there moves by the commits to it that succeeded. -/
theorem runOps_depositData (k : VaultKey) {data : Nat × List DepositRecord}
    (found : (svc.store.vault k).map Vault.depositData = .ok data) {ops : List Op}
    (no_revert : ∀ n, .revert n ∉ ops) :
    ((svc.runOps ops).store.vault k).map Vault.depositData =
      .ok ((svc.succeeded ops).foldl (fun data op => afterCommit (op.committedSet k) data) data) :=
  observe_runOps (fun svc => (svc.store.vault k).map Vault.depositData)
    (fun op data => afterCommit (op.committedSet k) data)
    (fun svc op data u svc' not_revert before ran =>
      exec_depositDataStep k op not_revert svc u svc' ran data before)
    found fun _ mem n same => no_revert n (same ▸ mem)

theorem depositData_of_addVault {svc₀ : Service}
    (added : (exec (.addVault k.deployment k.vault)).run svc₀ = .ok () svc) :
    (svc.store.vault k).map Vault.depositData = .ok (0, []) := by
  obtain ⟨store, stored, rfl⟩ := run_onStore_eq_ok.mp added
  obtain ⟨d, hd, -, rfl⟩ := Store.addVault_ok stored
  rw [Store.vault_addVault hd, if_pos rfl]
  rfl

end Service

/-! ### Committed keys are not offered again -/

namespace Store

variable {s s' : Store} {k : VaultKey}

theorem commitDepositDataSet_takes {set : List DepositRecord} {version : Nat}
    (ran : (commitDepositDataSet k set).run s = .ok version s') {r : DepositRecord} (hr : r ∈ set) :
    ∃ w, s'.validator k r.pubkey = .ok w ∧ w.used = true := by
  obtain ⟨v, s₁, -, validators, changed, -, -, -, rfl⟩ := commitDepositDataSet_ok ran
  have after := validator_forM_validatorMut DepositRecord.pubkey StakeWiseValidator.use
    (fun _ => rfl) StakeWiseValidator.use_use changed k r.pubkey
  obtain ⟨w, found⟩ := validators r hr
  rw [if_pos ⟨rfl, List.mem_map_of_mem hr⟩, found] at after
  exact ⟨w.use, (validator_congr (t := s₁.modifyVault k _) (s := s₁) rfl k r.pubkey).trans after, rfl⟩

theorem mem_depositDataSet {limit : Nat} {recs : List DepositRecord}
    (offered : s.depositDataSet k limit = .ok recs) {r : DepositRecord} (hr : r ∈ recs) :
    ∃ n ∈ s.nodes, ∃ w ∈ n.validatorsIn k, w.isBatchable = true ∧ w.record = r := by
  unfold depositDataSet at offered
  cases found : s.vault k with
  | error e => simp [found, bind, Except.bind] at offered
  | ok v =>
    simp only [found, bind, Except.bind, pure, Except.pure, Except.ok.injEq] at offered
    subst offered
    obtain ⟨u, -, taken⟩ := List.mem_flatMap.mp hr
    obtain ⟨w, hw, rfl⟩ := List.mem_map.mp taken
    obtain ⟨held, batchable⟩ := List.mem_filter.mp (List.mem_of_mem_take hw)
    obtain ⟨n, hn, hwn⟩ := List.mem_flatMap.mp held
    obtain ⟨a, -, ha⟩ := List.mem_filterMap.mp (List.mem_filter.mp hn).1
    exact ⟨n, (mem_of_node? ha).1, w, hwn, batchable, rfl⟩

theorem Inv.not_offered (h : s.Inv) {pk : ValidatorPubkey} {w : StakeWiseValidator}
    (found : s.validator k pk = .ok w) (taken : w.used = true) {limit : Nat}
    {recs : List DepositRecord} (offered : s.depositDataSet k limit = .ok recs) {r : DepositRecord}
    (hr : r ∈ recs) : r.pubkey ≠ pk := by
  obtain ⟨n, hn, w', hw', batchable, rfl⟩ := mem_depositDataSet offered hr
  intro same
  have its := h.validator_of_mem hn hw'
  rw [show w'.pubkey = pk from same, found] at its
  cases its
  simp [StakeWiseValidator.isBatchable, taken] at batchable

end Store

namespace Service

variable {svc svc' : Service} {k : VaultKey}

theorem commit_takes {set : List DepositRecord} {u : Unit}
    (ran : (exec (.commitDepositDataSet k set)).run svc = .ok u svc') {r : DepositRecord}
    (hr : r ∈ set) : ∃ w, svc'.store.validator k r.pubkey = .ok w ∧ w.used = true := by
  obtain ⟨version, ran⟩ := run_discard_eq_ok ran
  obtain ⟨store, stored, rfl⟩ := run_onStore_eq_ok.mp ran
  exact Store.commitDepositDataSet_takes stored hr

theorem runOps_taken (inv : svc.Inv) {pk : ValidatorPubkey} {w : StakeWiseValidator}
    (found : svc.store.validator k pk = .ok w) (taken : w.used = true) {ops : List Op}
    (no_revert : ∀ n, .revert n ∉ ops) :
    ∃ w', (svc.runOps ops).store.validator k pk = .ok w' ∧ w'.used = true := by
  have step : ∀ (svc : Service) (op : Op), (∀ n, op ≠ .revert n) →
      (svc.Inv ∧ ∃ w, svc.store.validator k pk = .ok w ∧ w.used = true) →
      (svc.step op).Inv ∧ ∃ w, (svc.step op).store.validator k pk = .ok w ∧ w.used = true := by
    rintro svc op not_revert ⟨inv, w, found, taken⟩
    obtain ⟨w', after, moved⟩ := (step_validatorsStep op not_revert inv.store).kept k pk w found
    exact ⟨step_inv inv op, w', after, moved.used taken⟩
  exact (runOps_keeps step ⟨inv, w, found, taken⟩ fun _ mem n same => no_revert n (same ▸ mem)).2

end Service

/-- Deposit-data set history of a vault. From where a vault was added to a state that satisfies
the invariant, over any run without revert: the vault's version is the number of commits to it
that succeeded; the deposit data a logged-in node reads is that number with the set of the last
of them, or no set if there was none; and no key of a set whose commit succeeded is offered by
any later deposit-data set of the vault, whatever operations come between. -/
theorem deposit_data_sets_follow_commits (svc₀ svc : Service) (k : VaultKey) (inv : svc₀.Inv)
    (added : (Service.exec (.addVault k.deployment k.vault)).run svc₀ = .ok () svc)
    (ops : List Op) (no_revert : ∀ n, .revert n ∉ ops) :
    (svc.runOps ops).store.depositDataVersion k =
        .ok ((svc.succeeded ops).filterMap (Op.committedSet · k)).length ∧
      (∀ token, (svc.runOps ops).depositData token k =
        ((svc.runOps ops).store.authenticate token).map fun _ =>
          (((svc.succeeded ops).filterMap (Op.committedSet · k)).length,
            (((svc.succeeded ops).filterMap (Op.committedSet · k)).getLast?).getD [])) ∧
      ∀ pre set post, ops = pre ++ .commitDepositDataSet k set :: post →
        (svc.runOps pre).succeeds (.commitDepositDataSet k set) = true →
        ∀ limit recs, (svc.runOps ops).store.depositDataSet k limit = .ok recs →
        ∀ r ∈ set, ∀ r' ∈ recs, r'.pubkey ≠ r.pubkey := by
  have moved := Service.runOps_depositData k (Service.depositData_of_addVault added) no_revert
  rw [foldl_afterCommit, Nat.zero_add] at moved
  obtain ⟨v, found, data⟩ : ∃ v, (svc.runOps ops).store.vault k = .ok v ∧
      v.depositData = (((svc.succeeded ops).filterMap (Op.committedSet · k)).length,
        (((svc.succeeded ops).filterMap (Op.committedSet · k)).getLast?).getD []) := by
    cases hv : (svc.runOps ops).store.vault k with
    | error e => simp [hv, Except.map] at moved
    | ok v => exact ⟨v, rfl, by simpa [hv, Except.map] using moved⟩
  simp only [Vault.depositData, Prod.mk.injEq] at data
  refine ⟨?_, fun token => ?_, fun pre set post split succeeded limit recs offered r hr r' hr' => ?_⟩
  · simp [Store.depositDataVersion, found, data.1, bind, Except.bind, pure, Except.pure]
  · cases auth : (svc.runOps ops).store.authenticate token <;>
      simp [Service.depositData, auth, found, data, bind, Except.bind, pure, Except.pure, Except.map]
  · -- the commit took the set's validators, and taken validators stay taken
    have inv_pre := Service.runOps_inv (Service.exec_keepsInv _ svc₀ () svc added inv) pre
    obtain ⟨u, mid, ran⟩ := Service.succeeds_eq_true.mp succeeded
    obtain ⟨w, found_w, taken⟩ := Service.commit_takes ran hr
    have rest : ∀ n, .revert n ∉ post := fun n mem => no_revert n (by simp [split, mem])
    obtain ⟨w', found', taken'⟩ := Service.runOps_taken (Service.exec_keepsInv _ _ _ _ ran inv_pre)
      found_w taken rest
    have whole : svc.runOps ops = mid.runOps post := by
      rw [split, Service.runOps_runOps, Service.runOps_cons, Service.step_of_ok ran]
    rw [whole] at offered
    exact (Service.runOps_inv (Service.exec_keepsInv _ _ _ _ ran inv_pre) post).store.not_offered
      found' taken' offered hr'

theorem sample_run_deposit_data_follows_commits :
    (({ config := helloConfig } : Service).runOps (sampleRun.take 1)).Inv ∧
      (Service.exec (.addVault sampleVault.deployment sampleVault.vault)).run
          (({ config := helloConfig } : Service).runOps (sampleRun.take 1)) =
        .ok () (({ config := helloConfig } : Service).runOps (sampleRun.take 2)) ∧
      (∀ n, .revert n ∉ sampleRun.drop 2) ∧
      sampleService.store.depositDataVersion sampleVault =
        .ok (((({ config := helloConfig } : Service).runOps (sampleRun.take 2)).succeeded
          (sampleRun.drop 2)).filterMap (Op.committedSet · sampleVault)).length ∧
      ∀ limit recs, sampleService.store.depositDataSet sampleVault limit = .ok recs →
        ∀ r ∈ recs, r.pubkey ≠ forgedRecord.pubkey := by
  have inv := ((Reachable.init helloConfig).runOps (sampleRun.take 1)).inv
  have added : (Service.exec (.addVault sampleVault.deployment sampleVault.vault)).run
      (({ config := helloConfig } : Service).runOps (sampleRun.take 1)) =
        .ok () (({ config := helloConfig } : Service).runOps (sampleRun.take 2)) := rfl
  have no_revert : ∀ n, .revert n ∉ sampleRun.drop 2 := fun n mem =>
    revert_not_mem_sampleRun n (List.mem_of_mem_drop mem)
  have follows := deposit_data_sets_follow_commits _ _ sampleVault inv added _ no_revert
  rw [runOps_take_runOps_drop] at follows
  have split : sampleRun.drop 2 = [.addUser "u", .whitelistNode "u" sampleNode,
      .registerNode "u" sampleNode sampleSignature, .createSession "n" "t",
      .login sampleNode "n" sampleSignature, .uploadDepositData "t" sampleVault [sampleRecord]] ++
      .commitDepositDataSet sampleVault [forgedRecord] :: sampleOps := rfl
  -- the commit leads to `forgedService`, from which committing the same set succeeds again
  have stepped : ((({ config := helloConfig } : Service).runOps (sampleRun.take 2)).runOps
      [.addUser "u", .whitelistNode "u" sampleNode, .registerNode "u" sampleNode sampleSignature,
        .createSession "n" "t", .login sampleNode "n" sampleSignature,
        .uploadDepositData "t" sampleVault [sampleRecord]]).step
      (.commitDepositDataSet sampleVault [forgedRecord]) = forgedService := by
    rw [← Service.runOps_append, ← Service.runOps_runOps, ← runOps_forgedCommitRun]
    rfl
  have again : forgedService.succeeds (.commitDepositDataSet sampleVault [forgedRecord]) = true := by
    decide
  have committed := Service.succeeds_of_step_eq stepped again
  exact ⟨inv, added, no_revert, follows.1, fun limit recs offered r mem =>
    follows.2.2 _ _ _ split committed limit recs offered forgedRecord (List.mem_singleton_self _) r mem⟩

end StakingHub
