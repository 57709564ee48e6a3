import StakingHub.Proofs.Counters

/-!
# Counters fit in 64 bits

A deployment's two replay counters per address and a vault's version are 64-bit counters that
the service raises by one (`crates/ns-mock/src/signing/engine.rs:86-112`,
`crates/ns-mock/src/lifecycle/stakewise.rs:108-130`); here they are natural numbers. The two
agree as long as no counter reaches `2^64 - 1`, and no run gets there: one operation raises any
counter by at most one, a new deployment or vault starts with none or at zero, and snapshots and
reverts only copy stores whose counters were bounded when they were saved. So after `n`
operations from a new service every counter of every store the service holds is at most `n`
(`Service.counts_at_most_run_length`), and on every run of fewer than `2^64 - 1` operations the
next increment of a 64-bit counter gives what the natural number gives
(`counters_increment_as_u64`).
-/

namespace StakingHub

namespace Deployment

/-- Every replay counter and every vault version of a deployment is at most `n`. -/
def CountsAtMost (n : Nat) (d : Deployment) : Prop :=
  (∀ p ∈ d.whitelistNonces, p.2 ≤ n) ∧ (∀ p ∈ d.depositNonces, p.2 ≤ n) ∧
    ∀ v ∈ d.vaults, v.version ≤ n

variable {n m : Nat} {d : Deployment}

theorem CountsAtMost.mono (h : d.CountsAtMost n) (le : n ≤ m) : d.CountsAtMost m :=
  ⟨fun p hp => (h.1 p hp).trans le, fun p hp => (h.2.1 p hp).trans le,
    fun v hv => (h.2.2 v hv).trans le⟩

theorem counter_le {counters : List (Address × Nat)} (bounded : ∀ p ∈ counters, p.2 ≤ n)
    (a : Address) : counter counters a ≤ n := by
  unfold counter
  cases found : Keyed.get? Prod.fst a counters with
  | none => simp
  | some p => exact bounded p (Keyed.get?_eq_some found).1

theorem bump_le {counters : List (Address × Nat)} (bounded : ∀ p ∈ counters, p.2 ≤ n)
    (a : Address) : ∀ p ∈ (bump counters a).2, p.2 ≤ n + 1 := by
  intro p hp
  rcases Keyed.mem_put hp with rfl | held
  · exact Nat.succ_le_succ (counter_le bounded a)
  · exact (bounded p held).trans (Nat.le_succ n)

end Deployment

namespace Store

/-- Every replay counter and every vault version of a store is at most `n`. -/
def CountsAtMost (n : Nat) (s : Store) : Prop :=
  ∀ d ∈ s.deployments, d.CountsAtMost n

variable {s s' : Store} {n m : Nat}

theorem CountsAtMost.mono (h : s.CountsAtMost n) (le : n ≤ m) : s.CountsAtMost m :=
  fun d hd => (h d hd).mono le

theorem CountsAtMost.congr (h : s.CountsAtMost n) (same : s'.deployments = s.deployments) :
    s'.CountsAtMost n := by
  intro d hd
  rw [same] at hd
  exact h d hd

theorem CountsAtMost.version_le (h : s.CountsAtMost n) {k : VaultKey} {v : Vault}
    (found : s.vault k = .ok v) : v.version ≤ n := by
  obtain ⟨d, hd, hv⟩ := deployment_of_vault found
  exact (h d (mem_of_deployment hd).1).2.2 v (Keyed.get?_eq_some hv).1

theorem CountsAtMost.deployment (h : s.CountsAtMost n) {name : String} {d : Deployment}
    (found : s.deployment name = .ok d) : d.CountsAtMost n :=
  h d (mem_of_deployment found).1

theorem CountsAtMost.modifyDeployment (h : s.CountsAtMost n) {name : String}
    {f : Deployment → Deployment} (raised : ∀ d ∈ s.deployments, (f d).CountsAtMost (n + 1)) :
    (s.modifyDeployment name f).CountsAtMost (n + 1) := by
  intro d' hd'
  rcases Keyed.mem_modifyFirst hd' with held | ⟨d, hd, -, rfl⟩
  · exact (h d' held).mono (Nat.le_succ n)
  · exact raised d hd

theorem CountsAtMost.modifyVault (h : s.CountsAtMost n) {k : VaultKey} {f : Vault → Vault}
    (raised : ∀ d ∈ s.deployments, ∀ v ∈ d.vaults, (f v).version ≤ n + 1) :
    (s.modifyVault k f).CountsAtMost (n + 1) := by
  refine h.modifyDeployment fun d hd => ⟨?_, ?_, fun v' hv' => ?_⟩
  · exact ((h d hd).mono (Nat.le_succ n)).1
  · exact ((h d hd).mono (Nat.le_succ n)).2.1
  · rcases Keyed.mem_modifyFirst hv' with held | ⟨v, hv, -, rfl⟩
    · exact ((h d hd).2.2 v' held).trans (Nat.le_succ n)
    · exact raised d hd v hv

theorem keepsDeployments_countsAtMost {α : Type} {m : StoreM α} (hm : KeepsDeployments m) :
    Keeps (fun s s' => s.CountsAtMost n → s'.CountsAtMost (n + 1)) m :=
  fun _ _ _ ran h => (h.congr (hm _ _ _ ran)).mono (Nat.le_succ n)

end Store

namespace Service

open StoreM

/-- Every store the service holds, the live one and each snapshot, counts at most `n`. -/
def CountsAtMost (n : Nat) (svc : Service) : Prop :=
  svc.store.CountsAtMost n ∧ ∀ p ∈ svc.snapshots, p.2.CountsAtMost n

variable {svc : Service} {n : Nat}

theorem CountsAtMost.mono (h : svc.CountsAtMost n) {m : Nat} (le : n ≤ m) : svc.CountsAtMost m :=
  ⟨h.1.mono le, fun p hp => (h.2 p hp).mono le⟩

theorem countsAtMost_onStore {α : Type} {m : StoreM α}
    (hm : Store.Keeps (fun s s' => s.CountsAtMost n → s'.CountsAtMost (n + 1)) m) :
    Keeps (fun svc svc' => svc.CountsAtMost n → svc'.CountsAtMost (n + 1)) (onStore m) :=
  keeps_onStore (fun _ _ raised h => ⟨raised h.1, fun p hp => (h.2 p hp).mono (Nat.le_succ n)⟩) hm

theorem countsAtMost_onStore_of_keepsDeployments {α : Type} {m : StoreM α}
    (hm : Store.KeepsDeployments m) :
    Keeps (fun svc svc' => svc.CountsAtMost n → svc'.CountsAtMost (n + 1)) (onStore m) :=
  countsAtMost_onStore (Store.keepsDeployments_countsAtMost hm)

theorem exec_countsAtMost (op : Op) (n : Nat) :
    Keeps (fun svc svc' => svc.CountsAtMost n → svc'.CountsAtMost (n + 1)) (exec op) := by
  cases op with
  | addUser email =>
    exact countsAtMost_onStore_of_keepsDeployments (Store.addUser_keepsDeployments email)
  | whitelistNode email a =>
    exact countsAtMost_onStore_of_keepsDeployments (Store.whitelistNode_keepsDeployments email a)
  | addDeployment name chainId whitelist factory =>
    refine countsAtMost_onStore fun s _ s' ran h => ?_
    obtain ⟨-, rfl⟩ := Store.addDeployment_ok ran
    intro d hd
    rcases Keyed.mem_put hd with rfl | held
    · exact ⟨by simp, by simp, by simp⟩
    · exact (h d held).mono (Nat.le_succ n)
  | setAdminKey name key =>
    refine countsAtMost_onStore fun s _ s' ran h => ?_
    obtain ⟨d, d', found, changed, rfl⟩ := run_borrow_eq_ok.mp ran
    cases changed
    exact h.modifyDeployment fun _ _ => (h.deployment found).mono (Nat.le_succ n)
  | setMinipoolLimit name limit =>
    refine countsAtMost_onStore fun s _ s' ran h => ?_
    obtain ⟨d, d', found, changed, rfl⟩ := run_borrow_eq_ok.mp ran
    cases changed
    exact h.modifyDeployment fun _ _ => (h.deployment found).mono (Nat.le_succ n)
  | addVault name vault =>
    refine countsAtMost_onStore fun s _ s' ran h => ?_
    obtain ⟨d, found, -, rfl⟩ := Store.addVault_ok ran
    have counted := (h.deployment found).mono (Nat.le_succ n)
    refine h.modifyDeployment fun _ _ => ⟨counted.1, counted.2.1, fun v hv => ?_⟩
    rcases Keyed.mem_put hv with rfl | held
    · exact Nat.zero_le _
    · exact counted.2.2 v held
  | setExitIdentity id => exact keeps_modify fun _ h => h.mono (Nat.le_succ n)
  | incrementWhitelistNonce name a =>
    refine keeps_discard (countsAtMost_onStore fun s _ s' ran h => ?_)
    obtain ⟨d, found, -, rfl⟩ := Store.incrementWhitelistNonce_ok ran
    have counted := h.deployment found
    exact h.modifyDeployment fun _ _ => ⟨Deployment.bump_le counted.1 a,
      (counted.mono (Nat.le_succ n)).2.1, (counted.mono (Nat.le_succ n)).2.2⟩
  | incrementDepositNonce name a =>
    refine keeps_discard (countsAtMost_onStore fun s _ s' ran h => ?_)
    obtain ⟨d, found, -, rfl⟩ := Store.incrementDepositNonce_ok ran
    have counted := h.deployment found
    exact h.modifyDeployment fun _ _ => ⟨(counted.mono (Nat.le_succ n)).1,
      Deployment.bump_le counted.2.1 a, (counted.mono (Nat.le_succ n)).2.2⟩
  | commitDepositDataSet k set =>
    refine keeps_discard (countsAtMost_onStore fun s _ s' ran h => ?_)
    obtain ⟨v, s₁, found, -, -, -, only, -, rfl⟩ := Store.commitDepositDataSet_ok ran
    exact (h.congr (by rw [only])).modifyVault fun _ _ _ _ =>
      Nat.succ_le_succ (h.version_le found)
  | markValidatorsRegistered k pks =>
    exact countsAtMost_onStore_of_keepsDeployments
      (Store.markValidatorsRegistered_keepsDeployments k pks)
  | markValidatorRemoved k pk =>
    exact countsAtMost_onStore_of_keepsDeployments
      (Store.markValidatorRemoved_keepsDeployments k pk)
  | overrideValidatorStatus k pk status =>
    exact countsAtMost_onStore_of_keepsDeployments
      (Store.overrideValidatorStatus_keepsDeployments k pk status)
  | addMinipool name a minipool pk =>
    refine countsAtMost_onStore fun s _ s' ran h => ?_
    obtain ⟨-, d, found, -, rfl⟩ := Store.addMinipool_ok ran
    exact h.modifyDeployment fun _ _ => (h.deployment found).mono (Nat.le_succ n)
  | snapshot name =>
    refine keeps_modify fun svc h => ⟨h.1.mono (Nat.le_succ n), fun p hp => ?_⟩
    rcases Keyed.mem_put hp with rfl | held
    · exact h.1.mono (Nat.le_succ n)
    · exact (h.2 p held).mono (Nat.le_succ n)
  | revert name =>
    refine keeps_revert fun svc store found h => ⟨?_, fun p hp => (h.2 p hp).mono (Nat.le_succ n)⟩
    unfold snapshotOf at found
    split at found
    · rename_i p hp
      cases found
      exact (h.2 _ (Keyed.get?_eq_some hp).1).mono (Nat.le_succ n)
    · cases found
  | deleteSnapshot name =>
    exact keeps_deleteSnapshot fun _ h =>
      ⟨h.1.mono (Nat.le_succ n), fun p hp => (h.2 p (List.mem_filter.mp hp).1).mono (Nat.le_succ n)⟩
  | createSession nonce token => exact keeps_modify fun _ h => h.mono (Nat.le_succ n)
  | registerNode email a sig =>
    exact keeps_get_bind fun _ => countsAtMost_onStore_of_keepsDeployments
      (Store.register_keepsDeployments _ email a sig)
  | login a nonce sig =>
    exact keeps_discard (keeps_get_bind fun _ => countsAtMost_onStore_of_keepsDeployments
      (Store.login_keepsDeployments _ _ a nonce sig))
  | logout token =>
    exact countsAtMost_onStore_of_keepsDeployments (Store.logout_keepsDeployments token)
  | uploadDepositData token k records =>
    refine keeps_discard (keeps_read_bind fun a => countsAtMost_onStore fun s _ s' ran h => ?_)
    obtain ⟨_, v, _, _, -, -, found, -, -, rfl⟩ := Store.uploadDepositData_ok ran
    exact h.modifyVault fun _ _ _ _ => (h.version_le found).trans (Nat.le_succ n)
  | uploadSignedExits token k exits =>
    exact keeps_discard (keeps_read_bind fun a => countsAtMost_onStore_of_keepsDeployments
      (Store.uploadSignedExits_keepsDeployments k a exits))
  | uploadConstellationExits token name exits =>
    refine keeps_discard (keeps_read_bind fun a => keeps_get_bind fun _ =>
      countsAtMost_onStore fun s _ s' ran h => ?_)
    obtain ⟨_, d, _, -, found, -, -, rfl⟩ := Store.uploadMinipoolExits_ok ran
    exact h.modifyDeployment fun _ _ => (h.deployment found).mono (Nat.le_succ n)

theorem step_countsAtMost (h : svc.CountsAtMost n) (op : Op) : (svc.step op).CountsAtMost (n + 1) := by
  cases ran : (exec op).run svc with
  | ok u svc' =>
    rw [step, ran]
    exact exec_countsAtMost op n svc u svc' ran h
  | error e svc' =>
    rw [step, ran, exec_atomic op svc e svc' ran]
    exact h.mono (Nat.le_succ n)

theorem runOps_countsAtMost (h : svc.CountsAtMost n) (ops : List Op) :
    (svc.runOps ops).CountsAtMost (n + ops.length) := by
  induction ops generalizing svc n with
  | nil => exact h
  | cons op ops ih =>
    rw [runOps_cons, List.length_cons, Nat.add_comm ops.length 1, ← Nat.add_assoc]
    exact ih (step_countsAtMost h op)

/-- After `ops` from a new service, every replay counter and vault version of every store the
service holds is at most the number of operations. -/
theorem counts_at_most_run_length (config : Config) (ops : List Op) :
    (({ config } : Service).runOps ops).CountsAtMost ops.length := by
  have start : ({ config } : Service).CountsAtMost 0 :=
    ⟨fun d hd => by simp at hd, fun p hp => by simp at hp⟩
  simpa using runOps_countsAtMost start ops

end Service

theorem UInt64.toNat_ofNat_add_one {x : Nat} (small : x + 1 < UInt64.size) :
    (UInt64.ofNat x + 1).toNat = x + 1 := by
  have size : UInt64.size = 18446744073709551616 := rfl
  simp [UInt64.toNat_add, UInt64.toNat_ofNat]
  omega

/-- On every run of fewer than `2^64 - 1` operations, raising a counter of the live store as a
64-bit word gives what raising it as a natural number gives: no counter wraps. -/
theorem counters_increment_as_u64 (config : Config) (ops : List Op)
    (short : ops.length + 1 < UInt64.size) :
    ∀ d ∈ (({ config } : Service).runOps ops).store.deployments,
      (∀ a, (UInt64.ofNat (d.whitelistNonce a) + 1).toNat = d.whitelistNonce a + 1) ∧
      (∀ a, (UInt64.ofNat (d.depositNonce a) + 1).toNat = d.depositNonce a + 1) ∧
      ∀ v ∈ d.vaults, (UInt64.ofNat v.version + 1).toNat = v.version + 1 := by
  intro d hd
  have counted := (Service.counts_at_most_run_length config ops).1 d hd
  refine ⟨fun a => ?_, fun a => ?_, fun v hv => ?_⟩
  · have le := Deployment.counter_le counted.1 a
    exact UInt64.toNat_ofNat_add_one (by unfold Deployment.whitelistNonce; omega)
  · have le := Deployment.counter_le counted.2.1 a
    exact UInt64.toNat_ofNat_add_one (by unfold Deployment.depositNonce; omega)
  · have le := counted.2.2 v hv
    exact UInt64.toNat_ofNat_add_one (by omega)

end StakingHub
