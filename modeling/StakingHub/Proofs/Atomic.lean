import StakingHub.Proofs.Operation
import StakingHub.Proofs.Effects
import StakingHub.Store.Minipool
import StakingHub.Store.Session
import StakingHub.Store.Approval

/-!
# A failed operation leaves no trace

Every operation of the service changes its state in place and keeps what it changed when a later
step fails; yet none of them fails after changing anything. They are written so:

* checks and lookups come first, and change nothing;
* an entry held for change is written back only when the look at it succeeded;
* what follows a change cannot fail: the node an upload stores to was found before the vault
  took up the new keys, the validators a committed set uses were all found before the first of
  them changed, and the changes keep every validator's key, so each later lookup still finds its
  validator.

So an operation that fails leaves the live store, the snapshots, the configuration and the
source of fresh bytes as they were, whatever the state it ran on.
-/

namespace StakingHub

open StoreM

namespace Store

variable {s : Store} {a : Address} {n : Node}

/-! ### Each store operation -/

theorem addUser_atomic (email : String) : Atomic (addUser email) := by
  intro s
  exact atomicAt_get_bind (atomicAt_check fun _ => atomic_modify _ s)

theorem whitelistNode_atomic (email : String) (a : Address) : Atomic (whitelistNode email a) := by
  intro s
  refine atomicAt_get_bind (atomicAt_check fun _ => ?_)
  exact (atomic_borrow _ _ _ s).bind_of_succeeds fun _ _ _ => run_modify_ne_error _ _

theorem addDeployment_atomic (d : Deployment) : Atomic (addDeployment d) := by
  intro s
  exact atomicAt_get_bind (atomicAt_check fun _ => atomic_modify _ s)

theorem addMinipool_atomic (name : String) (a minipool : Address) (pk : ValidatorPubkey) :
    Atomic (addMinipool name a minipool pk) := by
  intro s
  exact atomicAt_read_bind fun _ _ => atomic_borrow _ _ _ s

theorem logout_atomic (token : String) : Atomic (logout token) := by
  intro s e s' h
  simp [logout, removeSession] at h
  split at h
  · rename_i none
    simp at h
    obtain ⟨-, rfl⟩ := h
    have kept : s.sessions.filter (fun x => !decide (x.token = token)) = s.sessions :=
      List.filter_eq_self.mpr fun x hx => by simpa using none x hx
    rw [kept]
  · simp at h

theorem register_atomic (templates : Templates) (email : String) (a : Address)
    (sig : Signature) : Atomic (register templates email a sig) := by
  intro s
  refine atomicAt_read_bind fun _ _ => atomicAt_check fun _ => ?_
  exact atomicAt_read_bind fun _ _ => atomicAt_check fun _ => atomic_borrow _ _ _ s

theorem login_atomic (templates : Templates) (policy : NoncePolicy) (a : Address)
    (nonce : String) (sig : Signature) : Atomic (login templates policy a nonce sig) := by
  intro s
  refine atomicAt_read_bind fun _ _ => atomicAt_check fun _ => ?_
  exact atomicAt_get_bind (atomic_borrow _ _ _ s)

theorem uploadDepositData_atomic (k : VaultKey) (a : Address) (records : List DepositRecord) :
    Atomic (uploadDepositData k a records) := by
  intro s
  refine atomicAt_read_bind fun n registered => atomicAt_read_bind fun _ _ => ?_
  refine (atomic_borrow _ _ _ s).bind_of_succeeds fun fresh s₁ ran e s'' => ?_
  obtain ⟨_, v, _, _, rfl⟩ := run_borrow_eq_ok.mp ran
  have found : (s.modifyVault k fun _ => v).whitelistedNode a = .ok n := by
    rw [whitelistedNode_modifyVault]
    exact whitelistedNode_of_registeredNode registered
  rw [nodeMut, run_bind_of_ok (run_borrow_of_ok found rfl)]
  exact run_pure_ne_error _ _ _ _

theorem commitDepositDataSet_atomic (k : VaultKey) (set : List DepositRecord) :
    Atomic (commitDepositDataSet k set) := by
  intro s
  refine atomicAt_read_bind fun vlt found => ?_
  have lookup_atomic (r : DepositRecord) : Atomic (do let _ ← StoreM.read (·.validator k r.pubkey)) :=
    fun s => (atomic_read _ s).bind_of_succeeds fun _ _ _ => run_pure_ne_error _ _
  refine AtomicAt.bind_of_keeps (atomicAt_forM lookup_atomic (lookup_keeps k) set s)
    fun _ s' checked => ?_
  obtain ⟨same, validators⟩ := lookups_ok checked
  refine ⟨same, ?_⟩
  obtain ⟨s₁, changed, -, only⟩ :=
    run_forM_validatorMut (·.pubkey) (fun _ v => v.use) (fun _ _ => rfl) set s validators
  have vaultFound : s₁.vault k = .ok vlt := vault_congr (congrArg Store.deployments only) k ▸ found
  exact atomicAt_of_ok ⟨_, _, (run_bind_of_ok changed).trans (run_borrow_of_ok vaultFound rfl)⟩

theorem markValidatorsRegistered_atomic (k : VaultKey) (pks : List ValidatorPubkey) :
    Atomic (markValidatorsRegistered k pks) := by
  intro s
  refine atomicAt_read_bind fun _ _ => ?_
  refine AtomicAt.bind_of_keeps
    (atomicAt_forM (fun _ => atomic_read _) (fun _ _ _ _ => run_read_keeps) pks s)
    fun _ s' checked => ?_
  obtain ⟨same, each⟩ := statusChecks_ok checked
  refine ⟨same, ?_⟩
  have validators : ∀ pk ∈ pks, ∃ v, s.validator k (id pk) = .ok v := fun pk hpk =>
    have ⟨v, found, _⟩ := each pk hpk
    ⟨v, found⟩
  obtain ⟨s₁, changed, -⟩ := run_forM_validatorMut id
    (fun _ v => { v with status := .registered, active := true }) (fun _ _ => rfl) pks s validators
  exact atomicAt_of_ok ⟨_, _, changed⟩

theorem markValidatorRemoved_atomic (k : VaultKey) (pk : ValidatorPubkey) :
    Atomic (markValidatorRemoved k pk) := by
  intro s
  exact atomicAt_read_bind fun _ _ => atomicAt_read_bind fun _ _ => atomic_borrow _ _ _ s

theorem overrideValidatorStatus_atomic (k : VaultKey) (pk : ValidatorPubkey)
    (status : ValidatorStatus) : Atomic (overrideValidatorStatus k pk status) := by
  intro s
  exact atomicAt_read_bind fun _ _ => atomicAt_read_bind fun _ _ => atomic_borrow _ _ _ s

theorem uploadSignedExits_atomic (k : VaultKey) (a : Address) (exits : List EncryptedExit) :
    Atomic (uploadSignedExits k a exits) := by
  intro s
  refine atomicAt_read_bind fun _ _ => atomicAt_read_bind fun _ _ => ?_
  refine atomicAt_read_bind fun _ _ => ?_
  exact (atomic_borrow _ _ _ s).bind_of_succeeds fun _ _ _ => run_pure_ne_error _ _

theorem uploadMinipoolExits_atomic (name : String) (a : Address) (exits : List EncryptedExit)
    (policy : ExitPolicy) : Atomic (uploadMinipoolExits name a exits policy) := by
  intro s
  refine atomicAt_read_bind fun _ _ => atomicAt_read_bind fun _ _ => ?_
  refine atomicAt_read_bind fun _ _ => ?_
  exact (atomic_borrow _ _ _ s).bind_of_succeeds fun _ _ _ => run_pure_ne_error _ _

end Store

/-! ### Each operation of the service -/

namespace Service

theorem atomic_discard {α : Type} {m : ServiceM α} (hm : Atomic m) :
    Atomic (do let _ ← m : ServiceM Unit) := by
  intro svc
  exact (hm svc).bind_of_succeeds fun _ _ _ => run_pure_ne_error _ _

theorem revert_atomic (name : String) : Atomic (revert name) := by
  intro svc
  exact atomicAt_read_bind fun _ _ => atomic_modify _ svc

theorem deleteSnapshot_atomic (name : String) : Atomic (deleteSnapshot name) := by
  intro svc
  exact atomicAt_get_bind (atomicAt_check fun _ => atomic_modify _ svc)

theorem registerNode_atomic (email : String) (a : Address) (sig : Signature) :
    Atomic (registerNode email a sig) := by
  intro svc
  exact atomicAt_get_bind (atomic_onStore (Store.register_atomic _ _ _ _) svc)

theorem login_atomic (a : Address) (nonce : String) (sig : Signature) :
    Atomic (login a nonce sig) := by
  intro svc
  exact atomicAt_get_bind (atomic_onStore (Store.login_atomic _ _ _ _ _) svc)

theorem uploadDepositData_atomic (token : String) (k : VaultKey) (records : List DepositRecord) :
    Atomic (uploadDepositData token k records) := by
  intro svc
  exact atomicAt_read_bind fun _ _ => atomic_onStore (Store.uploadDepositData_atomic _ _ _) svc

theorem uploadSignedExits_atomic (token : String) (k : VaultKey) (exits : List EncryptedExit) :
    Atomic (uploadSignedExits token k exits) := by
  intro svc
  exact atomicAt_read_bind fun _ _ => atomic_onStore (Store.uploadSignedExits_atomic _ _ _) svc

theorem uploadConstellationExits_atomic (token : String) (name : String)
    (exits : List EncryptedExit) : Atomic (uploadConstellationExits token name exits) := by
  intro svc
  refine atomicAt_read_bind fun _ _ => atomicAt_get_bind ?_
  exact atomic_onStore (Store.uploadMinipoolExits_atomic _ _ _ _) svc

/-! ### Every operation -/

theorem exec_atomic (op : Op) : Atomic (exec op) := by
  cases op with
  | addUser email => exact atomic_onStore (Store.addUser_atomic email)
  | whitelistNode email a => exact atomic_onStore (Store.whitelistNode_atomic email a)
  | addDeployment name chainId whitelist factory => exact atomic_onStore (Store.addDeployment_atomic _)
  | setAdminKey name key => exact atomic_onStore (atomic_borrow _ _ _)
  | setMinipoolLimit name limit => exact atomic_onStore (atomic_borrow _ _ _)
  | addVault name vault => exact atomic_onStore (atomic_borrow _ _ _)
  | setExitIdentity id => exact atomic_modify _
  | incrementWhitelistNonce name a => exact atomic_discard (atomic_onStore (atomic_borrow _ _ _))
  | incrementDepositNonce name a => exact atomic_discard (atomic_onStore (atomic_borrow _ _ _))
  | commitDepositDataSet k set =>
    exact atomic_discard (atomic_onStore (Store.commitDepositDataSet_atomic k set))
  | markValidatorsRegistered k pks =>
    exact atomic_onStore (Store.markValidatorsRegistered_atomic k pks)
  | markValidatorRemoved k pk => exact atomic_onStore (Store.markValidatorRemoved_atomic k pk)
  | overrideValidatorStatus k pk status =>
    exact atomic_onStore (Store.overrideValidatorStatus_atomic k pk status)
  | addMinipool name a minipool pk =>
    exact atomic_onStore (Store.addMinipool_atomic name a minipool pk)
  | snapshot name => exact atomic_modify _
  | revert name => exact revert_atomic name
  | deleteSnapshot name => exact deleteSnapshot_atomic name
  | createSession nonce token => exact atomic_modify _
  | registerNode email a sig => exact registerNode_atomic email a sig
  | login a nonce sig => exact atomic_discard (login_atomic a nonce sig)
  | logout token => exact atomic_onStore (Store.logout_atomic token)
  | uploadDepositData token k records =>
    exact atomic_discard (uploadDepositData_atomic token k records)
  | uploadSignedExits token k exits => exact atomic_discard (uploadSignedExits_atomic token k exits)
  | uploadConstellationExits token name exits =>
    exact atomic_discard (uploadConstellationExits_atomic token name exits)

/-- An operation that fails leaves the service exactly as it found it: the live store, the
snapshots, the configuration and the source of fresh bytes. -/
theorem exec_failure_keeps_service (op : Op) (svc : Service) (e : ServiceFault) (svc' : Service)
    (failed : (exec op).run svc = .error e svc') : svc' = svc :=
  exec_atomic op svc e svc' failed

theorem forged_upload_keeps_service :
    ∃ e svc', (Service.exec (.uploadDepositData "t" sampleVault [forgedRecord])).run sampleService =
      .error e svc' ∧ svc' = sampleService := by
  obtain ⟨e, svc', failed⟩ : ∃ e svc',
      (Service.exec (.uploadDepositData "t" sampleVault [forgedRecord])).run sampleService =
        .error e svc' := ⟨_, _, rfl⟩
  exact ⟨e, svc', failed, Service.exec_failure_keeps_service _ _ e svc' failed⟩

end Service

end StakingHub
