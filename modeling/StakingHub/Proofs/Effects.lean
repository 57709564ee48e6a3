import StakingHub.Proofs.Validators
import StakingHub.Store.Minipool
import StakingHub.Store.Session
import StakingHub.Store.Approval

/-!
# What a successful operation did

One lemma per store operation: from a successful run, every check it passed, every entry it
found, and the store it left, written as the changes it made to the store it started from.
Later proofs open a run with these and never unfold an operation again.

Operations that only change validators in place (committing a set, moving statuses, storing
exit messages) are described by what they keep: every node's layout, and everything outside the
nodes.
-/

namespace StakingHub

open StoreM

namespace Store

variable {s s' : Store} {u : Unit}

/-! ### Lookups the operations rely on -/

theorem whitelistedNode_of_registeredNode {a : Address} {n : Node}
    (h : s.registeredNode a = .ok n) : s.whitelistedNode a = .ok n := by
  unfold registeredNode at h
  cases found : s.whitelistedNode a with
  | error e => simp [found, bind, Except.bind] at h
  | ok m =>
    by_cases registered : m.registered <;>
      simp_all [bind, Except.bind, pure, Except.pure, throw, throwThe, MonadExceptOf.throw]

theorem registered_of_registeredNode {a : Address} {n : Node}
    (h : s.registeredNode a = .ok n) : n.registered = true := by
  unfold registeredNode at h
  rw [whitelistedNode_of_registeredNode h] at h
  by_cases yes : n.registered
  · exact yes
  · simp [yes, bind, Except.bind, throw, throwThe, MonadExceptOf.throw] at h

@[simp] theorem whitelistedNode_modifyVault {a : Address} (k : VaultKey) (f : Vault → Vault) :
    (s.modifyVault k f).whitelistedNode a = s.whitelistedNode a := by
  simp [whitelistedNode, node?]

theorem vault_congr {t : Store} (h : s.deployments = t.deployments) (k : VaultKey) :
    s.vault k = t.vault k := by
  simp [vault, deployment, h]

/-! ### Users, nodes and deployments -/

theorem addUser_ok {email : String} (ran : (addUser email).run s = .ok u s') :
    s.user? email = none ∧ s' = { s with users := s.users ++ [{ email }] } := by
  simp only [addUser, run_get_bind, run_check_eq_ok, run_modify_eq_ok] at ran
  simpa using ran

theorem whitelistNode_ok {email : String} {a : Address}
    (ran : (whitelistNode email a).run s = .ok u s') :
    s.node? a = none ∧ ∃ user, s.existingUser email = .ok user ∧
      s' = { s with
        users := Keyed.modifyFirst (fun u => u.email = email)
          (fun _ => { user with nodes := user.nodes ++ [a] }) s.users
        nodes := Keyed.put Node.address { address := a, owner := email } s.nodes } := by
  simp only [whitelistNode, run_get_bind, run_check_eq_ok] at ran
  obtain ⟨fresh, ran⟩ := ran
  obtain ⟨_, s₁, listed, placed⟩ := run_bind_eq_ok.mp ran
  obtain ⟨user, _, found, changed, rfl⟩ := run_borrow_eq_ok.mp listed
  cases changed
  refine ⟨by simpa using fresh, user, found, ?_⟩
  rw [run_modify_eq_ok.mp placed]
  rfl

theorem addDeployment_ok {d : Deployment} (ran : (addDeployment d).run s = .ok u s') :
    Keyed.contains Deployment.name d.name s.deployments = false ∧
      s' = { s with deployments := Keyed.put Deployment.name d s.deployments } := by
  simp only [addDeployment, run_get_bind, run_check_eq_ok, run_modify_eq_ok] at ran
  simpa using ran

theorem addVault_ok {name : String} {a : Address} (ran : (addVault name a).run s = .ok u s') :
    ∃ d, s.deployment name = .ok d ∧ Keyed.contains Vault.address a d.vaults = false ∧
      s' = s.modifyDeployment name fun _ =>
        { d with vaults := Keyed.put Vault.address { address := a } d.vaults } := by
  obtain ⟨d, d', found, changed, rfl⟩ := run_borrow_eq_ok.mp ran
  obtain ⟨fresh, placed⟩ := except_check_eq_ok.mp changed
  cases placed
  exact ⟨d, found, by simpa using fresh, rfl⟩

theorem incrementWhitelistNonce_ok {name : String} {a : Address} {n : Nat}
    (ran : (incrementWhitelistNonce name a).run s = .ok n s') :
    ∃ d, s.deployment name = .ok d ∧ n = (Deployment.bump d.whitelistNonces a).1 ∧
      s' = s.modifyDeployment name fun _ =>
        { d with whitelistNonces := (Deployment.bump d.whitelistNonces a).2 } := by
  obtain ⟨d, d', found, changed, rfl⟩ := run_borrow_eq_ok.mp ran
  cases changed
  exact ⟨d, found, rfl, rfl⟩

theorem incrementDepositNonce_ok {name : String} {a : Address} {n : Nat}
    (ran : (incrementDepositNonce name a).run s = .ok n s') :
    ∃ d, s.deployment name = .ok d ∧ n = (Deployment.bump d.depositNonces a).1 ∧
      s' = s.modifyDeployment name fun _ =>
        { d with depositNonces := (Deployment.bump d.depositNonces a).2 } := by
  obtain ⟨d, d', found, changed, rfl⟩ := run_borrow_eq_ok.mp ran
  cases changed
  exact ⟨d, found, rfl, rfl⟩

theorem addMinipool_ok {name : String} {a minipool : Address} {pk : ValidatorPubkey}
    (ran : (addMinipool name a minipool pk).run s = .ok u s') :
    (∃ n, s.whitelistedNode a = .ok n) ∧ ∃ d, s.deployment name = .ok d ∧
      Keyed.contains MinipoolValidator.pubkey pk d.minipools = false ∧
      s' = s.modifyDeployment name fun _ => { d with
        minipools := Keyed.put MinipoolValidator.pubkey { pubkey := pk, node := a, minipool }
          d.minipools } := by
  obtain ⟨n, s₁, whitelisted, ran⟩ := run_bind_eq_ok.mp ran
  obtain ⟨whitelisted, same⟩ := run_read_eq_ok.mp whitelisted
  rw [same] at ran
  obtain ⟨d, d', found, changed, rfl⟩ := run_borrow_eq_ok.mp ran
  obtain ⟨fresh, placed⟩ := except_check_eq_ok.mp changed
  cases placed
  exact ⟨⟨n, whitelisted⟩, d, found, by simpa using fresh, rfl⟩

/-! ### Registration and sessions -/

theorem register_ok {templates : Templates} {email : String} {a : Address} {sig : Signature}
    (ran : (register templates email a sig).run s = .ok u s') :
    ∃ n, s.whitelistedNode a = .ok n ∧ n.owner = email ∧
      recoverSigner (templates.registerMessage email a) sig = .ok a ∧ n.registered = false ∧
      s' = s.modifyNode a fun _ => { n with registered := true } := by
  obtain ⟨n, s₁, whitelisted, ran⟩ := run_bind_eq_ok.mp ran
  obtain ⟨whitelisted, same⟩ := run_read_eq_ok.mp whitelisted
  rw [same] at ran
  obtain ⟨owned, ran⟩ := run_check_eq_ok.mp ran
  obtain ⟨signer, s₂, recovered, ran⟩ := run_bind_eq_ok.mp ran
  obtain ⟨recovered, same⟩ := run_read_eq_ok.mp recovered
  rw [same] at ran
  obtain ⟨signed, ran⟩ := run_check_eq_ok.mp ran
  obtain ⟨m, m', held, changed, rfl⟩ := run_borrow_eq_ok.mp ran
  rw [whitelisted] at held
  cases held
  obtain ⟨unregistered, marked⟩ := except_check_eq_ok.mp changed
  cases marked
  have signer_eq : signer = a := by simpa using signed
  subst signer_eq
  exact ⟨n, whitelisted, by simpa using owned, recovered, by simpa using unregistered, rfl⟩

theorem login_ok {templates : Templates} {policy : NoncePolicy} {a : Address} {nonce : String}
    {sig : Signature} {token : String}
    (ran : (login templates policy a nonce sig).run s = .ok token s') :
    recoverSigner (templates.loginMessage nonce a) sig = .ok a ∧
      (s.node? a).any Node.registered ∧ ∃ x, s.sessionOfNonce nonce = .ok x ∧
      ¬(x.isVerified ∧ policy = .singleUse) ∧ x.node.all (· = a) ∧ token = x.token ∧
      s' = { s with
        sessions := Keyed.modifyFirst (fun y => y.nonce = nonce) (fun _ => { x with node := some a })
          s.sessions } := by
  obtain ⟨signer, s₁, recovered, ran⟩ := run_bind_eq_ok.mp ran
  obtain ⟨recovered, same⟩ := run_read_eq_ok.mp recovered
  rw [same] at ran
  obtain ⟨signed, ran⟩ := run_check_eq_ok.mp ran
  have signer_eq : signer = a := by simpa using signed
  subst signer_eq
  rw [run_get_bind] at ran
  obtain ⟨x, x', found, changed, rfl⟩ := run_borrow_eq_ok.mp ran
  obtain ⟨fresh, changed⟩ := except_check_eq_ok.mp changed
  obtain ⟨unbound, changed⟩ := except_check_eq_ok.mp changed
  obtain ⟨registered, verified⟩ := except_check_eq_ok.mp changed
  cases verified
  refine ⟨recovered, by simpa using registered, x, found, by simpa using fresh, ?_, rfl, rfl⟩
  simpa [Option.all_eq_true, Option.any_eq_true] using unbound

theorem logout_ok {token : String} (ran : (logout token).run s = .ok u s') :
    (∃ x ∈ s.sessions, x.token = token) ∧
      s' = { s with sessions := s.sessions.filter fun x => x.token ≠ token } := by
  simp [logout, removeSession] at ran
  split at ran
  · simp at ran
  · rename_i carried
    simp only [EStateM.run_pure, EStateM.Result.ok.injEq] at ran
    exact ⟨by simpa using carried, by simpa using ran.2.symm⟩

/-! ### StakeWise uploads and the administrator's changes -/

theorem uploadDepositData_ok {k : VaultKey} {a : Address} {records : List DepositRecord}
    {count : Nat} (ran : (uploadDepositData k a records).run s = .ok count s') :
    ∃ n v fresh known, s.registeredNode a = .ok n ∧ checkDepositBatch records k.vault = .ok () ∧
      s.vault k = .ok v ∧ freshRecords v.knownPubkeys records = (fresh, known) ∧
      count = fresh.length ∧
      s' = (s.modifyVault k fun _ => { v with knownPubkeys := known }).modifyNode a
        fun _ => n.appendValidators k (fresh.map fun r => { record := r }) := by
  obtain ⟨n, s₁, registered, ran⟩ := run_bind_eq_ok.mp ran
  obtain ⟨registered, same⟩ := run_read_eq_ok.mp registered
  rw [same] at ran
  obtain ⟨_, s₂, checked, ran⟩ := run_bind_eq_ok.mp ran
  obtain ⟨checked, same⟩ := run_read_eq_ok.mp checked
  rw [same] at ran
  obtain ⟨fresh, s₃, taken, ran⟩ := run_bind_eq_ok.mp ran
  obtain ⟨v, v', found, changed, rfl⟩ := run_borrow_eq_ok.mp taken
  rcases hfresh : freshRecords v.knownPubkeys records with ⟨fresh', known⟩
  rw [hfresh] at changed
  cases changed
  obtain ⟨_, s₄, stored, ran⟩ := run_bind_eq_ok.mp ran
  obtain ⟨count_eq, rfl⟩ := run_pure_eq_ok.mp ran
  obtain ⟨m, m', held, changed, rfl⟩ := run_borrow_eq_ok.mp stored
  rw [whitelistedNode_modifyVault, whitelistedNode_of_registeredNode registered] at held
  cases held
  cases changed
  exact ⟨n, v, fresh, known, registered, checked, found, hfresh, count_eq, rfl⟩

theorem uploadSignedExits_ok {k : VaultKey} {a : Address} {exits : List EncryptedExit}
    {count : Nat} (ran : (uploadSignedExits k a exits).run s = .ok count s') :
    ∃ n opened, (∃ v, s.vault k = .ok v) ∧ s.registeredNode a = .ok n ∧
      s.openSignedExits (n.validatorsIn k) exits = .ok opened ∧ count = opened.length ∧
      s' = s.modifyNode a fun _ => opened.foldl (fun n e => n.modifyValidator k e.1 fun v =>
        { v with exitMessage := some e.2, exitUploaded := true }) n := by
  obtain ⟨v, s₁, found, ran⟩ := run_bind_eq_ok.mp ran
  obtain ⟨found, same⟩ := run_read_eq_ok.mp found
  rw [same] at ran
  obtain ⟨n, s₂, registered, ran⟩ := run_bind_eq_ok.mp ran
  obtain ⟨registered, same⟩ := run_read_eq_ok.mp registered
  rw [same] at ran
  obtain ⟨opened, s₃, decrypted, ran⟩ := run_bind_eq_ok.mp ran
  obtain ⟨decrypted, same⟩ := run_read_eq_ok.mp decrypted
  rw [same] at ran
  obtain ⟨_, s₄, stored, ran⟩ := run_bind_eq_ok.mp ran
  obtain ⟨count_eq, rfl⟩ := run_pure_eq_ok.mp ran
  obtain ⟨m, m', held, changed, rfl⟩ := run_borrow_eq_ok.mp stored
  rw [whitelistedNode_of_registeredNode registered] at held
  cases held
  cases changed
  exact ⟨n, opened, ⟨v, found⟩, registered, decrypted, count_eq, rfl⟩

theorem uploadMinipoolExits_ok {name : String} {a : Address} {exits : List EncryptedExit}
    {policy : ExitPolicy} {count : Nat}
    (ran : (uploadMinipoolExits name a exits policy).run s = .ok count s') :
    ∃ n d opened, s.registeredNode a = .ok n ∧ s.deployment name = .ok d ∧
      s.openMinipoolExits d a policy [] exits = .ok opened ∧ count = opened.length ∧
      s' = s.modifyDeployment name fun _ => { d with
        minipools := opened.foldl (fun vs e => Keyed.modify MinipoolValidator.pubkey e.1
          (fun v => { v with exitMessage := some e.2 }) vs) d.minipools } := by
  obtain ⟨n, s₁, registered, ran⟩ := run_bind_eq_ok.mp ran
  obtain ⟨registered, same⟩ := run_read_eq_ok.mp registered
  rw [same] at ran
  obtain ⟨d, s₂, found, ran⟩ := run_bind_eq_ok.mp ran
  obtain ⟨found, same⟩ := run_read_eq_ok.mp found
  rw [same] at ran
  obtain ⟨opened, s₃, decrypted, ran⟩ := run_bind_eq_ok.mp ran
  obtain ⟨decrypted, same⟩ := run_read_eq_ok.mp decrypted
  rw [same] at ran
  obtain ⟨_, s₄, stored, ran⟩ := run_bind_eq_ok.mp ran
  obtain ⟨count_eq, rfl⟩ := run_pure_eq_ok.mp ran
  obtain ⟨e, e', held, changed, rfl⟩ := run_borrow_eq_ok.mp stored
  rw [found] at held
  cases held
  cases changed
  exact ⟨n, d, opened, registered, found, decrypted, count_eq, rfl⟩

theorem lookup_keeps (k : VaultKey) (r : DepositRecord) (s : Store) (u : PUnit) (s' : Store)
    (ran : (do let _ ← StoreM.read (·.validator k r.pubkey) : StoreM PUnit).run s = .ok u s') :
    s' = s := by
  obtain ⟨_, _, first, rest⟩ := run_bind_eq_ok.mp ran
  cases run_read_keeps first
  cases rest
  rfl

theorem lookups_ok {k : VaultKey} {set : List DepositRecord} {u : PUnit}
    (ran : (set.forM fun r => do let _ ← StoreM.read (·.validator k r.pubkey)).run s = .ok u s') :
    s' = s ∧ ∀ r ∈ set, ∃ v, s.validator k r.pubkey = .ok v := by
  obtain ⟨same, each⟩ := run_forM_of_keeps (lookup_keeps k) set s s' ran
  refine ⟨same, fun r hr => ?_⟩
  obtain ⟨_, found⟩ := each r hr
  obtain ⟨v, _, first, -⟩ := run_bind_eq_ok.mp found
  exact ⟨v, (run_read_eq_ok.mp first).1⟩

theorem commitDepositDataSet_ok {k : VaultKey} {set : List DepositRecord} {version : Nat}
    (ran : (commitDepositDataSet k set).run s = .ok version s') :
    ∃ (v : Vault) (s₁ : Store), s.vault k = .ok v ∧ (∀ r ∈ set, ∃ w, s.validator k r.pubkey = .ok w) ∧
      (set.forM fun r => validatorMut k r.pubkey fun v => pure v.use).run s = .ok ⟨⟩ s₁ ∧
      s₁.nodes.map Node.layout = s.nodes.map Node.layout ∧ s₁ = { s with nodes := s₁.nodes } ∧
      version = v.version + 1 ∧
      s' = s₁.modifyVault k fun _ => { v with version := v.version + 1, currentSet := set } := by
  obtain ⟨v, s₁, found, ran⟩ := run_bind_eq_ok.mp ran
  obtain ⟨found, same⟩ := run_read_eq_ok.mp found
  rw [same] at ran
  obtain ⟨_, s₂, checked, ran⟩ := run_bind_eq_ok.mp ran
  obtain ⟨same, validators⟩ := lookups_ok checked
  rw [same] at ran
  obtain ⟨_, s₃, changed, ran⟩ := run_bind_eq_ok.mp ran
  obtain ⟨s₄, succeeded, layout, only⟩ :=
    run_forM_validatorMut (·.pubkey) (fun _ v => v.use) (fun _ _ => rfl) set s validators
  have same : s₃ = s₄ := (EStateM.Result.ok.inj (changed.symm.trans succeeded)).2
  rw [same] at ran
  obtain ⟨w, w', held, bumped, rfl⟩ := run_borrow_eq_ok.mp ran
  have same_vault : s₄.vault k = s.vault k := vault_congr (congrArg Store.deployments only) k
  rw [same_vault, found] at held
  cases held
  cases bumped
  exact ⟨v, s₄, found, validators, succeeded, layout, only, rfl, rfl⟩

theorem validatorMut_layout {k : VaultKey} {pk : ValidatorPubkey}
    {f : StakeWiseValidator → Except ServiceFault StakeWiseValidator}
    (keeps : ∀ v v', f v = .ok v' → v'.record = v.record)
    (ran : (validatorMut k pk f).run s = .ok u s') :
    s'.nodes.map Node.layout = s.nodes.map Node.layout ∧ s' = { s with nodes := s'.nodes } := by
  obtain ⟨a, n, v, v', -, hn, hv, changed, rfl⟩ := validatorMut_ok ran
  exact ⟨layout_modifyNode_validator hn hv (keeps v v' changed), rfl⟩

theorem statusChecks_ok {k : VaultKey} {pks : List ValidatorPubkey} {u : PUnit}
    (ran : (pks.forM fun pk => StoreM.read fun s => do
      checkStatusTransition pk (← s.validator k pk).status .registered).run s = .ok u s') :
    s' = s ∧ ∀ pk ∈ pks, ∃ v, s.validator k pk = .ok v ∧
      checkStatusTransition pk v.status .registered = .ok () := by
  obtain ⟨same, each⟩ := run_forM_of_keeps (fun _ _ _ _ => run_read_keeps) pks s s' ran
  refine ⟨same, fun pk hpk => ?_⟩
  obtain ⟨_, passed⟩ := each pk hpk
  have passed := (run_read_eq_ok.mp passed).1
  cases found : s.validator k pk with
  | error e => simp [found, bind, Except.bind] at passed
  | ok v => exact ⟨v, rfl, by simpa [found, bind, Except.bind] using passed⟩

theorem markValidatorsRegistered_run {k : VaultKey} {pks : List ValidatorPubkey}
    (ran : (markValidatorsRegistered k pks).run s = .ok u s') :
    (∀ pk ∈ pks, ∃ v, s.validator k pk = .ok v ∧ checkStatusTransition pk v.status .registered = .ok ()) ∧
      (pks.forM fun pk => validatorMut k pk fun v =>
        pure { v with status := .registered, active := true }).run s = .ok ⟨⟩ s' := by
  obtain ⟨_, s₁, found, ran⟩ := run_bind_eq_ok.mp ran
  rw [run_read_keeps found] at ran
  obtain ⟨_, s₂, checked, ran⟩ := run_bind_eq_ok.mp ran
  obtain ⟨same, each⟩ := statusChecks_ok checked
  rw [same] at ran
  exact ⟨each, ran⟩

theorem markValidatorsRegistered_ok {k : VaultKey} {pks : List ValidatorPubkey}
    (ran : (markValidatorsRegistered k pks).run s = .ok u s') :
    s'.nodes.map Node.layout = s.nodes.map Node.layout ∧ s' = { s with nodes := s'.nodes } := by
  obtain ⟨each, ran⟩ := markValidatorsRegistered_run ran
  have validators : ∀ pk ∈ pks, ∃ v, s.validator k (id pk) = .ok v := fun pk hpk =>
    have ⟨v, found, _⟩ := each pk hpk
    ⟨v, found⟩
  obtain ⟨s₃, succeeded, layout, only⟩ := run_forM_validatorMut id
    (fun _ v => { v with status := .registered, active := true }) (fun _ _ => rfl) pks s validators
  obtain ⟨-, rfl⟩ := EStateM.Result.ok.inj (ran.symm.trans succeeded)
  exact ⟨layout, only⟩

theorem markValidatorRemoved_ok {k : VaultKey} {pk : ValidatorPubkey}
    (ran : (markValidatorRemoved k pk).run s = .ok u s') :
    s'.nodes.map Node.layout = s.nodes.map Node.layout ∧ s' = { s with nodes := s'.nodes } := by
  obtain ⟨_, s₁, found, ran⟩ := run_bind_eq_ok.mp ran
  rw [run_read_keeps found] at ran
  refine validatorMut_layout (fun v v' changed => ?_) ran
  cases passed : checkStatusTransition pk v.status .removed with
  | error e => simp [passed, bind, Except.bind] at changed
  | ok _ =>
    simp only [passed, bind, Except.bind, pure, Except.pure, Except.ok.injEq] at changed
    rw [← changed]

theorem overrideValidatorStatus_ok {k : VaultKey} {pk : ValidatorPubkey} {status : ValidatorStatus}
    (ran : (overrideValidatorStatus k pk status).run s = .ok u s') :
    s'.nodes.map Node.layout = s.nodes.map Node.layout ∧ s' = { s with nodes := s'.nodes } := by
  obtain ⟨_, s₁, found, ran⟩ := run_bind_eq_ok.mp ran
  rw [run_read_keeps found] at ran
  refine validatorMut_layout (fun v v' changed => ?_) ran
  cases changed
  rfl

end Store

end StakingHub
