import StakingHub.Proofs.Deployments

/-!
# Replay counters and the approvals that carry them

A deployment keeps two replay counters per address, one for whitelist approvals and one for
minipool deposit approvals. They start at zero and move only when asked to, by one, each on its
own: one successful step changes a deployment's counters exactly by the increment it makes, and
keeps the deployment's chain, contracts and, unless it sets it, admin key
(`Store.DeploymentsStep`, `Service.exec_deploymentsStep`). Over a run without revert from the
moment a deployment is added, each counter therefore holds the number of its increments that
succeeded (`Service.runOps_counter`).

An approval is issued for the node a token is logged in as, signed by the admin key over a digest
of the counter of its own kind, the deployment's chain and the contract that checks it; it reads
the store and changes nothing. Two approvals of one kind for one node agree when nothing between
them moved their counter or set the admin key.
-/

namespace StakingHub

/-! ### Counters -/

/-- The two replay counters a deployment keeps per address. -/
inductive Counter where
  | whitelist
  | deposit
  deriving DecidableEq

/-- A counter's value for an address at a deployment. -/
def Counter.value : Counter → Deployment → Address → Nat
  | .whitelist, d, a => d.whitelistNonce a
  | .deposit, d, a => d.depositNonce a

theorem Counter.value_added (c : Counter) (name : String) (chainId : Nat) (whitelist factory : Address)
    (a : Address) : c.value { name, chainId, whitelist, factory } a = 0 := by
  cases c <;> rfl

namespace Op

/-- Whether the operation increments a counter of an address at a deployment. -/
def increments : Op → Counter → String → Address → Bool
  | .incrementWhitelistNonce name a, .whitelist, name', a' => decide (name = name' ∧ a = a')
  | .incrementDepositNonce name a, .deposit, name', a' => decide (name = name' ∧ a = a')
  | _, _, _, _ => false

/-- Whether the operation sets the admin key of a deployment. -/
def setsAdminKey : Op → String → Bool
  | .setAdminKey name _, name' => decide (name = name')
  | _, _ => false

theorem increments_eq_true {op : Op} {c : Counter} {name : String} {a : Address} :
    op.increments c name a = true ↔
      op = match c with
        | .whitelist => .incrementWhitelistNonce name a
        | .deposit => .incrementDepositNonce name a := by
  cases op <;> cases c <;> simp [increments]

theorem setsAdminKey_eq_true {op : Op} {name : String} :
    op.setsAdminKey name = true ↔ ∃ key, op = .setAdminKey name key := by
  cases op <;> simp [setsAdminKey]

end Op

theorem Deployment.counter_bump (counters : List (Address × Nat)) (a a' : Address) :
    Deployment.counter (Deployment.bump counters a).2 a' =
      Deployment.counter counters a' + if a = a' then 1 else 0 := by
  by_cases same : a = a'
  · subst same
    simp [Deployment.bump, Deployment.counter, Keyed.get?_put]
  · simp [Deployment.bump, Deployment.counter, Keyed.get?_put, same]

/-! ### What a step does to a deployment -/

/-- What a step that succeeded did to a deployment it found: the chain and the contracts stay,
the admin key stays unless the step set it, and every counter of every address moved by one
when the step incremented it and stayed otherwise. -/
structure DeploymentStep (op : Op) (name : String) (d d' : Deployment) : Prop where
  chainId : d'.chainId = d.chainId
  whitelist : d'.whitelist = d.whitelist
  factory : d'.factory = d.factory
  admin : op.setsAdminKey name = false → d'.admin = d.admin
  counters : ∀ c a, c.value d' a = c.value d a + if op.increments c name a then 1 else 0

namespace DeploymentStep

variable {op : Op} {name : String} {d : Deployment}

theorem refl (quiet : ∀ c a, op.increments c name a = false) : DeploymentStep op name d d where
  chainId := rfl
  whitelist := rfl
  factory := rfl
  admin _ := rfl
  counters c a := by simp [quiet c a]

theorem of_fields {d' : Deployment} (chainId : d'.chainId = d.chainId)
    (whitelist : d'.whitelist = d.whitelist) (factory : d'.factory = d.factory)
    (admin : d'.admin = d.admin) (whitelistNonces : d'.whitelistNonces = d.whitelistNonces)
    (depositNonces : d'.depositNonces = d.depositNonces)
    (quiet : ∀ c a, op.increments c name a = false) : DeploymentStep op name d d' where
  chainId := chainId
  whitelist := whitelist
  factory := factory
  admin _ := admin
  counters c a := by
    cases c <;> simp [Counter.value, Deployment.whitelistNonce, Deployment.depositNonce,
      whitelistNonces, depositNonces, quiet]

end DeploymentStep

namespace Store

open StoreM

variable {s s' : Store} {op : Op} {name : String} {d d' : Deployment}

/-- Every deployment found before a step is found after it, changed as `op` may change it. -/
def DeploymentsStep (op : Op) (s s' : Store) : Prop :=
  ∀ name d, s.deployment name = .ok d → ∃ d', s'.deployment name = .ok d' ∧ DeploymentStep op name d d'

theorem deploymentsStep_of_eq (same : s'.deployments = s.deployments)
    (quiet : ∀ c name a, op.increments c name a = false) : DeploymentsStep op s s' :=
  fun name d found => ⟨d, (deployment_congr same name).trans found, DeploymentStep.refl (quiet · name)⟩

theorem deploymentsStep_modifyDeployment (found : s.deployment name = .ok d) (keeps : d'.name = name)
    (step : DeploymentStep op name d d') (quiet : ∀ c name' a, name' ≠ name → op.increments c name' a = false) :
    DeploymentsStep op s (s.modifyDeployment name fun _ => d') := by
  intro name' e found'
  rw [deployment_modifyDeployment found keeps]
  by_cases same : name = name'
  · subst same
    rw [found] at found'
    cases found'
    exact ⟨d', if_pos rfl, step⟩
  · exact ⟨e, by rw [if_neg same, found'], DeploymentStep.refl fun c a => quiet c name' a (Ne.symm same)⟩

theorem deploymentsStep_modifyVault {k : VaultKey} (f : Vault → Vault)
    (quiet : ∀ c name a, op.increments c name a = false) :
    DeploymentsStep op s (s.modifyVault k f) := by
  intro name e found
  rw [deployment_modifyVault, found]
  by_cases same : k.deployment = name
  · exact ⟨{ e with vaults := Keyed.modify Vault.address k.vault f e.vaults },
      by rw [if_pos same]; rfl, DeploymentStep.of_fields rfl rfl rfl rfl rfl rfl (quiet · name)⟩
  · exact ⟨e, by rw [if_neg same], DeploymentStep.refl (quiet · name)⟩

theorem deploymentMut_deploymentsStep {β : Type} {f : Deployment → Except ServiceFault (β × Deployment)}
    (step : ∀ d b d', f d = .ok (b, d') → d'.name = d.name ∧ DeploymentStep op name d d')
    (quiet : ∀ c name' a, name' ≠ name → op.increments c name' a = false) :
    Keeps (DeploymentsStep op) (deploymentMut name f) := by
  intro s b s' ran
  obtain ⟨d, d', found, changed, rfl⟩ := run_borrow_eq_ok.mp ran
  obtain ⟨keeps, moved⟩ := step d b d' changed
  exact deploymentsStep_modifyDeployment found (keeps.trans (mem_of_deployment found).2) moved quiet

theorem keepsDeployments_deploymentsStep {α : Type} {m : StoreM α} (hm : KeepsDeployments m)
    (quiet : ∀ c name a, op.increments c name a = false) : Keeps (DeploymentsStep op) m :=
  fun _ _ _ ran => deploymentsStep_of_eq (hm _ _ _ ran) quiet

end Store

namespace Service

open StoreM

variable {svc : Service} {op : Op}

theorem deploymentsStep_onStore {α : Type} {m : StoreM α} (hm : Store.Keeps (Store.DeploymentsStep op) m) :
    Keeps (fun svc svc' => Store.DeploymentsStep op svc.store svc'.store) (onStore m) :=
  keeps_onStore (fun _ _ moved => moved) hm

/-- What every operation but a revert does to the deployments: each one found stays, with its
chain and contracts; its admin key changes only when the operation sets it; and each counter
moves by one exactly when the operation increments it. -/
theorem exec_deploymentsStep (op : Op) (not_revert : ∀ n, op ≠ .revert n) :
    Keeps (fun svc svc' => Store.DeploymentsStep op svc.store svc'.store) (exec op) := by
  cases op with
  | addUser email =>
    exact deploymentsStep_onStore (Store.keepsDeployments_deploymentsStep
      (Store.addUser_keepsDeployments email) fun _ _ _ => rfl)
  | whitelistNode email a =>
    exact deploymentsStep_onStore (Store.keepsDeployments_deploymentsStep
      (Store.whitelistNode_keepsDeployments email a) fun _ _ _ => rfl)
  | addDeployment name chainId whitelist factory =>
    refine deploymentsStep_onStore fun s _ s' ran name' e found => ?_
    obtain ⟨fresh, rfl⟩ := Store.addDeployment_ok ran
    obtain ⟨mem, named⟩ := Store.mem_of_deployment found
    have apart : name ≠ name' := fun same =>
      Keyed.key_ne_of_contains_eq_false fresh mem (named.trans same.symm)
    exact ⟨e, by rw [Store.deployment_put, if_neg apart, found], DeploymentStep.refl fun _ _ => rfl⟩
  | setAdminKey name key =>
    refine deploymentsStep_onStore (Store.deploymentMut_deploymentsStep (fun d b d' changed => ?_)
      fun _ _ _ _ => rfl)
    cases changed
    exact ⟨rfl, { chainId := rfl, whitelist := rfl, factory := rfl
                  admin := fun unset => absurd unset (by simp [Op.setsAdminKey])
                  counters := fun c a => by
                    cases c <;> simp [Counter.value, Deployment.whitelistNonce,
                      Deployment.depositNonce, Op.increments] }⟩
  | setMinipoolLimit name limit =>
    refine deploymentsStep_onStore (Store.deploymentMut_deploymentsStep (fun d b d' changed => ?_)
      fun _ _ _ _ => rfl)
    cases changed
    exact ⟨rfl, DeploymentStep.of_fields rfl rfl rfl rfl rfl rfl fun _ _ => rfl⟩
  | addVault name vault =>
    refine deploymentsStep_onStore fun s _ s' ran => ?_
    obtain ⟨d, found, -, rfl⟩ := Store.addVault_ok ran
    exact Store.deploymentsStep_modifyDeployment found (Store.mem_of_deployment found).2
      (DeploymentStep.of_fields rfl rfl rfl rfl rfl rfl fun _ _ => rfl) fun _ _ _ _ => rfl
  | setExitIdentity id => exact keeps_modify fun _ => Store.deploymentsStep_of_eq rfl fun _ _ _ => rfl
  | incrementWhitelistNonce name a =>
    refine keeps_discard (deploymentsStep_onStore fun s _ s' ran => ?_)
    obtain ⟨d, found, -, rfl⟩ := Store.incrementWhitelistNonce_ok ran
    refine Store.deploymentsStep_modifyDeployment found (Store.mem_of_deployment found).2
      { chainId := rfl, whitelist := rfl, factory := rfl, admin := fun _ => rfl
        counters := fun c a' => ?_ } fun c name' a' apart => ?_
    · have moved := Deployment.counter_bump d.whitelistNonces a a'
      cases c <;> simp [Counter.value, Deployment.whitelistNonce, Deployment.depositNonce,
        Op.increments, moved]
    · cases c <;> simp [Op.increments, Ne.symm apart]
  | incrementDepositNonce name a =>
    refine keeps_discard (deploymentsStep_onStore fun s _ s' ran => ?_)
    obtain ⟨d, found, -, rfl⟩ := Store.incrementDepositNonce_ok ran
    refine Store.deploymentsStep_modifyDeployment found (Store.mem_of_deployment found).2
      { chainId := rfl, whitelist := rfl, factory := rfl, admin := fun _ => rfl
        counters := fun c a' => ?_ } fun c name' a' apart => ?_
    · have moved := Deployment.counter_bump d.depositNonces a a'
      cases c <;> simp [Counter.value, Deployment.whitelistNonce, Deployment.depositNonce,
        Op.increments, moved]
    · cases c <;> simp [Op.increments, Ne.symm apart]
  | commitDepositDataSet k set =>
    refine keeps_discard (deploymentsStep_onStore fun s _ s' ran => ?_)
    obtain ⟨v, s₁, -, -, -, -, only, -, rfl⟩ := Store.commitDepositDataSet_ok ran
    have same : s₁.deployments = s.deployments := by rw [only]
    intro name e found
    rw [← Store.deployment_congr same] at found
    exact Store.deploymentsStep_modifyVault _ (by intros; rfl) name e found
  | markValidatorsRegistered k pks =>
    exact deploymentsStep_onStore (Store.keepsDeployments_deploymentsStep
      (Store.markValidatorsRegistered_keepsDeployments k pks) fun _ _ _ => rfl)
  | markValidatorRemoved k pk =>
    exact deploymentsStep_onStore (Store.keepsDeployments_deploymentsStep
      (Store.markValidatorRemoved_keepsDeployments k pk) fun _ _ _ => rfl)
  | overrideValidatorStatus k pk status =>
    exact deploymentsStep_onStore (Store.keepsDeployments_deploymentsStep
      (Store.overrideValidatorStatus_keepsDeployments k pk status) fun _ _ _ => rfl)
  | addMinipool name a minipool pk =>
    refine deploymentsStep_onStore fun s _ s' ran => ?_
    obtain ⟨-, d, found, -, rfl⟩ := Store.addMinipool_ok ran
    exact Store.deploymentsStep_modifyDeployment found (Store.mem_of_deployment found).2
      (DeploymentStep.of_fields rfl rfl rfl rfl rfl rfl fun _ _ => rfl) fun _ _ _ _ => rfl
  | snapshot name => exact keeps_modify fun _ => Store.deploymentsStep_of_eq rfl fun _ _ _ => rfl
  | revert name => exact absurd rfl (not_revert name)
  | deleteSnapshot name =>
    exact keeps_deleteSnapshot fun _ => Store.deploymentsStep_of_eq rfl fun _ _ _ => rfl
  | createSession nonce token =>
    exact keeps_modify fun _ => Store.deploymentsStep_of_eq rfl fun _ _ _ => rfl
  | registerNode email a sig =>
    exact keeps_get_bind fun _ => deploymentsStep_onStore (Store.keepsDeployments_deploymentsStep
      (Store.register_keepsDeployments _ email a sig) fun _ _ _ => rfl)
  | login a nonce sig =>
    exact keeps_discard (keeps_get_bind fun _ => deploymentsStep_onStore
      (Store.keepsDeployments_deploymentsStep (Store.login_keepsDeployments _ _ a nonce sig)
        (by intros; rfl)))
  | logout token =>
    exact deploymentsStep_onStore (Store.keepsDeployments_deploymentsStep
      (Store.logout_keepsDeployments token) fun _ _ _ => rfl)
  | uploadDepositData token k records =>
    refine keeps_discard (keeps_read_bind fun a => deploymentsStep_onStore fun s _ s' ran => ?_)
    obtain ⟨n, v, fresh, known, -, -, -, -, -, rfl⟩ := Store.uploadDepositData_ok ran
    intro name e found
    exact Store.deploymentsStep_modifyVault (k := k) _ (fun _ _ _ => rfl) name e found
  | uploadSignedExits token k exits =>
    exact keeps_discard (keeps_read_bind fun a => deploymentsStep_onStore
      (Store.keepsDeployments_deploymentsStep (Store.uploadSignedExits_keepsDeployments k a exits)
        fun _ _ _ => rfl))
  | uploadConstellationExits token name exits =>
    refine keeps_discard (keeps_read_bind fun a => keeps_get_bind fun _ =>
      deploymentsStep_onStore fun s _ s' ran => ?_)
    obtain ⟨n, d, opened, -, found, -, -, rfl⟩ := Store.uploadMinipoolExits_ok ran
    exact Store.deploymentsStep_modifyDeployment found (Store.mem_of_deployment found).2
      (DeploymentStep.of_fields rfl rfl rfl rfl rfl rfl fun _ _ => rfl) fun _ _ _ _ => rfl

/-! ### Counters over a run -/

theorem foldl_add_countP (p : Op → Bool) (ops : List Op) (n : Nat) :
    ops.foldl (fun n op => n + if p op then 1 else 0) n = n + ops.countP p := by
  induction ops generalizing n with
  | nil => rfl
  | cons op ops ih =>
    rw [List.foldl_cons, ih, List.countP_cons]
    omega

/-- Over a run without revert, a counter of a deployment that exists moves by the increments of
it that succeeded, and by nothing else. -/
theorem runOps_counter (c : Counter) (name : String) (a : Address) {svc : Service} {d : Deployment}
    (found : svc.store.deployment name = .ok d) {ops : List Op} (no_revert : ∀ n, .revert n ∉ ops) :
    ((svc.runOps ops).store.deployment name).map (c.value · a) =
      .ok (c.value d a + (svc.succeeded ops).countP (Op.increments · c name a)) := by
  have moves : ∀ svc op b u svc', (∀ n, op ≠ .revert n) →
      (svc.store.deployment name).map (c.value · a) = .ok b → (exec op).run svc = .ok u svc' →
      (svc'.store.deployment name).map (c.value · a) =
        .ok (b + if op.increments c name a then 1 else 0) := by
    intro svc op b u svc' not_revert before ran
    cases hd : svc.store.deployment name with
    | error e => simp [hd, Except.map] at before
    | ok e =>
      simp only [hd, Except.map, Except.ok.injEq] at before
      obtain ⟨e', after, step⟩ := exec_deploymentsStep op not_revert svc u svc' ran name e hd
      rw [after, ← before, ← step.counters c a]
      rfl
  have start : (svc.store.deployment name).map (c.value · a) = .ok (c.value d a) := by
    rw [found]
    rfl
  rw [observe_runOps _ _ moves start fun op mem n same => no_revert n (same ▸ mem),
    foldl_add_countP]

end Service

/-! ### Approvals -/

theorem Deployment.signApproval_eq {d d' : Deployment} (admin : d'.admin = d.admin)
    {digest : List UInt8} {x y : Signature} (signed : d.signApproval digest = .ok x)
    (signed' : d'.signApproval digest = .ok y) : y = x := by
  unfold Deployment.signApproval at signed signed'
  rw [admin] at signed'
  cases key : d.admin with
  | none => simp [key] at signed
  | some k =>
    simp only [key] at signed signed'
    rw [signed] at signed'
    exact (Except.ok.inj signed').symm

/-- Two deployments make approvals of kind `c` for address `a` alike: the same chain, contracts,
admin key and counter. -/
structure Deployment.SignsAlike (c : Counter) (a : Address) (d d' : Deployment) : Prop where
  chainId : d'.chainId = d.chainId
  whitelist : d'.whitelist = d.whitelist
  factory : d'.factory = d.factory
  admin : d'.admin = d.admin
  counter : c.value d' a = c.value d a

namespace Store

variable {s : Store} {name : String} {a : Address}

theorem whitelistSignature_ok {sig : IssuedSignature} (issued : s.whitelistSignature name a = .ok sig) :
    ∃ d, s.deployment name = .ok d ∧ (∃ n, s.registeredNode a = .ok n) ∧
      d.signApproval (Approval.whitelistHash a d.whitelist (d.whitelistNonce a) d.chainId) =
        .ok sig.signature ∧
      sig.nonce = d.whitelistNonce a ∧ sig.chainId = d.chainId ∧ sig.contract = d.whitelist := by
  unfold whitelistSignature at issued
  cases hd : s.deployment name with
  | error e => simp [hd, bind, Except.bind] at issued
  | ok d =>
    cases hn : s.registeredNode a with
    | error e => simp [hd, hn, bind, Except.bind] at issued
    | ok n =>
      cases hs : d.signApproval (Approval.whitelistHash a d.whitelist (d.whitelistNonce a) d.chainId) with
      | error e => simp [hd, hn, hs, bind, Except.bind] at issued
      | ok x =>
        simp only [hd, hn, hs, bind, Except.bind, pure, Except.pure, Except.ok.injEq] at issued
        subst issued
        exact ⟨d, rfl, ⟨n, rfl⟩, hs, rfl, rfl, rfl⟩

theorem depositSignature_ok {minipool : Address} {salt : Nat} {sig : IssuedSignature}
    (issued : s.depositSignature name a minipool salt = .ok sig) :
    ∃ d n, s.deployment name = .ok d ∧ s.registeredNode a = .ok n ∧
      checkMinipoolLimit n.owner (s.minipoolsOfUser d n.owner) d.minipoolLimit = .ok () ∧
      checkExitMessages (d.minipoolsOf a) = .ok () ∧
      d.signApproval (Approval.depositHash
        { minipool, salt, node := a, factory := d.factory, nonce := d.depositNonce a,
          chainId := d.chainId }) = .ok sig.signature ∧
      sig.nonce = d.depositNonce a ∧ sig.chainId = d.chainId ∧ sig.contract = d.factory := by
  unfold depositSignature at issued
  cases hd : s.deployment name with
  | error e => simp [hd, bind, Except.bind] at issued
  | ok d =>
    cases hn : s.registeredNode a with
    | error e => simp [hd, hn, bind, Except.bind] at issued
    | ok n =>
      cases hl : checkMinipoolLimit n.owner (s.minipoolsOfUser d n.owner) d.minipoolLimit with
      | error e => simp [hd, hn, hl, bind, Except.bind] at issued
      | ok u =>
        cases hx : checkExitMessages (d.minipoolsOf a) with
        | error e => simp [hd, hn, hl, hx, bind, Except.bind] at issued
        | ok u' =>
          cases hs : d.signApproval (Approval.depositHash
              { minipool, salt, node := a, factory := d.factory, nonce := d.depositNonce a,
                chainId := d.chainId }) with
          | error e => simp [hd, hn, hl, hx, hs, bind, Except.bind] at issued
          | ok x =>
            simp only [hd, hn, hl, hx, hs, bind, Except.bind, pure, Except.pure,
              Except.ok.injEq] at issued
            subst issued
            exact ⟨d, n, rfl, rfl, hl, hx, hs, rfl, rfl, rfl⟩

theorem whitelistSignature_congr {s' : Store} {d d' : Deployment} (found : s.deployment name = .ok d)
    (found' : s'.deployment name = .ok d') (alike : d.SignsAlike .whitelist a d')
    {sig sig' : IssuedSignature} (issued : s.whitelistSignature name a = .ok sig)
    (issued' : s'.whitelistSignature name a = .ok sig') : sig' = sig := by
  obtain ⟨d₁, found₁, -, signed, nonce, chain, contract⟩ := whitelistSignature_ok issued
  obtain ⟨d₂, found₂, -, signed', nonce', chain', contract'⟩ := whitelistSignature_ok issued'
  rw [found] at found₁
  rw [found'] at found₂
  cases found₁
  cases found₂
  have counter : d'.whitelistNonce a = d.whitelistNonce a := alike.counter
  rw [alike.whitelist, counter, alike.chainId] at signed'
  have same := Deployment.signApproval_eq alike.admin signed signed'
  obtain ⟨signature, n, chainId, contract₀⟩ := sig
  obtain ⟨signature', n', chainId', contract₀'⟩ := sig'
  simp only at nonce chain contract nonce' chain' contract' same
  simp only [IssuedSignature.mk.injEq]
  exact ⟨same, by rw [nonce', nonce, counter], by rw [chain', chain, alike.chainId],
    by rw [contract', contract, alike.whitelist]⟩

theorem depositSignature_congr {s' : Store} {d d' : Deployment} (found : s.deployment name = .ok d)
    (found' : s'.deployment name = .ok d') (alike : d.SignsAlike .deposit a d')
    {minipool : Address} {salt : Nat} {sig sig' : IssuedSignature}
    (issued : s.depositSignature name a minipool salt = .ok sig)
    (issued' : s'.depositSignature name a minipool salt = .ok sig') : sig' = sig := by
  obtain ⟨d₁, -, found₁, -, -, -, signed, nonce, chain, contract⟩ := depositSignature_ok issued
  obtain ⟨d₂, -, found₂, -, -, -, signed', nonce', chain', contract'⟩ := depositSignature_ok issued'
  rw [found] at found₁
  rw [found'] at found₂
  cases found₁
  cases found₂
  have counter : d'.depositNonce a = d.depositNonce a := alike.counter
  rw [alike.factory, counter, alike.chainId] at signed'
  have same := Deployment.signApproval_eq alike.admin signed signed'
  obtain ⟨signature, n, chainId, contract₀⟩ := sig
  obtain ⟨signature', n', chainId', contract₀'⟩ := sig'
  simp only at nonce chain contract nonce' chain' contract' same
  simp only [IssuedSignature.mk.injEq]
  exact ⟨same, by rw [nonce', nonce, counter], by rw [chain', chain, alike.chainId],
    by rw [contract', contract, alike.factory]⟩

end Store

namespace Service

variable {svc : Service} {name : String} {a : Address} {c : Counter}

theorem whitelistSignature_ok {t : String} {sig : IssuedSignature}
    (issued : svc.whitelistSignature t name = .ok sig) :
    ∃ a, svc.store.authenticate t = .ok a ∧ svc.store.whitelistSignature name a = .ok sig := by
  unfold whitelistSignature at issued
  cases auth : svc.store.authenticate t with
  | error e => simp [auth, bind, Except.bind] at issued
  | ok a =>
    simp only [auth, bind, Except.bind] at issued
    exact ⟨a, rfl, issued⟩

theorem minipoolDepositSignature_ok {t : String} {minipool : Address} {salt : Nat}
    {sig : IssuedSignature} (issued : svc.minipoolDepositSignature t name minipool salt = .ok sig) :
    ∃ a, svc.store.authenticate t = .ok a ∧ svc.store.depositSignature name a minipool salt = .ok sig := by
  unfold minipoolDepositSignature at issued
  cases auth : svc.store.authenticate t with
  | error e => simp [auth, bind, Except.bind] at issued
  | ok a =>
    simp only [auth, bind, Except.bind] at issued
    exact ⟨a, rfl, issued⟩

/-- Every approval the service issues for a token carries, for the node the token is logged in
as, the current counter of its own kind, the deployment's chain and the contract that checks it,
and is the admin key's signature of the digest over exactly these. -/
structure IssuesCurrent (svc : Service) (name : String) : Prop where
  whitelist : ∀ t sig, svc.whitelistSignature t name = .ok sig → ∃ a d,
    svc.store.authenticate t = .ok a ∧ svc.store.deployment name = .ok d ∧
      sig.nonce = d.whitelistNonce a ∧ sig.chainId = d.chainId ∧ sig.contract = d.whitelist ∧
      d.signApproval (Approval.whitelistHash a d.whitelist (d.whitelistNonce a) d.chainId) =
        .ok sig.signature
  deposit : ∀ t minipool salt sig, svc.minipoolDepositSignature t name minipool salt = .ok sig →
    ∃ a d, svc.store.authenticate t = .ok a ∧ svc.store.deployment name = .ok d ∧
      sig.nonce = d.depositNonce a ∧ sig.chainId = d.chainId ∧ sig.contract = d.factory ∧
      d.signApproval (Approval.depositHash
        { minipool, salt, node := a, factory := d.factory, nonce := d.depositNonce a,
          chainId := d.chainId }) = .ok sig.signature

theorem issuesCurrent (svc : Service) (name : String) : svc.IssuesCurrent name where
  whitelist t sig issued := by
    obtain ⟨a, auth, issued⟩ := whitelistSignature_ok issued
    obtain ⟨d, found, -, signed, nonce, chain, contract⟩ := Store.whitelistSignature_ok issued
    exact ⟨a, d, auth, found, nonce, chain, contract, signed⟩
  deposit t minipool salt sig issued := by
    obtain ⟨a, auth, issued⟩ := minipoolDepositSignature_ok issued
    obtain ⟨d, -, found, -, -, -, signed, nonce, chain, contract⟩ := Store.depositSignature_ok issued
    exact ⟨a, d, auth, found, nonce, chain, contract, signed⟩

theorem step_signsAlike {op : Op} (quiet : op.increments c name a = false)
    (unset : op.setsAdminKey name = false) (not_revert : ∀ n, op ≠ .revert n) {d : Deployment}
    (svc : Service) (alike : ∃ d', svc.store.deployment name = .ok d' ∧ d.SignsAlike c a d') :
    ∃ d', (svc.step op).store.deployment name = .ok d' ∧ d.SignsAlike c a d' := by
  refine step_keeps (R := fun svc svc' => (∃ d', svc.store.deployment name = .ok d' ∧
      d.SignsAlike c a d') → ∃ d', svc'.store.deployment name = .ok d' ∧ d.SignsAlike c a d')
    (fun _ held => held) (fun svc u svc' ran held => ?_) svc alike
  obtain ⟨d', found, alike⟩ := held
  obtain ⟨d'', after, step⟩ := exec_deploymentsStep op not_revert svc u svc' ran name d' found
  refine ⟨d'', after, { chainId := ?_, whitelist := ?_, factory := ?_, admin := ?_, counter := ?_ }⟩
  · rw [step.chainId, alike.chainId]
  · rw [step.whitelist, alike.whitelist]
  · rw [step.factory, alike.factory]
  · rw [step.admin unset, alike.admin]
  · rw [step.counters c a, quiet, alike.counter]
    rfl

/-- Approvals of one kind for node `a` at deployment `name`, issued before and after the run
`mid`, are the same when nothing in `mid` incremented their counter. -/
structure StableApprovals (svc : Service) (mid : List Op) (name : String) (a : Address) : Prop where
  whitelist : (∀ op ∈ mid, op ≠ .incrementWhitelistNonce name a) → ∀ sig sig',
    svc.store.whitelistSignature name a = .ok sig →
    (svc.runOps mid).store.whitelistSignature name a = .ok sig' → sig' = sig
  deposit : (∀ op ∈ mid, op ≠ .incrementDepositNonce name a) → ∀ minipool salt sig sig',
    svc.store.depositSignature name a minipool salt = .ok sig →
    (svc.runOps mid).store.depositSignature name a minipool salt = .ok sig' → sig' = sig

theorem runOps_signsAlike {mid : List Op}
    (untouched : ∀ op ∈ mid, op.increments c name a = false ∧ op.setsAdminKey name = false ∧
      ∀ n, op ≠ .revert n) {d : Deployment} (found : svc.store.deployment name = .ok d) :
    ∃ d', (svc.runOps mid).store.deployment name = .ok d' ∧ d.SignsAlike c a d' :=
  runOps_keeps (fun svc _ kept held => step_signsAlike kept.1 kept.2.1 kept.2.2 svc held)
    ⟨d, found, { chainId := rfl, whitelist := rfl, factory := rfl, admin := rfl, counter := rfl }⟩
    untouched

theorem stableApprovals (svc : Service) (mid : List Op) (name : String) (a : Address)
    (untouched : ∀ op ∈ mid, (∀ key, op ≠ .setAdminKey name key) ∧ ∀ n, op ≠ .revert n) :
    svc.StableApprovals mid name a := by
  have kept : ∀ c : Counter, (∀ op ∈ mid, op.increments c name a = true → False) →
      ∀ op ∈ mid, op.increments c name a = false ∧ op.setsAdminKey name = false ∧
        ∀ n, op ≠ .revert n := fun c quiet op mem => by
    refine ⟨Bool.eq_false_iff.mpr (quiet op mem), Bool.eq_false_iff.mpr fun set => ?_,
      (untouched op mem).2⟩
    obtain ⟨key, rfl⟩ := Op.setsAdminKey_eq_true.mp set
    exact (untouched _ mem).1 key rfl
  refine ⟨fun quiet sig sig' issued issued' => ?_, fun quiet minipool salt sig sig' issued issued' => ?_⟩
  · obtain ⟨d, found, -⟩ := Store.whitelistSignature_ok issued
    obtain ⟨d', found', alike⟩ := runOps_signsAlike
      (kept .whitelist fun op mem inc => quiet op mem (Op.increments_eq_true.mp inc)) found
    exact Store.whitelistSignature_congr found found' alike issued issued'
  · obtain ⟨d, -, found, -⟩ := Store.depositSignature_ok issued
    obtain ⟨d', found', alike⟩ := runOps_signsAlike
      (kept .deposit fun op mem inc => quiet op mem (Op.increments_eq_true.mp inc)) found
    exact Store.depositSignature_congr found found' alike issued issued'

/-! ### Counters as the service reads them -/

theorem whitelistNonce_eq_map (svc : Service) (name : String) (a : Address) :
    svc.whitelistNonce name a = (svc.store.deployment name).map (Counter.whitelist.value · a) := by
  unfold whitelistNonce
  cases svc.store.deployment name <;> rfl

theorem depositNonce_eq_map (svc : Service) (name : String) (a : Address) :
    svc.depositNonce name a = (svc.store.deployment name).map (Counter.deposit.value · a) := by
  unfold depositNonce
  cases svc.store.deployment name <;> rfl

theorem deployment_of_addDeployment {svc₀ svc : Service} {chainId : Nat} {whitelist factory : Address}
    (added : (exec (.addDeployment name chainId whitelist factory)).run svc₀ = .ok () svc) :
    svc.store.deployment name = .ok { name, chainId, whitelist, factory } := by
  obtain ⟨store, stored, rfl⟩ := run_onStore_eq_ok.mp added
  obtain ⟨-, rfl⟩ := Store.addDeployment_ok stored
  rw [Store.deployment_put, if_pos rfl]

end Service

/-- Replay counters. After a deployment is added, over any run without revert, each of its
counters for each address holds the number of increments of exactly that counter that succeeded:
counters of other deployments, addresses or kinds never move it, and issuing approvals moves
none. Every approval issued for a token carries, for the token's node, the current counter of its
own kind, the deployment's chain and the contract that checks it (the whitelist contract or the
factory), and is signed over exactly these. Two approvals of one kind for one node agree when
nothing between them incremented that counter, set the deployment's admin key or reverted. -/
theorem approvals_follow_counters (svc₀ svc : Service) (name : String) (chainId : Nat)
    (whitelist factory : Address)
    (added : (Service.exec (.addDeployment name chainId whitelist factory)).run svc₀ = .ok () svc)
    (ops : List Op) (no_revert : ∀ n, .revert n ∉ ops) :
    (∀ a, (svc.runOps ops).whitelistNonce name a =
        .ok ((svc.succeeded ops).countP (Op.increments · .whitelist name a)) ∧
      (svc.runOps ops).depositNonce name a =
        .ok ((svc.succeeded ops).countP (Op.increments · .deposit name a))) ∧
      (∀ other : Service, other.IssuesCurrent name) ∧
      ∀ (other : Service) (mid : List Op) (a : Address),
        (∀ op ∈ mid, (∀ key, op ≠ .setAdminKey name key) ∧ ∀ n, op ≠ .revert n) →
        other.StableApprovals mid name a := by
  have found := Service.deployment_of_addDeployment added
  refine ⟨fun a => ⟨?_, ?_⟩, fun other => other.issuesCurrent name,
    fun other mid a => other.stableApprovals mid name a⟩
  · rw [Service.whitelistNonce_eq_map, Service.runOps_counter .whitelist name a found no_revert,
      Counter.value_added, Nat.zero_add]
  · rw [Service.depositNonce_eq_map, Service.runOps_counter .deposit name a found no_revert,
      Counter.value_added, Nat.zero_add]

theorem sample_run_counts_deposit_increments :
    (Service.exec (.addDeployment "dev" 17000 Address.zero Address.zero)).run { config := helloConfig } =
        .ok () (({ config := helloConfig } : Service).runOps (sampleRun.take 1)) ∧
      (∀ n, .revert n ∉ sampleRun.drop 1) ∧
      sampleService.depositNonce "dev" sampleNode =
        .ok (((({ config := helloConfig } : Service).runOps (sampleRun.take 1)).succeeded
          (sampleRun.drop 1)).countP (Op.increments · .deposit "dev" sampleNode)) := by
  have added : (Service.exec (.addDeployment "dev" 17000 Address.zero Address.zero)).run
      { config := helloConfig } = .ok () (({ config := helloConfig } : Service).runOps (sampleRun.take 1)) :=
    rfl
  have no_revert : ∀ n, .revert n ∉ sampleRun.drop 1 := fun n mem =>
    revert_not_mem_sampleRun n (List.mem_of_mem_drop mem)
  have counts := (approvals_follow_counters _ _ "dev" 17000 Address.zero Address.zero added _
    no_revert).1 sampleNode
  rw [runOps_take_runOps_drop] at counts
  exact ⟨added, no_revert, counts.2⟩

end StakingHub
