import StakingHub.Proofs.Lifecycle
import StakingHub.Proofs.Login

/-!
# How a registration is decided, and that it happens once

A node registers by signing the registration message of its owner's email. The checks come in a
fixed order and the first that fails is the answer: the address must be whitelisted for that
email (an unknown address and another user's node are refused alike); the verifier must recover a
signer; the signer must be the node; the node must not be registered yet. The node's flag is read
only after the signature, so a second registration with a bad signature is a mismatch, not a
repeat. Only then is the flag set, and nothing else changes.

`Store.register_run` says this once, in the terms the store is read in; under the invariant an
address has one node, so the decision reads off the node list.

No other operation touches a flag (`Service.exec_registrationStep`), and a failed operation
changes nothing, so along a run without revert a node's flag never falls, and it rises only by a
registration of that node whose signature recovered to the node itself; a flag that never falls
rises at most once.
-/

namespace StakingHub

/-- What registration reads of a node: its address and its flag. -/
def Node.registration (n : Node) : Address × Bool :=
  (n.address, n.registered)

namespace Store

/-- Whether the node of an address is whitelisted and registered. -/
def isRegistered (s : Store) (a : Address) : Bool :=
  (s.node? a).any Node.registered

variable {s s' : Store}

/-! ### The decision -/

section Decision

variable (templates : Templates) (email : String) (a : Address) (sig : Signature)

/-- A registration, check by check: every refusal leaves the store as it was. -/
theorem register_run :
    (register templates email a sig).run s =
      match s.node? a with
      | none => .error (.addressMissingWhitelist a) s
      | some n =>
        if n.owner ≠ email then .error (.addressMissingWhitelist a) s
        else match recoverSigner (templates.registerMessage email a) sig with
          | .error e => .error e s
          | .ok r =>
            if r ≠ a then .error (.signatureMismatch a r) s
            else if n.registered then .error (.alreadyRegistered a) s
            else .ok () (s.modifyNode a fun m => { m with registered := true }) := by
  cases found : s.node? a with
  | none => simp [register, StoreM.read, whitelistedNode, found, EStateM.run, bind, EStateM.bind]
  | some n =>
    by_cases owner : n.owner = email
    · cases signed : recoverSigner (templates.registerMessage email a) sig with
      | error e =>
        simp [register, StoreM.read, whitelistedNode, found, owner, signed, EStateM.run, bind,
          EStateM.bind]
      | ok r =>
        by_cases other : r = a
        · subst other
          by_cases registered : n.registered = true
          · simp [register, StoreM.read, whitelistedNode, found, owner, signed, registered,
              EStateM.run, bind, EStateM.bind, nodeMut, StoreM.borrow, Except.bind, throw, throwThe,
              MonadExceptOf.throw]
          · simp [register, StoreM.read, whitelistedNode, found, owner, signed, registered,
              EStateM.run, bind, EStateM.bind, nodeMut, StoreM.borrow, Except.bind, pure,
              Except.pure]
            exact modifyNode_congr found (by rw [owner])
        · simp [register, StoreM.read, whitelistedNode, found, owner, signed, other, EStateM.run,
            bind, EStateM.bind, StoreM.throw_apply]
    · simp [register, StoreM.read, whitelistedNode, found, owner, EStateM.run, bind, EStateM.bind,
        StoreM.throw_apply]

theorem register_unlisted (unlisted : ¬∃ n ∈ s.nodes, n.address = a ∧ n.owner = email) :
    (register templates email a sig).run s = .error (.addressMissingWhitelist a) s := by
  rw [register_run]
  cases found : s.node? a with
  | none => rfl
  | some n =>
    have other : n.owner ≠ email := fun owner =>
      unlisted ⟨n, (mem_of_node? found).1, (mem_of_node? found).2, owner⟩
    exact if_pos other

theorem register_listed {n : Node} (found : s.node? a = some n) (owner : n.owner = email) :
    (register templates email a sig).run s =
      match recoverSigner (templates.registerMessage email a) sig with
      | .error e => .error e s
      | .ok r =>
        if r ≠ a then .error (.signatureMismatch a r) s
        else if n.registered then .error (.alreadyRegistered a) s
        else .ok () (s.modifyNode a fun m => { m with registered := true }) := by
  rw [register_run, found]
  exact if_neg (not_not_intro owner)

end Decision

/-! ### Operations that leave the flags alone -/

theorem isRegistered_eq (s : Store) (a : Address) :
    s.isRegistered a = ((s.node? a).map Node.registration).any (·.2) := by
  unfold isRegistered
  cases s.node? a <;> rfl

theorem isRegistered_congr
    (same : s'.nodes.map Node.registration = s.nodes.map Node.registration) (a : Address) :
    s'.isRegistered a = s.isRegistered a := by
  have search : (fun n : Node => decide (n.address = a)) =
      (fun x => decide (x.1 = a)) ∘ Node.registration := rfl
  have found : (s'.node? a).map Node.registration = (s.node? a).map Node.registration := by
    simp only [node?, Keyed.get?, search]
    rw [← List.find?_map, ← List.find?_map, same]
  rw [isRegistered_eq, isRegistered_eq, found]

theorem registration_of_layout {xs ys : List Node} (same : xs.map Node.layout = ys.map Node.layout) :
    xs.map Node.registration = ys.map Node.registration := by
  have factor : Node.registration = (fun l => (l.1, l.2.2.1)) ∘ Node.layout := rfl
  rw [factor, ← List.map_map, ← List.map_map, same]

theorem registration_modifyNode {a : Address} {n n' : Node} (first : s.node? a = some n)
    (keeps : n'.registration = n.registration) :
    (s.modifyNode a fun _ => n').nodes.map Node.registration = s.nodes.map Node.registration :=
  Keyed.map_modifyFirst _ _ _ _ fun y hy => by
    rw [Option.some.inj (hy.symm.trans first)]
    exact keeps

/-- A store operation that leaves every registration as it was. -/
def KeepsRegistrations {α : Type} (m : StoreM α) : Prop :=
  Keeps (fun s s' => ∀ a, s'.isRegistered a = s.isRegistered a) m

theorem keepsRegistrations_of_keepsNodes {α : Type} {m : StoreM α} (hm : KeepsNodes m) :
    KeepsRegistrations m := by
  intro s _ s' ran a
  rw [isRegistered, isRegistered, node?, node?, hm s _ s' ran]

theorem keepsRegistrations_of_layout {α : Type} {m : StoreM α}
    (ok : ∀ s b s', m.run s = .ok b s' → s'.nodes.map Node.layout = s.nodes.map Node.layout) :
    KeepsRegistrations m :=
  fun s b s' ran => isRegistered_congr (registration_of_layout (ok s b s' ran))

theorem whitelistNode_keepsRegistrations (email : String) (a : Address) :
    KeepsRegistrations (whitelistNode email a) := by
  intro s _ s' ran b
  obtain ⟨fresh, user, -, rfl⟩ := whitelistNode_ok ran
  simp only [isRegistered, node?] at fresh ⊢
  rw [Keyed.get?_put]
  by_cases same : a = b
  · subst same
    simp [fresh]
  · simp [same]

theorem uploadDepositData_keepsRegistrations (k : VaultKey) (a : Address)
    (records : List DepositRecord) : KeepsRegistrations (uploadDepositData k a records) := by
  intro s _ s' ran b
  obtain ⟨n, v, fresh, known, registered, -, -, -, -, rfl⟩ := uploadDepositData_ok ran
  have first : (s.modifyVault k fun _ => { v with knownPubkeys := known }).node? a = some n :=
    node?_of_whitelistedNode (whitelistedNode_of_registeredNode registered)
  exact (isRegistered_congr (registration_modifyNode first (by rfl)) b).trans rfl

theorem commitDepositDataSet_keepsRegistrations (k : VaultKey) (set : List DepositRecord) :
    KeepsRegistrations (commitDepositDataSet k set) :=
  keepsRegistrations_of_layout fun _ _ _ ran => by
    obtain ⟨v, s₁, -, -, -, layout, -, -, rfl⟩ := commitDepositDataSet_ok ran
    exact layout

theorem uploadSignedExits_keepsRegistrations (k : VaultKey) (a : Address)
    (exits : List EncryptedExit) : KeepsRegistrations (uploadSignedExits k a exits) :=
  keepsRegistrations_of_layout fun _ _ _ ran => by
    obtain ⟨n, opened, -, registered, -, -, rfl⟩ := uploadSignedExits_ok ran
    exact layout_modifyNode (node?_of_whitelistedNode (whitelistedNode_of_registeredNode registered))
      (Node.layout_storeExits k opened n)

theorem register_isRegistered {templates : Templates} {email : String} {a : Address}
    {sig : Signature} {u : Unit} (ran : (register templates email a sig).run s = .ok u s')
    (b : Address) : s'.isRegistered b = if a = b then true else s.isRegistered b := by
  obtain ⟨n, whitelisted, -, -, -, rfl⟩ := register_ok ran
  have found := node?_of_whitelistedNode whitelisted
  have addr : ({ n with registered := true } : Node).address = a := (mem_of_node? found).2
  simp only [isRegistered, node?_modifyNode found addr b]
  by_cases same : a = b <;> simp [same]

end Store

/-! ### Every operation, on the service -/

namespace Service

variable {svc svc' : Service} {a : Address}

/-- One step of a node's registration: a registered node stays registered, and a node that is
registered only after the step was registered by it, through a registration of the node whose
signature recovered to the node. -/
def RegistrationStep (a : Address) (svc : Service) (op : Op) (svc' : Service) : Prop :=
  (svc.store.isRegistered a = true → svc'.store.isRegistered a = true) ∧
  (svc.store.isRegistered a = false → svc'.store.isRegistered a = true →
    ∃ email sig, op = .registerNode email a sig ∧
      recoverSigner (svc.templates.registerMessage email a) sig = .ok a)

theorem registrationStep_of_eq {op : Op} (same : svc'.store.isRegistered a = svc.store.isRegistered a) :
    RegistrationStep a svc op svc' := by
  refine ⟨fun registered => same.trans registered, fun unregistered registered => ?_⟩
  rw [same, unregistered] at registered
  cases registered

/-- A service operation that leaves every registration as it was. -/
def KeepsRegistrations {α : Type} (m : ServiceM α) : Prop :=
  Keeps (fun svc svc' => ∀ a, svc'.store.isRegistered a = svc.store.isRegistered a) m

theorem keepsRegistrations_onStore {α : Type} {m : StoreM α} (hm : Store.KeepsRegistrations m) :
    KeepsRegistrations (onStore m) :=
  keeps_onStore (fun _ _ kept => kept) hm

theorem keepsRegistrations_modify {f : Service → Service}
    (same : ∀ svc, (f svc).store.nodes = svc.store.nodes) : KeepsRegistrations (modify f) :=
  keeps_modify fun svc a => by
    rw [Store.isRegistered, Store.isRegistered, Store.node?, Store.node?, same svc]

theorem keepsRegistrations_deploymentMut {β : Type} (name : String)
    (f : Deployment → Except ServiceFault (β × Deployment)) :
    KeepsRegistrations (onStore (Store.deploymentMut name f)) :=
  keepsRegistrations_onStore
    (Store.keepsRegistrations_of_keepsNodes (Store.deploymentMut_keepsNodes name f))

theorem exec_registerNode (email : String) (b : Address) (sig : Signature) :
    exec (.registerNode email b sig) = registerNode email b sig :=
  rfl

/-- Every operation but a revert moves a registration only as `RegistrationStep` allows; only a
registration of the node can set its flag. -/
theorem exec_registrationStep (op : Op) (not_revert : ∀ n, op ≠ .revert n) {u : Unit}
    (ran : (exec op).run svc = .ok u svc') : RegistrationStep a svc op svc' := by
  have kept : ∀ {α : Type} {m : ServiceM α} {b : α}, m.run svc = .ok b svc' →
      KeepsRegistrations m → RegistrationStep a svc op svc' :=
    fun ran hm => registrationStep_of_eq (hm _ _ _ ran a)
  have discarded : ∀ {α : Type} {m : ServiceM α}, (do let _ ← m : ServiceM Unit).run svc = .ok u svc' →
      KeepsRegistrations m → RegistrationStep a svc op svc' :=
    fun ran hm => kept ran (keeps_discard hm)
  cases op with
  | addUser email =>
    exact kept ran (keepsRegistrations_onStore (Store.keepsRegistrations_of_keepsNodes
      (Store.addUser_keepsNodes email)))
  | whitelistNode email b =>
    exact kept ran (keepsRegistrations_onStore (Store.whitelistNode_keepsRegistrations email b))
  | addDeployment name chainId whitelist factory =>
    exact kept ran (keepsRegistrations_onStore (Store.keepsRegistrations_of_keepsNodes
      (Store.addDeployment_keepsNodes _)))
  | setAdminKey name key => exact kept ran (keepsRegistrations_deploymentMut name _)
  | setMinipoolLimit name limit => exact kept ran (keepsRegistrations_deploymentMut name _)
  | addVault name vault => exact kept ran (keepsRegistrations_deploymentMut name _)
  | setExitIdentity id => exact kept ran (keepsRegistrations_modify fun _ => rfl)
  | incrementWhitelistNonce name b => exact discarded ran (keepsRegistrations_deploymentMut name _)
  | incrementDepositNonce name b => exact discarded ran (keepsRegistrations_deploymentMut name _)
  | commitDepositDataSet k set =>
    exact discarded ran (keepsRegistrations_onStore
      (Store.commitDepositDataSet_keepsRegistrations k set))
  | markValidatorsRegistered k pks =>
    exact kept ran (keepsRegistrations_onStore (Store.keepsRegistrations_of_layout fun _ _ _ ran =>
      (Store.markValidatorsRegistered_ok ran).1))
  | markValidatorRemoved k pk =>
    exact kept ran (keepsRegistrations_onStore (Store.keepsRegistrations_of_layout fun _ _ _ ran =>
      (Store.markValidatorRemoved_ok ran).1))
  | overrideValidatorStatus k pk status =>
    exact kept ran (keepsRegistrations_onStore (Store.keepsRegistrations_of_layout fun _ _ _ ran =>
      (Store.overrideValidatorStatus_ok ran).1))
  | addMinipool name b minipool pk =>
    exact kept ran (keepsRegistrations_onStore (Store.keepsRegistrations_of_keepsNodes
      (Store.addMinipool_keepsNodes name b minipool pk)))
  | snapshot name => exact kept ran (keepsRegistrations_modify fun _ => rfl)
  | revert name => exact absurd rfl (not_revert name)
  | deleteSnapshot name =>
    exact kept ran (keeps_deleteSnapshot fun _ _ => rfl)
  | createSession nonce token => exact kept ran (keepsRegistrations_modify fun _ => rfl)
  | registerNode email b sig =>
    rw [exec_registerNode, registerNode, run_get_bind] at ran
    obtain ⟨store, stored, rfl⟩ := run_onStore_eq_ok.mp ran
    have flags := Store.register_isRegistered stored
    refine ⟨fun registered => ?_, fun unregistered registered => ?_⟩
    · rw [flags a]
      split <;> simp_all
    · obtain ⟨n, -, -, recovered, -, -⟩ := Store.register_ok stored
      by_cases same : b = a
      · subst same
        exact ⟨email, sig, rfl, recovered⟩
      · rw [flags a, if_neg same, unregistered] at registered
        cases registered
  | login b nonce sig =>
    exact discarded ran (keeps_get_bind fun _ => keepsRegistrations_onStore
      (Store.keepsRegistrations_of_keepsNodes (Store.login_keepsNodes _ _ b nonce sig)))
  | logout token =>
    exact kept ran (keepsRegistrations_onStore (Store.keepsRegistrations_of_keepsNodes
      (Store.logout_keepsNodes token)))
  | uploadDepositData token k records =>
    exact discarded ran (keeps_read_bind fun b => keepsRegistrations_onStore
      (Store.uploadDepositData_keepsRegistrations k b records))
  | uploadSignedExits token k exits =>
    exact discarded ran (keeps_read_bind fun b => keepsRegistrations_onStore
      (Store.uploadSignedExits_keepsRegistrations k b exits))
  | uploadConstellationExits token name exits =>
    exact discarded ran (keeps_read_bind fun b => keeps_get_bind fun _ => keepsRegistrations_onStore
      (Store.keepsRegistrations_of_keepsNodes (Store.uploadMinipoolExits_keepsNodes name b exits _)))

theorem step_registrationStep (op : Op) (not_revert : ∀ n, op ≠ .revert n) (svc : Service) :
    RegistrationStep a svc op (svc.step op) := by
  cases ran : (exec op).run svc with
  | ok u svc' =>
    rw [step_of_ok ran]
    exact exec_registrationStep op not_revert ran
  | error e svc' =>
    rw [step_of_error ran]
    exact registrationStep_of_eq rfl

/-! ### Along a run -/

theorem zip_states_cons (svc : Service) (op : Op) (ops : List Op) :
    (svc.states (op :: ops)).zip (op :: ops) = (svc, op) :: ((svc.step op).states ops).zip ops :=
  rfl

theorem mem_zip_states {start : Service} {ops : List Op} {p : Service × Op}
    (hp : p ∈ (start.states ops).zip ops) : p.2 ∈ ops ∧ p.1.config = start.config := by
  induction ops generalizing start with
  | nil => simp [states] at hp
  | cons op ops ih =>
    rw [zip_states_cons, List.mem_cons] at hp
    rcases hp with rfl | hp
    · exact ⟨List.mem_cons_self, rfl⟩
    · obtain ⟨mem, config⟩ := ih hp
      exact ⟨List.mem_cons_of_mem _ mem, config.trans (step_config start op)⟩

theorem isRegistered_of_mem_zip_states {start : Service} {ops : List Op}
    (no_revert : ∀ n, .revert n ∉ ops) (registered : start.store.isRegistered a = true)
    {p : Service × Op} (hp : p ∈ (start.states ops).zip ops) : p.1.store.isRegistered a = true := by
  induction ops generalizing start with
  | nil => simp [states] at hp
  | cons op ops ih =>
    rw [zip_states_cons, List.mem_cons] at hp
    have not_revert : ∀ n, op ≠ .revert n := fun n same => no_revert n (same ▸ List.mem_cons_self)
    rcases hp with rfl | hp
    · exact registered
    · exact ih (fun n mem => no_revert n (List.mem_cons_of_mem _ mem))
        ((step_registrationStep op not_revert start).1 registered) hp

theorem registrations_along (start : Service) (ops : List Op) (no_revert : ∀ n, .revert n ∉ ops)
    (a : Address) :
    (∀ p ∈ (start.states ops).zip ops, RegistrationStep a p.1 p.2 (p.1.step p.2)) ∧
      ((start.states ops).zip ops).countP
        (fun p => !p.1.store.isRegistered a && (p.1.step p.2).store.isRegistered a) ≤ 1 := by
  refine ⟨fun p hp => step_registrationStep p.2
    (fun n same => no_revert n (same ▸ (mem_zip_states hp).1)) p.1, ?_⟩
  induction ops generalizing start with
  | nil => simp [states]
  | cons op ops ih =>
    have rest : ∀ n, .revert n ∉ ops := fun n mem => no_revert n (List.mem_cons_of_mem _ mem)
    rw [zip_states_cons, List.countP_cons]
    by_cases rises : start.store.isRegistered a = false ∧
        (start.step op).store.isRegistered a = true
    · -- after the rise every later state is registered, so nothing later rises
      have none : List.countP (fun p => !p.1.store.isRegistered a && (p.1.step p.2).store.isRegistered a)
          (((start.step op).states ops).zip ops) = 0 :=
        List.countP_eq_zero.mpr fun p hp => by
          simp [isRegistered_of_mem_zip_states rest rises.2 hp]
      rw [none]
      split <;> omega
    · have quiet : (!start.store.isRegistered a && (start.step op).store.isRegistered a) = false := by
        cases h₁ : start.store.isRegistered a <;> cases h₂ : (start.step op).store.isRegistered a <;>
          simp_all
      simpa [quiet] using ih (start.step op) rest

end Service

/-- Registration decides exactly as specified and happens at most once. Under the invariant an
address not whitelisted for the email is missing from the whitelist; past that the verifier's
fault, then a signer other than the node, then a node already registered are refused, in that
order, each leaving the store as it was; otherwise only the node's flag is set. So a
registration succeeds exactly when the node is whitelisted for the email and not yet registered
and the verifier recovers it from the registration message. Along any run without revert a
node's flag never falls, rises at most once, and rises only by a registration of that node whose
signature the verifier recovered to the node. -/
theorem registration_decided_once (s : Store) (h : s.Inv) (templates : Templates) (email : String)
    (a : Address) (sig : Signature) :
    ((¬∃ n ∈ s.nodes, n.address = a ∧ n.owner = email) →
      (Store.register templates email a sig).run s = .error (.addressMissingWhitelist a) s) ∧
    (∀ n ∈ s.nodes, n.address = a → n.owner = email →
      (∀ e, recoverSigner (templates.registerMessage email a) sig = .error e →
        (Store.register templates email a sig).run s = .error e s) ∧
      (∀ r, recoverSigner (templates.registerMessage email a) sig = .ok r → r ≠ a →
        (Store.register templates email a sig).run s = .error (.signatureMismatch a r) s) ∧
      (recoverSigner (templates.registerMessage email a) sig = .ok a → n.registered = true →
        (Store.register templates email a sig).run s = .error (.alreadyRegistered a) s) ∧
      (recoverSigner (templates.registerMessage email a) sig = .ok a → n.registered = false →
        (Store.register templates email a sig).run s =
          .ok () (s.modifyNode a fun m => { m with registered := true }))) ∧
    ((∃ s', (Store.register templates email a sig).run s = .ok () s') ↔
      (∃ n ∈ s.nodes, n.address = a ∧ n.owner = email ∧ n.registered = false) ∧
        recoverSigner (templates.registerMessage email a) sig = .ok a) ∧
    ∀ (start : Service) (ops : List Op), (∀ n, .revert n ∉ ops) → ∀ b : Address,
      (∀ p ∈ (start.states ops).zip ops, p.1.store.isRegistered b = true →
        (p.1.step p.2).store.isRegistered b = true) ∧
      (∀ p ∈ (start.states ops).zip ops, p.1.store.isRegistered b = false →
        (p.1.step p.2).store.isRegistered b = true →
        ∃ email sig, p.2 = .registerNode email b sig ∧
          recoverSigner (start.templates.registerMessage email b) sig = .ok b) ∧
      ((start.states ops).zip ops).countP
        (fun p => !p.1.store.isRegistered b && (p.1.step p.2).store.isRegistered b) ≤ 1 := by
  -- under the invariant the listed node of the address is the one the store finds
  have found : ∀ n ∈ s.nodes, n.address = a → s.node? a = some n := fun n hn addr =>
    addr ▸ Keyed.get?_eq_some_of_mem h.nodes_sorted hn
  refine ⟨Store.register_unlisted templates email a sig, fun n hn addr owner => ?_, ?_,
    fun start ops no_revert b => ?_⟩
  · have listed := Store.register_listed templates email a sig (found n hn addr) owner
    refine ⟨fun e failed => by rw [listed, failed], fun r signed other => ?_,
      fun signed registered => ?_, fun signed unregistered => ?_⟩
    · rw [listed, signed]
      exact if_pos other
    · simp [listed, signed, registered]
    · simp [listed, signed, unregistered]
  · constructor
    · rintro ⟨s', ran⟩
      obtain ⟨n, whitelisted, owner, recovered, unregistered, -⟩ := Store.register_ok ran
      obtain ⟨hn, addr⟩ := Store.mem_of_node? (Store.node?_of_whitelistedNode whitelisted)
      exact ⟨⟨n, hn, addr, owner, unregistered⟩, recovered⟩
    · rintro ⟨⟨n, hn, addr, owner, unregistered⟩, recovered⟩
      refine ⟨s.modifyNode a fun m => { m with registered := true }, ?_⟩
      simp [Store.register_listed templates email a sig (found n hn addr) owner, recovered,
        unregistered]
  · obtain ⟨steps, once⟩ := Service.registrations_along start ops no_revert b
    refine ⟨fun p hp => (steps p hp).1, fun p hp unregistered registered => ?_, once⟩
    -- a run keeps its configuration, so the templates are the ones it started with
    have templates_eq : p.1.templates = start.templates := by
      simp only [Service.templates, (Service.mem_zip_states hp).2]
    rw [← templates_eq]
    exact (steps p hp).2 unregistered registered

theorem recoverSigner_sampleSignature : recoverSigner "hello" sampleSignature = .ok sampleNode :=
  eq_ok_of_toOption (by decide +kernel)

theorem sample_reregistration_refused :
    sampleService.store.Inv ∧
      (Store.register helloConfig.templates "u" sampleNode sampleSignature).run sampleService.store =
        .error (.alreadyRegistered sampleNode) sampleService.store ∧
      ((forgedService.states sampleOps).zip sampleOps).countP
        (fun p => !p.1.store.isRegistered secondNode && (p.1.step p.2).store.isRegistered secondNode) ≤ 1 := by
  have inv := sampleService_inv
  have decided := registration_decided_once sampleService.store inv helloConfig.templates "u"
    sampleNode sampleSignature
  obtain ⟨m, listed, addressed, owned, registered⟩ := sampleNode_listed
  have no_revert : ∀ n, .revert n ∉ sampleOps := fun n mem =>
    revert_not_mem_sampleRun n (List.mem_append_right _ mem)
  exact ⟨inv, (decided.2.1 m listed addressed owned).2.2.1 recoverSigner_sampleSignature registered,
    (decided.2.2.2 forgedService sampleOps no_revert secondNode).2.2⟩

end StakingHub
