import StakingHub.Proofs.Lookups
import StakingHub.Proofs.Runs

/-!
# The StakeWise validator lifecycle

A validator's status moves along the edges `ValidatorStatus.canTransitionTo` allows: pending to
uploaded, uploaded to registered, and any status but removed to removed. The service moves it in
three places: committing a set moves the pending validators it takes to uploaded, marking
validators registered checks each against the lifecycle before it changes any, and marking one
removed checks it. Overriding a status ignores the lifecycle.

`Store.ValidatorsStep` says what one step did to the validators, as lookups find them: each
found before is found after, with its record, still used once used, and, unless the step
overrides statuses, with its status kept or moved along one edge; each found only after is new,
pending and unused. Every operation but a revert does this from a store that satisfies the
invariant (`Service.exec_validatorsStep`); uploads need the invariant, which makes their keys
new to every node. So along a run without overrides or reverts every validator's status traces
a path of the lifecycle (`Service.statuses_advance`).
-/

namespace StakingHub

/-- Whether an operation sets a validator's status whatever the lifecycle says. -/
def Op.overridesStatus : Op → Bool
  | .overrideValidatorStatus _ _ _ => true
  | _ => false

theorem Op.overridesStatus_eq_false {op : Op} :
    op.overridesStatus = false ↔ ∀ k pk st, op ≠ .overrideValidatorStatus k pk st := by
  cases op <;> simp [Op.overridesStatus]

/-- What the lifecycle reads of a validator: its record, its status and whether a committed set
took it. -/
def StakeWiseValidator.stage (v : StakeWiseValidator) : DepositRecord × ValidatorStatus × Bool :=
  (v.record, v.status, v.used)

/-- How one step may change a validator it keeps: its record stays, once used it stays used,
and unless the step overrides statuses its status stays or moves along one edge. -/
structure ValidatorMove (overrides : Bool) (v v' : StakeWiseValidator) : Prop where
  record : v'.record = v.record
  used : v.used = true → v'.used = true
  status : overrides = false → v'.status = v.status ∨ v.status.canTransitionTo v'.status = true

namespace ValidatorMove

variable {o : Bool} {v v' : StakeWiseValidator}

theorem of_stage (same : v'.stage = v.stage) : ValidatorMove o v v' := by
  simp only [StakeWiseValidator.stage, Prod.mk.injEq] at same
  obtain ⟨record, status, used⟩ := same
  exact ⟨record, fun was => used.trans was, fun _ => .inl status⟩

theorem refl (o : Bool) (v : StakeWiseValidator) : ValidatorMove o v v :=
  of_stage rfl

theorem use (o : Bool) (v : StakeWiseValidator) : ValidatorMove o v v.use where
  record := rfl
  used _ := rfl
  status _ := by
    by_cases pending : v.status = .pending
    · exact .inr (by simp [StakeWiseValidator.use, pending, ValidatorStatus.canTransitionTo])
    · exact .inl (by simp [StakeWiseValidator.use, pending])

theorem of_status (record : v'.record = v.record) (used : v'.used = v.used)
    (allowed : o = false → v.status.canTransitionTo v'.status = true) : ValidatorMove o v v' :=
  ⟨record, fun was => used.trans was, fun free => .inr (allowed free)⟩

end ValidatorMove

theorem StakeWiseValidator.use_use (v : StakeWiseValidator) : v.use.use = v.use := by
  by_cases pending : v.status = .pending <;> simp [StakeWiseValidator.use, pending]

theorem canTransitionTo_of_check {pk : ValidatorPubkey} {src dst : ValidatorStatus}
    (passed : checkStatusTransition pk src dst = .ok ()) : src.canTransitionTo dst = true := by
  unfold checkStatusTransition at passed
  by_cases allowed : src.canTransitionTo dst = true
  · exact allowed
  · simp [allowed] at passed

namespace Store

open StoreM

variable {s s' : Store} {o : Bool}

/-- What one step did to the validators, as lookups find them: each found before is found
after, moved as `ValidatorMove` allows, and each found only after is new: pending and not yet
used. -/
structure ValidatorsStep (overrides : Bool) (s s' : Store) : Prop where
  kept : ∀ k pk v, s.validator k pk = .ok v →
    ∃ v', s'.validator k pk = .ok v' ∧ ValidatorMove overrides v v'
  fresh : ∀ k pk v', s'.validator k pk = .ok v' → (∀ v, s.validator k pk ≠ .ok v) →
    v'.status = .pending ∧ v'.used = false

theorem validatorsStep_of_moves
    (each : ∀ k pk, s'.validator k pk = s.validator k pk ∨
      ∃ v v', s.validator k pk = .ok v ∧ s'.validator k pk = .ok v' ∧ ValidatorMove o v v') :
    ValidatorsStep o s s' where
  kept k pk v found := by
    rcases each k pk with same | ⟨w, v', before, after, moved⟩
    · exact ⟨v, same.trans found, ValidatorMove.refl o v⟩
    · rw [found] at before
      cases before
      exact ⟨v', after, moved⟩
  fresh k pk v' after missing := by
    rcases each k pk with same | ⟨w, -, before, -, -⟩
    · exact absurd (same.symm.trans after) (missing v')
    · exact absurd before (missing w)

theorem validatorsStep_of_nodes (same : s'.nodes = s.nodes) : ValidatorsStep o s s' :=
  validatorsStep_of_moves fun k pk => .inl (validator_congr same k pk)

theorem validatorsStep_of_stage
    (same : ∀ k pk, (s'.validator k pk).map StakeWiseValidator.stage =
      (s.validator k pk).map StakeWiseValidator.stage) : ValidatorsStep o s s' := by
  refine validatorsStep_of_moves fun k pk => ?_
  have stage := same k pk
  cases before : s.validator k pk with
  | error e =>
    left
    cases after : s'.validator k pk <;> simp_all [Except.map]
  | ok v =>
    right
    cases after : s'.validator k pk with
    | error e => simp [before, after, Except.map] at stage
    | ok v' =>
      exact ⟨v, v', rfl, rfl, ValidatorMove.of_stage (by simpa [before, after, Except.map] using stage)⟩

theorem validatorsStep_modifyValidator {a : Address} {n : Node} {k : VaultKey}
    {pk : ValidatorPubkey} {v v' : StakeWiseValidator} (owner : s.ownerOf k pk = .ok a)
    (found : s.node? a = some n) (hv : (n.validatorsIn k).find? (·.pubkey = pk) = some v)
    (moved : ValidatorMove o v v') :
    ValidatorsStep o s (s.modifyNode a fun _ => n.modifyValidator k pk fun _ => v') := by
  have before : s.validator k pk = .ok v := by
    rw [validator_of_owner owner found]
    exact Node.validator_eq_ok.mpr hv
  have after := validator_modifyValidator owner found (Node.validator_eq_ok.mpr hv) moved.record
  refine validatorsStep_of_moves fun k' pk' => ?_
  by_cases hit : k = k' ∧ pk = pk'
  · obtain ⟨rfl, rfl⟩ := hit
    exact .inr ⟨v, v', before, (after k pk).trans (if_pos ⟨rfl, rfl⟩), moved⟩
  · exact .inl ((after k' pk').trans (if_neg hit))

/-! ### Each store operation -/

/-- A store operation that, from a store satisfying the invariant, moves the validators only as
`ValidatorsStep` allows. -/
def MovesValidators {α : Type} (o : Bool) (m : StoreM α) : Prop :=
  Keeps (fun s s' => s.Inv → ValidatorsStep o s s') m

/-- A store operation that leaves the nodes alone. -/
def KeepsNodes {α : Type} (m : StoreM α) : Prop :=
  Keeps (fun s s' => s'.nodes = s.nodes) m

theorem movesValidators_of_keepsNodes {α : Type} {m : StoreM α} (hm : KeepsNodes m) :
    MovesValidators o m :=
  fun _ _ _ ran _ => validatorsStep_of_nodes (hm _ _ _ ran)

theorem deploymentMut_keepsNodes {β : Type} (name : String)
    (f : Deployment → Except ServiceFault (β × Deployment)) : KeepsNodes (deploymentMut name f) := by
  intro s _ s' ran
  obtain ⟨d, d', -, -, rfl⟩ := run_borrow_eq_ok.mp ran
  rfl

theorem addUser_keepsNodes (email : String) : KeepsNodes (addUser email) := by
  intro s _ s' ran
  rw [(addUser_ok ran).2]

theorem addDeployment_keepsNodes (d : Deployment) : KeepsNodes (addDeployment d) := by
  intro s _ s' ran
  rw [(addDeployment_ok ran).2]

theorem addMinipool_keepsNodes (name : String) (a minipool : Address) (pk : ValidatorPubkey) :
    KeepsNodes (addMinipool name a minipool pk) := by
  intro s _ s' ran
  obtain ⟨-, d, -, -, rfl⟩ := addMinipool_ok ran
  rfl

theorem login_keepsNodes (templates : Templates) (policy : NoncePolicy) (a : Address)
    (nonce : String) (sig : Signature) : KeepsNodes (login templates policy a nonce sig) := by
  intro s _ s' ran
  obtain ⟨-, -, x, -, -, -, -, rfl⟩ := login_ok ran
  rfl

theorem logout_keepsNodes (token : String) : KeepsNodes (logout token) := by
  intro s _ s' ran
  rw [(logout_ok ran).2]

theorem uploadMinipoolExits_keepsNodes (name : String) (a : Address) (exits : List EncryptedExit)
    (policy : ExitPolicy) : KeepsNodes (uploadMinipoolExits name a exits policy) := by
  intro s _ s' ran
  obtain ⟨n, d, opened, -, -, -, -, rfl⟩ := uploadMinipoolExits_ok ran
  rfl

theorem whitelistNode_movesValidators (email : String) (a : Address) :
    MovesValidators o (whitelistNode email a) := by
  intro s _ s' ran _
  obtain ⟨fresh, user, -, rfl⟩ := whitelistNode_ok ran
  exact validatorsStep_of_moves fun k pk =>
    .inl (validator_putNode (m := { address := a, owner := email }) rfl fresh rfl k pk)

theorem register_movesValidators (templates : Templates) (email : String) (a : Address)
    (sig : Signature) : MovesValidators o (register templates email a sig) := by
  intro s _ s' ran _
  obtain ⟨n, whitelisted, -, -, -, rfl⟩ := register_ok ran
  have found := node?_of_whitelistedNode whitelisted
  exact validatorsStep_of_stage (map_validator_modifyNode (m := { n with registered := true })
    StakeWiseValidator.stage found (mem_of_node? found).2 rfl fun _ _ => rfl)

theorem uploadDepositData_movesValidators (k : VaultKey) (a : Address)
    (records : List DepositRecord) : MovesValidators o (uploadDepositData k a records) := by
  intro s _ s' ran h
  obtain ⟨n, v, fresh, known, registered, -, found, taken, -, rfl⟩ := uploadDepositData_ok ran
  have first : s.node? a = some n :=
    node?_of_whitelistedNode (whitelistedNode_of_registeredNode registered)
  generalize hs₁ : s.modifyVault k (fun _ => { v with knownPubkeys := known }) = s₁
  have nodes : s₁.nodes = s.nodes := by rw [← hs₁]; rfl
  have first₁ : s₁.node? a = some n := by rw [← hs₁]; exact first
  have new : ∀ w ∈ fresh.map fun r => ({ record := r } : StakeWiseValidator),
      w.pubkey ∉ s₁.pubkeysIn k := by
    intro w hw
    obtain ⟨r, hr, rfl⟩ := List.mem_map.mp hw
    have unknown : r.pubkey ∉ v.knownPubkeys :=
      not_mem_of_mem_freshRecords v.knownPubkeys records (by rw [taken]; exact hr)
    rw [← hs₁]
    exact fun stored => unknown ((h.mem_pubkeysIn_iff found r.pubkey).mp stored)
  refine ⟨fun k' pk' w before => ?_, fun k' pk' w' after missing => ?_⟩
  · -- a key found before is not new, so it finds the same validator
    have before₁ : s₁.validator k' pk' = .ok w := (validator_congr nodes k' pk').trans before
    have apart : k ≠ k' ∨ ∀ x ∈ fresh.map fun r => ({ record := r } : StakeWiseValidator),
        x.pubkey ≠ pk' := by
      by_cases same : k = k'
      · subst same
        exact .inr fun x hx hpk => new x hx (hpk ▸ mem_pubkeysIn_of_validator before₁)
      · exact .inl same
    exact ⟨w, (validator_appendValidators first₁ _ apart).trans before₁, ValidatorMove.refl o w⟩
  · have missing₁ : ∀ v, s₁.validator k' pk' ≠ .ok v := fun v same =>
      missing v ((validator_congr nodes k' pk').symm.trans same)
    obtain ⟨r, -, rfl⟩ := List.mem_map.mp (mem_of_validator_appendValidators first₁ new after missing₁)
    exact ⟨rfl, rfl⟩

theorem commitDepositDataSet_movesValidators (k : VaultKey) (set : List DepositRecord) :
    MovesValidators o (commitDepositDataSet k set) := by
  intro s _ s' ran _
  obtain ⟨v, s₁, -, -, changed, -, -, -, rfl⟩ := commitDepositDataSet_ok ran
  have after := validator_forM_validatorMut DepositRecord.pubkey StakeWiseValidator.use
    (fun _ => rfl) StakeWiseValidator.use_use changed
  refine validatorsStep_of_moves fun k' pk' => ?_
  rw [validator_congr (t := s₁.modifyVault k _) (s := s₁) rfl, after k' pk']
  by_cases hit : k = k' ∧ pk' ∈ set.map DepositRecord.pubkey
  · rw [if_pos hit]
    cases before : s.validator k' pk' with
    | error e => exact .inl rfl
    | ok w => exact .inr ⟨w, w.use, rfl, rfl, ValidatorMove.use o w⟩
  · rw [if_neg hit]
    exact .inl rfl

theorem markValidatorsRegistered_movesValidators (k : VaultKey) (pks : List ValidatorPubkey) :
    MovesValidators o (markValidatorsRegistered k pks) := by
  intro s _ s' ran _
  obtain ⟨checked, changed⟩ := markValidatorsRegistered_run ran
  have after := validator_forM_validatorMut id
    (fun v => { v with status := .registered, active := true }) (fun _ => rfl) (fun _ => rfl) changed
  refine validatorsStep_of_moves fun k' pk' => ?_
  rw [after k' pk']
  by_cases hit : k = k' ∧ pk' ∈ pks.map id
  · rw [if_pos hit]
    obtain ⟨rfl, listed⟩ := hit
    obtain ⟨w, found, passed⟩ := checked pk' (by simpa using listed)
    rw [found]
    exact .inr ⟨w, _, rfl, rfl, ValidatorMove.of_status rfl rfl fun _ => canTransitionTo_of_check passed⟩
  · rw [if_neg hit]
    exact .inl rfl

theorem markValidatorRemoved_movesValidators (k : VaultKey) (pk : ValidatorPubkey) :
    MovesValidators o (markValidatorRemoved k pk) := by
  intro s _ s' ran _
  obtain ⟨_, s₁, found, ran⟩ := run_bind_eq_ok.mp ran
  rw [run_read_keeps found] at ran
  obtain ⟨a, n, v, v', owner, hn, hv, changed, rfl⟩ := validatorMut_ok ran
  cases passed : checkStatusTransition pk v.status .removed with
  | error e => simp [passed, bind, Except.bind] at changed
  | ok _ =>
    simp only [passed, bind, Except.bind, pure, Except.pure, Except.ok.injEq] at changed
    subst changed
    exact validatorsStep_modifyValidator owner hn hv
      (ValidatorMove.of_status rfl rfl fun _ => canTransitionTo_of_check passed)

theorem overrideValidatorStatus_movesValidators (k : VaultKey) (pk : ValidatorPubkey)
    (status : ValidatorStatus) : MovesValidators true (overrideValidatorStatus k pk status) := by
  intro s _ s' ran _
  obtain ⟨_, s₁, found, ran⟩ := run_bind_eq_ok.mp ran
  rw [run_read_keeps found] at ran
  obtain ⟨a, n, v, v', owner, hn, hv, changed, rfl⟩ := validatorMut_ok ran
  cases changed
  exact validatorsStep_modifyValidator owner hn hv
    (ValidatorMove.of_status rfl rfl fun free => Bool.noConfusion free)

theorem Node.stage_storeExits (k : VaultKey) (opened : List (ValidatorPubkey × ExitMessage))
    (n : Node) (k' : VaultKey) (pk' : ValidatorPubkey) :
    ((opened.foldl (fun n e => n.modifyValidator k e.1 fun v =>
      { v with exitMessage := some e.2, exitUploaded := true }) n).validator k' pk').map
        StakeWiseValidator.stage = (n.validator k' pk').map StakeWiseValidator.stage := by
  induction opened generalizing n with
  | nil => rfl
  | cons e es ih =>
    rw [List.foldl_cons, ih]
    exact Node.map_validator_modifyValidator _
      (f := fun v => { v with exitMessage := some e.2, exitUploaded := true }) (fun _ => rfl)
      (fun _ => rfl) k' pk'

theorem uploadSignedExits_movesValidators (k : VaultKey) (a : Address)
    (exits : List EncryptedExit) : MovesValidators o (uploadSignedExits k a exits) := by
  intro s _ s' ran _
  obtain ⟨n, opened, -, registered, -, -, rfl⟩ := uploadSignedExits_ok ran
  have found := node?_of_whitelistedNode (whitelistedNode_of_registeredNode registered)
  have layout := Node.layout_storeExits k opened n
  have keys : (opened.foldl (fun n e => n.modifyValidator k e.1 fun v =>
      { v with exitMessage := some e.2, exitUploaded := true }) n).keys = n.keys := by
    rw [Node.keys_eq_comp_layout, Function.comp_apply, Function.comp_apply, layout]
  have addr : (opened.foldl (fun n e => n.modifyValidator k e.1 fun v =>
      { v with exitMessage := some e.2, exitUploaded := true }) n).address = a := by
    rw [← (mem_of_node? found).2]
    exact congrArg Prod.fst layout
  exact validatorsStep_of_stage (map_validator_modifyNode StakeWiseValidator.stage found addr keys
    (Node.stage_storeExits k opened n))

/-! ### Statuses -/

/-- The status of a vault's validator of a key, where one is found. -/
def statusOf (s : Store) (k : VaultKey) (pk : ValidatorPubkey) : Option ValidatorStatus :=
  (s.validator k pk).toOption.map StakeWiseValidator.status

end Store

/-- One step of a validator's status, as lookups see it: still not found, found only now and
pending, or found before and after with the status kept or moved along one edge. -/
def ValidatorStatus.Advances : Option ValidatorStatus → Option ValidatorStatus → Prop
  | none, none => True
  | none, some st => st = .pending
  | some _, none => False
  | some st, some st' => st' = st ∨ st.canTransitionTo st' = true

theorem Store.ValidatorsStep.advances {s s' : Store} (step : ValidatorsStep false s s')
    (k : VaultKey) (pk : ValidatorPubkey) :
    ValidatorStatus.Advances (s.statusOf k pk) (s'.statusOf k pk) := by
  cases before : s.validator k pk with
  | ok v =>
    obtain ⟨v', after, moved⟩ := step.kept k pk v before
    simp only [statusOf, before, after, Except.toOption, Option.map_some]
    exact moved.status rfl
  | error e =>
    have missing : ∀ v, s.validator k pk ≠ .ok v := fun v same => by
      rw [before] at same
      cases same
    cases after : s'.validator k pk with
    | ok v' =>
      simp only [statusOf, before, after, Except.toOption, Option.map_some, Option.map_none]
      exact (step.fresh k pk v' after missing).1
    | error e' => simp [statusOf, before, after, Except.toOption, ValidatorStatus.Advances]

namespace Service

variable {svc : Service} {o : Bool}

theorem validatorsStep_onStore {α : Type} {m : StoreM α} (hm : Store.MovesValidators o m) :
    Keeps (fun svc svc' => svc.store.Inv → Store.ValidatorsStep o svc.store svc'.store) (onStore m) :=
  keeps_onStore (fun _ _ moved => moved) hm

theorem validatorsStep_modify {f : Service → Service} (same : ∀ svc, (f svc).store.nodes = svc.store.nodes) :
    Keeps (fun svc svc' => svc.store.Inv → Store.ValidatorsStep o svc.store svc'.store) (modify f) :=
  keeps_modify fun svc _ => Store.validatorsStep_of_nodes (same svc)

/-- What every operation but a revert does to the validators, from a store that satisfies the
invariant. -/
theorem exec_validatorsStep (op : Op) (not_revert : ∀ n, op ≠ .revert n) :
    Keeps (fun svc svc' => svc.store.Inv →
      Store.ValidatorsStep op.overridesStatus svc.store svc'.store) (exec op) := by
  cases op with
  | addUser email =>
    exact validatorsStep_onStore (Store.movesValidators_of_keepsNodes (Store.addUser_keepsNodes email))
  | whitelistNode email a => exact validatorsStep_onStore (Store.whitelistNode_movesValidators email a)
  | addDeployment name chainId whitelist factory =>
    exact validatorsStep_onStore (Store.movesValidators_of_keepsNodes (Store.addDeployment_keepsNodes _))
  | setAdminKey name key =>
    exact validatorsStep_onStore (Store.movesValidators_of_keepsNodes (Store.deploymentMut_keepsNodes name _))
  | setMinipoolLimit name limit =>
    exact validatorsStep_onStore (Store.movesValidators_of_keepsNodes (Store.deploymentMut_keepsNodes name _))
  | addVault name vault =>
    exact validatorsStep_onStore (Store.movesValidators_of_keepsNodes (Store.deploymentMut_keepsNodes name _))
  | setExitIdentity id => exact validatorsStep_modify fun _ => rfl
  | incrementWhitelistNonce name a =>
    exact keeps_discard (validatorsStep_onStore
      (Store.movesValidators_of_keepsNodes (Store.deploymentMut_keepsNodes name _)))
  | incrementDepositNonce name a =>
    exact keeps_discard (validatorsStep_onStore
      (Store.movesValidators_of_keepsNodes (Store.deploymentMut_keepsNodes name _)))
  | commitDepositDataSet k set =>
    exact keeps_discard (validatorsStep_onStore (Store.commitDepositDataSet_movesValidators k set))
  | markValidatorsRegistered k pks =>
    exact validatorsStep_onStore (Store.markValidatorsRegistered_movesValidators k pks)
  | markValidatorRemoved k pk => exact validatorsStep_onStore (Store.markValidatorRemoved_movesValidators k pk)
  | overrideValidatorStatus k pk status =>
    exact validatorsStep_onStore (Store.overrideValidatorStatus_movesValidators k pk status)
  | addMinipool name a minipool pk =>
    exact validatorsStep_onStore
      (Store.movesValidators_of_keepsNodes (Store.addMinipool_keepsNodes name a minipool pk))
  | snapshot name => exact validatorsStep_modify fun _ => rfl
  | revert name => exact absurd rfl (not_revert name)
  | deleteSnapshot name => exact keeps_deleteSnapshot fun _ _ => Store.validatorsStep_of_nodes rfl
  | createSession nonce token => exact validatorsStep_modify fun _ => rfl
  | registerNode email a sig =>
    exact keeps_get_bind fun _ => validatorsStep_onStore (Store.register_movesValidators _ email a sig)
  | login a nonce sig =>
    exact keeps_discard (keeps_get_bind fun _ => validatorsStep_onStore
      (Store.movesValidators_of_keepsNodes (Store.login_keepsNodes _ _ a nonce sig)))
  | logout token =>
    exact validatorsStep_onStore (Store.movesValidators_of_keepsNodes (Store.logout_keepsNodes token))
  | uploadDepositData token k records =>
    exact keeps_discard (keeps_read_bind fun a =>
      validatorsStep_onStore (Store.uploadDepositData_movesValidators k a records))
  | uploadSignedExits token k exits =>
    exact keeps_discard (keeps_read_bind fun a =>
      validatorsStep_onStore (Store.uploadSignedExits_movesValidators k a exits))
  | uploadConstellationExits token name exits =>
    exact keeps_discard (keeps_read_bind fun a => keeps_get_bind fun _ => validatorsStep_onStore
      (Store.movesValidators_of_keepsNodes (Store.uploadMinipoolExits_keepsNodes name a exits _)))

theorem step_validatorsStep (op : Op) (not_revert : ∀ n, op ≠ .revert n) (inv : svc.store.Inv) :
    Store.ValidatorsStep op.overridesStatus svc.store (svc.step op).store :=
  step_keeps (R := fun svc svc' => svc.store.Inv →
      Store.ValidatorsStep op.overridesStatus svc.store svc'.store)
    (fun _ _ => Store.validatorsStep_of_nodes rfl) (exec_validatorsStep op not_revert) svc inv

/-- Along a run without overrides or reverts, from a state that satisfies the invariant, every
validator's statuses trace a path of the lifecycle. -/
theorem statuses_advance (inv : svc.Inv) {ops : List Op}
    (allowed : ∀ op ∈ ops, op.overridesStatus = false ∧ ∀ n, op ≠ .revert n) (k : VaultKey)
    (pk : ValidatorPubkey) :
    ((svc.states ops).map (·.store.statusOf k pk)).IsChain ValidatorStatus.Advances := by
  rw [List.isChain_map]
  refine isChain_states (Q := Service.Inv) (fun svc op ⟨quiet, not_revert⟩ inv => ?_) inv allowed
  have step := step_validatorsStep op not_revert inv.store
  rw [quiet] at step
  exact ⟨step_inv inv op, step.advances k pk⟩

end Service

/-- Validator statuses follow the lifecycle. From a store that satisfies the invariant, an
operation other than an override or a revert keeps every validator it finds, with its status
kept or moved along one edge of the lifecycle, and a validator it finds only afterwards is
pending. Along a run without overrides or reverts, from a state that satisfies the invariant,
every validator's statuses therefore trace a path of the lifecycle. -/
theorem validator_statuses_follow_lifecycle (svc : Service) (op : Op) (inv : svc.store.Inv)
    (not_override : ∀ k pk st, op ≠ .overrideValidatorStatus k pk st)
    (not_revert : ∀ n, op ≠ .revert n) :
    (∀ k pk v, svc.store.validator k pk = .ok v →
        ∃ v', (svc.step op).store.validator k pk = .ok v' ∧
          (v'.status = v.status ∨ v.status.canTransitionTo v'.status = true)) ∧
      (∀ k pk v', (svc.step op).store.validator k pk = .ok v' →
        (∀ v, svc.store.validator k pk ≠ .ok v) → v'.status = .pending) ∧
      ∀ (start : Service) (ops : List Op), start.Inv →
        (∀ op ∈ ops, (∀ k pk st, op ≠ .overrideValidatorStatus k pk st) ∧ ∀ n, op ≠ .revert n) →
        ∀ k pk, ((start.states ops).map (·.store.statusOf k pk)).IsChain ValidatorStatus.Advances := by
  have step := Service.step_validatorsStep op not_revert inv
  rw [Op.overridesStatus_eq_false.mpr not_override] at step
  refine ⟨fun k pk v found => ?_, fun k pk v' after missing => (step.fresh k pk v' after missing).1,
    fun start ops start_inv allowed k pk => ?_⟩
  · obtain ⟨v', after, moved⟩ := step.kept k pk v found
    exact ⟨v', after, moved.status rfl⟩
  · exact Service.statuses_advance start_inv
      (fun op mem => ⟨Op.overridesStatus_eq_false.mpr (allowed op mem).1, (allowed op mem).2⟩) k pk

theorem sample_statuses_follow_lifecycle :
    sampleService.store.Inv ∧
      (∃ v', (sampleService.step (.commitDepositDataSet sampleVault [recordWithKey 0x22])).store.validator
          sampleVault (repeatedKey 0x22) = .ok v' ∧
        (v'.status = .pending ∨ ValidatorStatus.pending.canTransitionTo v'.status = true)) ∧
      ∀ k pk, ((forgedService.states sampleOps).map (·.store.statusOf k pk)).IsChain
        ValidatorStatus.Advances := by
  have inv := sampleService_inv
  have not_override : ∀ k pk st,
      Op.commitDepositDataSet sampleVault [recordWithKey 0x22] ≠ .overrideValidatorStatus k pk st := by
    simp
  have not_revert : ∀ n, Op.commitDepositDataSet sampleVault [recordWithKey 0x22] ≠ .revert n := by
    simp
  have lifecycle := validator_statuses_follow_lifecycle sampleService _ inv not_override not_revert
  have pending : sampleService.store.validator sampleVault (repeatedKey 0x22) =
      .ok { record := recordWithKey 0x22 } := rfl
  have quiet : ∀ op ∈ sampleOps,
      (∀ k pk st, op ≠ .overrideValidatorStatus k pk st) ∧ ∀ n, op ≠ .revert n := by
    simp [sampleOps]
  exact ⟨inv, lifecycle.1 _ _ _ pending,
    lifecycle.2.2 forgedService sampleOps reachable_forgedService.inv quiet⟩

end StakingHub
