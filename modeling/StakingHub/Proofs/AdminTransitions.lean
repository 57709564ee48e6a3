import StakingHub.Proofs.DepositUploads

/-!
# The administrator's changes to StakeWise validators

The administrator commits a deposit-data set to a vault, marks validators registered, and marks
a validator removed. Each operation looks its validators up before it changes any, and changes
them through the same lookup: the first node, in address order, holding the key for the vault.
So an operation succeeds exactly when every key it names passes its check on the store it
started from; otherwise it fails at the first key, in the caller's order, that does not, and
leaves the store as it was. On success every key named finds its validator changed once, however
often it is named, every other key finds what it found before, and no node gains or loses a
validator.
-/

namespace StakingHub

/-! ### Loops of checks -/

section Loop

variable {ε σ γ : Type} {m : γ → EStateM ε σ PUnit} {s : σ}

theorem run_forM_of_passes {xs : List γ} (passes : ∀ x ∈ xs, (m x).run s = .ok ⟨⟩ s) :
    (xs.forM m).run s = .ok ⟨⟩ s := by
  induction xs with
  | nil => rfl
  | cons x xs ih =>
    simp only [List.forM]
    rw [run_bind_of_ok (passes x List.mem_cons_self)]
    exact ih fun y hy => passes y (List.mem_cons_of_mem x hy)

theorem run_forM_first_error {pre post : List γ} {x : γ} {e : ε}
    (passes : ∀ y ∈ pre, (m y).run s = .ok ⟨⟩ s) (fails : (m x).run s = .error e s) :
    ((pre ++ x :: post).forM m).run s = .error e s := by
  induction pre with
  | nil =>
    simp only [List.nil_append, List.forM]
    exact run_bind_eq_error.mpr (.inl fails)
  | cons y ys ih =>
    simp only [List.cons_append, List.forM]
    rw [run_bind_of_ok (passes y List.mem_cons_self)]
    exact ih fun z hz => passes z (List.mem_cons_of_mem y hz)

end Loop

/-! ### The lifecycle's checks -/

theorem checkStatusTransition_eq_ok {pk : ValidatorPubkey} {src dst : ValidatorStatus} :
    checkStatusTransition pk src dst = .ok () ↔ src.canTransitionTo dst = true := by
  unfold checkStatusTransition
  split <;> simp_all

theorem checkStatusTransition_of_not {pk : ValidatorPubkey} {src dst : ValidatorStatus}
    (refused : src.canTransitionTo dst = false) :
    checkStatusTransition pk src dst = .error (.invalidStatusTransition pk src dst) := by
  simp [checkStatusTransition, refused]

theorem canTransitionTo_registered {src : ValidatorStatus} :
    src.canTransitionTo .registered = true ↔ src = .uploaded := by
  cases src <;> decide

theorem canTransitionTo_removed {src : ValidatorStatus} :
    src.canTransitionTo .removed = true ↔ src ≠ .removed := by
  cases src <;> decide

namespace Store

variable {s s' : Store} {k : VaultKey} {pk : ValidatorPubkey} {v : StakeWiseValidator}
  {w : Vault} {a : Address} {e : ServiceFault}

/-! ### Looking a validator up -/

theorem ownerOf_error (refused : s.ownerOf k pk = .error e) : e = .validatorNotFound pk := by
  unfold ownerOf at refused
  split at refused
  · cases refused
  · exact (Except.error.inj refused).symm

theorem node?_of_ownerOf (owner : s.ownerOf k pk = .ok a) : ∃ n, s.node? a = some n := by
  obtain ⟨n, hn, rfl⟩ := mem_of_ownerOf owner
  rw [← Option.isSome_iff_exists, node?, Keyed.get?, List.find?_isSome]
  exact ⟨n, hn, by simp⟩

theorem validator_of_missing (missing : ∀ v, s.validator k pk ≠ .ok v) :
    s.validator k pk = .error (.validatorNotFound pk) := by
  cases owner : s.ownerOf k pk with
  | error e =>
    rw [validator_eq_bind, owner, ownerOf_error owner]
    rfl
  | ok a =>
    obtain ⟨n, hn⟩ := node?_of_ownerOf owner
    rw [validator_of_owner owner hn] at missing ⊢
    unfold Node.validator at missing ⊢
    split
    · rename_i x hx
      exact absurd (by rw [hx]) (missing x)
    · rfl

theorem Inv.validator_ok_iff (h : s.Inv) : (∃ v, s.validator k pk = .ok v) ↔ pk ∈ s.pubkeysIn k := by
  constructor
  · rintro ⟨v, found⟩
    exact mem_pubkeysIn_of_validator found
  · intro held
    obtain ⟨n, hn, v, hv, rfl⟩ := mem_pubkeysIn.mp held
    exact ⟨v, h.validator_of_mem hn hv⟩

/-! ### Changing one validator -/

variable {f : StakeWiseValidator → Except ServiceFault StakeWiseValidator}

theorem run_validatorMut_of_missing (missing : ∀ v, s.validator k pk ≠ .ok v) :
    (validatorMut k pk f).run s = .error (.validatorNotFound pk) s := by
  cases owner : s.ownerOf k pk with
  | error e =>
    rw [ownerOf_error owner] at owner
    rw [validatorMut]
    exact run_bind_eq_error.mpr (.inl (StoreM.run_read_eq_error.mpr ⟨owner, rfl⟩))
  | ok a =>
    obtain ⟨n, hn⟩ := node?_of_ownerOf owner
    have none : (n.validatorsIn k).find? (·.pubkey = pk) = none := by
      cases hv : (n.validatorsIn k).find? (·.pubkey = pk) with
      | none => rfl
      | some v => exact absurd (validator_eq_ok.mpr ⟨a, n, owner, hn, hv⟩) (missing v)
    rw [validatorMut, run_bind_of_ok (StoreM.run_read_of_ok owner)]
    simp [nodeMut, StoreM.borrow, EStateM.run, whitelistedNode, hn, none, bind, Except.bind,
      throw, throwThe, MonadExceptOf.throw]

theorem run_validatorMut_of_refused (found : s.validator k pk = .ok v) (refused : f v = .error e) :
    (validatorMut k pk f).run s = .error e s := by
  obtain ⟨a, n, owner, hn, hv⟩ := validator_eq_ok.mp found
  rw [validatorMut, run_bind_of_ok (StoreM.run_read_of_ok owner)]
  simp [nodeMut, StoreM.borrow, EStateM.run, whitelistedNode, hn, hv, refused, bind, Except.bind]

theorem validatorMut_effect {v' : StakeWiseValidator} (found : s.validator k pk = .ok v)
    (changed : f v = .ok v') (keeps : v'.record = v.record) :
    ∃ s', (validatorMut k pk f).run s = .ok () s' ∧ s' = { s with nodes := s'.nodes } ∧
      s'.nodes.map Node.layout = s.nodes.map Node.layout ∧
      ∀ k' pk', s'.validator k' pk' = if k = k' ∧ pk = pk' then .ok v' else s.validator k' pk' := by
  obtain ⟨s', ran, layout, only⟩ := run_validatorMut_of_ok f found changed keeps
  refine ⟨s', ran, only, layout, fun k' pk' => ?_⟩
  obtain ⟨a, n, u, u', owner, hn, hu, changed', rfl⟩ := validatorMut_ok ran
  have same : u = v := by
    have := validator_of_owner owner hn ▸ found
    exact Option.some.inj (hu.symm.trans (Node.validator_eq_ok.mp this))
  subst same
  rw [changed] at changed'
  cases changed'
  exact validator_modifyValidator owner hn (Node.validator_eq_ok.mpr hu) keeps k' pk'

/-! ### Committing a deposit-data set -/

variable {set : List DepositRecord} {pre post : List DepositRecord} {r : DepositRecord}

theorem run_commitLookup_of_found (found : s.validator k r.pubkey = .ok v) :
    (do let _ ← StoreM.read (·.validator k r.pubkey) : StoreM PUnit).run s = .ok ⟨⟩ s :=
  run_bind_of_ok (StoreM.run_read_of_ok found)

theorem commitDepositDataSet_succeeds (found : s.vault k = .ok w)
    (all : ∀ r ∈ set, ∃ v, s.validator k r.pubkey = .ok v) :
    ∃ s', (commitDepositDataSet k set).run s = .ok (w.version + 1) s' := by
  have lookups := run_forM_of_passes (m := fun r : DepositRecord =>
      (do let _ ← StoreM.read (·.validator k r.pubkey) : StoreM PUnit)) (s := s) fun r hr =>
    have ⟨_, hv⟩ := all r hr
    run_commitLookup_of_found hv
  obtain ⟨s₁, changed, -, only⟩ :=
    run_forM_validatorMut (·.pubkey) (fun _ v => v.use) (fun _ _ => rfl) set s all
  have vault₁ : s₁.vault k = .ok w := (vault_congr (congrArg Store.deployments only) k).trans found
  refine ⟨s₁.modifyVault k fun _ => { w with version := w.version + 1, currentSet := set }, ?_⟩
  rw [commitDepositDataSet, run_bind_of_ok (StoreM.run_read_of_ok found), run_bind_of_ok lookups,
    run_bind_of_ok changed]
  exact StoreM.run_borrow_of_ok vault₁ rfl

theorem commitDepositDataSet_first_missing (found : s.vault k = .ok w)
    (before : ∀ x ∈ pre, ∃ v, s.validator k x.pubkey = .ok v)
    (missing : ∀ v, s.validator k r.pubkey ≠ .ok v) :
    (commitDepositDataSet k (pre ++ r :: post)).run s = .error (.validatorNotFound r.pubkey) s := by
  have fails : (do let _ ← StoreM.read (·.validator k r.pubkey) : StoreM PUnit).run s =
      .error (.validatorNotFound r.pubkey) s :=
    run_bind_eq_error.mpr (.inl (StoreM.run_read_eq_error.mpr ⟨validator_of_missing missing, rfl⟩))
  rw [commitDepositDataSet, run_bind_of_ok (StoreM.run_read_of_ok found)]
  refine run_bind_eq_error.mpr (.inl (run_forM_first_error (fun x hx => ?_) fails))
  obtain ⟨_, hv⟩ := before x hx
  exact run_commitLookup_of_found hv

theorem commitDepositDataSet_effect (found : s.vault k = .ok w) {version : Nat}
    (ran : (commitDepositDataSet k set).run s = .ok version s') :
    version = w.version + 1 ∧
      s' = ({ s with nodes := s'.nodes } : Store).modifyVault k
        (fun v => { v with version := v.version + 1, currentSet := set }) ∧
      s'.nodes.map Node.layout = s.nodes.map Node.layout ∧
      ∀ k' pk', s'.validator k' pk' =
        if k = k' ∧ pk' ∈ set.map DepositRecord.pubkey then (s.validator k' pk').map StakeWiseValidator.use
        else s.validator k' pk' := by
  obtain ⟨v, s₁, found', -, changed, layout, only, rfl, rfl⟩ := commitDepositDataSet_ok ran
  rw [found] at found'
  cases found'
  have vault₁ : s₁.vault k = .ok w := (vault_congr (congrArg Store.deployments only) k).trans found
  have after := validator_forM_validatorMut DepositRecord.pubkey StakeWiseValidator.use
    (fun _ => rfl) StakeWiseValidator.use_use changed
  refine ⟨rfl, ?_, layout, fun k' pk' => ?_⟩
  · -- the vault is changed after the validators, and leaves the nodes
    have nodes : ({ s with nodes := (s₁.modifyVault k fun _ =>
        { w with version := w.version + 1, currentSet := set }).nodes } : Store) = s₁ := only.symm
    rw [nodes]
    exact modifyVault_congr vault₁ rfl
  · rw [validator_congr (t := s₁.modifyVault k _) (s := s₁) rfl, after k' pk']

/-! ### Marking validators registered -/

variable {pks : List ValidatorPubkey} {pkPre pkPost : List ValidatorPubkey}

theorem run_registrationCheck_of_uploaded (found : s.validator k pk = .ok v)
    (uploaded : v.status = .uploaded) :
    (StoreM.read fun s => do
      checkStatusTransition pk (← s.validator k pk).status .registered).run s = .ok () s := by
  refine StoreM.run_read_of_ok ?_
  simp only [found, bind, Except.bind]
  exact checkStatusTransition_eq_ok.mpr (canTransitionTo_registered.mpr uploaded)

theorem markValidatorsRegistered_succeeds (found : s.vault k = .ok w)
    (all : ∀ pk ∈ pks, ∃ v, s.validator k pk = .ok v ∧ v.status = .uploaded) :
    ∃ s', (markValidatorsRegistered k pks).run s = .ok () s' := by
  have checks : (pks.forM fun pk => StoreM.read fun s => do
      checkStatusTransition pk (← s.validator k pk).status .registered).run s = .ok ⟨⟩ s :=
    run_forM_of_passes fun pk hpk =>
      have ⟨_, hv, uploaded⟩ := all pk hpk
      run_registrationCheck_of_uploaded hv uploaded
  obtain ⟨s', changed, -, -⟩ := run_forM_validatorMut id
    (fun _ v => { v with status := .registered, active := true }) (fun _ _ => rfl) pks s
    fun pk hpk => have ⟨v, hv, _⟩ := all pk hpk; ⟨v, hv⟩
  refine ⟨s', ?_⟩
  rw [markValidatorsRegistered, run_bind_of_ok (StoreM.run_read_of_ok found), run_bind_of_ok checks]
  exact changed

theorem markValidatorsRegistered_first_refused (found : s.vault k = .ok w)
    (before : ∀ q ∈ pkPre, ∃ v, s.validator k q = .ok v ∧ v.status = .uploaded)
    (refused : (s.validator k pk >>= fun v => checkStatusTransition pk v.status .registered) =
      .error e) :
    (markValidatorsRegistered k (pkPre ++ pk :: pkPost)).run s = .error e s := by
  rw [markValidatorsRegistered, run_bind_of_ok (StoreM.run_read_of_ok found)]
  refine run_bind_eq_error.mpr (.inl (run_forM_first_error (fun q hq => ?_)
    (StoreM.run_read_eq_error.mpr ⟨refused, rfl⟩)))
  obtain ⟨_, hv, uploaded⟩ := before q hq
  exact run_registrationCheck_of_uploaded hv uploaded

theorem markValidatorsRegistered_effect {u : Unit}
    (ran : (markValidatorsRegistered k pks).run s = .ok u s') :
    (∀ pk ∈ pks, ∃ v, s.validator k pk = .ok v ∧ v.status = .uploaded) ∧
      s' = { s with nodes := s'.nodes } ∧ s'.nodes.map Node.layout = s.nodes.map Node.layout ∧
      ∀ k' pk', s'.validator k' pk' =
        if k = k' ∧ pk' ∈ pks then
          (s.validator k' pk').map fun v => { v with status := .registered, active := true }
        else s.validator k' pk' := by
  obtain ⟨checked, changed⟩ := markValidatorsRegistered_run ran
  obtain ⟨layout, only⟩ := markValidatorsRegistered_ok ran
  have after := validator_forM_validatorMut id
    (fun v => { v with status := .registered, active := true }) (fun _ => rfl) (fun _ => rfl) changed
  refine ⟨fun pk hpk => ?_, only, layout, fun k' pk' => by simpa using after k' pk'⟩
  obtain ⟨v, hv, passed⟩ := checked pk hpk
  exact ⟨v, hv, canTransitionTo_registered.mp (checkStatusTransition_eq_ok.mp passed)⟩

/-! ### Marking a validator removed -/

theorem removal_eq (pk : ValidatorPubkey) (v : StakeWiseValidator) :
    (do checkStatusTransition pk v.status .removed; pure { v with status := .removed } :
      Except ServiceFault StakeWiseValidator) =
      if v.status = .removed then .error (.invalidStatusTransition pk .removed .removed)
      else .ok { v with status := .removed } := by
  by_cases gone : v.status = .removed
  · rw [if_pos gone, gone, checkStatusTransition_of_not rfl]
    rfl
  · have passed : checkStatusTransition pk v.status .removed = .ok () :=
      checkStatusTransition_eq_ok.mpr (canTransitionTo_removed.mpr gone)
    rw [if_neg gone, passed]
    rfl

theorem markValidatorRemoved_missing (found : s.vault k = .ok w)
    (missing : ∀ v, s.validator k pk ≠ .ok v) :
    (markValidatorRemoved k pk).run s = .error (.validatorNotFound pk) s := by
  rw [markValidatorRemoved, run_bind_of_ok (StoreM.run_read_of_ok found)]
  exact run_validatorMut_of_missing missing

theorem markValidatorRemoved_removed (found : s.vault k = .ok w) (hv : s.validator k pk = .ok v)
    (gone : v.status = .removed) :
    (markValidatorRemoved k pk).run s = .error (.invalidStatusTransition pk .removed .removed) s := by
  rw [markValidatorRemoved, run_bind_of_ok (StoreM.run_read_of_ok found)]
  exact run_validatorMut_of_refused hv (by rw [removal_eq, if_pos gone])

theorem markValidatorRemoved_effect (found : s.vault k = .ok w) (hv : s.validator k pk = .ok v)
    (live : v.status ≠ .removed) :
    ∃ s', (markValidatorRemoved k pk).run s = .ok () s' ∧ s' = { s with nodes := s'.nodes } ∧
      s'.nodes.map Node.layout = s.nodes.map Node.layout ∧
      ∀ k' pk', s'.validator k' pk' =
        if k = k' ∧ pk = pk' then .ok { v with status := .removed } else s.validator k' pk' := by
  rw [markValidatorRemoved, run_bind_of_ok (StoreM.run_read_of_ok found)]
  exact validatorMut_effect hv (by rw [removal_eq, if_neg live]) rfl

end Store

/-- The administrator's StakeWise changes, on a store satisfying the invariant and an existing
vault. A commit succeeds exactly when every record's key is held for the vault, and otherwise
fails at the first record whose key is not; it raises the vault's version by one, makes the set
current, and marks each named validator used, moving it from pending to uploaded. Marking
validators registered succeeds exactly when every key finds an uploaded validator, and otherwise
fails with the first offending key's fault; it registers and activates each named validator.
Marking a validator removed succeeds exactly when the key finds a validator not yet removed,
and removes it. No other validator changes, and no node gains or loses one. -/
theorem stakewise_admin_changes (s : Store) (h : s.Inv) (k : VaultKey) (w : Vault)
    (found : s.vault k = .ok w) :
    (∀ set : List DepositRecord,
      ((∃ version s', (Store.commitDepositDataSet k set).run s = .ok version s') ↔
        ∀ r ∈ set, r.pubkey ∈ s.pubkeysIn k) ∧
      (∀ pre r post, set = pre ++ r :: post → (∀ x ∈ pre, x.pubkey ∈ s.pubkeysIn k) →
        r.pubkey ∉ s.pubkeysIn k →
        (Store.commitDepositDataSet k set).run s = .error (.validatorNotFound r.pubkey) s) ∧
      ∀ version s', (Store.commitDepositDataSet k set).run s = .ok version s' →
        version = w.version + 1 ∧
        s' = ({ s with nodes := s'.nodes } : Store).modifyVault k
          (fun v => { v with version := v.version + 1, currentSet := set }) ∧
        s'.nodes.map Node.layout = s.nodes.map Node.layout ∧
        ∀ k' pk', s'.validator k' pk' =
          if k = k' ∧ pk' ∈ set.map DepositRecord.pubkey then
            (s.validator k' pk').map fun v =>
              { v with used := true, status := if v.status = .pending then .uploaded else v.status }
          else s.validator k' pk') ∧
    (∀ pks : List ValidatorPubkey,
      ((∃ s', (Store.markValidatorsRegistered k pks).run s = .ok () s') ↔
        ∀ pk ∈ pks, ∃ v, s.validator k pk = .ok v ∧ v.status = .uploaded) ∧
      (∀ pre pk post, pks = pre ++ pk :: post →
        (∀ q ∈ pre, ∃ v, s.validator k q = .ok v ∧ v.status = .uploaded) →
        ((∀ v, s.validator k pk ≠ .ok v) →
          (Store.markValidatorsRegistered k pks).run s = .error (.validatorNotFound pk) s) ∧
        ∀ v, s.validator k pk = .ok v → v.status ≠ .uploaded →
          (Store.markValidatorsRegistered k pks).run s =
            .error (.invalidStatusTransition pk v.status .registered) s) ∧
      ∀ s', (Store.markValidatorsRegistered k pks).run s = .ok () s' →
        s' = { s with nodes := s'.nodes } ∧ s'.nodes.map Node.layout = s.nodes.map Node.layout ∧
        ∀ k' pk', s'.validator k' pk' =
          if k = k' ∧ pk' ∈ pks then
            (s.validator k' pk').map fun v => { v with status := .registered, active := true }
          else s.validator k' pk') ∧
    ∀ pk : ValidatorPubkey,
      ((∀ v, s.validator k pk ≠ .ok v) →
        (Store.markValidatorRemoved k pk).run s = .error (.validatorNotFound pk) s) ∧
      (∀ v, s.validator k pk = .ok v → v.status = .removed →
        (Store.markValidatorRemoved k pk).run s =
          .error (.invalidStatusTransition pk .removed .removed) s) ∧
      ∀ v, s.validator k pk = .ok v → v.status ≠ .removed →
        ∃ s', (Store.markValidatorRemoved k pk).run s = .ok () s' ∧
          s' = { s with nodes := s'.nodes } ∧ s'.nodes.map Node.layout = s.nodes.map Node.layout ∧
          ∀ k' pk', s'.validator k' pk' =
            if k = k' ∧ pk = pk' then .ok { v with status := .removed } else s.validator k' pk' := by
  -- under the invariant, a key held for the vault is a key whose lookup succeeds
  have held {pk : ValidatorPubkey} : (∃ v, s.validator k pk = .ok v) ↔ pk ∈ s.pubkeysIn k :=
    h.validator_ok_iff
  refine ⟨fun set => ⟨⟨?_, ?_⟩, ?_, ?_⟩, fun pks => ⟨⟨?_, ?_⟩, ?_, ?_⟩, fun pk => ⟨?_, ?_, ?_⟩⟩
  -- committing a set
  · rintro ⟨version, s', ran⟩ r hr
    obtain ⟨-, -, -, found_all, -⟩ := Store.commitDepositDataSet_ok ran
    exact held.mp (found_all r hr)
  · intro all
    obtain ⟨s', ran⟩ := Store.commitDepositDataSet_succeeds found fun r hr => held.mpr (all r hr)
    exact ⟨_, s', ran⟩
  · rintro pre r post rfl before missing
    exact Store.commitDepositDataSet_first_missing found (fun x hx => held.mpr (before x hx))
      fun v hv => missing (held.mp ⟨v, hv⟩)
  · intro version s' ran
    exact Store.commitDepositDataSet_effect found ran
  -- marking validators registered
  · rintro ⟨s', ran⟩
    exact (Store.markValidatorsRegistered_effect ran).1
  · exact Store.markValidatorsRegistered_succeeds found
  · rintro pre pk post rfl before
    refine ⟨fun missing => ?_, fun v hv unready => ?_⟩
    · exact Store.markValidatorsRegistered_first_refused found before
        (by rw [Store.validator_of_missing missing]; rfl)
    · have refused : v.status.canTransitionTo .registered = false :=
        Bool.eq_false_iff.mpr fun moves => unready (canTransitionTo_registered.mp moves)
      exact Store.markValidatorsRegistered_first_refused found before
        (by rw [hv]; exact checkStatusTransition_of_not refused)
  · intro s' ran
    exact (Store.markValidatorsRegistered_effect ran).2
  -- marking a validator removed
  · exact Store.markValidatorRemoved_missing found
  · exact fun v hv gone => Store.markValidatorRemoved_removed found hv gone
  · exact fun v hv live => Store.markValidatorRemoved_effect found hv live

theorem sample_vault_admin_changes :
    sampleService.store.Inv ∧
      (∃ s', (Store.commitDepositDataSet sampleVault [recordWithKey 0x22]).run sampleService.store =
        .ok 2 s') ∧
      (Store.markValidatorsRegistered sampleVault [repeatedKey 0x22]).run sampleService.store =
        .error (.invalidStatusTransition (repeatedKey 0x22) .pending .registered) sampleService.store := by
  have inv := sampleService_inv
  obtain ⟨w, found, first⟩ : ∃ w, sampleService.store.vault sampleVault = .ok w ∧ w.version = 1 :=
    ⟨_, rfl, rfl⟩
  have changes := stakewise_admin_changes sampleService.store inv sampleVault w found
  have known : ∀ r ∈ [recordWithKey 0x22], r.pubkey ∈ sampleService.store.pubkeysIn sampleVault := by
    decide
  obtain ⟨version, s', committed⟩ := ((changes.1 [recordWithKey 0x22]).1).2 known
  have bumped := ((changes.1 [recordWithKey 0x22]).2.2 version s' committed).1
  have pending : sampleService.store.validator sampleVault (repeatedKey 0x22) =
      .ok { record := recordWithKey 0x22 } := rfl
  refine ⟨inv, ⟨s', by rw [committed, bumped, first]⟩, ?_⟩
  exact ((changes.2.1 [repeatedKey 0x22]).2.1 [] _ [] rfl (by simp)).2 _ pending (by decide)

end StakingHub
