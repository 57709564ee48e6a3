import StakingHub.Proofs.Invariant

/-!
# Deposit uploads keep the store's invariant

A batch of deposit records is filtered against the keys its vault knows (`freshRecords`): a
record is taken when its key is new to the vault and to the records taken before it. So the
records taken are part of the batch, their keys are distinct and new to the vault, and the vault
then knows its old keys and theirs. The uploading node appends them to its list for the vault:
the keys stored for that vault grow by exactly the keys taken, and no other vault's keys change.
-/

namespace StakingHub

section FreshRecords

variable (known : List ValidatorPubkey) (records : List DepositRecord)

theorem freshRecords_sublist : (freshRecords known records).1.Sublist records := by
  induction records generalizing known with
  | nil => simp [freshRecords]
  | cons r rs ih =>
    by_cases seen : known.contains r.pubkey
    · rw [freshRecords, if_pos seen]
      exact (ih known).cons r
    · rw [freshRecords, if_neg seen]
      exact (ih _).cons_cons r

theorem mem_freshRecords_known (pk : ValidatorPubkey) :
    pk ∈ (freshRecords known records).2 ↔
      pk ∈ known ∨ pk ∈ (freshRecords known records).1.map DepositRecord.pubkey := by
  induction records generalizing known with
  | nil => simp [freshRecords]
  | cons r rs ih =>
    by_cases seen : known.contains r.pubkey
    · rw [freshRecords, if_pos seen]
      exact ih known
    · rw [freshRecords, if_neg seen]
      simp only [List.map_cons, List.mem_cons]
      rw [ih, Keyed.mem_put_id, @or_comm (pk = r.pubkey), or_assoc]

theorem not_mem_of_mem_freshRecords {x : DepositRecord} (hx : x ∈ (freshRecords known records).1) :
    x.pubkey ∉ known := by
  induction records generalizing known with
  | nil => simp [freshRecords] at hx
  | cons r rs ih =>
    by_cases seen : known.contains r.pubkey
    · rw [freshRecords, if_pos seen] at hx
      exact ih known hx
    · rw [freshRecords, if_neg seen, List.mem_cons] at hx
      rcases hx with rfl | hx
      · simpa using seen
      · exact fun mem => ih _ hx (Keyed.mem_put_id.mpr (.inr mem))

theorem nodup_freshRecords : ((freshRecords known records).1.map DepositRecord.pubkey).Nodup := by
  induction records generalizing known with
  | nil => simp [freshRecords]
  | cons r rs ih =>
    by_cases seen : known.contains r.pubkey
    · rw [freshRecords, if_pos seen]
      exact ih known
    · rw [freshRecords, if_neg seen]
      simp only [List.map_cons, List.nodup_cons]
      refine ⟨fun mem => ?_, ih _⟩
      obtain ⟨x, hx, same⟩ := List.mem_map.mp mem
      exact not_mem_of_mem_freshRecords _ rs hx (same ▸ Keyed.mem_put_id.mpr (.inl rfl))

end FreshRecords

theorem Node.validatorsIn_appendValidators (n : Node) (k k' : VaultKey)
    (vs : List StakeWiseValidator) :
    (n.appendValidators k vs).validatorsIn k' =
      if k = k' then n.validatorsIn k ++ vs else n.validatorsIn k' := by
  by_cases same : k = k'
  · subst same
    simp [Node.validatorsIn, Node.appendValidators, Keyed.get?_put]
  · simp [Node.validatorsIn, Node.appendValidators, Keyed.get?_put, same]

namespace Store

variable {s : Store} {a : Address} {n : Node} {k : VaultKey}

theorem pubkeysIn_appendValidators (first : s.node? a = some n) (vs : List StakeWiseValidator)
    (k' : VaultKey) :
    ((s.modifyNode a fun _ => n.appendValidators k vs).pubkeysIn k').Perm
      (s.pubkeysIn k' ++ if k = k' then vs.map StakeWiseValidator.pubkey else []) := by
  refine Keyed.flatMap_modifyFirst_perm _ _ _ _ first ?_
  rw [Node.validatorsIn_appendValidators]
  by_cases same : k = k'
  · subst same
    simp
  · simp [same]

theorem vaultKeys_modifyVault {f : Vault → Vault}
    (keeps : ∀ w, w.address = k.vault → (f w).address = k.vault) :
    (s.modifyVault k f).vaultKeys = s.vaultKeys := by
  simp only [vaultKeys, modifyVault, List.flatMap_def]
  congr 1
  refine Keyed.map_modifyFirst _ _ _ _ fun d _ => ?_
  have addresses := congrArg (List.map (VaultKey.mk d.name)) (Keyed.map_key_modify keeps d.vaults)
  simpa [List.map_map, Function.comp_def] using addresses

theorem names_modifyVault {f : Vault → Vault} :
    (s.modifyVault k f).deployments.map Deployment.name = s.deployments.map Deployment.name := by
  simp only [modifyVault]
  exact Keyed.map_modifyFirst _ _ _ _ fun _ _ => rfl

theorem Inv.mem_modifyVault (h : s.Inv) {f : Vault → Vault}
    (keeps : ∀ w, w.address = k.vault → (f w).address = k.vault) {d : Deployment} {w : Vault}
    (hd : d ∈ (s.modifyVault k f).deployments) (hw : w ∈ d.vaults) :
    (∃ d' ∈ s.deployments, d'.name = d.name ∧ w ∈ d'.vaults ∧
        (⟨d.name, w.address⟩ : VaultKey) ≠ k) ∨
      ((⟨d.name, w.address⟩ : VaultKey) = k ∧
        ∃ d' ∈ s.deployments, ∃ u ∈ d'.vaults, d'.name = k.deployment ∧ u.address = k.vault ∧
          w = f u) := by
  rcases (Keyed.mem_modify_iff (Keyed.nodup_of_sorted h.deployments_sorted)).mp hd with
    ⟨hd, other⟩ | ⟨d', hd', name, rfl⟩
  · exact .inl ⟨d, hd, rfl, hw, fun same => other (congrArg VaultKey.deployment same)⟩
  · rcases (Keyed.mem_modify_iff (Keyed.nodup_of_sorted (h.vaults_sorted d' hd'))).mp hw with
      ⟨hw, other⟩ | ⟨u, hu, address, rfl⟩
    · exact .inl ⟨d', hd', rfl, hw, fun same => other (congrArg VaultKey.vault same)⟩
    · refine .inr ⟨?_, d', hd', u, hu, name, address, rfl⟩
      rw [name, keeps u address]

theorem mem_modifyVault_deployments {f : Vault → Vault} {d : Deployment}
    (hd : d ∈ (s.modifyVault k f).deployments) :
    ∃ d' ∈ s.deployments, d'.name = d.name ∧ d'.minipools = d.minipools ∧
      (d.vaults = d'.vaults ∨ d.vaults = Keyed.modify Vault.address k.vault f d'.vaults) := by
  rcases Keyed.mem_modifyFirst hd with hd | ⟨d', hd', -, rfl⟩
  · exact ⟨d, hd, rfl, rfl, .inl rfl⟩
  · exact ⟨d', hd', rfl, rfl, .inr rfl⟩

theorem Inv.uploadDepositData (h : s.Inv) {records : List DepositRecord} {v : Vault}
    {fresh : List DepositRecord} {known : List ValidatorPubkey}
    (registered : s.registeredNode a = .ok n) (checked : checkDepositBatch records k.vault = .ok ())
    (found : s.vault k = .ok v) (taken : freshRecords v.knownPubkeys records = (fresh, known)) :
    ((s.modifyVault k fun _ => { v with knownPubkeys := known }).modifyNode a
        fun _ => n.appendValidators k (fresh.map fun r => { record := r })).Inv := by
  have first : s.node? a = some n := node?_of_whitelistedNode (whitelistedNode_of_registeredNode registered)
  obtain ⟨hn, n_address⟩ := mem_of_node? first
  have n_registered := registered_of_registeredNode registered
  obtain ⟨d, hd_get, hv_get⟩ := vault_eq_ok found
  obtain ⟨hd, d_name⟩ := Keyed.get?_eq_some hd_get
  obtain ⟨hv, v_address⟩ := Keyed.get?_eq_some hv_get
  have stored : ∀ pk, pk ∈ s.pubkeysIn k ↔ pk ∈ v.knownPubkeys := by
    have exact := h.known_exact d hd v hv
    rwa [d_name, v_address] at exact
  have fresh_sub : ∀ r ∈ fresh, r ∈ records := by
    have sub := freshRecords_sublist v.knownPubkeys records
    rw [taken] at sub
    exact fun r hr => sub.subset hr
  have fresh_new : ∀ r ∈ fresh, r.pubkey ∉ v.knownPubkeys := by
    have new : ∀ r ∈ (freshRecords v.knownPubkeys records).1, r.pubkey ∉ v.knownPubkeys :=
      fun r hr => not_mem_of_mem_freshRecords _ _ hr
    rwa [taken] at new
  have fresh_nodup := nodup_freshRecords v.knownPubkeys records
  rw [taken] at fresh_nodup
  have known_iff := mem_freshRecords_known v.knownPubkeys records
  rw [taken] at known_iff
  have fresh_keys : (fresh.map fun r => ({ record := r } : StakeWiseValidator)).map
      StakeWiseValidator.pubkey = fresh.map DepositRecord.pubkey := by
    simp [StakeWiseValidator.pubkey, Function.comp_def]
  generalize hn' : n.appendValidators k (fresh.map fun r => { record := r }) = n'
  have n'_address : n'.address = a := by rw [← hn', ← n_address]; rfl
  have n'_owner : n'.owner = n.owner := by rw [← hn']; rfl
  have n'_registered : n'.registered = true := by rw [← hn']; exact n_registered
  have n'_stakewise : n'.stakewise =
      Keyed.put Prod.fst (k, n.validatorsIn k ++ fresh.map fun r => { record := r }) n.stakewise := by
    rw [← hn']; rfl
  have keeps : ∀ w : Vault, w.address = k.vault →
      ({ v with knownPubkeys := known } : Vault).address = k.vault := fun _ _ => v_address
  generalize hs' : (s.modifyVault k fun _ => { v with knownPubkeys := known }).modifyNode a
    (fun _ => n') = s'
  have nodes : ∀ m, m ∈ s'.nodes ↔ (m ∈ s.nodes ∧ m.address ≠ a) ∨ m = n' := by
    intro m
    rw [← hs']
    exact Keyed.mem_modify_const_iff (Keyed.nodup_of_sorted h.nodes_sorted) hn n_address
  have addresses : s'.nodes.map Node.address = s.nodes.map Node.address := by
    rw [← hs']
    exact Keyed.map_key_modify (fun _ _ => n'_address) s.nodes
  have pubkeys : ∀ k', (s'.pubkeysIn k').Perm
      (s.pubkeysIn k' ++ if k = k' then fresh.map DepositRecord.pubkey else []) := by
    intro k'
    rw [← hs', ← hn', ← fresh_keys]
    exact pubkeysIn_appendValidators (s := s.modifyVault k _) first _ k'
  have others : ∀ k' pk, k ≠ k' → (pk ∈ s'.pubkeysIn k' ↔ pk ∈ s.pubkeysIn k') := by
    intro k' pk other
    have moved : pk ∈ s'.pubkeysIn k' ↔ _ := (pubkeys k').mem_iff
    simpa [other] using moved
  have vaultKeys_eq : s'.vaultKeys = s.vaultKeys := by
    rw [← hs']
    exact vaultKeys_modifyVault keeps
  subst hs'
  refine
    { h with
      nodes_sorted := Keyed.sorted_congr addresses.symm h.nodes_sorted
      stakewise_sorted := ?_
      deployments_sorted := Keyed.sorted_congr names_modifyVault.symm h.deployments_sorted
      vaults_sorted := ?_
      minipools_sorted := ?_
      listed_once := ?_
      owner_exists := ?_
      listed_whitelisted := fun u hu b hb => addresses ▸ h.listed_whitelisted u hu b hb
      verified_registered := ?_
      stakewise_registered := ?_
      withdraws_to_vault := ?_
      pubkeys_nodup := ?_
      known_exact := ?_
      minipool_nodes := ?_ }
  · intro m hm
    rcases (nodes m).mp hm with ⟨hm, -⟩ | rfl
    · exact h.stakewise_sorted m hm
    · rw [n'_stakewise]
      exact Keyed.sorted_put (h.stakewise_sorted n hn)
  · intro d' hd'
    obtain ⟨z, hz, -, -, same | changed⟩ := mem_modifyVault_deployments hd'
    · rw [same]
      exact h.vaults_sorted z hz
    · rw [changed]
      exact Keyed.sorted_congr (Keyed.map_key_modify keeps z.vaults).symm (h.vaults_sorted z hz)
  · intro d' hd'
    obtain ⟨z, hz, -, minipools, -⟩ := mem_modifyVault_deployments hd'
    exact minipools ▸ h.minipools_sorted z hz
  · intro m hm u hu
    rcases (nodes m).mp hm with ⟨hm, -⟩ | rfl
    · exact h.listed_once m hm u hu
    · rw [n'_address, ← n_address, n'_owner]
      exact h.listed_once n hn u hu
  · intro m hm
    rcases (nodes m).mp hm with ⟨hm, -⟩ | rfl
    · exact h.owner_exists m hm
    · exact n'_owner ▸ h.owner_exists n hn
  · intro x hx b hb
    obtain ⟨m, hm, rfl, registered⟩ := h.verified_registered x hx b hb
    by_cases at_a : m.address = a
    · exact ⟨n', (nodes n').mpr (.inr rfl), n'_address.trans at_a.symm, n'_registered⟩
    · exact ⟨m, (nodes m).mpr (.inl ⟨hm, at_a⟩), rfl, registered⟩
  · intro m hm e he
    rw [vaultKeys_eq]
    rcases (nodes m).mp hm with ⟨hm, -⟩ | rfl
    · exact h.stakewise_registered m hm e he
    · rw [n'_stakewise] at he
      rcases Keyed.mem_put he with rfl | he
      · exact ⟨n'_registered, mem_vaultKeys_of_vault found⟩
      · exact ⟨n'_registered, (h.stakewise_registered n hn e he).2⟩
  · intro m hm e he w hw
    rcases (nodes m).mp hm with ⟨hm, -⟩ | rfl
    · exact h.withdraws_to_vault m hm e he w hw
    · rw [n'_stakewise] at he
      rcases Keyed.mem_put he with rfl | he
      · show w.record.withdrawalAddress = k.vault
        rcases List.mem_append.mp hw with hw | hw
        · -- a validator the node held for the vault
          obtain ⟨e', he', key, hw'⟩ := Node.mem_validatorsIn hw
          rw [← key]
          exact h.withdraws_to_vault n hn e' he' w hw'
        · -- a validator of the batch
          obtain ⟨r, hr, rfl⟩ := List.mem_map.mp hw
          exact withdraws_of_checkDepositBatch checked r (fresh_sub r hr)
      · exact h.withdraws_to_vault n hn e he w hw
  · intro k'
    refine (pubkeys k').nodup_iff.mpr ?_
    by_cases same : k = k'
    · subst same
      rw [if_pos rfl]
      refine List.nodup_append.mpr ⟨h.pubkeys_nodup k, fresh_nodup, ?_⟩
      intro pk hpk pk' hpk' same
      obtain ⟨r, hr, rfl⟩ := List.mem_map.mp hpk'
      exact fresh_new r hr (same ▸ (stored pk).mp hpk)
    · rw [if_neg same, List.append_nil]
      exact h.pubkeys_nodup k'
  · intro d' hd' w hw pk
    rcases h.mem_modifyVault keeps hd' hw with ⟨z, hz, name, hw', other⟩ | ⟨key, -, -, -, -, -, -, rfl⟩
    · -- another vault: its keys and what it knows stay
      rw [others _ pk (Ne.symm other), ← name]
      exact h.known_exact z hz w hw' pk
    · -- the vault of the upload knows its old keys and the keys taken
      rw [key, (pubkeys k).mem_iff, if_pos rfl, List.mem_append, stored]
      exact (known_iff pk).symm
  · intro d' hd' m hm
    obtain ⟨z, hz, -, minipools, -⟩ := mem_modifyVault_deployments hd'
    exact addresses ▸ h.minipool_nodes z hz m (minipools ▸ hm)

end Store

end StakingHub
