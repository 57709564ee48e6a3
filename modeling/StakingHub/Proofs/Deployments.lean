import StakingHub.Proofs.Runs

/-!
# Where operations change deployments

A deployment is looked up by name, and a vault by its deployment's name and then its address.
Operations on users, nodes, validators and sessions leave the deployments alone
(`Store.KeepsDeployments`). The others change one deployment that a name found, change one
vault that a key found, or place a deployment of a new name; the lemmas here say what every
lookup finds afterwards, so that later proofs never open `Keyed` tables again.
-/

namespace StakingHub

namespace Store

open StoreM

variable {s s' : Store} {name : String} {d d' : Deployment} {k : VaultKey} {v : Vault}

/-! ### Lookups after a change -/

theorem deployment_congr (same : s'.deployments = s.deployments) (name : String) :
    s'.deployment name = s.deployment name := by
  simp [deployment, same]

theorem deployment_modifyDeployment (found : s.deployment name = .ok d) (keeps : d'.name = name)
    (name' : String) :
    (s.modifyDeployment name fun _ => d').deployment name' =
      if name = name' then .ok d' else s.deployment name' := by
  have lookup := Keyed.get?_modify_const (get?_of_deployment found) keeps name'
  by_cases same : name = name'
  · subst same
    simp [deployment, modifyDeployment, lookup]
  · simp [deployment, modifyDeployment, lookup, same]

theorem deployment_put (d : Deployment) (name' : String) :
    ({ s with deployments := Keyed.put Deployment.name d s.deployments } : Store).deployment name' =
      if d.name = name' then .ok d else s.deployment name' := by
  by_cases same : d.name = name' <;> simp [deployment, Keyed.get?_put, same]

theorem vault_of_deployment (found : s.deployment k.deployment = .ok d) :
    s.vault k = match Keyed.get? Vault.address k.vault d.vaults with
      | some v => .ok v
      | none => .error (.vaultNotFound k.vault) := by
  simp only [vault, found]
  rfl

theorem vault_congr_deployment (same : s'.deployment k.deployment = s.deployment k.deployment) :
    s'.vault k = s.vault k := by
  simp only [vault, same]

theorem deployment_of_vault (found : s.vault k = .ok v) :
    ∃ d, s.deployment k.deployment = .ok d ∧ Keyed.get? Vault.address k.vault d.vaults = some v := by
  obtain ⟨d, hd, hv⟩ := vault_eq_ok found
  exact ⟨d, by simp [deployment, hd], hv⟩

theorem vault_modifyDeployment (found : s.deployment name = .ok d) (keeps : d'.name = name)
    (vaults : d'.vaults = d.vaults) (k : VaultKey) :
    (s.modifyDeployment name fun _ => d').vault k = s.vault k := by
  by_cases same : name = k.deployment
  · have after : (s.modifyDeployment name fun _ => d').deployment k.deployment = .ok d' := by
      rw [deployment_modifyDeployment found keeps, if_pos same]
    rw [vault_of_deployment after, vault_of_deployment (same ▸ found), vaults]
  · have after := deployment_modifyDeployment found keeps k.deployment
    rw [if_neg same] at after
    simp only [vault, after]

theorem deployment_modifyVault (f : Vault → Vault) (name' : String) :
    (s.modifyVault k f).deployment name' =
      if k.deployment = name' then (s.deployment name').map fun e =>
        { e with vaults := Keyed.modify Vault.address k.vault f e.vaults }
      else s.deployment name' := by
  have lookup := Keyed.get?_modify Deployment.name k.deployment name'
    (fun e => { e with vaults := Keyed.modify Vault.address k.vault f e.vaults }) (fun _ => rfl)
    s.deployments
  by_cases same : k.deployment = name'
  · subst same
    cases hd : Keyed.get? Deployment.name k.deployment s.deployments <;>
      simp [deployment, modifyVault, lookup, hd, Except.map]
  · simp [deployment, modifyVault, lookup, same]

theorem vault_modifyVault {f : Vault → Vault} (keeps : ∀ w, (f w).address = w.address)
    (k' : VaultKey) :
    (s.modifyVault k f).vault k' = if k = k' then (s.vault k).map f else s.vault k' := by
  have after := deployment_modifyVault (s := s) (k := k) f k'.deployment
  by_cases same_d : k.deployment = k'.deployment
  · rw [if_pos same_d] at after
    cases hd : s.deployment k'.deployment with
    | error e =>
      have before : s.vault k' = .error e := by simp [vault, hd, bind, Except.bind]
      rw [hd] at after
      have failed : (s.modifyVault k f).vault k' = .error e := by
        simp [vault, after, bind, Except.bind, Except.map]
      by_cases same : k = k'
      · subst same
        simp [failed, before, Except.map]
      · simp [failed, before, same]
    | ok e =>
      rw [hd] at after
      rw [vault_of_deployment after, vault_of_deployment hd]
      have vaults := Keyed.get?_modify Vault.address k.vault k'.vault f keeps e.vaults
      simp only [Except.map] at vaults ⊢
      by_cases same_v : k.vault = k'.vault
      · have same : k = k' := by cases k; cases k'; simp_all
        subst same
        rw [vault_of_deployment hd]
        cases hv : Keyed.get? Vault.address k.vault e.vaults <;> simp [vaults, hv]
      · have apart : k ≠ k' := fun same => same_v (same ▸ rfl)
        simp [vaults, same_v, apart]
  · have apart : k ≠ k' := fun same => same_d (same ▸ rfl)
    rw [if_neg same_d] at after
    simp only [apart, if_false, vault, after]

theorem vault_addVault (found : s.deployment name = .ok d) (a : Address) (k : VaultKey) :
    (s.modifyDeployment name fun _ =>
        { d with vaults := Keyed.put Vault.address { address := a } d.vaults }).vault k =
      if k = ⟨name, a⟩ then .ok { address := a } else s.vault k := by
  have named := @deployment_modifyDeployment _ _ _
    { d with vaults := Keyed.put Vault.address { address := a } d.vaults } found
    (mem_of_deployment found).2 k.deployment
  by_cases same : name = k.deployment
  · -- the key names the deployment changed, so the address decides
    rw [if_pos same] at named
    rw [vault_of_deployment named, Keyed.get?_put, vault_of_deployment (same ▸ found)]
    have at_key : k = ⟨name, a⟩ ↔ a = k.vault := by
      obtain ⟨name', a'⟩ := k
      simp only at same ⊢
      subst same
      simp [eq_comm]
    by_cases at_a : a = k.vault
    · rw [if_pos at_a, if_pos (at_key.mpr at_a)]
    · rw [if_neg at_a, if_neg (mt at_key.mp at_a)]
  · have apart : k ≠ ⟨name, a⟩ := by
      rintro rfl
      exact same rfl
    rw [if_neg same] at named
    rw [if_neg apart]
    exact vault_congr_deployment named

/-! ### Operations that leave the deployments alone -/

/-- A store operation that never changes the deployments. -/
def KeepsDeployments {α : Type} (m : StoreM α) : Prop :=
  Keeps (fun s s' => s'.deployments = s.deployments) m

theorem keepsDeployments_of_nodes {α : Type} {m : StoreM α}
    (only : ∀ s a s', m.run s = .ok a s' → s' = { s with nodes := s'.nodes }) :
    KeepsDeployments m := by
  intro s a s' ran
  rw [only s a s' ran]

theorem addUser_keepsDeployments (email : String) : KeepsDeployments (addUser email) := by
  intro s _ s' ran
  rw [(addUser_ok ran).2]

theorem whitelistNode_keepsDeployments (email : String) (a : Address) :
    KeepsDeployments (whitelistNode email a) := by
  intro s _ s' ran
  obtain ⟨-, -, -, rfl⟩ := whitelistNode_ok ran
  rfl

theorem register_keepsDeployments (templates : Templates) (email : String) (a : Address)
    (sig : Signature) : KeepsDeployments (register templates email a sig) := by
  intro s _ s' ran
  obtain ⟨n, -, -, -, -, rfl⟩ := register_ok ran
  rfl

theorem login_keepsDeployments (templates : Templates) (policy : NoncePolicy) (a : Address)
    (nonce : String) (sig : Signature) : KeepsDeployments (login templates policy a nonce sig) := by
  intro s _ s' ran
  obtain ⟨-, -, x, -, -, -, -, rfl⟩ := login_ok ran
  rfl

theorem logout_keepsDeployments (token : String) : KeepsDeployments (logout token) := by
  intro s _ s' ran
  rw [(logout_ok ran).2]

theorem markValidatorsRegistered_keepsDeployments (k : VaultKey) (pks : List ValidatorPubkey) :
    KeepsDeployments (markValidatorsRegistered k pks) :=
  keepsDeployments_of_nodes fun _ _ _ ran => (markValidatorsRegistered_ok ran).2

theorem markValidatorRemoved_keepsDeployments (k : VaultKey) (pk : ValidatorPubkey) :
    KeepsDeployments (markValidatorRemoved k pk) :=
  keepsDeployments_of_nodes fun _ _ _ ran => (markValidatorRemoved_ok ran).2

theorem overrideValidatorStatus_keepsDeployments (k : VaultKey) (pk : ValidatorPubkey)
    (status : ValidatorStatus) : KeepsDeployments (overrideValidatorStatus k pk status) :=
  keepsDeployments_of_nodes fun _ _ _ ran => (overrideValidatorStatus_ok ran).2

theorem uploadSignedExits_keepsDeployments (k : VaultKey) (a : Address)
    (exits : List EncryptedExit) : KeepsDeployments (uploadSignedExits k a exits) := by
  intro s _ s' ran
  obtain ⟨n, opened, -, -, -, -, rfl⟩ := uploadSignedExits_ok ran
  rfl

end Store

end StakingHub
