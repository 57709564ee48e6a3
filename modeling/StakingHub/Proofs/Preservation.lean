import StakingHub.Proofs.Deposits
import StakingHub.Proofs.Atomic

/-!
# Every operation keeps the store's invariant

Each operation of the store is opened with its lemma from `Effects` and closed with the
invariant's lemma for the change it made. The changes to deployments come first: adding one,
adding a vault, replacing its minipool validators, and changing one in a way that keeps its
layout (admin key, minipool limit, replay counters, exit messages).

A service keeps the invariant in its live store and in every snapshot: a snapshot is a copy of
the live store, and reverting brings one back. A failed operation leaves the service as it was.
So every state reached from a new service satisfies the invariant.
-/

namespace StakingHub

namespace Store

open StoreM

variable {s : Store} {name : String} {d : Deployment}

/-! ### Deployments -/

theorem get?_of_deployment (found : s.deployment name = .ok d) :
    Keyed.get? Deployment.name name s.deployments = some d := by
  unfold deployment at found
  split at found <;> simp_all

theorem mem_of_deployment (found : s.deployment name = .ok d) :
    d ∈ s.deployments ∧ d.name = name :=
  Keyed.get?_eq_some (get?_of_deployment found)

theorem Inv.eq_of_deployment (h : s.Inv) (found : s.deployment name = .ok d) {e : Deployment}
    (he : e ∈ s.deployments) (same : e.name = name) : e = d := by
  have located := Keyed.get?_eq_some_of_mem h.deployments_sorted he
  rw [same, get?_of_deployment found] at located
  exact (Option.some.inj located).symm

theorem Inv.mem_modifyDeployment (h : s.Inv) (found : s.deployment name = .ok d)
    {d' e : Deployment} :
    e ∈ (s.modifyDeployment name fun _ => d').deployments ↔
      (e ∈ s.deployments ∧ e.name ≠ name) ∨ e = d' :=
  Keyed.mem_modify_const_iff (Keyed.nodup_of_sorted h.deployments_sorted)
    (mem_of_deployment found).1 (mem_of_deployment found).2

theorem layout_modifyDeployment (found : s.deployment name = .ok d) {d' : Deployment}
    (keeps : d'.layout = d.layout) :
    (s.modifyDeployment name fun _ => d').deployments.map Deployment.layout =
      s.deployments.map Deployment.layout :=
  Keyed.map_modifyFirst _ _ _ _ fun y hy => by
    have same : y = d := Option.some.inj (hy.symm.trans (get?_of_deployment found))
    rw [same]
    exact keeps

theorem vaultKeys_modifyDeployment (found : s.deployment name = .ok d) {d' : Deployment}
    (name_eq : d'.name = d.name) (vaults_eq : d'.vaults = d.vaults) :
    (s.modifyDeployment name fun _ => d').vaultKeys = s.vaultKeys := by
  simp only [vaultKeys, modifyDeployment, List.flatMap_def]
  congr 1
  refine Keyed.map_modifyFirst _ _ _ _ fun y hy => ?_
  have same : y = d := Option.some.inj (hy.symm.trans (get?_of_deployment found))
  rw [same, name_eq, vaults_eq]

theorem Inv.modifyDeployment_layout (h : s.Inv) (found : s.deployment name = .ok d)
    {d' : Deployment} (keeps : d'.layout = d.layout) : (s.modifyDeployment name fun _ => d').Inv :=
  h.deployments_congr (layout_modifyDeployment found keeps)

theorem Inv.addDeployment (h : s.Inv)
    (fresh : Keyed.contains Deployment.name d.name s.deployments = false)
    (no_vaults : d.vaults = []) (no_minipools : d.minipools = []) :
    ({ s with deployments := Keyed.put Deployment.name d s.deployments } : Store).Inv := by
  have deployments : ∀ e, e ∈ Keyed.put Deployment.name d s.deployments ↔ e = d ∨ e ∈ s.deployments :=
    fun e => Keyed.mem_put_of_not_contains fresh
  have keys : ∀ k, k ∈ ({ s with deployments := Keyed.put Deployment.name d s.deployments } :
      Store).vaultKeys ↔ k ∈ s.vaultKeys := by
    intro k
    have moved := (Keyed.put_perm fresh).flatMap_right
      (fun e : Deployment => e.vaults.map fun v => (⟨e.name, v.address⟩ : VaultKey))
    have mem : k ∈ _ ↔ k ∈ _ := moved.mem_iff
    simpa [vaultKeys, no_vaults] using mem
  refine
    { h with
      deployments_sorted := Keyed.sorted_put h.deployments_sorted
      vaults_sorted := ?_
      minipools_sorted := ?_
      stakewise_registered := ?_
      known_exact := ?_
      minipool_nodes := ?_ }
  · intro e he
    rcases (deployments e).mp he with rfl | he
    · simp [Keyed.Sorted, no_vaults]
    · exact h.vaults_sorted e he
  · intro e he
    rcases (deployments e).mp he with rfl | he
    · simp [Keyed.Sorted, no_minipools]
    · exact h.minipools_sorted e he
  · intro n hn e he
    obtain ⟨registered, key⟩ := h.stakewise_registered n hn e he
    exact ⟨registered, (keys e.1).mpr key⟩
  · intro e he v hv pk
    rcases (deployments e).mp he with rfl | he
    · simp [no_vaults] at hv
    · exact h.known_exact e he v hv pk
  · intro e he m hm
    rcases (deployments e).mp he with rfl | he
    · simp [no_minipools] at hm
    · exact h.minipool_nodes e he m hm

theorem Inv.addVault (h : s.Inv) {a : Address} (found : s.deployment name = .ok d)
    (fresh : Keyed.contains Vault.address a d.vaults = false) :
    (s.modifyDeployment name fun _ =>
      { d with vaults := Keyed.put Vault.address { address := a } d.vaults }).Inv := by
  obtain ⟨hd, d_name⟩ := mem_of_deployment found
  generalize hd' : ({ d with vaults := Keyed.put Vault.address { address := a } d.vaults } :
    Deployment) = d'
  have d'_name : d'.name = d.name := by rw [← hd']
  have d'_minipools : d'.minipools = d.minipools := by rw [← hd']
  have vaults : ∀ w, w ∈ d'.vaults ↔ w = { address := a } ∨ w ∈ d.vaults := by
    intro w
    rw [← hd']
    exact Keyed.mem_put_of_not_contains fresh
  have deployments : ∀ e, e ∈ (s.modifyDeployment name fun _ => d').deployments ↔
      (e ∈ s.deployments ∧ e.name ≠ name) ∨ e = d' := fun e => h.mem_modifyDeployment found
  have names : (s.modifyDeployment name fun _ => d').deployments.map Deployment.name =
      s.deployments.map Deployment.name :=
    Keyed.map_key_modify (fun _ _ => d'_name.trans d_name) s.deployments
  have kept : ∀ k ∈ s.vaultKeys, k ∈ (s.modifyDeployment name fun _ => d').vaultKeys := by
    intro k hk
    obtain ⟨e, he, w, hw, name_eq, address_eq⟩ := mem_vaultKeys.mp hk
    by_cases at_name : e.name = name
    · obtain rfl := h.eq_of_deployment found he at_name
      refine mem_vaultKeys.mpr ⟨d', (deployments d').mpr (.inr rfl), w, (vaults w).mpr (.inr hw), ?_,
        address_eq⟩
      rw [d'_name, name_eq]
    · exact mem_vaultKeys.mpr ⟨e, (deployments e).mpr (.inl ⟨he, at_name⟩), w, hw, name_eq,
        address_eq⟩
  have unused : ∀ pk, pk ∉ s.pubkeysIn ⟨d.name, a⟩ := by
    intro pk stored
    obtain ⟨e, he, w, hw, name_eq, address_eq⟩ := mem_vaultKeys.mp (h.vault_of_mem_pubkeysIn stored)
    obtain rfl := h.eq_of_deployment found he (name_eq.trans d_name)
    exact Keyed.key_ne_of_contains_eq_false fresh hw address_eq
  refine
    { h with
      deployments_sorted := Keyed.sorted_congr names.symm h.deployments_sorted
      vaults_sorted := ?_
      minipools_sorted := ?_
      stakewise_registered := fun n hn e he =>
        ⟨(h.stakewise_registered n hn e he).1, kept _ (h.stakewise_registered n hn e he).2⟩
      known_exact := ?_
      minipool_nodes := ?_ }
  · intro e he
    rcases (deployments e).mp he with ⟨he, -⟩ | rfl
    · exact h.vaults_sorted e he
    · rw [← hd']
      exact Keyed.sorted_put (h.vaults_sorted d hd)
  · intro e he
    rcases (deployments e).mp he with ⟨he, -⟩ | rfl
    · exact h.minipools_sorted e he
    · exact d'_minipools ▸ h.minipools_sorted d hd
  · intro e he w hw pk
    rcases (deployments e).mp he with ⟨he, -⟩ | rfl
    · exact h.known_exact e he w hw pk
    · rw [d'_name]
      rcases (vaults w).mp hw with rfl | hw
      · -- the new vault: nothing is stored for it and it knows nothing
        exact iff_of_false (unused pk) List.not_mem_nil
      · exact h.known_exact d hd w hw pk
  · intro e he m hm
    rcases (deployments e).mp he with ⟨he, -⟩ | rfl
    · exact h.minipool_nodes e he m hm
    · exact h.minipool_nodes d hd m (d'_minipools ▸ hm)

theorem Inv.setMinipools (h : s.Inv) (found : s.deployment name = .ok d)
    {ms : List MinipoolValidator} (sorted : Keyed.Sorted MinipoolValidator.pubkey ms)
    (whitelisted : ∀ m ∈ ms, m.node ∈ s.nodes.map Node.address) :
    (s.modifyDeployment name fun _ => { d with minipools := ms }).Inv := by
  obtain ⟨hd, d_name⟩ := mem_of_deployment found
  have deployments : ∀ e, e ∈ (s.modifyDeployment name fun _ => { d with minipools := ms }).deployments ↔
      (e ∈ s.deployments ∧ e.name ≠ name) ∨ e = { d with minipools := ms } :=
    fun e => h.mem_modifyDeployment found
  have names : (s.modifyDeployment name fun _ => { d with minipools := ms }).deployments.map
      Deployment.name = s.deployments.map Deployment.name :=
    Keyed.map_key_modify (f := fun _ => { d with minipools := ms }) (fun _ _ => d_name) s.deployments
  have keys : (s.modifyDeployment name fun _ => { d with minipools := ms }).vaultKeys = s.vaultKeys :=
    vaultKeys_modifyDeployment found rfl rfl
  refine
    { h with
      deployments_sorted := Keyed.sorted_congr names.symm h.deployments_sorted
      vaults_sorted := ?_
      minipools_sorted := ?_
      stakewise_registered := fun n hn e he => keys ▸ h.stakewise_registered n hn e he
      known_exact := ?_
      minipool_nodes := ?_ }
  · intro e he
    rcases (deployments e).mp he with ⟨he, -⟩ | rfl
    · exact h.vaults_sorted e he
    · exact h.vaults_sorted d hd
  · intro e he
    rcases (deployments e).mp he with ⟨he, -⟩ | rfl
    · exact h.minipools_sorted e he
    · exact sorted
  · intro e he w hw pk
    rcases (deployments e).mp he with ⟨he, -⟩ | rfl
    · exact h.known_exact e he w hw pk
    · exact h.known_exact d hd w hw pk
  · intro e he m hm
    rcases (deployments e).mp he with ⟨he, -⟩ | rfl
    · exact h.minipool_nodes e he m hm
    · exact whitelisted m hm

theorem Inv.addMinipool (h : s.Inv) {a minipool : Address} {pk : ValidatorPubkey}
    (whitelisted : ∃ n, s.whitelistedNode a = .ok n) (found : s.deployment name = .ok d)
    (fresh : Keyed.contains MinipoolValidator.pubkey pk d.minipools = false) :
    (s.modifyDeployment name fun _ => { d with
      minipools := Keyed.put MinipoolValidator.pubkey { pubkey := pk, node := a, minipool }
        d.minipools }).Inv := by
  obtain ⟨hd, -⟩ := mem_of_deployment found
  obtain ⟨n, hn⟩ := whitelisted
  obtain ⟨n_mem, n_address⟩ := mem_of_node? (node?_of_whitelistedNode hn)
  refine h.setMinipools found (Keyed.sorted_put (h.minipools_sorted d hd)) fun m hm => ?_
  rcases (Keyed.mem_put_of_not_contains fresh).mp hm with rfl | hm
  · exact n_address ▸ List.mem_map_of_mem n_mem
  · exact h.minipool_nodes d hd m hm

/-! ### Changes that keep layouts -/

theorem layout_modifyNode {a : Address} {n n' : Node} (first : s.node? a = some n)
    (keeps : n'.layout = n.layout) :
    (s.modifyNode a fun _ => n').nodes.map Node.layout = s.nodes.map Node.layout :=
  Keyed.map_modifyFirst _ _ _ _ fun y hy => by
    have same : y = n := Option.some.inj (hy.symm.trans first)
    rw [same]
    exact keeps

theorem layout_modifyVault {k : VaultKey} {v v' : Vault} (found : s.vault k = .ok v)
    (address : v'.address = v.address) (known : v'.knownPubkeys = v.knownPubkeys) :
    (s.modifyVault k fun _ => v').deployments.map Deployment.layout =
      s.deployments.map Deployment.layout := by
  obtain ⟨d, hd, hv⟩ := vault_eq_ok found
  simp only [modifyVault]
  refine Keyed.map_modifyFirst _ _ _ _ fun y hy => ?_
  have same : y = d := Option.some.inj (hy.symm.trans hd)
  subst same
  simp only [Deployment.layout, Prod.mk.injEq, true_and, and_true]
  refine Keyed.map_modifyFirst _ _ _ _ fun w hw => ?_
  have same : w = v := Option.some.inj (hw.symm.trans hv)
  subst same
  simp [address, known]

theorem Node.layout_storeExits (k : VaultKey) (opened : List (ValidatorPubkey × ExitMessage))
    (n : Node) :
    (opened.foldl (fun n e => n.modifyValidator k e.1 fun v =>
      { v with exitMessage := some e.2, exitUploaded := true }) n).layout = n.layout := by
  induction opened generalizing n with
  | nil => rfl
  | cons e es ih =>
    rw [List.foldl_cons, ih]
    exact Node.layout_modifyValidator _ _ _ _ fun _ _ => rfl

theorem Deployment.layout_storeExits (opened : List (ValidatorPubkey × ExitMessage))
    (d : Deployment) :
    ({ d with minipools := opened.foldl (fun vs e => Keyed.modify MinipoolValidator.pubkey e.1
      (fun v => { v with exitMessage := some e.2 }) vs) d.minipools } : Deployment).layout =
      d.layout := by
  have minipools : ∀ vs : List MinipoolValidator,
      (opened.foldl (fun vs e => Keyed.modify MinipoolValidator.pubkey e.1
        (fun v => { v with exitMessage := some e.2 }) vs) vs).map (fun m => (m.pubkey, m.node)) =
        vs.map fun m => (m.pubkey, m.node) := by
    induction opened with
    | nil => exact fun _ => rfl
    | cons e es ih =>
      intro vs
      rw [List.foldl_cons, ih]
      exact Keyed.map_modifyFirst _ _ _ _ fun _ _ => rfl
  simp only [Deployment.layout, minipools]

/-! ### Operations of the store -/

/-- Every successful run of a store operation ends in a store related by `R` to the one it
started from. -/
def Keeps {α : Type} (R : Store → Store → Prop) (m : StoreM α) : Prop :=
  ∀ s a s', m.run s = .ok a s' → R s s'

/-- A store operation keeps the invariant: every successful run from a store that satisfies it
ends in one that does. -/
def KeepsInv {α : Type} (m : StoreM α) : Prop :=
  Keeps (fun s s' => s.Inv → s'.Inv) m

theorem keepsInv_of_layout {α : Type} {m : StoreM α}
    (ok : ∀ s a s', m.run s = .ok a s' →
      s'.nodes.map Node.layout = s.nodes.map Node.layout ∧ s' = { s with nodes := s'.nodes }) :
    KeepsInv m := by
  intro s a s' ran h
  obtain ⟨layout, only⟩ := ok s a s' ran
  rw [only]
  exact h.nodes_congr layout

theorem deploymentMut_keepsInv {β : Type} {f : Deployment → Except ServiceFault (β × Deployment)}
    (keeps : ∀ d b d', f d = .ok (b, d') → d'.layout = d.layout) :
    KeepsInv (deploymentMut name f) := by
  intro s b s' ran h
  obtain ⟨d, d', found, changed, rfl⟩ := run_borrow_eq_ok.mp ran
  exact h.modifyDeployment_layout found (keeps d b d' changed)

theorem addUser_keepsInv (email : String) : KeepsInv (addUser email) := by
  intro s _ s' ran h
  obtain ⟨fresh, rfl⟩ := addUser_ok ran
  exact h.addUser fresh

theorem whitelistNode_keepsInv (email : String) (a : Address) : KeepsInv (whitelistNode email a) := by
  intro s _ s' ran h
  obtain ⟨fresh, user, found, rfl⟩ := whitelistNode_ok ran
  exact h.whitelistNode fresh found

theorem addDeployment_keepsInv (no_vaults : d.vaults = []) (no_minipools : d.minipools = []) :
    KeepsInv (addDeployment d) := by
  intro s _ s' ran h
  obtain ⟨fresh, rfl⟩ := addDeployment_ok ran
  exact h.addDeployment fresh no_vaults no_minipools

theorem addVault_keepsInv (a : Address) : KeepsInv (addVault name a) := by
  intro s _ s' ran h
  obtain ⟨d, found, fresh, rfl⟩ := addVault_ok ran
  exact h.addVault found fresh

theorem incrementWhitelistNonce_keepsInv (a : Address) :
    KeepsInv (incrementWhitelistNonce name a) := by
  intro s _ s' ran h
  obtain ⟨d, found, -, rfl⟩ := incrementWhitelistNonce_ok ran
  exact h.modifyDeployment_layout found rfl

theorem incrementDepositNonce_keepsInv (a : Address) : KeepsInv (incrementDepositNonce name a) := by
  intro s _ s' ran h
  obtain ⟨d, found, -, rfl⟩ := incrementDepositNonce_ok ran
  exact h.modifyDeployment_layout found rfl

theorem commitDepositDataSet_keepsInv (k : VaultKey) (set : List DepositRecord) :
    KeepsInv (commitDepositDataSet k set) := by
  intro s _ s' ran h
  obtain ⟨v, s₁, found, -, -, layout, only, -, rfl⟩ := commitDepositDataSet_ok ran
  have h₁ : s₁.Inv := by
    rw [only]
    exact h.nodes_congr layout
  have found₁ : s₁.vault k = .ok v := by
    rw [vault_congr (congrArg Store.deployments only), ← found]
    rfl
  exact h₁.deployments_congr (layout_modifyVault found₁ rfl rfl)

theorem addMinipool_keepsInv (a minipool : Address) (pk : ValidatorPubkey) :
    KeepsInv (addMinipool name a minipool pk) := by
  intro s _ s' ran h
  obtain ⟨whitelisted, d, found, fresh, rfl⟩ := addMinipool_ok ran
  exact h.addMinipool whitelisted found fresh

theorem register_keepsInv (templates : Templates) (email : String) (a : Address)
    (sig : Signature) : KeepsInv (register templates email a sig) := by
  intro s _ s' ran h
  obtain ⟨n, found, -, -, -, rfl⟩ := register_ok ran
  exact h.register found

theorem login_keepsInv (templates : Templates) (policy : NoncePolicy) (a : Address)
    (nonce : String) (sig : Signature) : KeepsInv (login templates policy a nonce sig) := by
  intro s _ s' ran h
  obtain ⟨-, registered, x, -, -, -, -, rfl⟩ := login_ok ran
  exact h.login registered

theorem logout_keepsInv (token : String) : KeepsInv (logout token) := by
  intro s _ s' ran h
  obtain ⟨-, rfl⟩ := logout_ok ran
  exact h.logout token

theorem uploadDepositData_keepsInv (k : VaultKey) (a : Address) (records : List DepositRecord) :
    KeepsInv (uploadDepositData k a records) := by
  intro s _ s' ran h
  obtain ⟨n, v, fresh, known, registered, checked, found, taken, -, rfl⟩ := uploadDepositData_ok ran
  exact h.uploadDepositData registered checked found taken

theorem uploadSignedExits_keepsInv (k : VaultKey) (a : Address) (exits : List EncryptedExit) :
    KeepsInv (uploadSignedExits k a exits) := by
  intro s _ s' ran h
  obtain ⟨n, opened, -, registered, -, -, rfl⟩ := uploadSignedExits_ok ran
  have first := node?_of_whitelistedNode (whitelistedNode_of_registeredNode registered)
  exact h.nodes_congr (layout_modifyNode first (Node.layout_storeExits k opened n))

theorem uploadMinipoolExits_keepsInv (a : Address) (exits : List EncryptedExit)
    (policy : ExitPolicy) : KeepsInv (uploadMinipoolExits name a exits policy) := by
  intro s _ s' ran h
  obtain ⟨n, d, opened, -, found, -, -, rfl⟩ := uploadMinipoolExits_ok ran
  exact h.modifyDeployment_layout found (Deployment.layout_storeExits opened d)

end Store

/-! ### The service -/

namespace Service

/-- The service's invariant: its live store and every snapshot satisfy the store's. -/
structure Inv (svc : Service) : Prop where
  store : svc.store.Inv
  snapshots : ∀ p ∈ svc.snapshots, p.2.Inv

theorem inv_new (config : Config) : ({ config } : Service).Inv where
  store := Store.inv_empty
  snapshots := by simp

/-- Every successful run of a service operation ends in a service related by `R` to the one it
started from. -/
def Keeps {α : Type} (R : Service → Service → Prop) (m : ServiceM α) : Prop :=
  ∀ svc a svc', m.run svc = .ok a svc' → R svc svc'

/-- A service operation keeps the invariant: every successful run from a service that
satisfies it ends in one that does. -/
def KeepsInv {α : Type} (m : ServiceM α) : Prop :=
  Keeps (fun svc svc' => svc.Inv → svc'.Inv) m

section Combinators

variable {α β : Type} {R : Service → Service → Prop}

theorem keeps_onStore {S : Store → Store → Prop} {m : StoreM α}
    (lift : ∀ svc store, S svc.store store → R svc { svc with store }) (hm : Store.Keeps S m) :
    Keeps R (onStore m) := by
  intro svc a svc' ran
  obtain ⟨store, stored, rfl⟩ := run_onStore_eq_ok.mp ran
  exact lift svc store (hm _ _ _ stored)

theorem keeps_discard {m : ServiceM α} (hm : Keeps R m) :
    Keeps R (do let _ ← m : ServiceM Unit) := by
  intro svc u svc'' ran
  obtain ⟨a, svc', first, rest⟩ := run_bind_eq_ok.mp ran
  obtain ⟨-, same⟩ := run_pure_eq_ok.mp rest
  rw [same]
  exact hm svc a svc' first

theorem keeps_get_bind {f : Service → ServiceM β} (hf : ∀ svc₀, Keeps R (f svc₀)) :
    Keeps R (get >>= f) := by
  intro svc b svc' ran
  rw [run_get_bind] at ran
  exact hf svc svc b svc' ran

theorem keeps_read_bind {f : Service → Except ServiceFault α} {g : α → ServiceM β}
    (hg : ∀ a, Keeps R (g a)) : Keeps R (read f >>= g) := by
  intro svc b svc'' ran
  obtain ⟨a, svc', first, rest⟩ := run_bind_eq_ok.mp ran
  obtain ⟨-, same⟩ := run_read_eq_ok.mp first
  rw [same] at rest
  exact hg a svc b svc'' rest

theorem keeps_modify {f : Service → Service} (hf : ∀ svc, R svc (f svc)) : Keeps R (modify f) := by
  intro svc u svc' ran
  rw [run_modify_eq_ok.mp ran]
  exact hf svc

theorem keeps_revert {name : String}
    (back : ∀ svc store, svc.snapshotOf name = .ok store → R svc { svc with store }) :
    Keeps R (revert name) := by
  intro svc u svc'' ran
  obtain ⟨store, svc', found, rest⟩ := run_bind_eq_ok.mp ran
  obtain ⟨found, same⟩ := run_read_eq_ok.mp found
  rw [same] at rest
  rw [run_modify_eq_ok.mp rest]
  exact back svc store found

theorem keeps_deleteSnapshot {name : String}
    (forgot : ∀ svc, R svc { svc with snapshots := Keyed.erase Prod.fst name svc.snapshots }) :
    Keeps R (deleteSnapshot name) := by
  intro svc u svc' ran
  simp only [deleteSnapshot, run_get_bind, run_check_eq_ok, run_modify_eq_ok] at ran
  rw [ran.2]
  exact forgot svc

theorem keepsInv_onStore {m : StoreM α} (hm : Store.KeepsInv m) : KeepsInv (onStore m) :=
  keeps_onStore (fun _ _ keeps h => ⟨keeps h.store, h.snapshots⟩) hm

end Combinators

/-! ### Each operation of the service -/

theorem revert_keepsInv (name : String) : KeepsInv (revert name) := by
  refine keeps_revert fun svc store found h => ⟨?_, h.snapshots⟩
  unfold snapshotOf at found
  split at found
  · rename_i p hp
    cases found
    exact h.snapshots _ (Keyed.get?_eq_some hp).1
  · cases found

theorem deleteSnapshot_keepsInv (name : String) : KeepsInv (deleteSnapshot name) :=
  keeps_deleteSnapshot fun _ h => ⟨h.store, fun p hp => h.snapshots p (List.mem_filter.mp hp).1⟩

theorem exec_keepsInv (op : Op) : KeepsInv (exec op) := by
  cases op with
  | addUser email => exact keepsInv_onStore (Store.addUser_keepsInv email)
  | whitelistNode email a => exact keepsInv_onStore (Store.whitelistNode_keepsInv email a)
  | addDeployment name chainId whitelist factory =>
    exact keepsInv_onStore (Store.addDeployment_keepsInv rfl rfl)
  | setAdminKey name key =>
    exact keepsInv_onStore (Store.deploymentMut_keepsInv fun _ _ _ changed => by cases changed; rfl)
  | setMinipoolLimit name limit =>
    exact keepsInv_onStore (Store.deploymentMut_keepsInv fun _ _ _ changed => by cases changed; rfl)
  | addVault name vault => exact keepsInv_onStore (Store.addVault_keepsInv vault)
  | setExitIdentity id => exact keeps_modify fun _ h => ⟨{ h.store with }, h.snapshots⟩
  | incrementWhitelistNonce name a =>
    exact keeps_discard (keepsInv_onStore (Store.incrementWhitelistNonce_keepsInv a))
  | incrementDepositNonce name a =>
    exact keeps_discard (keepsInv_onStore (Store.incrementDepositNonce_keepsInv a))
  | commitDepositDataSet k set =>
    exact keeps_discard (keepsInv_onStore (Store.commitDepositDataSet_keepsInv k set))
  | markValidatorsRegistered k pks =>
    exact keepsInv_onStore (Store.keepsInv_of_layout fun _ _ _ => Store.markValidatorsRegistered_ok)
  | markValidatorRemoved k pk =>
    exact keepsInv_onStore (Store.keepsInv_of_layout fun _ _ _ => Store.markValidatorRemoved_ok)
  | overrideValidatorStatus k pk status =>
    exact keepsInv_onStore (Store.keepsInv_of_layout fun _ _ _ => Store.overrideValidatorStatus_ok)
  | addMinipool name a minipool pk =>
    exact keepsInv_onStore (Store.addMinipool_keepsInv a minipool pk)
  | snapshot name =>
    refine keeps_modify fun svc h => ⟨h.store, fun p hp => ?_⟩
    rcases Keyed.mem_put hp with rfl | hp
    · exact h.store
    · exact h.snapshots p hp
  | revert name => exact revert_keepsInv name
  | deleteSnapshot name => exact deleteSnapshot_keepsInv name
  | createSession nonce token =>
    exact keeps_modify fun _ h => ⟨h.store.addSession nonce token, h.snapshots⟩
  | registerNode email a sig =>
    exact keeps_get_bind fun _ => keepsInv_onStore (Store.register_keepsInv _ email a sig)
  | login a nonce sig =>
    exact keeps_discard (keeps_get_bind fun _ =>
      keepsInv_onStore (Store.login_keepsInv _ _ a nonce sig))
  | logout token => exact keepsInv_onStore (Store.logout_keepsInv token)
  | uploadDepositData token k records =>
    exact keeps_discard (keeps_read_bind fun a =>
      keepsInv_onStore (Store.uploadDepositData_keepsInv k a records))
  | uploadSignedExits token k exits =>
    exact keeps_discard (keeps_read_bind fun a =>
      keepsInv_onStore (Store.uploadSignedExits_keepsInv k a exits))
  | uploadConstellationExits token name exits =>
    exact keeps_discard (keeps_read_bind fun a => keeps_get_bind fun _ =>
      keepsInv_onStore (Store.uploadMinipoolExits_keepsInv a exits _))

theorem step_inv {svc : Service} (h : svc.Inv) (op : Op) : (svc.step op).Inv := by
  cases ran : (exec op).run svc with
  | ok u svc' =>
    rw [step, ran]
    exact exec_keepsInv op svc u svc' ran h
  | error e svc' =>
    rw [step, ran, exec_atomic op svc e svc' ran]
    exact h

end Service

theorem Reachable.inv {svc : Service} (reach : Reachable svc) : svc.Inv := by
  induction reach with
  | init config => exact Service.inv_new config
  | step op _ ih => exact Service.step_inv ih op

/-- Every state the service reaches satisfies the store's representation invariant, in the live
store and in every snapshot. -/
theorem reachable_store_inv {svc : Service} (reach : Reachable svc) :
    svc.store.Inv ∧ ∀ p ∈ svc.snapshots, p.2.Inv :=
  ⟨reach.inv.store, reach.inv.snapshots⟩

theorem sampleService_inv : sampleService.store.Inv :=
  reachable_sampleService.inv.store

theorem sample_run_keeps_store_inv :
    Reachable sampleService ∧ sampleService.store.Inv ∧ ∀ p ∈ sampleService.snapshots, p.2.Inv :=
  ⟨reachable_sampleService, reachable_store_inv reachable_sampleService⟩

end StakingHub
