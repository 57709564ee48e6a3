import StakingHub.Proofs.Effects
import StakingHub.Proofs.Keyed

/-!
# The store's representation invariant

`Store.Inv` is what every store the service reaches satisfies:

* its tables are maps: nodes, deployments, each deployment's vaults and minipool validators,
  and each node's StakeWise lists are kept in strictly ascending key order, and user emails are
  distinct;
* users and nodes point at each other: a node's address is listed exactly once, by its owner
  and by no other user, and every listed address is a whitelisted node;
* a verified session names a whitelisted, registered node;
* a node keeps StakeWise validators only once registered, only for vaults that exist, and only
  with records that withdraw to the vault; for every vault the keys of its validators, across
  all nodes, are distinct and are exactly the keys the vault knows;
* every minipool validator belongs to a whitelisted node.

A validator's key is its record's key, and a minipool validator is filed under its own key, by
the way they are stored.

Operations that change validators, vault versions, counters or keys of approval only keep what
the invariant reads: a node's layout and a deployment's layout. For those the invariant carries
over whole (`Inv.nodes_congr`, `Inv.deployments_congr`); the others get a lemma each.
-/

namespace StakingHub

/-- What the store's invariant reads of a deployment: its name, its vaults' addresses and known
keys, and its minipool validators' keys and nodes. -/
def Deployment.layout (d : Deployment) :
    String × List (Address × List ValidatorPubkey) × List (ValidatorPubkey × Address) :=
  (d.name, d.vaults.map (fun v => (v.address, v.knownPubkeys)), d.minipools.map fun m => (m.pubkey, m.node))

namespace Store

/-- The keys of a vault's StakeWise validators, node by node. -/
def pubkeysIn (s : Store) (k : VaultKey) : List ValidatorPubkey :=
  s.nodes.flatMap fun n => (n.validatorsIn k).map StakeWiseValidator.pubkey

/-- The keys of every vault of every deployment. -/
def vaultKeys (s : Store) : List VaultKey :=
  s.deployments.flatMap fun d => d.vaults.map fun v => ⟨d.name, v.address⟩

/-- The store's representation invariant. -/
structure Inv (s : Store) : Prop where
  /-- An email belongs to one user. -/
  emails_nodup : (s.users.map User.email).Nodup
  /-- Nodes are kept by address. -/
  nodes_sorted : Keyed.Sorted Node.address s.nodes
  /-- A node's StakeWise lists are kept by vault. -/
  stakewise_sorted : ∀ n ∈ s.nodes, Keyed.Sorted Prod.fst n.stakewise
  /-- Deployments are kept by name. -/
  deployments_sorted : Keyed.Sorted Deployment.name s.deployments
  /-- A deployment's vaults are kept by address. -/
  vaults_sorted : ∀ d ∈ s.deployments, Keyed.Sorted Vault.address d.vaults
  /-- A deployment's minipool validators are kept by key. -/
  minipools_sorted : ∀ d ∈ s.deployments, Keyed.Sorted MinipoolValidator.pubkey d.minipools
  /-- A node's address is listed once by its owner and by no other user. -/
  listed_once : ∀ n ∈ s.nodes, ∀ u ∈ s.users,
    u.nodes.count n.address = if u.email = n.owner then 1 else 0
  /-- A node's owner is a user. -/
  owner_exists : ∀ n ∈ s.nodes, n.owner ∈ s.users.map User.email
  /-- Every address a user lists is a whitelisted node. -/
  listed_whitelisted : ∀ u ∈ s.users, ∀ a ∈ u.nodes, a ∈ s.nodes.map Node.address
  /-- A verified session names a whitelisted, registered node. -/
  verified_registered : ∀ x ∈ s.sessions, ∀ a, x.node = some a →
    ∃ n ∈ s.nodes, n.address = a ∧ n.registered
  /-- A node keeps StakeWise validators only once registered, and only for existing vaults. -/
  stakewise_registered : ∀ n ∈ s.nodes, ∀ e ∈ n.stakewise, n.registered ∧ e.1 ∈ s.vaultKeys
  /-- A StakeWise validator's record withdraws to its vault. -/
  withdraws_to_vault : ∀ n ∈ s.nodes, ∀ e ∈ n.stakewise, ∀ v ∈ e.2,
    v.record.withdrawalAddress = e.1.vault
  /-- No key is stored twice for a vault, across all nodes. -/
  pubkeys_nodup : ∀ k, (s.pubkeysIn k).Nodup
  /-- A vault knows exactly the keys stored for it. -/
  known_exact : ∀ d ∈ s.deployments, ∀ v ∈ d.vaults, ∀ pk,
    pk ∈ s.pubkeysIn ⟨d.name, v.address⟩ ↔ pk ∈ v.knownPubkeys
  /-- Every minipool validator belongs to a whitelisted node. -/
  minipool_nodes : ∀ d ∈ s.deployments, ∀ m ∈ d.minipools, m.node ∈ s.nodes.map Node.address

theorem inv_empty : ({} : Store).Inv where
  emails_nodup := List.nodup_nil
  nodes_sorted := List.Pairwise.nil
  stakewise_sorted := by simp
  deployments_sorted := List.Pairwise.nil
  vaults_sorted := by simp
  minipools_sorted := by simp
  listed_once := by simp
  owner_exists := by simp
  listed_whitelisted := by simp
  verified_registered := by simp
  stakewise_registered := by simp
  withdraws_to_vault := by simp
  pubkeys_nodup := by simp [pubkeysIn]
  known_exact := by simp
  minipool_nodes := by simp

/-! ### What the invariant reads -/

theorem pubkeysIn_congr {s t : Store} (h : s.nodes.map Node.keys = t.nodes.map Node.keys)
    (k : VaultKey) : s.pubkeysIn k = t.pubkeysIn k := by
  have factor : (fun n : Node => (n.validatorsIn k).map StakeWiseValidator.pubkey) =
      (fun x => ((Keyed.get? Prod.fst k x.2).map Prod.snd).getD []) ∘ Node.keys := by
    funext n
    exact Node.map_pubkey_validatorsIn n k
  simp only [pubkeysIn, List.flatMap_def, factor, ← List.map_map, h]

theorem map_address_of_layout {xs ys : List Node} (h : xs.map Node.layout = ys.map Node.layout) :
    xs.map Node.address = ys.map Node.address := by
  have addresses := congrArg (List.map Prod.fst) h
  simpa [List.map_map, Function.comp_def, Node.layout] using addresses

theorem vaultKeys_congr {s t : Store}
    (h : s.deployments.map Deployment.layout = t.deployments.map Deployment.layout) :
    s.vaultKeys = t.vaultKeys := by
  have factor : (fun d : Deployment => d.vaults.map fun v => (⟨d.name, v.address⟩ : VaultKey)) =
      (fun l => l.2.1.map fun p => (⟨l.1, p.1⟩ : VaultKey)) ∘ Deployment.layout := by
    funext d
    simp [Deployment.layout, Function.comp_def]
  simp only [vaultKeys, List.flatMap_def, factor, ← List.map_map, h]

/-! ### Changes that keep what the invariant reads -/

/-- Changing only the nodes, keeping their layouts, keeps the invariant. -/
theorem Inv.nodes_congr {s : Store} (h : s.Inv) {nodes : List Node}
    (layout : nodes.map Node.layout = s.nodes.map Node.layout) : ({ s with nodes } : Store).Inv := by
  have addresses : nodes.map Node.address = s.nodes.map Node.address := map_address_of_layout layout
  have pubkeys : ∀ k, ({ s with nodes } : Store).pubkeysIn k = s.pubkeysIn k :=
    pubkeysIn_congr (Node.map_keys_eq_of_layout layout)
  have old : ∀ n ∈ nodes, ∃ m ∈ s.nodes, m.layout = n.layout := fun n hn =>
    List.mem_map.mp (layout ▸ List.mem_map_of_mem hn)
  have new : ∀ m ∈ s.nodes, ∃ n ∈ nodes, n.layout = m.layout := fun m hm =>
    List.mem_map.mp (layout.symm ▸ List.mem_map_of_mem hm)
  have entries : ∀ {n m : Node}, m.layout = n.layout → ∀ e ∈ n.stakewise,
      ∃ e' ∈ m.stakewise, e'.1 = e.1 ∧ e'.2.map StakeWiseValidator.record =
        e.2.map StakeWiseValidator.record := by
    intro n m same e he
    have lists := congrArg (fun l => l.2.2.2) same
    simp only [Node.layout] at lists
    obtain ⟨e', he', eq⟩ := List.mem_map.mp (lists ▸ List.mem_map_of_mem he :
      (e.1, e.2.map StakeWiseValidator.record) ∈
        m.stakewise.map fun e => (e.1, e.2.map StakeWiseValidator.record))
    simp only [Prod.mk.injEq] at eq
    exact ⟨e', he', eq⟩
  refine
    { h with
      nodes_sorted := ?_
      stakewise_sorted := ?_
      listed_once := ?_
      owner_exists := ?_
      listed_whitelisted := ?_
      verified_registered := ?_
      stakewise_registered := ?_
      withdraws_to_vault := ?_
      pubkeys_nodup := ?_
      known_exact := ?_
      minipool_nodes := ?_ }
  · exact Keyed.sorted_congr addresses.symm h.nodes_sorted
  · intro n hn
    obtain ⟨m, hm, same⟩ := old n hn
    have keys : m.stakewise.map Prod.fst = n.stakewise.map Prod.fst := by
      have lists := congrArg (fun l => l.2.2.2.map Prod.fst) same
      simpa [Node.layout, List.map_map, Function.comp_def] using lists
    exact Keyed.sorted_congr keys (h.stakewise_sorted m hm)
  · intro n hn u hu
    obtain ⟨m, hm, same⟩ := old n hn
    simp only [Node.layout, Prod.mk.injEq] at same
    rw [← same.1, ← same.2.1]
    exact h.listed_once m hm u hu
  · intro n hn
    obtain ⟨m, hm, same⟩ := old n hn
    simp only [Node.layout, Prod.mk.injEq] at same
    exact same.2.1 ▸ h.owner_exists m hm
  · intro u hu a ha
    exact addresses ▸ h.listed_whitelisted u hu a ha
  · intro x hx a ha
    obtain ⟨m, hm, rfl, registered⟩ := h.verified_registered x hx a ha
    obtain ⟨n, hn, same⟩ := new m hm
    simp only [Node.layout, Prod.mk.injEq] at same
    exact ⟨n, hn, same.1, same.2.2.1 ▸ registered⟩
  · intro n hn e he
    obtain ⟨m, hm, same⟩ := old n hn
    obtain ⟨e', he', key, -⟩ := entries same e he
    obtain ⟨registered, vault⟩ := h.stakewise_registered m hm e' he'
    simp only [Node.layout, Prod.mk.injEq] at same
    exact ⟨same.2.2.1 ▸ registered, key ▸ vault⟩
  · intro n hn e he v hv
    obtain ⟨m, hm, same⟩ := old n hn
    obtain ⟨e', he', key, records⟩ := entries same e he
    obtain ⟨v', hv', record⟩ := List.mem_map.mp
      (records ▸ List.mem_map_of_mem hv : v.record ∈ e'.2.map StakeWiseValidator.record)
    rw [← record, ← key]
    exact h.withdraws_to_vault m hm e' he' v' hv'
  · intro k
    rw [pubkeys]
    exact h.pubkeys_nodup k
  · intro d hd v hv pk
    rw [pubkeys]
    exact h.known_exact d hd v hv pk
  · intro d hd m hm
    exact addresses ▸ h.minipool_nodes d hd m hm

/-- Changing only the deployments, keeping their layouts, keeps the invariant. -/
theorem Inv.deployments_congr {s : Store} (h : s.Inv) {deployments : List Deployment}
    (layout : deployments.map Deployment.layout = s.deployments.map Deployment.layout) :
    ({ s with deployments } : Store).Inv := by
  have keys : ({ s with deployments } : Store).vaultKeys = s.vaultKeys := vaultKeys_congr layout
  have names : deployments.map Deployment.name = s.deployments.map Deployment.name := by
    have names := congrArg (List.map Prod.fst) layout
    simpa [List.map_map, Function.comp_def, Deployment.layout] using names
  have old : ∀ d ∈ deployments, ∃ d' ∈ s.deployments, d'.layout = d.layout := fun d hd =>
    List.mem_map.mp (layout ▸ List.mem_map_of_mem hd)
  refine
    { h with
      deployments_sorted := Keyed.sorted_congr names.symm h.deployments_sorted
      vaults_sorted := ?_
      minipools_sorted := ?_
      stakewise_registered := ?_
      known_exact := ?_
      minipool_nodes := ?_ }
  · intro d hd
    obtain ⟨d', hd', same⟩ := old d hd
    have addresses : d'.vaults.map Vault.address = d.vaults.map Vault.address := by
      have addresses := congrArg (fun l => l.2.1.map Prod.fst) same
      simpa [Deployment.layout, List.map_map, Function.comp_def] using addresses
    exact Keyed.sorted_congr addresses (h.vaults_sorted d' hd')
  · intro d hd
    obtain ⟨d', hd', same⟩ := old d hd
    have pubkeys : d'.minipools.map MinipoolValidator.pubkey = d.minipools.map MinipoolValidator.pubkey := by
      have pubkeys := congrArg (fun l => l.2.2.map Prod.fst) same
      simpa [Deployment.layout, List.map_map, Function.comp_def] using pubkeys
    exact Keyed.sorted_congr pubkeys (h.minipools_sorted d' hd')
  · intro n hn e he
    rw [keys]
    exact h.stakewise_registered n hn e he
  · intro d hd v hv pk
    obtain ⟨d', hd', same⟩ := old d hd
    simp only [Deployment.layout, Prod.mk.injEq] at same
    obtain ⟨name, vaults, -⟩ := same
    obtain ⟨v', hv', eq⟩ := List.mem_map.mp (vaults ▸ List.mem_map_of_mem hv :
      (v.address, v.knownPubkeys) ∈ d'.vaults.map fun v => (v.address, v.knownPubkeys))
    simp only [Prod.mk.injEq] at eq
    rw [← name, ← eq.1, ← eq.2]
    exact h.known_exact d' hd' v' hv' pk
  · intro d hd m hm
    obtain ⟨d', hd', same⟩ := old d hd
    simp only [Deployment.layout, Prod.mk.injEq] at same
    obtain ⟨m', hm', eq⟩ := List.mem_map.mp (same.2.2 ▸ List.mem_map_of_mem hm :
      (m.pubkey, m.node) ∈ d'.minipools.map fun m => (m.pubkey, m.node))
    simp only [Prod.mk.injEq] at eq
    exact eq.2 ▸ h.minipool_nodes d' hd' m' hm'

/-! ### Lookups and membership -/

variable {s : Store} {a : Address} {n : Node} {k : VaultKey}

theorem mem_of_node? (h : s.node? a = some n) : n ∈ s.nodes ∧ n.address = a :=
  Keyed.get?_eq_some h

theorem node?_of_whitelistedNode (h : s.whitelistedNode a = .ok n) : s.node? a = some n := by
  unfold whitelistedNode at h
  split at h <;> simp_all

theorem not_mem_addresses_of_node? (h : s.node? a = none) : a ∉ s.nodes.map Node.address := by
  intro mem
  obtain ⟨n, hn, rfl⟩ := List.mem_map.mp mem
  simp only [node?, Keyed.get?, List.find?_eq_none] at h
  exact h n hn (by simp)

theorem Node.mem_validatorsIn {v : StakeWiseValidator} (hv : v ∈ n.validatorsIn k) :
    ∃ e ∈ n.stakewise, e.1 = k ∧ v ∈ e.2 := by
  unfold Node.validatorsIn at hv
  cases found : Keyed.get? Prod.fst k n.stakewise with
  | none => simp [found] at hv
  | some e =>
    simp only [found, Option.map_some, Option.getD_some] at hv
    obtain ⟨mem, key⟩ := Keyed.get?_eq_some found
    exact ⟨e, mem, key, hv⟩

theorem mem_pubkeysIn {pk : ValidatorPubkey} :
    pk ∈ s.pubkeysIn k ↔ ∃ n ∈ s.nodes, ∃ v ∈ n.validatorsIn k, v.pubkey = pk := by
  simp [pubkeysIn, List.mem_flatMap]

theorem mem_vaultKeys : k ∈ s.vaultKeys ↔
    ∃ d ∈ s.deployments, ∃ v ∈ d.vaults, d.name = k.deployment ∧ v.address = k.vault := by
  simp only [vaultKeys, List.mem_flatMap, List.mem_map]
  constructor
  · rintro ⟨d, hd, v, hv, rfl⟩
    exact ⟨d, hd, v, hv, rfl, rfl⟩
  · rintro ⟨d, hd, v, hv, name, address⟩
    exact ⟨d, hd, v, hv, by rw [name, address]⟩

theorem Inv.vault_of_mem_pubkeysIn (h : s.Inv) {pk : ValidatorPubkey} (mem : pk ∈ s.pubkeysIn k) :
    k ∈ s.vaultKeys := by
  obtain ⟨n, hn, v, hv, -⟩ := mem_pubkeysIn.mp mem
  obtain ⟨e, he, rfl, -⟩ := Node.mem_validatorsIn hv
  exact (h.stakewise_registered n hn e he).2

theorem vault_eq_ok {v : Vault} (h : s.vault k = .ok v) :
    ∃ d, Keyed.get? Deployment.name k.deployment s.deployments = some d ∧
      Keyed.get? Vault.address k.vault d.vaults = some v := by
  unfold vault deployment at h
  cases hd : Keyed.get? Deployment.name k.deployment s.deployments with
  | none => simp [hd, bind, Except.bind] at h
  | some d =>
    cases hv : Keyed.get? Vault.address k.vault d.vaults with
    | none => simp [hd, hv, bind, Except.bind, throw, throwThe, MonadExceptOf.throw] at h
    | some w =>
      simp only [hd, hv, bind, Except.bind, pure, Except.pure, Except.ok.injEq] at h
      exact ⟨d, rfl, h ▸ hv⟩

theorem address_of_vault {v : Vault} (h : s.vault k = .ok v) : v.address = k.vault := by
  obtain ⟨d, -, hv⟩ := vault_eq_ok h
  exact (Keyed.get?_eq_some hv).2

theorem mem_vaultKeys_of_vault {v : Vault} (h : s.vault k = .ok v) : k ∈ s.vaultKeys := by
  obtain ⟨d, hd, hv⟩ := vault_eq_ok h
  obtain ⟨dmem, name⟩ := Keyed.get?_eq_some hd
  obtain ⟨vmem, address⟩ := Keyed.get?_eq_some hv
  exact mem_vaultKeys.mpr ⟨d, dmem, v, vmem, name, address⟩

theorem withdraws_of_checkDepositBatch {records : List DepositRecord} {vault : Address} {u : Unit}
    (h : checkDepositBatch records vault = .ok u) : ∀ r ∈ records, r.withdrawalAddress = vault := by
  unfold checkDepositBatch at h
  split at h
  · cases h
  · rename_i none
    intro r hr
    simpa using List.find?_eq_none.mp none r hr

/-! ### Users and nodes -/

theorem Inv.addUser (h : s.Inv) {email : String} (fresh : s.user? email = none) :
    ({ s with users := s.users ++ [{ email }] } : Store).Inv := by
  have absent : email ∉ s.users.map User.email := by
    intro mem
    obtain ⟨u, hu, rfl⟩ := List.mem_map.mp mem
    simp only [user?, List.find?_eq_none] at fresh
    exact fresh u hu (by simp)
  refine
    { h with
      emails_nodup := ?_
      listed_once := ?_
      owner_exists := ?_
      listed_whitelisted := ?_ }
  · simpa [List.nodup_append] using
      ⟨h.emails_nodup, fun u hu same => absent (same ▸ List.mem_map_of_mem hu)⟩
  · intro n hn u hu
    rcases List.mem_append.mp hu with hu | hu
    · exact h.listed_once n hn u hu
    · -- the new user lists nothing, and no node names its email as owner
      obtain rfl := List.mem_singleton.mp hu
      have other : email ≠ n.owner := fun same => absent (same ▸ h.owner_exists n hn)
      simp [other]
  · intro n hn
    simpa using Or.inl (h.owner_exists n hn)
  · intro u hu a ha
    rcases List.mem_append.mp hu with hu | hu
    · exact h.listed_whitelisted u hu a ha
    · obtain rfl := List.mem_singleton.mp hu
      simp at ha

theorem Inv.whitelistNode (h : s.Inv) {email : String} {user : User} (fresh : s.node? a = none)
    (found : s.existingUser email = .ok user) :
    ({ s with
        users := Keyed.modifyFirst (fun u => u.email = email)
          (fun _ => { user with nodes := user.nodes ++ [a] }) s.users
        nodes := Keyed.put Node.address { address := a, owner := email } s.nodes } : Store).Inv := by
  generalize hnode : ({ address := a, owner := email } : Node) = node
  generalize huser' : ({ user with nodes := user.nodes ++ [a] } : User) = user'
  have node_address : node.address = a := by rw [← hnode]
  have node_owner : node.owner = email := by rw [← hnode]
  have node_stakewise : node.stakewise = [] := by rw [← hnode]
  have user'_email : user'.email = user.email := by rw [← huser']
  have user'_nodes : user'.nodes = user.nodes ++ [a] := by rw [← huser']
  have first : s.users.find? (fun u => u.email = email) = some user := by
    unfold existingUser user? at found
    split at found <;> simp_all
  obtain ⟨huser, email_eq⟩ : user ∈ s.users ∧ user.email = email := by
    refine ⟨List.mem_of_find?_eq_some first, ?_⟩
    simpa using List.find?_some first
  have absent := not_mem_addresses_of_node? fresh
  have unlisted : ∀ u ∈ s.users, a ∉ u.nodes := fun u hu ha =>
    absent (h.listed_whitelisted u hu a ha)
  have emails : (Keyed.modifyFirst (fun u => u.email = email) (fun _ => user') s.users).map
      User.email = s.users.map User.email :=
    Keyed.map_modifyFirst _ _ _ _ fun y hy => by
      rw [first] at hy
      cases hy
      exact user'_email
  have users : ∀ u, u ∈ Keyed.modifyFirst (fun u => u.email = email) (fun _ => user') s.users ↔
      (u ∈ s.users ∧ u.email ≠ email) ∨ u = user' := by
    intro u
    exact Keyed.mem_modify_const_iff h.emails_nodup huser email_eq
  have fresh_key : Keyed.contains Node.address node.address s.nodes = false := by
    simpa [Keyed.contains, node_address] using
      fun n hn same => absent (List.mem_map.mpr ⟨n, hn, same⟩)
  have nodes : ∀ m, m ∈ Keyed.put Node.address node s.nodes ↔ m = node ∨ m ∈ s.nodes :=
    fun m => Keyed.mem_put_of_not_contains fresh_key
  have addresses : ∀ b ∈ s.nodes.map Node.address,
      b ∈ (Keyed.put Node.address node s.nodes).map Node.address := by
    intro b hb
    obtain ⟨m, hm, rfl⟩ := List.mem_map.mp hb
    exact List.mem_map_of_mem ((nodes m).mpr (.inr hm))
  have pubkeys : ∀ k, (Keyed.put Node.address node s.nodes).flatMap
      (fun n => (n.validatorsIn k).map StakeWiseValidator.pubkey) |>.Perm (s.pubkeysIn k) := by
    intro k
    have moved := (Keyed.put_perm fresh_key).flatMap_right
      (fun n : Node => (n.validatorsIn k).map StakeWiseValidator.pubkey)
    simpa [pubkeysIn, Node.validatorsIn, Keyed.get?, node_stakewise] using moved
  refine
    { h with
      emails_nodup := emails ▸ h.emails_nodup
      nodes_sorted := Keyed.sorted_put h.nodes_sorted
      stakewise_sorted := ?_
      listed_once := ?_
      owner_exists := ?_
      listed_whitelisted := ?_
      verified_registered := ?_
      stakewise_registered := ?_
      withdraws_to_vault := ?_
      pubkeys_nodup := fun k => (pubkeys k).nodup_iff.mpr (h.pubkeys_nodup k)
      known_exact := fun d hd v hv pk => ((pubkeys _).mem_iff).trans (h.known_exact d hd v hv pk)
      minipool_nodes := fun d hd m hm => addresses _ (h.minipool_nodes d hd m hm) }
  · intro m hm
    rcases (nodes m).mp hm with rfl | hm
    · simp [Keyed.Sorted, node_stakewise]
    · exact h.stakewise_sorted m hm
  · intro m hm u hu
    rcases (nodes m).mp hm with rfl | hm_old
    · rcases (users u).mp hu with ⟨hu_old, other⟩ | rfl
      · -- the new node, another user
        simp [List.count_eq_zero.mpr (unlisted u hu_old), node_address, node_owner, other]
      · -- the new node, its owner
        simp [List.count_eq_zero.mpr (unlisted user huser), user'_nodes, user'_email, node_address,
          node_owner, email_eq]
    · rcases (users u).mp hu with ⟨hu_old, other⟩ | rfl
      · exact h.listed_once m hm_old u hu_old
      · -- an old node, the owner of the new one: the new address is another
        have other : m.address ≠ a := fun same => absent (same ▸ List.mem_map_of_mem hm_old)
        have once : List.count m.address [a] = 0 := List.count_eq_zero.mpr (by simp [other])
        rw [user'_nodes, user'_email, List.count_append, once, Nat.add_zero]
        exact h.listed_once m hm_old user huser
  · intro m hm
    rw [emails]
    rcases (nodes m).mp hm with rfl | hm
    · exact node_owner ▸ email_eq ▸ List.mem_map_of_mem huser
    · exact h.owner_exists m hm
  · intro u hu b hb
    rcases (users u).mp hu with ⟨hu, -⟩ | rfl
    · exact addresses b (h.listed_whitelisted u hu b hb)
    · rcases List.mem_append.mp (user'_nodes ▸ hb) with hb | hb
      · exact addresses b (h.listed_whitelisted user huser b hb)
      · obtain rfl := List.mem_singleton.mp hb
        exact node_address ▸ List.mem_map_of_mem ((nodes node).mpr (.inl rfl))
  · intro x hx b hb
    obtain ⟨m, hm, address, registered⟩ := h.verified_registered x hx b hb
    exact ⟨m, (nodes m).mpr (.inr hm), address, registered⟩
  · intro m hm e he
    rcases (nodes m).mp hm with rfl | hm
    · simp [node_stakewise] at he
    · exact h.stakewise_registered m hm e he
  · intro m hm e he
    rcases (nodes m).mp hm with rfl | hm
    · simp [node_stakewise] at he
    · exact h.withdraws_to_vault m hm e he

/-! ### Registration and sessions -/

theorem Inv.register (h : s.Inv) (found : s.whitelistedNode a = .ok n) :
    (s.modifyNode a fun _ => { n with registered := true }).Inv := by
  have first : s.node? a = some n := node?_of_whitelistedNode found
  obtain ⟨hn, address⟩ := mem_of_node? first
  have addresses : (s.modifyNode a fun _ => { n with registered := true }).nodes.map Node.address =
      s.nodes.map Node.address :=
    Keyed.map_key_modify (f := fun _ => { n with registered := true }) (fun _ _ => address) s.nodes
  have keys : (s.modifyNode a fun _ => { n with registered := true }).nodes.map Node.keys =
      s.nodes.map Node.keys :=
    Keyed.map_modifyFirst _ _ _ _ fun y hy => by
      have same : y = n := Option.some.inj (hy.symm.trans first)
      rw [same]
      rfl
  have nodes : ∀ m, m ∈ (s.modifyNode a fun _ => { n with registered := true }).nodes ↔
      (m ∈ s.nodes ∧ m.address ≠ a) ∨ m = { n with registered := true } := fun m =>
    Keyed.mem_modify_const_iff (Keyed.nodup_of_sorted h.nodes_sorted) hn address
  refine
    { h with
      nodes_sorted := Keyed.sorted_congr addresses.symm h.nodes_sorted
      stakewise_sorted := ?_
      listed_once := ?_
      owner_exists := ?_
      listed_whitelisted := fun u hu b hb => addresses ▸ h.listed_whitelisted u hu b hb
      verified_registered := ?_
      stakewise_registered := ?_
      withdraws_to_vault := ?_
      pubkeys_nodup := fun k => pubkeysIn_congr keys k ▸ h.pubkeys_nodup k
      known_exact := fun d hd v hv pk => pubkeysIn_congr keys _ ▸ h.known_exact d hd v hv pk
      minipool_nodes := fun d hd m hm => addresses ▸ h.minipool_nodes d hd m hm }
  · intro m hm
    rcases (nodes m).mp hm with ⟨hm, -⟩ | rfl
    · exact h.stakewise_sorted m hm
    · exact h.stakewise_sorted n hn
  · intro m hm u hu
    rcases (nodes m).mp hm with ⟨hm, -⟩ | rfl
    · exact h.listed_once m hm u hu
    · exact h.listed_once n hn u hu
  · intro m hm
    rcases (nodes m).mp hm with ⟨hm, -⟩ | rfl
    · exact h.owner_exists m hm
    · exact h.owner_exists n hn
  · -- a registered node stays registered: untouched, or the node registered now
    intro x hx b hb
    obtain ⟨m, hm, rfl, registered⟩ := h.verified_registered x hx b hb
    by_cases at_a : m.address = a
    · exact ⟨_, (nodes _).mpr (.inr rfl), address.trans at_a.symm, rfl⟩
    · exact ⟨m, (nodes m).mpr (.inl ⟨hm, at_a⟩), rfl, registered⟩
  · intro m hm e he
    rcases (nodes m).mp hm with ⟨hm, -⟩ | rfl
    · exact h.stakewise_registered m hm e he
    · exact ⟨rfl, (h.stakewise_registered n hn e he).2⟩
  · intro m hm e he
    rcases (nodes m).mp hm with ⟨hm, -⟩ | rfl
    · exact h.withdraws_to_vault m hm e he
    · exact h.withdraws_to_vault n hn e he

theorem Inv.addSession (h : s.Inv) (nonce token : String) : (s.addSession nonce token).Inv := by
  refine { h with verified_registered := ?_ }
  intro x hx b hb
  rcases List.mem_append.mp hx with hx | hx
  · exact h.verified_registered x hx b hb
  · obtain rfl := List.mem_singleton.mp hx
    cases hb

theorem Inv.login (h : s.Inv) {nonce : String} {x : Session}
    (registered : (s.node? a).any Node.registered) :
    ({ s with
        sessions := Keyed.modifyFirst (fun y => y.nonce = nonce) (fun _ => { x with node := some a })
          s.sessions } : Store).Inv := by
  refine { h with verified_registered := ?_ }
  intro y hy b hb
  rcases Keyed.mem_modifyFirst hy with hy | ⟨-, -, -, rfl⟩
  · exact h.verified_registered y hy b hb
  · -- the session now names the node that logged in, which is registered
    obtain rfl : a = b := Option.some.inj hb
    obtain ⟨m, found, hm⟩ := (Option.any_eq_true _ _).mp registered
    obtain ⟨mem, address⟩ := mem_of_node? found
    exact ⟨m, mem, address, hm⟩

theorem Inv.logout (h : s.Inv) (token : String) :
    ({ s with sessions := s.sessions.filter fun x => x.token ≠ token } : Store).Inv := by
  refine { h with verified_registered := ?_ }
  intro x hx b hb
  exact h.verified_registered x (List.mem_filter.mp hx).1 b hb

end Store

end StakingHub
