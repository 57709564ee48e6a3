import Mathlib.Data.List.Nodup
import StakingHub.Proofs.Confinement

/-!
# Looking up validators after a change

A validator is found at the node `ownerOf` names, as the first of its key there
(`Store.validator_of_owner`). A change to one node that keeps whether it holds a key keeps the
key's owner, so a lookup afterwards reads the changed node where it read the old one and reads
what it read before elsewhere (`Store.validator_modifyNode_of_owner`,
`Store.validator_modifyNode_of_not_owner`). Each change the service makes to the nodes then has
a lemma saying what every lookup finds after it:

* a validator that was found, written back with its record (`Store.validator_modifyValidator`);
* a change that keeps, of every validator, what some view reads (`Store.map_validator_modifyNode`);
* validators of new keys appended at a node (`Store.validator_appendValidators`,
  `Store.mem_of_validator_appendValidators`);
* a node of a new address that holds nothing, whitelisted (`Store.validator_putNode`).

Under the invariant a key is held once per vault, so every validator a node holds is the one its
key finds (`Store.Inv.validator_of_mem`).
-/

namespace StakingHub

namespace Node

variable {n : Node} {k : VaultKey} {pk : ValidatorPubkey} {v v' : StakeWiseValidator}

/-- The first validator of a key that a node holds for a vault. -/
def validator (n : Node) (k : VaultKey) (pk : ValidatorPubkey) :
    Except ServiceFault StakeWiseValidator :=
  match (n.validatorsIn k).find? (·.pubkey = pk) with
  | some v => .ok v
  | none => .error (.validatorNotFound pk)

theorem validator_eq_ok : n.validator k pk = .ok v ↔ (n.validatorsIn k).find? (·.pubkey = pk) = some v := by
  cases h : (n.validatorsIn k).find? (·.pubkey = pk) <;> simp [validator, h]

theorem validatorsIn_modifyValidator (n : Node) (k : VaultKey) (pk : ValidatorPubkey)
    (f : StakeWiseValidator → StakeWiseValidator) (k' : VaultKey) :
    (n.modifyValidator k pk f).validatorsIn k' =
      if k = k' then Keyed.modifyFirst (·.pubkey = pk) f (n.validatorsIn k) else n.validatorsIn k' := by
  simp only [validatorsIn, modifyValidator]
  rw [Keyed.get?_modify Prod.fst k k' (fun e => (e.1, Keyed.modifyFirst (·.pubkey = pk) f e.2))
    (fun _ => rfl)]
  by_cases same : k = k'
  · subst same
    cases Keyed.get? Prod.fst k n.stakewise <;> simp [Keyed.modifyFirst]
  · simp [same]

theorem keys_modifyValidator (f : StakeWiseValidator → StakeWiseValidator)
    (hf : ∀ w, (n.validatorsIn k).find? (·.pubkey = pk) = some w → (f w).record = w.record) :
    (n.modifyValidator k pk f).keys = n.keys := by
  rw [keys_eq_comp_layout, Function.comp_apply, Function.comp_apply, layout_modifyValidator n k pk f hf]

/-- Writing back the validator a key found, with its key: that key finds the new value, every
other key what it found before. -/
theorem validator_modifyValidator (found : n.validator k pk = .ok v) (keeps : v'.pubkey = pk)
    (k' : VaultKey) (pk' : ValidatorPubkey) :
    (n.modifyValidator k pk fun _ => v').validator k' pk' =
      if k = k' ∧ pk = pk' then .ok v' else n.validator k' pk' := by
  have first : Keyed.get? StakeWiseValidator.pubkey pk (n.validatorsIn k) = some v :=
    validator_eq_ok.mp found
  unfold validator
  rw [validatorsIn_modifyValidator]
  by_cases same : k = k'
  · subst same
    have lookup := Keyed.get?_modify_const first keeps pk'
    simp only [Keyed.get?, Keyed.modify] at lookup
    by_cases hpk : pk = pk'
    · subst hpk
      simp [lookup]
    · simp [lookup, hpk]
  · simp [same]

theorem map_validator_modifyValidator {β : Type} (F : StakeWiseValidator → β)
    {f : StakeWiseValidator → StakeWiseValidator} (keeps : ∀ w, (f w).pubkey = w.pubkey)
    (same : ∀ w, F (f w) = F w) (k' : VaultKey) (pk' : ValidatorPubkey) :
    ((n.modifyValidator k pk f).validator k' pk').map F = (n.validator k' pk').map F := by
  unfold validator
  rw [validatorsIn_modifyValidator]
  by_cases hk : k = k'
  · subst hk
    have search := Keyed.map_find?_modifyFirst (·.pubkey = pk') (·.pubkey = pk) f F
      (n.validatorsIn k) fun w _ => ⟨by simp [keeps], same w⟩
    rw [if_pos rfl]
    cases h₁ : (Keyed.modifyFirst (·.pubkey = pk) f (n.validatorsIn k)).find? (·.pubkey = pk') <;>
      cases h₂ : (n.validatorsIn k).find? (·.pubkey = pk') <;> simp_all [Except.map]
  · rw [if_neg hk]

/-- Appending validators for a vault changes no lookup in another vault, nor of a key that none
of them has. -/
theorem validator_appendValidators (vs : List StakeWiseValidator) {k' : VaultKey}
    {pk' : ValidatorPubkey} (apart : k ≠ k' ∨ ∀ w ∈ vs, w.pubkey ≠ pk') :
    (n.appendValidators k vs).validator k' pk' = n.validator k' pk' := by
  unfold validator
  rw [validatorsIn_appendValidators]
  by_cases hk : k = k'
  · subst hk
    have none : vs.find? (·.pubkey = pk') = none :=
      List.find?_eq_none.mpr fun w hw => by simpa using apart.resolve_left (fun h => h rfl) w hw
    rw [if_pos rfl, List.find?_append, none, Option.or_none]
  · rw [if_neg hk]

end Node

namespace Store

variable {s : Store} {a : Address} {n m : Node} {k k' : VaultKey} {pk pk' : ValidatorPubkey}
  {v v' : StakeWiseValidator}

theorem validator_eq_bind (s : Store) (k : VaultKey) (pk : ValidatorPubkey) :
    s.validator k pk =
      s.ownerOf k pk >>= fun a => s.whitelistedNode a >>= fun n => n.validator k pk :=
  rfl

theorem validator_congr {t : Store} (same : t.nodes = s.nodes) (k : VaultKey) (pk : ValidatorPubkey) :
    t.validator k pk = s.validator k pk := by
  simp [validator_eq_bind, ownerOf, whitelistedNode, node?, same]

theorem validator_of_owner (owner : s.ownerOf k pk = .ok a) (found : s.node? a = some n) :
    s.validator k pk = n.validator k pk := by
  rw [validator_eq_bind, owner]
  simp [bind, Except.bind, whitelistedNode, found]

theorem mem_of_ownerOf (owner : s.ownerOf k pk = .ok a) : ∃ n ∈ s.nodes, n.address = a := by
  unfold ownerOf at owner
  split at owner
  · rename_i n found
    cases owner
    exact ⟨n, List.mem_of_find?_eq_some found, rfl⟩
  · cases owner

theorem node?_modifyNode (found : s.node? a = some n) (addr : m.address = a) (a' : Address) :
    (s.modifyNode a fun _ => m).node? a' = if a = a' then some m else s.node? a' :=
  Keyed.get?_modify_const found addr a'

theorem ownerOf_modifyNode (found : s.node? a = some n) (addr : m.address = a)
    (holds : (m.validatorsIn k).any (·.pubkey = pk) = (n.validatorsIn k).any (·.pubkey = pk)) :
    (s.modifyNode a fun _ => m).ownerOf k pk = s.ownerOf k pk := by
  have first : s.nodes.find? (fun x => decide (x.address = a)) = some n := found
  have search := Keyed.map_find?_modifyFirst (fun x : Node => (x.validatorsIn k).any (·.pubkey = pk))
    (fun x => decide (x.address = a)) (fun _ => m) Node.address s.nodes fun y hy => by
      have same : y = n := Option.some_inj.mp (hy.symm.trans first)
      subst same
      exact ⟨holds, addr.trans (mem_of_node? found).2.symm⟩
  simp only [ownerOf, modifyNode, Keyed.modify]
  cases h₁ : (Keyed.modifyFirst (fun x => decide (x.address = a)) (fun _ => m) s.nodes).find?
      (fun x : Node => (x.validatorsIn k).any (·.pubkey = pk)) <;>
    cases h₂ : s.nodes.find? (fun x : Node => (x.validatorsIn k).any (·.pubkey = pk)) <;>
    simp_all

/-- After a change to one node that keeps whether it holds the key, a lookup of a key the node
owns reads the changed node. -/
theorem validator_modifyNode_of_owner (found : s.node? a = some n) (addr : m.address = a)
    (holds : (m.validatorsIn k).any (·.pubkey = pk) = (n.validatorsIn k).any (·.pubkey = pk))
    (owned : s.ownerOf k pk = .ok a) :
    (s.modifyNode a fun _ => m).validator k pk = m.validator k pk := by
  rw [validator_eq_bind, ownerOf_modifyNode found addr holds, owned]
  simp [bind, Except.bind, whitelistedNode, node?_modifyNode found addr]

theorem validator_modifyNode_of_not_owner (found : s.node? a = some n) (addr : m.address = a)
    (holds : (m.validatorsIn k).any (·.pubkey = pk) = (n.validatorsIn k).any (·.pubkey = pk))
    (other : s.ownerOf k pk ≠ .ok a) :
    (s.modifyNode a fun _ => m).validator k pk = s.validator k pk := by
  rw [validator_eq_bind, validator_eq_bind, ownerOf_modifyNode found addr holds]
  cases owner : s.ownerOf k pk with
  | error e => rfl
  | ok o =>
    have apart : a ≠ o := fun same => other (by rw [owner, same])
    simp [bind, Except.bind, whitelistedNode, node?_modifyNode found addr, apart]

/-- Writing back the validator a key found, keeping its record: that key finds the new value,
every other key what it found before. -/
theorem validator_modifyValidator (owner : s.ownerOf k pk = .ok a) (found : s.node? a = some n)
    (hv : n.validator k pk = .ok v) (keeps : v'.record = v.record) (k' : VaultKey)
    (pk' : ValidatorPubkey) :
    (s.modifyNode a fun _ => n.modifyValidator k pk fun _ => v').validator k' pk' =
      if k = k' ∧ pk = pk' then .ok v' else s.validator k' pk' := by
  have first := Node.validator_eq_ok.mp hv
  have same_keys : (n.modifyValidator k pk fun _ => v').keys = n.keys :=
    Node.keys_modifyValidator _ fun w hw => by
      rw [first] at hw
      cases hw
      exact keeps
  have holds : ((n.modifyValidator k pk fun _ => v').validatorsIn k').any (·.pubkey = pk') =
      (n.validatorsIn k').any (·.pubkey = pk') := by
    rw [Node.holds_eq, Node.holds_eq, same_keys]
  have key_v : v.pubkey = pk := by simpa using List.find?_some first
  have key_v' : v'.pubkey = pk := by
    rw [← key_v]
    exact congrArg DepositRecord.pubkey keeps
  have addr : (n.modifyValidator k pk fun _ => v').address = a := (mem_of_node? found).2
  by_cases owned : s.ownerOf k' pk' = .ok a
  · rw [validator_modifyNode_of_owner found addr holds owned,
      Node.validator_modifyValidator hv key_v', validator_of_owner owned found]
  · -- a key the node does not own is not the one written back
    have hit : ¬(k = k' ∧ pk = pk') := by
      rintro ⟨rfl, rfl⟩
      exact owned owner
    rw [validator_modifyNode_of_not_owner found addr holds owned, if_neg hit]

theorem validator_forM_validatorMut {γ : Type} (key : γ → ValidatorPubkey)
    (g : StakeWiseValidator → StakeWiseValidator) (keeps : ∀ v, (g v).record = v.record)
    (idem : ∀ v, g (g v) = g v) {xs : List γ} {s s' : Store} {u : PUnit}
    (ran : (xs.forM fun x => validatorMut k (key x) fun v => pure (g v)).run s = .ok u s')
    (k' : VaultKey) (pk' : ValidatorPubkey) :
    s'.validator k' pk' =
      if k = k' ∧ pk' ∈ xs.map key then (s.validator k' pk').map g else s.validator k' pk' := by
  induction xs generalizing s with
  | nil =>
    cases ran
    simp
  | cons x xs ih =>
    simp only [List.forM] at ran
    obtain ⟨_, s₁, first, rest⟩ := run_bind_eq_ok.mp ran
    obtain ⟨a, n, v, v', owner, hn, hv, changed, rfl⟩ := validatorMut_ok first
    have changed : v' = g v := by simpa [pure, Except.pure] using changed.symm
    subst changed
    have found : s.validator k (key x) = .ok v := by
      rw [validator_of_owner owner hn]
      exact Node.validator_eq_ok.mpr hv
    rw [ih rest, validator_modifyValidator owner hn (Node.validator_eq_ok.mpr hv) (keeps v)]
    by_cases hk : k = k'
    · subst hk
      by_cases hx : key x = pk'
      · subst hx
        by_cases again : key x ∈ xs.map key <;> simp [again, found, idem, Except.map]
      · by_cases later : pk' ∈ xs.map key <;> simp [hx, later, Ne.symm hx]
    · simp [hk]

/-- A change to one node that keeps its keys and what `F` reads of each validator it holds keeps
what `F` reads of every lookup. -/
theorem map_validator_modifyNode {β : Type} (F : StakeWiseValidator → β) (found : s.node? a = some n)
    (addr : m.address = a) (keys : m.keys = n.keys)
    (same : ∀ k pk, (m.validator k pk).map F = (n.validator k pk).map F) (k : VaultKey)
    (pk : ValidatorPubkey) :
    ((s.modifyNode a fun _ => m).validator k pk).map F = (s.validator k pk).map F := by
  have holds : (m.validatorsIn k).any (·.pubkey = pk) = (n.validatorsIn k).any (·.pubkey = pk) := by
    rw [Node.holds_eq, Node.holds_eq, keys]
  by_cases owned : s.ownerOf k pk = .ok a
  · rw [validator_modifyNode_of_owner found addr holds owned, same, validator_of_owner owned found]
  · rw [validator_modifyNode_of_not_owner found addr holds owned]

theorem validator_appendValidators (found : s.node? a = some n) (vs : List StakeWiseValidator)
    (apart : k ≠ k' ∨ ∀ w ∈ vs, w.pubkey ≠ pk') :
    (s.modifyNode a fun _ => n.appendValidators k vs).validator k' pk' = s.validator k' pk' := by
  have holds : ((n.appendValidators k vs).validatorsIn k').any (·.pubkey = pk') =
      (n.validatorsIn k').any (·.pubkey = pk') := by
    rw [Node.validatorsIn_appendValidators]
    by_cases hk : k = k'
    · subst hk
      have none : vs.any (·.pubkey = pk') = false := by
        simpa using apart.resolve_left fun h => h rfl
      rw [if_pos rfl, List.any_append, none, Bool.or_false]
    · rw [if_neg hk]
  have addr : (n.appendValidators k vs).address = a := (mem_of_node? found).2
  by_cases owned : s.ownerOf k' pk' = .ok a
  · rw [validator_modifyNode_of_owner found addr holds owned,
      Node.validator_appendValidators vs apart, validator_of_owner owned found]
  · rw [validator_modifyNode_of_not_owner found addr holds owned]

/-- A key that finds a validator only after validators of keys new to the vault were appended
finds one of them. -/
theorem mem_of_validator_appendValidators (found : s.node? a = some n) {vs : List StakeWiseValidator}
    (fresh : ∀ w ∈ vs, w.pubkey ∉ s.pubkeysIn k)
    (after : (s.modifyNode a fun _ => n.appendValidators k vs).validator k' pk' = .ok v')
    (missing : ∀ v, s.validator k' pk' ≠ .ok v) : v' ∈ vs := by
  by_cases apart : k ≠ k' ∨ ∀ w ∈ vs, w.pubkey ≠ pk'
  · rw [validator_appendValidators found vs apart] at after
    exact absurd after (missing v')
  have same_k : k = k' := Classical.byContradiction fun h => apart (.inl h)
  obtain ⟨w, hw, same_pk⟩ : ∃ w ∈ vs, w.pubkey = pk' := Classical.byContradiction fun none =>
    apart (.inr fun w hw same => none ⟨w, hw, same⟩)
  subst same_k same_pk
  obtain ⟨o, n', -, hn', hv'⟩ := validator_eq_ok.mp after
  have held : v'.pubkey = w.pubkey := by simpa using List.find?_some hv'
  have addr : (n.appendValidators k vs).address = a := (mem_of_node? found).2
  rw [node?_modifyNode found addr] at hn'
  by_cases same : a = o
  · rw [if_pos same] at hn'
    cases hn'
    have none : (n.validatorsIn k).find? (·.pubkey = w.pubkey) = none :=
      List.find?_eq_none.mpr fun x hx hit => fresh w hw
        (mem_pubkeysIn.mpr ⟨n, (mem_of_node? found).1, x, hx, by simpa using hit⟩)
    rw [Node.validatorsIn_appendValidators, if_pos rfl, List.find?_append, none,
      Option.none_or] at hv'
    exact List.mem_of_find?_eq_some hv'
  · -- the owner is another node, unchanged, so it held the key already
    rw [if_neg same] at hn'
    exact absurd (mem_pubkeysIn.mpr ⟨n', (mem_of_node? hn').1, v', List.mem_of_find?_eq_some hv',
      held⟩) (fresh w hw)

/-- Whitelisting a node of a new address that holds no validators changes no lookup. -/
theorem validator_putNode {t : Store} (nodes : t.nodes = Keyed.put Node.address m s.nodes)
    (fresh : s.node? m.address = none) (empty : m.stakewise = []) (k : VaultKey)
    (pk : ValidatorPubkey) : t.validator k pk = s.validator k pk := by
  rw [validator_congr (s := { s with nodes := Keyed.put Node.address m s.nodes }) nodes]
  have apart : ∀ y ∈ s.nodes, y.address ≠ m.address := fun y hy same =>
    not_mem_addresses_of_node? fresh (List.mem_map.mpr ⟨y, hy, same⟩)
  have passed : (m.validatorsIn k).any (·.pubkey = pk) = false := by
    simp [Node.validatorsIn, empty, Keyed.get?]
  have owner : ({ s with nodes := Keyed.put Node.address m s.nodes } : Store).ownerOf k pk =
      s.ownerOf k pk := by
    simp only [ownerOf, Keyed.find?_put_of_fresh
      (fun x : Node => (x.validatorsIn k).any (·.pubkey = pk)) apart passed]
  rw [validator_eq_bind, validator_eq_bind, owner]
  cases hown : s.ownerOf k pk with
  | error e => rfl
  | ok o =>
    obtain ⟨y, hy, rfl⟩ := mem_of_ownerOf hown
    have other : m.address ≠ y.address := Ne.symm (apart y hy)
    simp [bind, Except.bind, whitelistedNode, node?, Keyed.get?_put, other]

theorem mem_pubkeysIn_of_validator (found : s.validator k pk = .ok v) : pk ∈ s.pubkeysIn k := by
  obtain ⟨a, n, -, hn, hv⟩ := validator_eq_ok.mp found
  exact mem_pubkeysIn.mpr ⟨n, (mem_of_node? hn).1, v, List.mem_of_find?_eq_some hv,
    by simpa using List.find?_some hv⟩

theorem Inv.mem_pubkeysIn_iff (h : s.Inv) {w : Vault} (found : s.vault k = .ok w)
    (pk : ValidatorPubkey) : pk ∈ s.pubkeysIn k ↔ pk ∈ w.knownPubkeys := by
  obtain ⟨d, hd, hw⟩ := vault_eq_ok found
  obtain ⟨hd, d_name⟩ := Keyed.get?_eq_some hd
  obtain ⟨hw, w_address⟩ := Keyed.get?_eq_some hw
  have exact := h.known_exact d hd w hw pk
  rwa [d_name, w_address] at exact

/-- Under the invariant, every validator a node holds is the one its key finds. -/
theorem Inv.validator_of_mem (h : s.Inv) (hn : n ∈ s.nodes) {w : StakeWiseValidator}
    (hw : w ∈ n.validatorsIn k) : s.validator k w.pubkey = .ok w := by
  have node : s.node? n.address = some n := Keyed.get?_eq_some_of_mem h.nodes_sorted hn
  rw [validator_of_owner (h.ownerOf_eq hn hw) node, Node.validator_eq_ok]
  have nodup : ((n.validatorsIn k).map StakeWiseValidator.pubkey).Nodup :=
    (List.nodup_flatMap.mp (h.pubkeys_nodup k)).1 n hn
  obtain ⟨x, hx⟩ : ∃ x, (n.validatorsIn k).find? (·.pubkey = w.pubkey) = some x := by
    rw [← Option.isSome_iff_exists, List.find?_isSome]
    exact ⟨w, hw, by simp⟩
  have same : x = w := List.inj_on_of_nodup_map nodup (List.mem_of_find?_eq_some hx) hw
    (by simpa using List.find?_some hx)
  rw [hx, same]

end Store

end StakingHub
