import StakingHub.Store.StakeWise
import StakingHub.Proofs.Keyed
import StakingHub.Proofs.Transaction

/-!
# Locating StakeWise validators

A validator of a vault is found at the first node, in address order, that holds its key, and is
changed there in place. What the search reads of a node is its address and, vault by vault, the
keys of its validators: `Node.keys`. Two stores whose nodes agree on these find the same owner
for every key, and find a validator in one exactly when they find it in the other.

Changes that keep a validator's key keep the nodes' keys. So a run of such changes, each
to a validator that was found, succeeds in full: every later lookup still finds its validator.
-/

namespace StakingHub

/-- What locating a validator reads of a node: its address and, vault by vault, the keys of its
validators in order. -/
def Node.keys (n : Node) : Address × List (VaultKey × List ValidatorPubkey) :=
  (n.address, n.stakewise.map fun e => (e.1, e.2.map StakeWiseValidator.pubkey))

/-- What the store's invariant reads of a node: its address, owner and registration and, vault
by vault, the records of its validators in order. A node's keys are read off it. -/
def Node.layout (n : Node) : Address × String × Bool × List (VaultKey × List DepositRecord) :=
  (n.address, n.owner, n.registered, n.stakewise.map fun e => (e.1, e.2.map StakeWiseValidator.record))

namespace Node

variable {k : VaultKey} {pk : ValidatorPubkey}

theorem map_pubkey_validatorsIn (n : Node) (k : VaultKey) :
    (n.validatorsIn k).map StakeWiseValidator.pubkey =
      ((Keyed.get? Prod.fst k n.keys.2).map Prod.snd).getD [] := by
  simp only [validatorsIn, keys, Keyed.get?, List.find?_map, Function.comp_def]
  cases n.stakewise.find? (fun e => decide (e.1 = k)) <;> rfl

theorem holds_eq (n : Node) :
    (n.validatorsIn k).any (·.pubkey = pk) =
      (((Keyed.get? Prod.fst k n.keys.2).map Prod.snd).getD []).any (· = pk) := by
  rw [← map_pubkey_validatorsIn, List.any_map]
  rfl

theorem keys_eq_comp_layout :
    keys = (fun l => (l.1, l.2.2.2.map fun e => (e.1, e.2.map DepositRecord.pubkey))) ∘ layout := by
  funext n
  simp [keys, layout, Function.comp_def, StakeWiseValidator.pubkey]

theorem map_keys_eq_of_layout {xs ys : List Node} (h : xs.map layout = ys.map layout) :
    xs.map keys = ys.map keys := by
  rw [keys_eq_comp_layout, ← List.map_map, ← List.map_map, h]

theorem layout_modifyValidator (n : Node) (k : VaultKey) (pk : ValidatorPubkey)
    (f : StakeWiseValidator → StakeWiseValidator)
    (hf : ∀ w, (n.validatorsIn k).find? (·.pubkey = pk) = some w → (f w).record = w.record) :
    (n.modifyValidator k pk f).layout = n.layout := by
  simp only [layout, modifyValidator, Keyed.modify, Prod.mk.injEq, true_and]
  refine Keyed.map_modifyFirst _ _ _ _ fun e found => ?_
  have entry : n.validatorsIn k = e.2 := by simp [validatorsIn, Keyed.get?, found]
  simp only [Prod.mk.injEq, true_and]
  exact Keyed.map_modifyFirst _ _ _ _ fun w first => hf w (entry ▸ first)

end Node

namespace Store

open StoreM

variable {s t : Store} {k : VaultKey} {pk : ValidatorPubkey}

/-! ### Lookups read only the nodes' keys -/

theorem ownerOf_congr (h : s.nodes.map Node.keys = t.nodes.map Node.keys) :
    s.ownerOf k pk = t.ownerOf k pk := by
  let holds (x : Address × List (VaultKey × List ValidatorPubkey)) : Bool :=
    (((Keyed.get? Prod.fst k x.2).map Prod.snd).getD []).any (· = pk)
  have same : (fun n : Node => (n.validatorsIn k).any (·.pubkey = pk)) = holds ∘ Node.keys := by
    funext n
    exact Node.holds_eq n
  have found : (s.nodes.find? (holds ∘ Node.keys)).map Node.keys =
      (t.nodes.find? (holds ∘ Node.keys)).map Node.keys := by
    rw [← List.find?_map, ← List.find?_map, h]
  simp only [ownerOf, same]
  cases hs : s.nodes.find? (holds ∘ Node.keys) <;> cases ht : t.nodes.find? (holds ∘ Node.keys) <;>
    simp_all [Node.keys]

theorem node?_keys_congr (h : s.nodes.map Node.keys = t.nodes.map Node.keys) (a : Address) :
    (s.node? a).map Node.keys = (t.node? a).map Node.keys := by
  have same : (fun n : Node => decide (n.address = a)) = (fun x => decide (x.1 = a)) ∘ Node.keys :=
    rfl
  simp only [node?, Keyed.get?, same]
  rw [← List.find?_map, ← List.find?_map, h]

theorem validator_eq_ok {v : StakeWiseValidator} :
    s.validator k pk = .ok v ↔ ∃ a n, s.ownerOf k pk = .ok a ∧ s.node? a = some n ∧
      (n.validatorsIn k).find? (·.pubkey = pk) = some v := by
  unfold validator
  cases owner : s.ownerOf k pk with
  | error e => simp [bind, Except.bind]
  | ok a =>
    cases hn : s.node? a with
    | none => simp [bind, Except.bind, whitelistedNode, hn]
    | some n =>
      cases hv : (n.validatorsIn k).find? (·.pubkey = pk) <;>
        simp [bind, Except.bind, whitelistedNode, hn, hv, pure, Except.pure, throw, throwThe,
          MonadExceptOf.throw]

theorem validator_ok_congr (h : s.nodes.map Node.keys = t.nodes.map Node.keys)
    {v : StakeWiseValidator} (found : s.validator k pk = .ok v) : ∃ w, t.validator k pk = .ok w := by
  obtain ⟨a, n, owner, hn, hv⟩ := validator_eq_ok.mp found
  have nodes := node?_keys_congr h a
  rw [hn] at nodes
  obtain ⟨m, hm, keys⟩ : ∃ m, t.node? a = some m ∧ n.keys = m.keys := by
    cases hm : t.node? a <;> simp_all
  have held : (m.validatorsIn k).any (·.pubkey = pk) := by
    rw [Node.holds_eq, ← keys, ← Node.holds_eq, List.any_eq_true]
    exact ⟨v, List.mem_of_find?_eq_some hv, by simpa using List.find?_some hv⟩
  obtain ⟨w, hw⟩ : ∃ w, (m.validatorsIn k).find? (·.pubkey = pk) = some w := by
    rw [← Option.isSome_iff_exists, List.find?_isSome]
    exact List.any_eq_true.mp held
  exact ⟨w, validator_eq_ok.mpr ⟨a, m, ownerOf_congr h ▸ owner, hm, hw⟩⟩

/-! ### Changing validators that were found -/

theorem validatorMut_ok {f : StakeWiseValidator → Except ServiceFault StakeWiseValidator} {u : Unit}
    {s' : Store} (ran : (validatorMut k pk f).run s = .ok u s') :
    ∃ a n v v', s.ownerOf k pk = .ok a ∧ s.node? a = some n ∧
      (n.validatorsIn k).find? (·.pubkey = pk) = some v ∧ f v = .ok v' ∧
      s' = s.modifyNode a fun _ => n.modifyValidator k pk fun _ => v' := by
  obtain ⟨a, s₁, owner, held⟩ := run_bind_eq_ok.mp ran
  obtain ⟨owner, same⟩ := run_read_eq_ok.mp owner
  rw [same] at held
  obtain ⟨n, n', held, changed, rfl⟩ := run_borrow_eq_ok.mp held
  have hn : s.node? a = some n := by
    cases hn : s.node? a <;> simp_all [whitelistedNode]
  cases hv : (n.validatorsIn k).find? (·.pubkey = pk) with
  | none => simp [hv, throw, throwThe, MonadExceptOf.throw] at changed
  | some v =>
    cases hf : f v with
    | error e => simp [hv, hf, bind, Except.bind] at changed
    | ok v' =>
      simp only [hv, hf, bind, Except.bind, pure, Except.pure, Except.ok.injEq, Prod.mk.injEq]
        at changed
      obtain ⟨-, rfl⟩ := changed
      exact ⟨a, n, v, v', owner, hn, hv, hf, rfl⟩

theorem layout_modifyNode_validator {a : Address} {n : Node} {v v' : StakeWiseValidator}
    (hn : s.node? a = some n) (hv : (n.validatorsIn k).find? (·.pubkey = pk) = some v)
    (keeps : v'.record = v.record) :
    (s.modifyNode a fun _ => n.modifyValidator k pk fun _ => v').nodes.map Node.layout =
      s.nodes.map Node.layout := by
  simp only [modifyNode, Keyed.modify]
  refine Keyed.map_modifyFirst _ _ _ _ fun y hy => ?_
  have hy : y = n := by
    rw [← Option.some_inj, ← hy, ← hn]
    rfl
  subst hy
  refine Node.layout_modifyValidator _ _ _ _ fun w hw => ?_
  rw [hv] at hw
  cases hw
  exact keeps

theorem run_validatorMut_of_ok (f : StakeWiseValidator → Except ServiceFault StakeWiseValidator)
    {v v' : StakeWiseValidator} (found : s.validator k pk = .ok v) (changed : f v = .ok v')
    (keeps : v'.record = v.record) :
    ∃ s', (validatorMut k pk f).run s = .ok () s' ∧
      s'.nodes.map Node.layout = s.nodes.map Node.layout ∧ s' = { s with nodes := s'.nodes } := by
  obtain ⟨a, n, owner, hn, hv⟩ := validator_eq_ok.mp found
  refine ⟨s.modifyNode a fun _ => n.modifyValidator k pk fun _ => v', ?_,
    layout_modifyNode_validator hn hv keeps, rfl⟩
  rw [validatorMut, run_bind_of_ok (run_read_of_ok owner)]
  refine run_borrow_of_ok (show s.whitelistedNode a = .ok n by simp [whitelistedNode, hn]) ?_
  simp [hv, changed, bind, Except.bind, pure, Except.pure]

theorem run_forM_validatorMut {γ : Type} (key : γ → ValidatorPubkey)
    (f : γ → StakeWiseValidator → StakeWiseValidator) (keeps : ∀ x v, (f x v).record = v.record)
    (xs : List γ) (s : Store) (found : ∀ x ∈ xs, ∃ v, s.validator k (key x) = .ok v) :
    ∃ s', (xs.forM fun x => validatorMut k (key x) fun v => pure (f x v)).run s = .ok ⟨⟩ s' ∧
      s'.nodes.map Node.layout = s.nodes.map Node.layout ∧ s' = { s with nodes := s'.nodes } := by
  induction xs generalizing s with
  | nil => exact ⟨s, rfl, rfl, rfl⟩
  | cons x xs ih =>
    obtain ⟨v, hv⟩ := found x List.mem_cons_self
    obtain ⟨s₁, first, layout₁, only₁⟩ :=
      run_validatorMut_of_ok (fun v => pure (f x v)) hv rfl (keeps x v)
    have found₁ : ∀ y ∈ xs, ∃ w, s₁.validator k (key y) = .ok w := fun y hy =>
      have ⟨_, hw⟩ := found y (List.mem_cons_of_mem _ hy)
      validator_ok_congr (Node.map_keys_eq_of_layout layout₁.symm) hw
    obtain ⟨s₂, rest, layout₂, only₂⟩ := ih s₁ found₁
    refine ⟨s₂, ?_, layout₂.trans layout₁, ?_⟩
    · simp only [List.forM]
      rw [run_bind_of_ok first, rest]
    · calc s₂ = { s₁ with nodes := s₂.nodes } := only₂
        _ = { s with nodes := s₂.nodes } := by rw [only₁]

end Store

end StakingHub
