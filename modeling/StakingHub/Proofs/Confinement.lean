import StakingHub.Proofs.Preservation

/-!
# Node-facing requests are confined to the caller's own data

A request made with a session token acts as the node the token is logged in as. What an upload
may change is said by a view of the store that forgets exactly that part: the store after the
upload and the store before it look the same through the view, and nothing outside the store
changes (`Service.ChangesOnly`).

* A deposit upload forgets the node's validators of the vault and the vault's known keys.
* An exit upload forgets the exit messages of the node's validators of the vault.
* A minipool exit upload forgets the exit messages of the deployment's minipool validators that
  belong to the node: each exit is checked against the first validator of its key, and that is
  the validator the upload then changes.

Lists of validators name only the node's own, under the store's invariant. A token no verified
session carries is refused by every node-facing request before anything is read or changed.
-/

namespace StakingHub

/-! ### What an upload may change -/

/-- A validator without its exit message. -/
def StakeWiseValidator.clearExit (v : StakeWiseValidator) : StakeWiseValidator :=
  { v with exitMessage := none, exitUploaded := false }

/-- A minipool validator without its exit message when it belongs to node `a`. -/
def MinipoolValidator.clearExitOf (a : Address) (m : MinipoolValidator) : MinipoolValidator :=
  if m.node = a then { m with exitMessage := none } else m

namespace Node

/-- The node without its validators of vault `k`. -/
def withoutVault (n : Node) (k : VaultKey) : Node :=
  { n with stakewise := n.stakewise.filter (·.1 ≠ k) }

/-- The node without the exit messages of its validators of vault `k`. -/
def clearExits (n : Node) (k : VaultKey) : Node :=
  { n with stakewise := n.stakewise.map fun e =>
      if e.1 = k then (e.1, e.2.map StakeWiseValidator.clearExit) else e }

theorem withoutVault_appendValidators (n : Node) (k : VaultKey) (vs : List StakeWiseValidator) :
    (n.appendValidators k vs).withoutVault k = n.withoutVault k := by
  have kept : (Keyed.put Prod.fst (k, n.validatorsIn k ++ vs) n.stakewise).filter (·.1 ≠ k) =
      n.stakewise.filter (·.1 ≠ k) :=
    Keyed.filter_put (by rfl) n.stakewise
  simp only [withoutVault, appendValidators, kept]

theorem clearExits_modifyValidator (n : Node) (k : VaultKey) (pk : ValidatorPubkey)
    (f : StakeWiseValidator → StakeWiseValidator) (hf : ∀ v, (f v).clearExit = v.clearExit) :
    (n.modifyValidator k pk f).clearExits k = n.clearExits k := by
  have entries : (Keyed.modify Prod.fst k
      (fun e => (e.1, Keyed.modifyFirst (fun v => v.pubkey = pk) f e.2)) n.stakewise).map
      (fun e => if e.1 = k then (e.1, e.2.map StakeWiseValidator.clearExit) else e) =
      n.stakewise.map fun e => if e.1 = k then (e.1, e.2.map StakeWiseValidator.clearExit) else e :=
    Keyed.map_modifyFirst _ _ _ _ fun e found => by
      have key : e.1 = k := by simpa using List.find?_some found
      simp only [key, if_true, Prod.mk.injEq, true_and]
      exact Keyed.map_modifyFirst _ _ _ _ fun v _ => hf v
  simp only [clearExits, modifyValidator, entries]

theorem clearExits_storeExits (k : VaultKey) (opened : List (ValidatorPubkey × ExitMessage))
    (n : Node) :
    (opened.foldl (fun n e => n.modifyValidator k e.1 fun v =>
      { v with exitMessage := some e.2, exitUploaded := true }) n).clearExits k = n.clearExits k := by
  induction opened generalizing n with
  | nil => rfl
  | cons e es ih =>
    rw [List.foldl_cons, ih]
    exact clearExits_modifyValidator _ _ _ _ fun _ => rfl

end Node

/-- The deployment without the exit messages of node `a`'s minipool validators. -/
def Deployment.clearExitsOf (d : Deployment) (a : Address) : Deployment :=
  { d with minipools := d.minipools.map (MinipoolValidator.clearExitOf a) }

theorem clearExitOf_modify {a : Address} {pk : ValidatorPubkey} {msg : ExitMessage}
    {vs : List MinipoolValidator}
    (owned : ∀ m, Keyed.get? MinipoolValidator.pubkey pk vs = some m → m.node = a) :
    (Keyed.modify MinipoolValidator.pubkey pk (fun v => { v with exitMessage := some msg }) vs).map
      (MinipoolValidator.clearExitOf a) = vs.map (MinipoolValidator.clearExitOf a) :=
  Keyed.map_modifyFirst _ _ _ _ fun m found => by
    simp [MinipoolValidator.clearExitOf, owned m found]

theorem clearExitOf_storeExits {a : Address} (opened : List (ValidatorPubkey × ExitMessage))
    (vs : List MinipoolValidator)
    (owned : ∀ e ∈ opened, ∀ m, Keyed.get? MinipoolValidator.pubkey e.1 vs = some m → m.node = a) :
    (opened.foldl (fun vs e => Keyed.modify MinipoolValidator.pubkey e.1
      (fun v => { v with exitMessage := some e.2 }) vs) vs).map (MinipoolValidator.clearExitOf a) =
      vs.map (MinipoolValidator.clearExitOf a) := by
  induction opened generalizing vs with
  | nil => rfl
  | cons e es ih =>
    rw [List.foldl_cons]
    have found : ∀ pk, Keyed.get? MinipoolValidator.pubkey pk
        (Keyed.modify MinipoolValidator.pubkey e.1 (fun v => { v with exitMessage := some e.2 }) vs) =
        if e.1 = pk then (Keyed.get? MinipoolValidator.pubkey e.1 vs).map
          (fun v => { v with exitMessage := some e.2 }) else Keyed.get? MinipoolValidator.pubkey pk vs :=
      fun pk => Keyed.get?_modify (f := fun v => { v with exitMessage := some e.2 }) _ _ _
        (fun _ => rfl) vs
    rw [ih _ fun e' he' m hm => ?_, clearExitOf_modify (owned e List.mem_cons_self)]
    rw [found] at hm
    split at hm
    · rename_i same
      obtain ⟨m₀, hm₀, rfl⟩ := Option.map_eq_some_iff.mp hm
      exact owned e List.mem_cons_self m₀ hm₀
    · exact owned e' (List.mem_cons_of_mem _ he') m hm

namespace Store

variable {s : Store} {a : Address} {n : Node} {k : VaultKey} {v : Vault} {name : String}
  {d : Deployment}

/-- The store without node `a`'s validators of vault `k` and without the vault's known keys. -/
def outsideDeposits (s : Store) (a : Address) (k : VaultKey) : Store :=
  (s.modifyVault k fun v => { v with knownPubkeys := [] }).modifyNode a (·.withoutVault k)

/-- The store without the exit messages of node `a`'s validators of vault `k`. -/
def outsideSignedExits (s : Store) (a : Address) (k : VaultKey) : Store :=
  s.modifyNode a (·.clearExits k)

/-- The store without the exit messages of node `a`'s minipool validators of a deployment. -/
def outsideMinipoolExits (s : Store) (a : Address) (name : String) : Store :=
  s.modifyDeployment name (·.clearExitsOf a)

/-! ### Changing one entry twice -/

section Twice

variable {f g : Node → Node}

theorem modifyNode_modifyNode (first : s.node? a = some n) (keeps : (f n).address = a) :
    (s.modifyNode a f).modifyNode a g = s.modifyNode a (g ∘ f) := by
  simp only [modifyNode]
  rw [Keyed.modify_modify first keeps]

theorem modifyNode_congr (first : s.node? a = some n) (same : f n = g n) :
    s.modifyNode a f = s.modifyNode a g := by
  simp only [modifyNode]
  rw [Keyed.modify_congr first same]

end Twice

section TwiceVault

variable {f g : Vault → Vault}

theorem modifyVault_modifyVault (found : s.vault k = .ok v) (keeps : (f v).address = k.vault) :
    (s.modifyVault k f).modifyVault k g = s.modifyVault k (g ∘ f) := by
  obtain ⟨d, hd, hv⟩ := vault_eq_ok found
  simp only [modifyVault]
  rw [Keyed.modify_modify hd (Keyed.get?_eq_some hd).2]
  congr 1
  refine Keyed.modify_congr hd ?_
  simp only [Function.comp_apply]
  rw [Keyed.modify_modify hv keeps]

theorem modifyVault_congr (found : s.vault k = .ok v) (same : f v = g v) :
    s.modifyVault k f = s.modifyVault k g := by
  obtain ⟨d, hd, hv⟩ := vault_eq_ok found
  simp only [modifyVault]
  rw [Keyed.modify_congr hd (by rw [Keyed.modify_congr hv same])]

end TwiceVault

theorem modifyDeployment_modifyDeployment {f g : Deployment → Deployment}
    (found : s.deployment name = .ok d) (keeps : (f d).name = name) :
    (s.modifyDeployment name f).modifyDeployment name g = s.modifyDeployment name (g ∘ f) := by
  simp only [modifyDeployment]
  rw [Keyed.modify_modify (get?_of_deployment found) keeps]

theorem modifyDeployment_congr {f g : Deployment → Deployment}
    (found : s.deployment name = .ok d) (same : f d = g d) :
    s.modifyDeployment name f = s.modifyDeployment name g := by
  simp only [modifyDeployment]
  rw [Keyed.modify_congr (get?_of_deployment found) same]

/-! ### Each upload, on the store -/

theorem outsideDeposits_uploaded (first : s.node? a = some n) (found : s.vault k = .ok v)
    (known : List ValidatorPubkey) (vs : List StakeWiseValidator) :
    ((s.modifyVault k fun _ => { v with knownPubkeys := known }).modifyNode a
      (fun _ => n.appendValidators k vs)).outsideDeposits a k = s.outsideDeposits a k := by
  have first' : ∀ f : Vault → Vault, (s.modifyVault k f).node? a = some n := fun _ => first
  have keeps : (n.appendValidators k vs).address = a := (mem_of_node? first).2
  have address : ({ v with knownPubkeys := known } : Vault).address = k.vault := by
    have located := address_of_vault found
    exact located
  calc ((s.modifyVault k fun _ => { v with knownPubkeys := known }).modifyNode a
        (fun _ => n.appendValidators k vs)).outsideDeposits a k
      = (((s.modifyVault k fun _ => { v with knownPubkeys := known }).modifyVault k
          fun v => { v with knownPubkeys := [] }).modifyNode a (fun _ => n.appendValidators k vs)).modifyNode
          a (·.withoutVault k) := rfl
    _ = ((s.modifyVault k fun _ => { v with knownPubkeys := [] }).modifyNode a
          fun _ => (n.appendValidators k vs).withoutVault k) := by
        rw [modifyVault_modifyVault found address, modifyNode_modifyNode (first' _) keeps]
        rfl
    _ = s.outsideDeposits a k := by
        have vaults : (s.modifyVault k fun _ => { v with knownPubkeys := [] }) =
            s.modifyVault k fun w => { w with knownPubkeys := [] } :=
          modifyVault_congr found rfl
        rw [Node.withoutVault_appendValidators, vaults]
        exact modifyNode_congr (first' _) rfl

theorem outsideSignedExits_uploaded (first : s.node? a = some n) (k : VaultKey)
    (opened : List (ValidatorPubkey × ExitMessage)) :
    (s.modifyNode a fun _ => opened.foldl (fun n e => n.modifyValidator k e.1 fun v =>
      { v with exitMessage := some e.2, exitUploaded := true }) n).outsideSignedExits a k =
      s.outsideSignedExits a k := by
  have keeps : (opened.foldl (fun n e => n.modifyValidator k e.1 fun v =>
      { v with exitMessage := some e.2, exitUploaded := true }) n).address = a :=
    (congrArg Prod.fst (Node.layout_storeExits k opened n)).trans (mem_of_node? first).2
  unfold outsideSignedExits
  rw [modifyNode_modifyNode first keeps]
  exact modifyNode_congr first (Node.clearExits_storeExits k opened n)

theorem openMinipoolExit_owned {policy : ExitPolicy} {seen : List ValidatorPubkey}
    {e : EncryptedExit} {o : ValidatorPubkey × ExitMessage}
    (h : s.openMinipoolExit d a policy seen e = .ok o) :
    o.1 = e.pubkey ∧ ∃ m, Keyed.get? MinipoolValidator.pubkey e.pubkey d.minipools = some m ∧
      m.node = a := by
  unfold openMinipoolExit at h
  cases found : Keyed.get? MinipoolValidator.pubkey e.pubkey d.minipools with
  | none => simp [found, throw, throwThe, MonadExceptOf.throw] at h
  | some m =>
    by_cases mine : m.node = a
    · refine ⟨?_, m, rfl, mine⟩
      simp only [found, mine, Option.filter, decide_true, if_true] at h
      obtain ⟨-, h⟩ := except_check_eq_ok.mp h
      cases opened : Relay.decryptExit s.identity e.ciphertext with
      | error f => simp [opened, bind, Except.bind] at h
      | ok msg =>
        simp only [opened, bind, Except.bind, pure, Except.pure, Except.ok.injEq] at h
        rw [← h]
    · simp [found, mine, Option.filter, throw, throwThe, MonadExceptOf.throw] at h

theorem openMinipoolExits_owned {policy : ExitPolicy} {seen : List ValidatorPubkey}
    {exits : List EncryptedExit} {opened : List (ValidatorPubkey × ExitMessage)}
    (h : s.openMinipoolExits d a policy seen exits = .ok opened) :
    ∀ e ∈ opened, ∃ m, Keyed.get? MinipoolValidator.pubkey e.1 d.minipools = some m ∧
      m.node = a := by
  induction exits generalizing seen opened with
  | nil =>
    simp only [openMinipoolExits, Except.ok.injEq] at h
    subst h
    simp
  | cons x xs ih =>
    simp only [openMinipoolExits] at h
    cases first : s.openMinipoolExit d a policy seen x with
    | error f => simp [first, bind, Except.bind] at h
    | ok o =>
      cases rest : s.openMinipoolExits d a policy (x.pubkey :: seen) xs with
      | error f => simp [first, rest, bind, Except.bind] at h
      | ok os =>
        simp only [first, rest, bind, Except.bind, pure, Except.pure, Except.ok.injEq] at h
        subst h
        intro e he
        rcases List.mem_cons.mp he with rfl | he
        · obtain ⟨key, m, found, mine⟩ := openMinipoolExit_owned first
          rw [key]
          exact ⟨m, found, mine⟩
        · exact ih rest e he

theorem outsideMinipoolExits_uploaded (found : s.deployment name = .ok d) {policy : ExitPolicy}
    {exits : List EncryptedExit} {opened : List (ValidatorPubkey × ExitMessage)}
    (checked : s.openMinipoolExits d a policy [] exits = .ok opened) :
    (s.modifyDeployment name fun _ => { d with
      minipools := opened.foldl (fun vs e => Keyed.modify MinipoolValidator.pubkey e.1
        (fun v => { v with exitMessage := some e.2 }) vs) d.minipools }).outsideMinipoolExits a name =
      s.outsideMinipoolExits a name := by
  have owned : ∀ e ∈ opened, ∀ m, Keyed.get? MinipoolValidator.pubkey e.1 d.minipools = some m →
      m.node = a := by
    intro e he m hm
    obtain ⟨m', hm', mine⟩ := openMinipoolExits_owned checked e he
    rw [hm] at hm'
    cases hm'
    exact mine
  unfold outsideMinipoolExits
  rw [modifyDeployment_modifyDeployment found (mem_of_deployment found).2]
  refine modifyDeployment_congr found ?_
  simp only [Function.comp_apply, Deployment.clearExitsOf]
  rw [clearExitOf_storeExits opened d.minipools owned]

/-! ### What lists name -/

theorem eq_of_mem_of_nodup_flatMap {α β : Type} {f : α → List β} {xs : List α} {x y : α} {b : β}
    (nodup : (xs.flatMap f).Nodup) (hx : x ∈ xs) (hy : y ∈ xs) (bx : b ∈ f x) (byy : b ∈ f y) :
    x = y := by
  induction xs with
  | nil => simp at hx
  | cons z zs ih =>
    rw [List.flatMap_cons, List.nodup_append] at nodup
    obtain ⟨-, rest, apart⟩ := nodup
    rcases List.mem_cons.mp hx with rfl | hx' <;> rcases List.mem_cons.mp hy with rfl | hy'
    · rfl
    · exact absurd rfl (apart b bx b (List.mem_flatMap.mpr ⟨y, hy', byy⟩))
    · exact absurd rfl (apart b byy b (List.mem_flatMap.mpr ⟨x, hx', bx⟩))
    · exact ih rest hx' hy'

theorem Inv.ownerOf_eq (h : s.Inv) (hn : n ∈ s.nodes) {w : StakeWiseValidator}
    (hw : w ∈ n.validatorsIn k) : s.ownerOf k w.pubkey = .ok n.address := by
  unfold ownerOf
  have holds : (n.validatorsIn k).any (·.pubkey = w.pubkey) = true :=
    List.any_eq_true.mpr ⟨w, hw, by simp⟩
  cases found : s.nodes.find? (fun m => (m.validatorsIn k).any (·.pubkey = w.pubkey)) with
  | none => exact absurd holds (List.find?_eq_none.mp found n hn)
  | some m =>
    have holds_m := List.find?_some found
    obtain ⟨w', hw', same⟩ := List.any_eq_true.mp holds_m
    have one : m = n := eq_of_mem_of_nodup_flatMap (h.pubkeys_nodup k)
      (List.mem_of_find?_eq_some found) hn
      (List.mem_map.mpr ⟨w', hw', by simpa using same⟩) (List.mem_map_of_mem hw)
    rw [one]

theorem authenticate_of_unverified {t : String}
    (unverified : ∀ x, s.sessionByToken? t = some x → x.node = none) :
    s.authenticate t = .error .invalidSession := by
  unfold authenticate
  cases found : s.sessionByToken? t with
  | none => rfl
  | some x =>
    have none := unverified x found
    obtain ⟨nonce, token, node⟩ := x
    subst none
    rfl

end Store

/-! ### Requests made with a token -/

namespace Service

variable {svc : Service} {t : String} {a : Address}

/-- `svc'` differs from `svc` only in its store, and only where `view` does not look. -/
def ChangesOnly (svc : Service) (view : Store → Store) (svc' : Service) : Prop :=
  svc' = { svc with store := svc'.store } ∧ view svc'.store = view svc.store

theorem changesOnly_step {view : Store → Store} {op : Op}
    (ok : ∀ u svc', (exec op).run svc = .ok u svc' → svc.ChangesOnly view svc') :
    svc.ChangesOnly view (svc.step op) := by
  cases ran : (exec op).run svc with
  | ok u svc' =>
    rw [step, ran]
    exact ok u svc' ran
  | error e svc' =>
    rw [step, ran, exec_atomic op svc e svc' ran]
    exact ⟨rfl, rfl⟩

theorem run_discard_eq_ok {α : Type} {m : ServiceM α} {u : Unit} {svc' : Service}
    (ran : (do let _ ← m : ServiceM Unit).run svc = .ok u svc') : ∃ b, m.run svc = .ok b svc' := by
  obtain ⟨b, svc₁, first, rest⟩ := run_bind_eq_ok.mp ran
  obtain ⟨-, same⟩ := run_pure_eq_ok.mp rest
  rw [same]
  exact ⟨b, first⟩

theorem run_authenticate_bind {β : Type} {g : Address → ServiceM β} {b : β} {svc' : Service}
    (auth : svc.store.authenticate t = .ok a) (ran : (authenticate t >>= g).run svc = .ok b svc') :
    (g a).run svc = .ok b svc' := by
  obtain ⟨a', svc₁, first, rest⟩ := run_bind_eq_ok.mp ran
  obtain ⟨found, same⟩ := run_read_eq_ok.mp first
  rw [auth] at found
  cases found
  rw [same] at rest
  exact rest

theorem run_authenticate_bind_refused {β : Type} {g : Address → ServiceM β}
    (refused : svc.store.authenticate t = .error .invalidSession) :
    (authenticate t >>= g).run svc = .error .invalidSession svc := by
  have failed : (authenticate t).run svc = .error .invalidSession svc :=
    run_read_eq_error.mpr ⟨refused, rfl⟩
  rw [EStateM.run_bind, failed]

theorem uploadDepositData_confined (auth : svc.store.authenticate t = .ok a) (k : VaultKey)
    (records : List DepositRecord) :
    svc.ChangesOnly (·.outsideDeposits a k) (svc.step (.uploadDepositData t k records)) := by
  refine changesOnly_step fun u svc' ran => ?_
  obtain ⟨count, ran⟩ := run_discard_eq_ok ran
  obtain ⟨store, stored, rfl⟩ := run_onStore_eq_ok.mp (run_authenticate_bind auth ran)
  refine ⟨rfl, ?_⟩
  obtain ⟨n, v, fresh, known, registered, -, found, -, -, rfl⟩ := Store.uploadDepositData_ok stored
  have first := Store.node?_of_whitelistedNode (Store.whitelistedNode_of_registeredNode registered)
  exact Store.outsideDeposits_uploaded first found known _

theorem uploadSignedExits_confined (auth : svc.store.authenticate t = .ok a) (k : VaultKey)
    (exits : List EncryptedExit) :
    svc.ChangesOnly (·.outsideSignedExits a k) (svc.step (.uploadSignedExits t k exits)) := by
  refine changesOnly_step fun u svc' ran => ?_
  obtain ⟨count, ran⟩ := run_discard_eq_ok ran
  obtain ⟨store, stored, rfl⟩ := run_onStore_eq_ok.mp (run_authenticate_bind auth ran)
  refine ⟨rfl, ?_⟩
  obtain ⟨n, opened, -, registered, -, -, rfl⟩ := Store.uploadSignedExits_ok stored
  have first := Store.node?_of_whitelistedNode (Store.whitelistedNode_of_registeredNode registered)
  exact Store.outsideSignedExits_uploaded first k opened

theorem uploadConstellationExits_confined (auth : svc.store.authenticate t = .ok a)
    (name : String) (exits : List EncryptedExit) :
    svc.ChangesOnly (·.outsideMinipoolExits a name)
      (svc.step (.uploadConstellationExits t name exits)) := by
  refine changesOnly_step fun u svc' ran => ?_
  obtain ⟨count, ran⟩ := run_discard_eq_ok ran
  have ran := run_authenticate_bind auth ran
  rw [run_get_bind] at ran
  obtain ⟨store, stored, rfl⟩ := run_onStore_eq_ok.mp ran
  refine ⟨rfl, ?_⟩
  obtain ⟨n, d, opened, -, found, checked, -, rfl⟩ := Store.uploadMinipoolExits_ok stored
  exact Store.outsideMinipoolExits_uploaded found checked

theorem stakeWiseValidators_owned (h : svc.store.Inv) (auth : svc.store.authenticate t = .ok a)
    {k : VaultKey} {infos : List StakeWiseValidatorInfo}
    (listed : svc.stakeWiseValidators t k = .ok infos) :
    ∀ i ∈ infos, svc.store.ownerOf k i.pubkey = .ok a := by
  simp only [stakeWiseValidators, auth, bind, Except.bind] at listed
  unfold Store.stakeWiseValidatorsOf at listed
  cases hv : svc.store.vault k with
  | error e => simp [hv, bind, Except.bind] at listed
  | ok v =>
    cases hn : svc.store.registeredNode a with
    | error e => simp [hv, hn, bind, Except.bind] at listed
    | ok n =>
      simp only [hv, hn, bind, Except.bind, pure, Except.pure, Except.ok.injEq] at listed
      intro i hi
      rw [← listed] at hi
      obtain ⟨w, hw, rfl⟩ := List.mem_map.mp hi
      obtain ⟨mem, address⟩ := Store.mem_of_node?
        (Store.node?_of_whitelistedNode (Store.whitelistedNode_of_registeredNode hn))
      rw [← address]
      exact h.ownerOf_eq mem hw

theorem constellationValidators_owned (h : svc.store.Inv)
    (auth : svc.store.authenticate t = .ok a) {name : String} {infos : List MinipoolValidatorInfo}
    (listed : svc.constellationValidators t name = .ok infos) :
    ∀ i ∈ infos, ∃ d m, svc.store.deployment name = .ok d ∧
      Keyed.get? MinipoolValidator.pubkey i.pubkey d.minipools = some m ∧ m.node = a := by
  simp only [constellationValidators, auth, bind, Except.bind] at listed
  unfold Store.minipoolValidatorsOf at listed
  cases hd : svc.store.deployment name with
  | error e => simp [hd, bind, Except.bind] at listed
  | ok d =>
    cases hn : svc.store.registeredNode a with
    | error e => simp [hd, hn, bind, Except.bind] at listed
    | ok n =>
      simp only [hd, hn, bind, Except.bind, pure, Except.pure, Except.ok.injEq] at listed
      intro i hi
      rw [← listed] at hi
      obtain ⟨m, hm, rfl⟩ := List.mem_map.mp hi
      obtain ⟨hm, mine⟩ := List.mem_filter.mp hm
      have sorted := h.minipools_sorted d (Store.mem_of_deployment hd).1
      exact ⟨d, m, rfl, Keyed.get?_eq_some_of_mem sorted hm, by simpa using mine⟩

/-- What a request made with node `a`'s token may change and list. -/
structure Confined (svc : Service) (t : String) (a : Address) : Prop where
  /-- A deposit upload changes only the node's validators of the vault and its known keys. -/
  deposits : ∀ k records,
    svc.ChangesOnly (·.outsideDeposits a k) (svc.step (.uploadDepositData t k records))
  /-- An exit upload changes only the exit messages of the node's validators of the vault. -/
  signedExits : ∀ k exits,
    svc.ChangesOnly (·.outsideSignedExits a k) (svc.step (.uploadSignedExits t k exits))
  /-- A minipool exit upload changes only the exit messages of the node's minipool validators. -/
  minipoolExits : ∀ name exits,
    svc.ChangesOnly (·.outsideMinipoolExits a name) (svc.step (.uploadConstellationExits t name exits))
  /-- A list of StakeWise validators names only keys the node holds. -/
  stakeWiseListed : ∀ k infos, svc.stakeWiseValidators t k = .ok infos →
    ∀ i ∈ infos, svc.store.ownerOf k i.pubkey = .ok a
  /-- A list of minipool validators names only keys assigned to the node. -/
  minipoolsListed : ∀ name infos, svc.constellationValidators t name = .ok infos →
    ∀ i ∈ infos, ∃ d m, svc.store.deployment name = .ok d ∧
      Keyed.get? MinipoolValidator.pubkey i.pubkey d.minipools = some m ∧ m.node = a

/-- Every node-facing request made with token `t` is an invalid session, and changes nothing. -/
structure RefusesToken (svc : Service) (t : String) : Prop where
  depositUpload : ∀ k records, (uploadDepositData t k records).run svc = .error .invalidSession svc
  depositMeta : ∀ k, svc.depositDataMeta t k = .error .invalidSession
  depositSet : ∀ k, svc.depositData t k = .error .invalidSession
  stakeWiseList : ∀ k, svc.stakeWiseValidators t k = .error .invalidSession
  exitUpload : ∀ k exits, (uploadSignedExits t k exits).run svc = .error .invalidSession svc
  whitelistApproval : ∀ name, svc.whitelistSignature t name = .error .invalidSession
  depositApproval : ∀ name minipool salt,
    svc.minipoolDepositSignature t name minipool salt = .error .invalidSession
  minipoolList : ∀ name, svc.constellationValidators t name = .error .invalidSession
  minipoolExitUpload : ∀ name exits,
    (uploadConstellationExits t name exits).run svc = .error .invalidSession svc

theorem confined_of_authenticate (h : svc.store.Inv) (auth : svc.store.authenticate t = .ok a) :
    svc.Confined t a where
  deposits := uploadDepositData_confined auth
  signedExits := uploadSignedExits_confined auth
  minipoolExits := uploadConstellationExits_confined auth
  stakeWiseListed _ _ listed := stakeWiseValidators_owned h auth listed
  minipoolsListed _ _ listed := constellationValidators_owned h auth listed

theorem refusesToken_of_unverified
    (unverified : ∀ x, svc.store.sessionByToken? t = some x → x.node = none) :
    svc.RefusesToken t := by
  have refused := Store.authenticate_of_unverified unverified
  refine
    { depositUpload := fun _ _ => run_authenticate_bind_refused refused
      depositMeta := fun _ => ?_
      depositSet := fun _ => ?_
      stakeWiseList := fun _ => ?_
      exitUpload := fun _ _ => run_authenticate_bind_refused refused
      whitelistApproval := fun _ => ?_
      depositApproval := fun _ _ _ => ?_
      minipoolList := fun _ => ?_
      minipoolExitUpload := fun _ _ => run_authenticate_bind_refused refused }
  all_goals simp only [depositDataMeta, depositData, stakeWiseValidators, whitelistSignature,
    minipoolDepositSignature, constellationValidators, refused]
  all_goals rfl

end Service

/-- Node-facing requests are confined to the caller's own data: with a token logged in as `a`,
uploads change only node `a`'s own validators (and, for deposits, the vault's known keys) and
lists name only node `a`'s validators; with a token no verified session carries, every
node-facing request is an invalid session and changes nothing. -/
theorem token_requests_confined (svc : Service) (h : svc.store.Inv) (t : String) :
    (∀ a, svc.store.authenticate t = .ok a → svc.Confined t a) ∧
      ((∀ x, svc.store.sessionByToken? t = some x → x.node = none) → svc.RefusesToken t) :=
  ⟨fun _ auth => Service.confined_of_authenticate h auth, Service.refusesToken_of_unverified⟩

theorem sample_token_requests_confined :
    sampleService.store.Inv ∧ sampleService.store.authenticate "t" = .ok sampleNode ∧
      sampleService.Confined "t" sampleNode := by
  have inv := sampleService_inv
  have auth : sampleService.store.authenticate "t" = .ok sampleNode := rfl
  exact ⟨inv, auth, (token_requests_confined sampleService inv "t").1 sampleNode auth⟩

end StakingHub
