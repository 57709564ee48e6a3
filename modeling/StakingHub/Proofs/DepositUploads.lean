import StakingHub.Proofs.Interleaving

/-!
# What a deposit upload stores

A registered node uploads a batch of deposit records to a vault. The upload keeps, in batch
order, each record whose key the vault does not know and no earlier record of the batch has
(`newRecords`): the vault takes up their keys and the node appends them to its list for the
vault as fresh validators. It refuses in a fixed order: an unknown or unregistered node, then
the first record that withdraws elsewhere, then a missing deployment or vault; a refusal leaves
the store as it was.

An upload with nothing new is not a no-op in every store: the node's list for the vault is
opened, empty, when the node holds none, so the store is left as it was exactly when the node
already held a list for that vault (`openList_eq_self_iff`).
-/

namespace StakingHub

open Std

/-! ### The new records of a batch -/

/-- The records of a batch that a vault knowing `known` takes: each record whose key the vault
does not know and no earlier record of the batch has, in batch order. -/
def newRecords (known : List ValidatorPubkey) (batch : List DepositRecord) : List DepositRecord :=
  ((batch.zip batch.inits).filter fun p =>
    p.1.pubkey ∉ known ∧ p.1.pubkey ∉ p.2.map DepositRecord.pubkey).map Prod.fst

theorem newRecords_cons (known : List ValidatorPubkey) (r : DepositRecord) (rs : List DepositRecord) :
    newRecords known (r :: rs) =
      if r.pubkey ∈ known then newRecords known rs
      else r :: newRecords (Keyed.put id r.pubkey known) rs := by
  have later : (rs.zip (rs.inits.map (r :: ·))) = (rs.zip rs.inits).map (Prod.map id (r :: ·)) :=
    List.zip_map_right
  have keep_fst (l : List (DepositRecord × List DepositRecord)) :
      (l.map (Prod.map id (r :: ·))).map Prod.fst = l.map Prod.fst := by
    simp only [List.map_map]
    rfl
  simp only [newRecords, List.inits, List.zip_cons_cons, later, List.filter_cons, List.filter_map]
  by_cases known_r : r.pubkey ∈ known
  · simp only [known_r, not_true_eq_false, false_and, decide_false, Bool.false_eq_true, if_false,
      if_true, keep_fst]
    congr 1
    refine List.filter_congr fun p _ => ?_
    by_cases unknown : p.1.pubkey ∈ known
    · simp [unknown]
    · have : r.pubkey ≠ p.1.pubkey := fun same => unknown (same ▸ known_r)
      simp [unknown, this]
  · simp only [known_r, not_false_eq_true, List.map_nil, List.not_mem_nil, and_self, decide_true,
      if_true, if_false, List.map_cons, keep_fst]
    congr 2
    refine List.filter_congr fun p _ => ?_
    by_cases same : p.1.pubkey = r.pubkey
    · simp [Keyed.mem_put_id, same]
    · simp [Keyed.mem_put_id, same, Ne.symm same]

theorem freshRecords_fst_eq_newRecords (known : List ValidatorPubkey) (batch : List DepositRecord) :
    (freshRecords known batch).1 = newRecords known batch := by
  induction batch generalizing known with
  | nil => rfl
  | cons r rs ih =>
    rw [newRecords_cons]
    cases hit : known.contains r.pubkey with
    | true => rw [freshRecords, if_pos hit, if_pos (by simpa using hit), ih]
    | false => rw [freshRecords_new hit, if_neg (by simpa using hit), ih]

theorem freshRecords_snd_eq_placeKeys (known : List ValidatorPubkey) (batch : List DepositRecord) :
    (freshRecords known batch).2 = placeKeys (newRecords known batch) known := by
  rw [freshRecords_snd, freshRecords_fst_eq_newRecords]

/-! ### The withdrawal check -/

theorem checkDepositBatch_of_withdraw {records : List DepositRecord} {vault : Address}
    (all : ∀ r ∈ records, r.withdrawalAddress = vault) : checkDepositBatch records vault = .ok () := by
  have none : records.find? (fun r => r.withdrawalAddress ≠ vault) = none :=
    List.find?_eq_none.mpr fun r hr => by simp [all r hr]
  rw [checkDepositBatch, none]

theorem checkDepositBatch_first_stray {pre post : List DepositRecord} {r : DepositRecord}
    {vault : Address} (before : ∀ x ∈ pre, x.withdrawalAddress = vault)
    (stray : r.withdrawalAddress ≠ vault) :
    checkDepositBatch (pre ++ r :: post) vault = .error (.vaultMismatch r.pubkey vault) := by
  have none : pre.find? (fun r => r.withdrawalAddress ≠ vault) = none :=
    List.find?_eq_none.mpr fun x hx => by simp [before x hx]
  have first : (pre ++ r :: post).find? (fun r => r.withdrawalAddress ≠ vault) = some r := by
    rw [List.find?_append, none]
    simp [stray]
  rw [checkDepositBatch, first]

/-! ### Changes that leave an entry as it is -/

namespace Keyed

variable {α κ : Type}

theorem put_of_mem [Ord κ] [TransOrd κ] {key : α → κ} {x : α} {xs : List α}
    (sorted : Sorted key xs) (hx : x ∈ xs) : put key x xs = xs := by
  induction xs with
  | nil => simp at hx
  | cons y ys ih =>
    obtain ⟨below, rest⟩ := List.pairwise_cons.mp sorted
    rcases List.mem_cons.mp hx with rfl | hx
    · simp [put]
    · -- `y` comes before `x`, so the search passes it
      have after : compare (key x) (key y) = .gt := OrientedCmp.gt_of_lt (below x hx)
      simp [put, after, ih rest hx]

theorem modify_of_fixed [DecidableEq κ] {key : α → κ} {k : κ} {f : α → α} {xs : List α} {x : α}
    (found : get? key k xs = some x) (fixed : f x = x) : modify key k f xs = xs := by
  obtain ⟨hx, pre, post, rfl, passed⟩ := get?_eq_some_iff_append.mp found
  rw [modify_append_cons f passed hx, fixed]

end Keyed

namespace Node

theorem mem_keys_appendValidators (n : Node) (k : VaultKey) (vs : List StakeWiseValidator) :
    k ∈ (n.appendValidators k vs).stakewise.map Prod.fst :=
  List.mem_map.mpr ⟨_, Keyed.mem_put_self _ _ _, rfl⟩

theorem appendValidators_nil {n : Node} {k : VaultKey} (sorted : Keyed.Sorted Prod.fst n.stakewise)
    (held : k ∈ n.stakewise.map Prod.fst) : n.appendValidators k [] = n := by
  obtain ⟨e, he, rfl⟩ := List.mem_map.mp held
  have found : Keyed.get? Prod.fst e.1 n.stakewise = some e := Keyed.get?_eq_some_of_mem sorted he
  have same : (e.1, n.validatorsIn e.1) = e := by simp [validatorsIn, found]
  simp only [appendValidators, List.append_nil, same, Keyed.put_of_mem sorted he]

end Node

namespace Store

variable {s : Store} {a : Address} {n : Node} {k : VaultKey} {v : Vault} {e : ServiceFault}
  {records : List DepositRecord}

theorem modifyNode_of_fixed {f : Node → Node} (found : s.node? a = some n) (fixed : f n = n) :
    s.modifyNode a f = s := by
  simp only [modifyNode, Keyed.modify_of_fixed found fixed]

theorem modifyVault_of_fixed {f : Vault → Vault} (found : s.vault k = .ok v) (fixed : f v = v) :
    s.modifyVault k f = s := by
  obtain ⟨d, hd, hv⟩ := vault_eq_ok found
  simp only [modifyVault]
  rw [Keyed.modify_of_fixed hd (by rw [Keyed.modify_of_fixed hv fixed])]

/-- Opening a node's list for a vault leaves the store as it is exactly when the node already
holds a list for the vault. -/
theorem openList_eq_self_iff (h : s.Inv) (found : s.node? a = some n) (k : VaultKey) :
    (s.modifyNode a fun m => m.appendValidators k []) = s ↔ k ∈ n.stakewise.map Prod.fst := by
  obtain ⟨mem, addr⟩ := mem_of_node? found
  constructor
  · intro same
    have const : (s.modifyNode a fun m => m.appendValidators k []) =
        s.modifyNode a fun _ => n.appendValidators k [] := modifyNode_congr found rfl
    have after := node?_modifyNode found (m := n.appendValidators k []) addr a
    rw [if_pos rfl, ← const, same, found] at after
    have opened := Node.mem_keys_appendValidators n k []
    rwa [← Option.some.inj after] at opened
  · intro held
    exact modifyNode_of_fixed found (Node.appendValidators_nil (h.stakewise_sorted n mem) held)

theorem storeBatch_eq (found : s.vault k = .ok v) (records : List DepositRecord) :
    s.storeBatch k a records =
      (s.modifyVault k fun w =>
          { w with knownPubkeys := placeKeys (newRecords v.knownPubkeys records) w.knownPubkeys }).modifyNode
        a fun m => m.appendValidators k ((newRecords v.knownPubkeys records).map fun r => { record := r }) := by
  simp only [storeBatch, found, freshRecords_fst_eq_newRecords, freshRecords_snd_eq_placeKeys]
  congr 1
  exact modifyVault_congr found rfl

theorem storeBatch_of_nothing_new (found : s.vault k = .ok v)
    (nothing : newRecords v.knownPubkeys records = []) :
    s.storeBatch k a records = s.modifyNode a fun m => m.appendValidators k [] := by
  have fixed : (fun w : Vault => { w with knownPubkeys := placeKeys [] w.knownPubkeys }) v = v :=
    rfl
  rw [storeBatch_eq found, nothing, modifyVault_of_fixed found fixed]
  rfl

theorem registeredNode_error (refused : s.registeredNode a = .error e) :
    e = .addressMissingWhitelist a ∨ e = .unregisteredNode a := by
  unfold registeredNode whitelistedNode at refused
  cases found : s.node? a with
  | none =>
    simp only [found] at refused
    exact .inl (Except.error.inj refused).symm
  | some m =>
    cases hm : m.registered <;>
      simp [found, hm, bind, Except.bind, pure, Except.pure, throw, throwThe, MonadExceptOf.throw]
        at refused
    exact .inr refused.symm

theorem vault_error (refused : s.vault k = .error e) :
    e = .deploymentNotFound k.deployment ∨ e = .vaultNotFound k.vault := by
  unfold vault deployment at refused
  cases hd : Keyed.get? Deployment.name k.deployment s.deployments with
  | none =>
    simp only [hd, bind, Except.bind] at refused
    exact .inl (Except.error.inj refused).symm
  | some d =>
    cases hv : Keyed.get? Vault.address k.vault d.vaults <;>
      simp [hd, hv, bind, Except.bind, pure, Except.pure, throw, throwThe, MonadExceptOf.throw]
        at refused
    exact .inr refused.symm

/-! ### The upload, check by check -/

theorem uploadDepositData_unregistered (refused : s.registeredNode a = .error e) :
    (uploadDepositData k a records).run s = .error e s := by
  rw [uploadDepositData_run, refused]

theorem uploadDepositData_stray {n : Node} {pre post : List DepositRecord} {r : DepositRecord}
    (registered : s.registeredNode a = .ok n) (before : ∀ x ∈ pre, x.withdrawalAddress = k.vault)
    (stray : r.withdrawalAddress ≠ k.vault) :
    (uploadDepositData k a (pre ++ r :: post)).run s =
      .error (.vaultMismatch r.pubkey k.vault) s := by
  rw [uploadDepositData_run, registered, checkDepositBatch_first_stray before stray]

theorem uploadDepositData_missing_vault (registered : s.registeredNode a = .ok n)
    (all : ∀ r ∈ records, r.withdrawalAddress = k.vault) (missing : s.vault k = .error e) :
    (uploadDepositData k a records).run s = .error e s := by
  rw [uploadDepositData_run, registered, checkDepositBatch_of_withdraw all, missing]

theorem uploadDepositData_stored (registered : s.registeredNode a = .ok n)
    (all : ∀ r ∈ records, r.withdrawalAddress = k.vault) (found : s.vault k = .ok v) :
    (uploadDepositData k a records).run s =
      .ok (newRecords v.knownPubkeys records).length (s.storeBatch k a records) := by
  rw [uploadDepositData_run, registered, checkDepositBatch_of_withdraw all, found,
    ← freshRecords_fst_eq_newRecords]

end Store

/-- A deposit upload, check by check: the node must be registered, then every record must
withdraw to the vault, the first that does not being named, then the vault must exist. An upload
that passes returns how many records were new and stores exactly those: the vault places their
keys, and the node appends them to its list for the vault as fresh validators. When nothing is
new, the node's list for the vault is still opened, so the store is left as it was exactly when
the node already held a list for the vault. -/
theorem deposit_upload_stores_new_records (s : Store) (h : s.Inv) (k : VaultKey) (a : Address)
    (records : List DepositRecord) :
    (∀ e, s.registeredNode a = .error e →
      (e = .addressMissingWhitelist a ∨ e = .unregisteredNode a) ∧
        (Store.uploadDepositData k a records).run s = .error e s) ∧
    ∀ n, s.registeredNode a = .ok n →
      (∀ pre r post, records = pre ++ r :: post → (∀ x ∈ pre, x.withdrawalAddress = k.vault) →
        r.withdrawalAddress ≠ k.vault →
        (Store.uploadDepositData k a records).run s = .error (.vaultMismatch r.pubkey k.vault) s) ∧
      ((∀ r ∈ records, r.withdrawalAddress = k.vault) →
        (∀ e, s.vault k = .error e →
          (e = .deploymentNotFound k.deployment ∨ e = .vaultNotFound k.vault) ∧
            (Store.uploadDepositData k a records).run s = .error e s) ∧
        ∀ v, s.vault k = .ok v →
          (Store.uploadDepositData k a records).run s =
            .ok (newRecords v.knownPubkeys records).length
              ((s.modifyVault k fun w =>
                  { w with
                    knownPubkeys := placeKeys (newRecords v.knownPubkeys records) w.knownPubkeys }).modifyNode
                a fun m => m.appendValidators k ((newRecords v.knownPubkeys records).map fun r =>
                  { record := r, status := .pending, used := false, active := false,
                    exitMessage := none, exitUploaded := false })) ∧
          (newRecords v.knownPubkeys records = [] →
            (Store.uploadDepositData k a records).run s =
              .ok 0 (s.modifyNode a fun m => m.appendValidators k []) ∧
            ((Store.uploadDepositData k a records).run s = .ok 0 s ↔
              k ∈ n.stakewise.map Prod.fst))) := by
  refine ⟨fun e refused => ⟨Store.registeredNode_error refused,
    Store.uploadDepositData_unregistered refused⟩, fun n registered => ⟨?_, fun all => ⟨?_, ?_⟩⟩⟩
  · rintro pre r post rfl before stray
    exact Store.uploadDepositData_stray registered before stray
  · exact fun e missing => ⟨Store.vault_error missing,
      Store.uploadDepositData_missing_vault registered all missing⟩
  · intro v found
    have stored := Store.uploadDepositData_stored registered all found
    refine ⟨by rw [stored, Store.storeBatch_eq found], fun nothing => ?_⟩
    have opened : (Store.uploadDepositData k a records).run s =
        .ok 0 (s.modifyNode a fun m => m.appendValidators k []) := by
      rw [stored, Store.storeBatch_of_nothing_new found nothing, nothing, List.length_nil]
    refine ⟨opened, ?_⟩
    -- the upload answers 0 either way, so only the store it leaves can differ
    have node := Store.node?_of_whitelistedNode (Store.whitelistedNode_of_registeredNode registered)
    rw [opened, EStateM.Result.ok.injEq]
    simp only [true_and]
    exact Store.openList_eq_self_iff h node k

/-- A store with one registered node, at the zero address, that holds no validators yet, and one
deployment with one vault. -/
def openingStore : Store where
  users := [{ email := "ops", nodes := [Address.zero] }]
  nodes := [{ address := Address.zero, owner := "ops", registered := true }]
  deployments := [{
    name := "dev", chainId := 17000, whitelist := Address.zero, factory := Address.zero,
    vaults := [{ address := Address.zero }] }]

/-- The vault of `openingStore`. -/
def openingKey : VaultKey := ⟨"dev", Address.zero⟩

theorem inv_openingStore : openingStore.Inv where
  emails_nodup := by simp [openingStore]
  nodes_sorted := by simp [openingStore, Keyed.Sorted]
  stakewise_sorted := by simp [openingStore, Keyed.Sorted]
  deployments_sorted := by simp [openingStore, Keyed.Sorted]
  vaults_sorted := by simp [openingStore, Keyed.Sorted]
  minipools_sorted := by simp [openingStore, Keyed.Sorted]
  listed_once := by simp [openingStore]
  owner_exists := by simp [openingStore]
  listed_whitelisted := by simp [openingStore]
  verified_registered := by simp [openingStore]
  stakewise_registered := by simp [openingStore]
  withdraws_to_vault := by simp [openingStore]
  pubkeys_nodup := by simp [openingStore, Store.pubkeysIn, Node.validatorsIn, Keyed.get?]
  known_exact := by simp [openingStore, Store.pubkeysIn, Node.validatorsIn, Keyed.get?]
  minipool_nodes := by simp [openingStore]

theorem vault_openingStore : openingStore.vault openingKey = .ok { address := Address.zero } := by
  simp [openingStore, openingKey, Store.vault, Store.deployment, Keyed.get?, bind, Except.bind,
    pure, Except.pure]

theorem registeredNode_openingStore : openingStore.registeredNode Address.zero =
    .ok { address := Address.zero, owner := "ops", registered := true } := by
  simp [openingStore, Store.registeredNode, Store.whitelistedNode, Store.node?, Keyed.get?, bind,
    Except.bind, pure, Except.pure]

/-- An upload of an empty batch by a node that holds no list for the vault answers that nothing
was new, yet changes the store: the node's list for the vault is opened. -/
theorem empty_upload_changes_store :
    openingStore.Inv ∧ ∃ s', (Store.uploadDepositData openingKey Address.zero []).run openingStore =
      .ok 0 s' ∧ s' ≠ openingStore := by
  refine ⟨inv_openingStore, openingStore.modifyNode Address.zero fun m =>
    m.appendValidators openingKey [], ?_, ?_⟩
  · rw [Store.uploadDepositData_stored registeredNode_openingStore (by simp) vault_openingStore,
      Store.storeBatch_of_nothing_new vault_openingStore rfl]
    rfl
  · -- the node holds no list at all, so opening one changes it
    rw [Ne, Store.openList_eq_self_iff inv_openingStore (Store.node?_of_whitelistedNode
      (Store.whitelistedNode_of_registeredNode registeredNode_openingStore))]
    simp

theorem deposit_upload_stores_new_records_opening : openingStore.Inv ∧
    ∀ records : List DepositRecord, (∀ r ∈ records, r.withdrawalAddress = openingKey.vault) →
      ∃ s', (Store.uploadDepositData openingKey Address.zero records).run openingStore =
        .ok (newRecords [] records).length s' := by
  refine ⟨inv_openingStore, fun records all => ?_⟩
  -- the vault knows no key yet, so the first record of each key is new
  exact ⟨_, ((((deposit_upload_stores_new_records openingStore inv_openingStore openingKey
    Address.zero records).2 _ registeredNode_openingStore).2 all).2 _ vault_openingStore).1⟩

end StakingHub
