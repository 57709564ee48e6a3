import StakingHub.Proofs.ServedSets
import StakingHub.Proofs.Login
import StakingHub.Proofs.Approvals

/-!
# Independent clients commute

Nodes log in on their own sessions and upload deposit records to vaults. Requests of different
nodes touch different parts of the store, or one part in ways that commute: logins on different
nonces bind different sessions; an upload changes one vault's known keys and the uploading
node's validators; two uploads with no key in common each find the same of their records new
whichever is served first, and leave the same known keys, since keys are placed in key order.
So serving the requests of several nodes in any interleaving that keeps each node's own order
gives every request the same answer and ends in the same store. The argument is the usual one:
two neighbouring requests of different nodes may swap (`serveOne_swap`), so a request moves
ahead of a block of other nodes' requests (`serve_bubble`), and induction on one schedule
splits the other at the first request of the same node (`independent_clients_commute`).
-/

namespace StakingHub

open Std

namespace Keyed

variable {α κ : Type}

theorem put_comm [Ord κ] [TransOrd κ] [LawfulEqOrd κ] {key : α → κ} {x y : α}
    (differ : key x ≠ key y) (xs : List α) :
    put key x (put key y xs) = put key y (put key x xs) := by
  have apart : compare (key x) (key y) ≠ .eq := fun same => differ (LawfulEqCmp.eq_of_compare same)
  induction xs with
  | nil =>
    cases hxy : compare (key x) (key y) with
    | lt => simp [put, hxy, OrientedCmp.gt_of_lt hxy]
    | eq => exact absurd hxy apart
    | gt => simp [put, hxy, OrientedCmp.lt_of_gt hxy]
  | cons z zs ih =>
    cases hyz : compare (key y) (key z) with
    | lt =>
      cases hxz : compare (key x) (key z) with
      | lt =>
        cases hxy : compare (key x) (key y) with
        | lt => simp [put, hxz, hyz, hxy, OrientedCmp.gt_of_lt hxy]
        | eq => exact absurd hxy apart
        | gt => simp [put, hxz, hyz, hxy, OrientedCmp.lt_of_gt hxy]
      | eq =>
        have hyx : compare (key y) (key x) = .lt :=
          TransCmp.lt_of_lt_of_eq hyz (OrientedCmp.eq_symm hxz)
        simp [put, hxz, hyz, hyx, OrientedCmp.gt_of_lt hyx]
      | gt =>
        have hyx : compare (key y) (key x) = .lt := TransCmp.lt_trans hyz (OrientedCmp.lt_of_gt hxz)
        simp [put, hxz, hyz, OrientedCmp.gt_of_lt hyx]
    | eq =>
      cases hxz : compare (key x) (key z) with
      | lt =>
        have hxy : compare (key x) (key y) = .lt :=
          TransCmp.lt_of_lt_of_eq hxz (OrientedCmp.eq_symm hyz)
        simp [put, hxz, hyz, hxy, OrientedCmp.gt_of_lt hxy]
      | eq => exact absurd (TransCmp.eq_trans hxz (OrientedCmp.eq_symm hyz)) apart
      | gt =>
        have hxy : compare (key x) (key y) = .gt :=
          TransCmp.gt_of_gt_of_eq hxz (OrientedCmp.eq_symm hyz)
        simp [put, hxz, hyz, hxy]
    | gt =>
      cases hxz : compare (key x) (key z) with
      | lt =>
        have hxy : compare (key x) (key y) = .lt := TransCmp.lt_trans hxz (OrientedCmp.lt_of_gt hyz)
        simp [put, hxz, hyz, OrientedCmp.gt_of_lt hxy]
      | eq =>
        have hxy : compare (key x) (key y) = .lt :=
          TransCmp.lt_of_eq_of_lt hxz (OrientedCmp.lt_of_gt hyz)
        simp [put, hxz, hyz, OrientedCmp.gt_of_lt hxy]
      | gt => simp [put, hxz, hyz, ih]

theorem modifyFirst_comm {p q : α → Bool} {f g : α → α}
    (apart : ∀ y, p y = true → q y = false) (fp : ∀ y, p y = true → q (f y) = false)
    (gq : ∀ y, q y = true → p (g y) = false) (xs : List α) :
    modifyFirst p f (modifyFirst q g xs) = modifyFirst q g (modifyFirst p f xs) := by
  induction xs with
  | nil => rfl
  | cons y ys ih =>
    by_cases hp : p y
    · simp [modifyFirst, hp, apart y hp, fp y hp]
    · by_cases hq : q y
      · simp [modifyFirst, hp, hq, gq y hq]
      · simp [modifyFirst, hp, hq, ih]

theorem modifyFirst_modifyFirst {p : α → Bool} {f g : α → α}
    (keeps : ∀ y, p y = true → p (f y) = true) (xs : List α) :
    modifyFirst p g (modifyFirst p f xs) = modifyFirst p (g ∘ f) xs := by
  induction xs with
  | nil => rfl
  | cons y ys ih => by_cases hp : p y <;> simp [modifyFirst, hp, keeps y, ih]

theorem find?_modifyFirst_of_passes {p q : α → Bool} {f : α → α}
    (passes : ∀ y, q y = true → p y = false ∧ p (f y) = false) (xs : List α) :
    (modifyFirst q f xs).find? p = xs.find? p := by
  induction xs with
  | nil => rfl
  | cons y ys ih =>
    by_cases hq : q y
    · obtain ⟨before, after⟩ := passes y hq
      simp [modifyFirst, hq, before, after]
    · by_cases hp : p y <;> simp [modifyFirst, hq, hp, ih]

end Keyed

/-! ### Two batches with no key in common -/

section Fresh

variable {known known' : List ValidatorPubkey} {records records' : List DepositRecord}

/-- Placing the keys of records in turn. -/
def placeKeys (records : List DepositRecord) (known : List ValidatorPubkey) :
    List ValidatorPubkey :=
  records.foldl (fun ks r => Keyed.put id r.pubkey ks) known

theorem placeKeys_cons (r : DepositRecord) (rs : List DepositRecord) (ks : List ValidatorPubkey) :
    placeKeys (r :: rs) ks = placeKeys rs (Keyed.put id r.pubkey ks) := rfl

theorem freshRecords_new {r : DepositRecord} {rs : List DepositRecord}
    (unseen : known.contains r.pubkey = false) :
    freshRecords known (r :: rs) =
      (r :: (freshRecords (Keyed.put id r.pubkey known) rs).1,
        (freshRecords (Keyed.put id r.pubkey known) rs).2) := by
  rw [freshRecords, if_neg (by simpa using unseen)]

theorem freshRecords_fst_congr (agree : ∀ r ∈ records, r.pubkey ∈ known ↔ r.pubkey ∈ known') :
    (freshRecords known records).1 = (freshRecords known' records).1 := by
  induction records generalizing known known' with
  | nil => rfl
  | cons r rs ih =>
    have rest : ∀ x ∈ rs, x.pubkey ∈ known ↔ x.pubkey ∈ known' :=
      fun x hx => agree x (List.mem_cons_of_mem r hx)
    have seen : known.contains r.pubkey = known'.contains r.pubkey := by
      simp [agree r List.mem_cons_self]
    cases hit : known.contains r.pubkey with
    | true =>
      rw [freshRecords, if_pos hit, freshRecords, if_pos (seen ▸ hit)]
      exact ih rest
    | false =>
      rw [freshRecords_new hit, freshRecords_new (seen ▸ hit)]
      have placed : ∀ x ∈ rs, x.pubkey ∈ Keyed.put id r.pubkey known ↔
          x.pubkey ∈ Keyed.put id r.pubkey known' := fun x hx => by
        rw [Keyed.mem_put_id, Keyed.mem_put_id, rest x hx]
      rw [ih placed]

theorem freshRecords_snd (known : List ValidatorPubkey) (records : List DepositRecord) :
    (freshRecords known records).2 = placeKeys (freshRecords known records).1 known := by
  induction records generalizing known with
  | nil => rfl
  | cons r rs ih =>
    cases hit : known.contains r.pubkey with
    | true =>
      rw [freshRecords, if_pos hit]
      exact ih known
    | false =>
      rw [freshRecords_new hit, ih]
      rfl

theorem put_placeKeys {x : ValidatorPubkey} (rs : List DepositRecord)
    (other : ∀ r ∈ rs, r.pubkey ≠ x) (ks : List ValidatorPubkey) :
    Keyed.put id x (placeKeys rs ks) = placeKeys rs (Keyed.put id x ks) := by
  induction rs generalizing ks with
  | nil => rfl
  | cons r rs ih =>
    rw [placeKeys_cons, placeKeys_cons, ih (fun y hy => other y (List.mem_cons_of_mem r hy)),
      Keyed.put_comm (other r List.mem_cons_self).symm]

theorem placeKeys_comm (rs rs' : List DepositRecord)
    (apart : ∀ r ∈ rs, ∀ r' ∈ rs', r.pubkey ≠ r'.pubkey) (ks : List ValidatorPubkey) :
    placeKeys rs' (placeKeys rs ks) = placeKeys rs (placeKeys rs' ks) := by
  induction rs generalizing ks with
  | nil => rfl
  | cons r rs ih =>
    have later := ih (fun x hx => apart x (List.mem_cons_of_mem r hx)) (Keyed.put id r.pubkey ks)
    rw [placeKeys_cons, placeKeys_cons, later,
      put_placeKeys rs' (fun r' hr' => (apart r List.mem_cons_self r' hr').symm)]

theorem freshRecords_fst_after (apart : ∀ r ∈ records, ∀ r' ∈ records', r.pubkey ≠ r'.pubkey) :
    (freshRecords (freshRecords known records').2 records).1 = (freshRecords known records).1 := by
  refine freshRecords_fst_congr fun r hr => ?_
  rw [mem_freshRecords_known]
  refine or_iff_left fun added => ?_
  obtain ⟨r', hr', same⟩ := List.mem_map.mp added
  exact apart r hr r' ((freshRecords_sublist _ _).subset hr') same.symm

theorem freshRecords_snd_comm (apart : ∀ r ∈ records, ∀ r' ∈ records', r.pubkey ≠ r'.pubkey) :
    (freshRecords (freshRecords known records).2 records').2 =
      (freshRecords (freshRecords known records').2 records).2 := by
  have apart' : ∀ r' ∈ records', ∀ r ∈ records, r'.pubkey ≠ r.pubkey :=
    fun r' hr' r hr => (apart r hr r' hr').symm
  have fresh_apart : ∀ r ∈ (freshRecords known records).1,
      ∀ r' ∈ (freshRecords known records').1, r.pubkey ≠ r'.pubkey := fun r hr r' hr' =>
    apart r ((freshRecords_sublist _ _).subset hr) r' ((freshRecords_sublist _ _).subset hr')
  calc (freshRecords (freshRecords known records).2 records').2
      = placeKeys (freshRecords known records').1 (placeKeys (freshRecords known records).1 known) := by
        rw [freshRecords_snd _ records', freshRecords_fst_after apart',
          freshRecords_snd known records]
    _ = placeKeys (freshRecords known records).1 (placeKeys (freshRecords known records').1 known) :=
        placeKeys_comm _ _ fresh_apart known
    _ = (freshRecords (freshRecords known records').2 records).2 := by
        rw [freshRecords_snd _ records, freshRecords_fst_after apart,
          freshRecords_snd known records']

end Fresh

/-! ### Requests and what they change -/

/-- What a node asks of the store: to log in on a session's nonce, or to store deposit records
for a vault. -/
inductive Request where
  | login (nonce : String) (sig : Signature)
  | upload (k : VaultKey) (records : List DepositRecord)

/-- The store's answer to a request: the session's token, or how many records were new. -/
inductive Answer where
  | token (t : String)
  | stored (count : Nat)
  deriving DecidableEq

/-- Requests of two different nodes are independent when, as logins, they use different nonces,
and, as uploads to one vault, their batches share no key. -/
def Request.Independent : Request → Request → Prop
  | .login n _, .login n' _ => n ≠ n'
  | .login _ _, .upload _ _ => True
  | .upload _ _, .login _ _ => True
  | .upload k records, .upload k' records' =>
    k = k' → ∀ r ∈ records, ∀ r' ∈ records', r.pubkey ≠ r'.pubkey

instance Request.decidableIndependent : (p q : Request) → Decidable (p.Independent q)
  | .login n _, .login n' _ => inferInstanceAs (Decidable (n ≠ n'))
  | .login _ _, .upload _ _ => inferInstanceAs (Decidable True)
  | .upload _ _, .login _ _ => inferInstanceAs (Decidable True)
  | .upload k records, .upload k' records' =>
    inferInstanceAs (Decidable (k = k' → ∀ r ∈ records, ∀ r' ∈ records', r.pubkey ≠ r'.pubkey))

theorem Request.Independent.symm : {p q : Request} → p.Independent q → q.Independent p
  | .login _ _, .login _ _, apart => Ne.symm apart
  | .login _ _, .upload _ _, _ => trivial
  | .upload _ _, .login _ _, _ => trivial
  | .upload _ _, .upload _ _, apart => fun same r' hr' r hr => (apart same.symm r hr r' hr').symm

namespace Store

/-- Binds the first session carrying a nonce to a node. -/
def bindNonce (n : String) (a : Address) (s : Store) : Store :=
  { s with
    sessions := Keyed.modifyFirst (fun y => y.nonce = n) (fun y => { y with node := some a })
      s.sessions }

/-- Stores a batch for a node in a vault: the vault takes up the batch's new keys, and the node
its new records, as validators. -/
def storeBatch (k : VaultKey) (a : Address) (records : List DepositRecord) (s : Store) : Store :=
  match s.vault k with
  | .ok v =>
    (s.modifyVault k fun w => { w with knownPubkeys := (freshRecords v.knownPubkeys records).2 })
      |>.modifyNode a fun n =>
        n.appendValidators k ((freshRecords v.knownPubkeys records).1.map fun r => { record := r })
  | .error _ => s

variable {s : Store}

theorem bindNonce_of_selected {n : String} {a : Address} {x : Session}
    (selected : s.sessionByNonce? n = some x) :
    { s with
      sessions := Keyed.modifyFirst (fun y => y.nonce = n) (fun _ => { x with node := some a })
        s.sessions } = s.bindNonce n a := by
  have found : Keyed.get? Session.nonce n s.sessions = some x := selected
  simp only [bindNonce]
  congr 1
  exact Keyed.modify_congr found rfl

theorem uploadDepositData_run (k : VaultKey) (a : Address) (records : List DepositRecord) :
    (uploadDepositData k a records).run s =
      match s.registeredNode a, checkDepositBatch records k.vault, s.vault k with
      | .ok _, .ok _, .ok v => .ok (freshRecords v.knownPubkeys records).1.length
          (s.storeBatch k a records)
      | .error e, _, _ => .error e s
      | .ok _, .error e, _ => .error e s
      | .ok _, .ok _, .error e => .error e s := by
  cases registered : s.registeredNode a with
  | error e => simp [uploadDepositData, StoreM.read, registered, EStateM.run, bind, EStateM.bind]
  | ok n =>
    cases checked : checkDepositBatch records k.vault with
    | error e =>
      simp [uploadDepositData, StoreM.read, registered, checked, EStateM.run, bind, EStateM.bind]
    | ok u =>
      cases found : s.vault k with
      | error e =>
        simp [uploadDepositData, StoreM.read, registered, checked, found, vaultMut, StoreM.borrow,
          EStateM.run, bind, EStateM.bind, Except.bind]
      | ok v =>
        have held : (s.modifyVault k fun _ =>
            { v with knownPubkeys := (freshRecords v.knownPubkeys records).2 }).whitelistedNode a =
            .ok n := by
          rw [whitelistedNode_modifyVault]
          exact whitelistedNode_of_registeredNode registered
        simp [uploadDepositData, StoreM.read, registered, checked, found, vaultMut, nodeMut,
          StoreM.borrow, EStateM.run, bind, EStateM.bind, Except.bind, held, pure, EStateM.pure,
          Except.pure]
        have vaults : (s.modifyVault k fun _ =>
            { v with knownPubkeys := (freshRecords v.knownPubkeys records).2 }) =
            s.modifyVault k fun w =>
              { w with knownPubkeys := (freshRecords v.knownPubkeys records).2 } :=
          modifyVault_congr found rfl
        have node : (s.modifyVault k fun w =>
            { w with knownPubkeys := (freshRecords v.knownPubkeys records).2 }).node? a = some n :=
          node?_of_whitelistedNode (whitelistedNode_of_registeredNode registered)
        simp only [storeBatch, found]
        rw [vaults]
        exact modifyNode_congr node rfl

theorem login_run_cases (s : Store) (templates : Templates) (policy : NoncePolicy) (a : Address)
    (n : String) (sig : Signature) :
    (∃ t, (login templates policy a n sig).run s = .ok t (s.bindNonce n a)) ∨
      ∃ e, (login templates policy a n sig).run s = .error e s := by
  cases ran : (login templates policy a n sig).run s with
  | ok t s' =>
    obtain ⟨-, -, x, found, -, -, -, rfl⟩ := login_ok ran
    exact .inl ⟨t, by rw [bindNonce_of_selected (sessionOfNonce_ok found)]⟩
  | error e s' => exact .inr ⟨e, by rw [login_atomic templates policy a n sig s e s' ran]⟩

theorem uploadDepositData_run_cases (s : Store) (k : VaultKey) (a : Address)
    (records : List DepositRecord) :
    (∃ count, (uploadDepositData k a records).run s = .ok count (s.storeBatch k a records)) ∨
      ∃ e, (uploadDepositData k a records).run s = .error e s := by
  rw [uploadDepositData_run]
  cases s.registeredNode a with
  | error e => exact .inr ⟨e, rfl⟩
  | ok n =>
    cases checkDepositBatch records k.vault with
    | error e => exact .inr ⟨e, rfl⟩
    | ok u =>
      cases s.vault k with
      | error e => exact .inr ⟨e, rfl⟩
      | ok v => exact .inl ⟨_, rfl⟩

/-- What a run answers, and the store it leaves. -/
def settle {α : Type} (answer : α → Answer) :
    EStateM.Result ServiceFault Store α → Except ServiceFault Answer × Store
  | .ok x s => (.ok (answer x), s)
  | .error e s => (.error e, s)

/-- Serves a node's request under the login templates and nonce policy: the answer, and the
store the request leaves. -/
def serveOne (templates : Templates) (policy : NoncePolicy) (s : Store) :
    Address × Request → Except ServiceFault Answer × Store
  | (a, .login n sig) => settle .token ((login templates policy a n sig).run s)
  | (a, .upload k records) => settle .stored ((uploadDepositData k a records).run s)

/-- What a node's request changes when it is served. -/
def changeOf : Address × Request → Store → Store
  | (a, .login n _) => bindNonce n a
  | (a, .upload k records) => storeBatch k a records

/-- The store after an answer: changed if the request was served, as it was if it was refused. -/
def afterAnswer (x : Except ServiceFault Answer) (change : Store → Store) (s : Store) : Store :=
  match x with
  | .ok _ => change s
  | .error _ => s

variable (templates : Templates) (policy : NoncePolicy)

theorem serveOne_snd (s : Store) (q : Address × Request) :
    (s.serveOne templates policy q).2 =
      afterAnswer (s.serveOne templates policy q).1 (changeOf q) s := by
  obtain ⟨a, r⟩ := q
  cases r with
  | login n sig =>
    rcases login_run_cases s templates policy a n sig with ⟨t, ran⟩ | ⟨e, ran⟩ <;>
      simp [serveOne, ran, settle, afterAnswer, changeOf]
  | upload k records =>
    rcases uploadDepositData_run_cases s k a records with ⟨count, ran⟩ | ⟨e, ran⟩ <;>
      simp [serveOne, ran, settle, afterAnswer, changeOf]

theorem serveOne_login_congr {t : Store} {a : Address} {n : String} (sig : Signature)
    (session : t.sessionByNonce? n = s.sessionByNonce? n)
    (node : (t.node? a).any Node.registered = (s.node? a).any Node.registered) :
    (t.serveOne templates policy (a, .login n sig)).1 =
      (s.serveOne templates policy (a, .login n sig)).1 := by
  simp only [serveOne]
  rw [login_run, login_run, session, node]
  cases recoverSigner (templates.loginMessage n a) sig with
  | error e => rfl
  | ok r =>
    cases s.sessionByNonce? n with
    | none => by_cases other : r = a <;> simp [other, settle]
    | some x =>
      dsimp only
      split_ifs <;> rfl

theorem serveOne_upload_congr {t : Store} {a : Address} {k : VaultKey}
    {records : List DepositRecord} (node : t.registeredNode a = s.registeredNode a)
    (vault : (t.vault k).map (fun v => (freshRecords v.knownPubkeys records).1) =
      (s.vault k).map fun v => (freshRecords v.knownPubkeys records).1) :
    (t.serveOne templates policy (a, .upload k records)).1 =
      (s.serveOne templates policy (a, .upload k records)).1 := by
  simp only [serveOne]
  rw [uploadDepositData_run, uploadDepositData_run, node]
  cases s.registeredNode a with
  | error e => rfl
  | ok n =>
    cases checkDepositBatch records k.vault with
    | error e => rfl
    | ok u =>
      cases hs : s.vault k with
      | error e =>
        cases ht : t.vault k with
        | error e' =>
          simp only [ht, hs, Except.map, Except.error.injEq] at vault
          simp [settle, vault]
        | ok w => simp [ht, hs, Except.map] at vault
      | ok v =>
        cases ht : t.vault k with
        | error e' => simp [ht, hs, Except.map] at vault
        | ok w =>
          simp only [ht, hs, Except.map, Except.ok.injEq] at vault
          simp [settle, vault]

/-! ### What a change leaves for other nodes -/

variable {a b : Address} {n n' : String} {k k' : VaultKey} {records records' : List DepositRecord}

theorem sessionByNonce?_bindNonce (other : n' ≠ n) :
    (s.bindNonce n' b).sessionByNonce? n = s.sessionByNonce? n := by
  refine Keyed.find?_modifyFirst_of_passes (fun y bound => ?_) s.sessions
  have carries : y.nonce = n' := by simpa using bound
  simp [carries, other]

theorem registeredNode_bindNonce : (s.bindNonce n b).registeredNode a = s.registeredNode a := rfl

theorem vault_bindNonce : (s.bindNonce n b).vault k = s.vault k := rfl

theorem storeBatch_sessions : (s.storeBatch k b records).sessions = s.sessions := by
  unfold storeBatch
  split <;> simp

theorem node?_appendValidators_other (other : b ≠ a) (k : VaultKey) (vs : List StakeWiseValidator) :
    (s.modifyNode b fun m => m.appendValidators k vs).node? a = s.node? a := by
  simp only [node?, modifyNode]
  rw [Keyed.get?_modify Node.address b a (fun m => m.appendValidators k vs) (fun _ => rfl),
    if_neg other]

theorem vault_modifyNode (f : Node → Node) : (s.modifyNode b f).vault k = s.vault k := rfl

theorem node?_storeBatch (other : b ≠ a) : (s.storeBatch k b records).node? a = s.node? a := by
  unfold storeBatch
  split
  · rw [node?_appendValidators_other other]
    rfl
  · rfl

theorem registeredNode_storeBatch (other : b ≠ a) :
    (s.storeBatch k b records).registeredNode a = s.registeredNode a := by
  simp only [registeredNode, whitelistedNode, node?_storeBatch other]

theorem vault_storeBatch :
    (s.storeBatch k' b records').vault k =
      if k' = k then (s.vault k).map fun v =>
        { v with knownPubkeys := (freshRecords v.knownPubkeys records').2 }
      else s.vault k := by
  unfold storeBatch
  cases found : s.vault k' with
  | error e =>
    by_cases same : k' = k
    · subst same
      simp [found, Except.map]
    · simp [same]
  | ok v =>
    simp only
    have keeps : ∀ w : Vault,
        ({ w with knownPubkeys := (freshRecords v.knownPubkeys records').2 } : Vault).address =
          w.address := fun _ => rfl
    rw [vault_modifyNode, vault_modifyVault keeps k]
    by_cases same : k' = k
    · subst same
      simp [found, Except.map]
    · simp [same]

/-! ### Changes of different nodes commute -/

theorem vault_storeBatch_self {v : Vault} (found : s.vault k = .ok v) :
    (s.storeBatch k b records).vault k =
      .ok { v with knownPubkeys := (freshRecords v.knownPubkeys records).2 } := by
  rw [vault_storeBatch, if_pos rfl, found]
  rfl

theorem vault_storeBatch_other (other : k' ≠ k) :
    (s.storeBatch k' b records').vault k = s.vault k := by
  rw [vault_storeBatch, if_neg other]

theorem modifyNode_modifyVault (f : Node → Node) (g : Vault → Vault) :
    (s.modifyNode a f).modifyVault k g = (s.modifyVault k g).modifyNode a f := rfl

theorem modifyNode_comm {f g : Node → Node} (fk : ∀ m, (f m).address = m.address)
    (gk : ∀ m, (g m).address = m.address) (other : a ≠ b) :
    (s.modifyNode a f).modifyNode b g = (s.modifyNode b g).modifyNode a f := by
  simp only [modifyNode, Keyed.modify]
  congr 1
  refine Keyed.modifyFirst_comm (fun y hy => ?_) (fun y hy => ?_) (fun y hy => ?_) s.nodes
  · have at_b : y.address = b := by simpa using hy
    simp [at_b, Ne.symm other]
  · have at_b : y.address = b := by simpa using hy
    simp [gk, at_b, Ne.symm other]
  · have at_a : y.address = a := by simpa using hy
    simp [fk, at_a, other]

theorem modifyVault_comm {f g : Vault → Vault} (fk : ∀ w, (f w).address = w.address)
    (gk : ∀ w, (g w).address = w.address) (other : k ≠ k') :
    (s.modifyVault k f).modifyVault k' g = (s.modifyVault k' g).modifyVault k f := by
  simp only [modifyVault, Keyed.modify]
  congr 1
  by_cases same : k.deployment = k'.deployment
  · -- one deployment: its two vaults change in either order
    have vaults : k.vault ≠ k'.vault := fun v => other (by cases k; cases k'; simp_all)
    rw [same, Keyed.modifyFirst_modifyFirst (by simp), Keyed.modifyFirst_modifyFirst (by simp)]
    congr 1
    funext e
    simp only [Function.comp_apply, Deployment.mk.injEq, and_true, true_and]
    refine Keyed.modifyFirst_comm (fun y hy => ?_) (fun y hy => ?_) (fun y hy => ?_) e.vaults
    · have at' : y.address = k'.vault := by simpa using hy
      simp [at', Ne.symm vaults]
    · have at' : y.address = k'.vault := by simpa using hy
      simp [gk, at', Ne.symm vaults]
    · have at_k : y.address = k.vault := by simpa using hy
      simp [fk, at_k, vaults]
  · refine Keyed.modifyFirst_comm (fun y hy => ?_) (fun y hy => ?_) (fun y hy => ?_) s.deployments
    · have at' : y.name = k'.deployment := by simpa using hy
      simp [at', Ne.symm same]
    · have at' : y.name = k'.deployment := by simpa using hy
      simp [at', Ne.symm same]
    · have at_k : y.name = k.deployment := by simpa using hy
      simp [at_k, same]

theorem bindNonce_comm (other : n ≠ n') :
    (s.bindNonce n' b).bindNonce n a = (s.bindNonce n a).bindNonce n' b := by
  simp only [bindNonce]
  congr 1
  refine Keyed.modifyFirst_comm (fun y hy => ?_) (fun y hy => ?_) (fun y hy => ?_) s.sessions
  · have carries : y.nonce = n := by simpa using hy
    simp [carries, other]
  · have carries : y.nonce = n := by simpa using hy
    simp [carries, other]
  · have carries : y.nonce = n' := by simpa using hy
    simp [carries, Ne.symm other]

theorem storeBatch_bindNonce :
    (s.bindNonce n a).storeBatch k b records = (s.storeBatch k b records).bindNonce n a := by
  unfold storeBatch
  rw [vault_bindNonce]
  split <;> rfl

theorem storeBatch_of_vault {v : Vault} (found : s.vault k = .ok v) :
    s.storeBatch k a records =
      (s.modifyVault k fun w =>
        { w with knownPubkeys := (freshRecords v.knownPubkeys records).2 }).modifyNode a fun m =>
          m.appendValidators k ((freshRecords v.knownPubkeys records).1.map fun r => { record := r }) := by
  simp only [storeBatch, found]

theorem storeBatch_of_missing {e : ServiceFault} (missing : s.vault k = .error e) :
    s.storeBatch k a records = s := by
  simp only [storeBatch, missing]

theorem modifyNode_append_comm (other : a ≠ b) (k k' : VaultKey)
    (vs vs' : List StakeWiseValidator) :
    (s.modifyNode a fun m => m.appendValidators k vs).modifyNode b
        (fun m => m.appendValidators k' vs') =
      (s.modifyNode b fun m => m.appendValidators k' vs').modifyNode a
        fun m => m.appendValidators k vs :=
  modifyNode_comm (fun _ => rfl) (fun _ => rfl) other

theorem modifyVault_known_comm (other : k ≠ k') (K K' : List ValidatorPubkey) :
    (s.modifyVault k fun w => { w with knownPubkeys := K }).modifyVault k'
        (fun w => { w with knownPubkeys := K' }) =
      (s.modifyVault k' fun w => { w with knownPubkeys := K' }).modifyVault k
        fun w => { w with knownPubkeys := K } :=
  modifyVault_comm (fun _ => rfl) (fun _ => rfl) other

theorem modifyVault_known_twice {v : Vault} (found : s.vault k = .ok v)
    (K K' : List ValidatorPubkey) :
    (s.modifyVault k fun w => { w with knownPubkeys := K }).modifyVault k
        (fun w => { w with knownPubkeys := K' }) =
      s.modifyVault k fun w => { w with knownPubkeys := K' } := by
  have keeps : ({ v with knownPubkeys := K } : Vault).address = k.vault :=
    show v.address = k.vault from address_of_vault found
  rw [modifyVault_modifyVault found keeps]
  rfl

theorem storeBatch_comm (other : a ≠ b)
    (apart : k = k' → ∀ r ∈ records, ∀ r' ∈ records', r.pubkey ≠ r'.pubkey) :
    (s.storeBatch k' b records').storeBatch k a records =
      (s.storeBatch k a records).storeBatch k' b records' := by
  by_cases same : k' = k
  · subst same
    have apart := apart rfl
    have apart' : ∀ r' ∈ records', ∀ r ∈ records, r'.pubkey ≠ r.pubkey :=
      fun r' hr' r hr => (apart r hr r' hr').symm
    cases found : s.vault k' with
    | error e => simp only [storeBatch_of_missing found]
    | ok v =>
      rw [storeBatch_of_vault (vault_storeBatch_self found),
        storeBatch_of_vault (vault_storeBatch_self found), storeBatch_of_vault found,
        storeBatch_of_vault found]
      simp only
      rw [freshRecords_fst_after apart, freshRecords_fst_after apart', modifyNode_modifyVault,
        modifyNode_modifyVault, modifyVault_known_twice found, modifyVault_known_twice found,
        freshRecords_snd_comm apart]
      exact modifyNode_append_comm (Ne.symm other) _ _ _ _
  · have afterB : (s.storeBatch k' b records').vault k = s.vault k := vault_storeBatch_other same
    have afterA : (s.storeBatch k a records).vault k' = s.vault k' :=
      vault_storeBatch_other (Ne.symm same)
    cases fa : s.vault k with
    | error e => rw [storeBatch_of_missing (afterB.trans fa), storeBatch_of_missing fa]
    | ok v =>
      cases fb : s.vault k' with
      | error e => rw [storeBatch_of_missing fb, storeBatch_of_missing (afterA.trans fb)]
      | ok v' =>
        rw [storeBatch_of_vault (afterB.trans fa), storeBatch_of_vault (afterA.trans fb),
          storeBatch_of_vault fa, storeBatch_of_vault fb, modifyNode_modifyVault,
          modifyNode_modifyVault, modifyVault_known_comm same]
        exact modifyNode_append_comm (Ne.symm other) _ _ _ _

/-! ### Requests of different nodes commute -/

variable {p q : Address × Request}

theorem changeOf_comm (other : p.1 ≠ q.1) (indep : p.2.Independent q.2) :
    changeOf p (changeOf q s) = changeOf q (changeOf p s) := by
  obtain ⟨a, rp⟩ := p
  obtain ⟨b, rq⟩ := q
  cases rp with
  | login n _ =>
    cases rq with
    | login n' _ => exact bindNonce_comm indep
    | upload k' records' => exact storeBatch_bindNonce.symm
  | upload k records =>
    cases rq with
    | login n' _ => exact storeBatch_bindNonce
    | upload k' records' => exact storeBatch_comm other indep

theorem answer_changeOf (other : p.1 ≠ q.1) (indep : p.2.Independent q.2) :
    ((changeOf p s).serveOne templates policy q).1 = (s.serveOne templates policy q).1 := by
  obtain ⟨b, rp⟩ := p
  obtain ⟨a, rq⟩ := q
  dsimp only at other indep
  cases rp with
  | login n' _ =>
    cases rq with
    | login n sig => exact serveOne_login_congr templates policy sig (sessionByNonce?_bindNonce indep) rfl
    | upload k records => exact serveOne_upload_congr templates policy registeredNode_bindNonce rfl
  | upload k' records' =>
    cases rq with
    | login n sig =>
      have session : (s.storeBatch k' b records').sessionByNonce? n = s.sessionByNonce? n := by
        simp only [sessionByNonce?, storeBatch_sessions]
      exact serveOne_login_congr templates policy sig session (congrArg _ (node?_storeBatch other))
    | upload k records =>
      refine serveOne_upload_congr templates policy (registeredNode_storeBatch other) ?_
      dsimp only [changeOf]
      rw [vault_storeBatch]
      split_ifs with same
      · -- one vault: the other batch's keys are none of this batch's
        have apart : ∀ r ∈ records, ∀ r' ∈ records', r.pubkey ≠ r'.pubkey :=
          fun r hr r' hr' => (indep same r' hr' r hr).symm
        cases s.vault k with
        | error e => rfl
        | ok v => simp only [Except.map, freshRecords_fst_after apart]
      · rfl

theorem answer_afterAnswer (other : p.1 ≠ q.1) (indep : p.2.Independent q.2)
    (x : Except ServiceFault Answer) :
    ((afterAnswer x (changeOf p) s).serveOne templates policy q).1 =
      (s.serveOne templates policy q).1 := by
  cases x with
  | ok _ => exact answer_changeOf templates policy other indep
  | error _ => rfl

theorem afterAnswer_comm {f g : Store → Store} (comm : f (g s) = g (f s))
    (x y : Except ServiceFault Answer) :
    afterAnswer x f (afterAnswer y g s) = afterAnswer y g (afterAnswer x f s) := by
  cases x <;> cases y <;> simp only [afterAnswer, comm]

/-- Two independent requests of different nodes, served in either order, get the same answers
and leave the same store. -/
theorem serveOne_swap (other : p.1 ≠ q.1) (indep : p.2.Independent q.2) (s : Store) :
    ((s.serveOne templates policy p).2.serveOne templates policy q).1 =
        (s.serveOne templates policy q).1 ∧
      ((s.serveOne templates policy q).2.serveOne templates policy p).1 =
        (s.serveOne templates policy p).1 ∧
      ((s.serveOne templates policy p).2.serveOne templates policy q).2 =
        ((s.serveOne templates policy q).2.serveOne templates policy p).2 := by
  have answerQ : ((s.serveOne templates policy p).2.serveOne templates policy q).1 =
      (s.serveOne templates policy q).1 := by
    rw [serveOne_snd templates policy s p]
    exact answer_afterAnswer templates policy other indep _
  have answerP : ((s.serveOne templates policy q).2.serveOne templates policy p).1 =
      (s.serveOne templates policy p).1 := by
    rw [serveOne_snd templates policy s q]
    exact answer_afterAnswer templates policy (Ne.symm other) indep.symm _
  refine ⟨answerQ, answerP, ?_⟩
  rw [serveOne_snd templates policy (s.serveOne templates policy p).2 q,
    serveOne_snd templates policy (s.serveOne templates policy q).2 p, answerQ, answerP,
    serveOne_snd templates policy s p, serveOne_snd templates policy s q]
  exact afterAnswer_comm (changeOf_comm (Ne.symm other) indep.symm) _ _

end Store

/-! ### Schedules -/

/-- What a schedule holds for one node, in order. -/
def ofNode {β : Type} (a : Address) (xs : List (Address × β)) : List β :=
  (xs.filter fun x => x.1 = a).map Prod.snd

section Schedules

variable {β : Type} {a : Address} {x y : Address × β} {xs ys : List (Address × β)}

theorem ofNode_cons : ofNode a (x :: xs) = if x.1 = a then x.2 :: ofNode a xs else ofNode a xs := by
  by_cases mine : x.1 = a <;> simp [ofNode, mine]

theorem ofNode_append : ofNode a (xs ++ ys) = ofNode a xs ++ ofNode a ys := by
  simp [ofNode]

theorem ofNode_cons_congr (tail : ofNode a xs = ofNode a ys) :
    ofNode a (x :: xs) = ofNode a (x :: ys) := by
  rw [ofNode_cons, ofNode_cons, tail]

theorem ofNode_cons_cancel (same : ∀ a, ofNode a (x :: xs) = ofNode a (x :: ys)) (a : Address) :
    ofNode a xs = ofNode a ys := by
  have heads := same a
  rw [ofNode_cons, ofNode_cons] at heads
  split_ifs at heads
  · exact (List.cons.inj heads).2
  · exact heads

theorem ofNode_bubble (apart : ∀ y ∈ xs, y.1 ≠ x.1) (a : Address) :
    ofNode a (xs ++ x :: ys) = ofNode a (x :: (xs ++ ys)) := by
  rw [ofNode_append, ofNode_cons, ofNode_cons, ofNode_append]
  split_ifs with mine
  · -- the block holds nothing for the entry's node
    have none : ofNode a xs = [] := by
      simpa [ofNode, mine] using apart
    rw [none]
    rfl
  · rfl

theorem ofNode_swap (other : x.1 ≠ y.1) (a : Address) :
    ofNode a (x :: y :: xs) = ofNode a (y :: x :: xs) := by
  have apart : ∀ z ∈ [x], z.1 ≠ y.1 := by simpa using other
  exact ofNode_bubble apart a

theorem eq_nil_of_ofNode (none : ∀ a, ofNode a xs = []) : xs = [] := by
  cases xs with
  | nil => rfl
  | cons x xs =>
    have mine := none x.1
    simp [ofNode_cons] at mine

theorem mem_of_ofNode (same : ∀ a, ofNode a xs = ofNode a ys) (mem : x ∈ ys) : x ∈ xs := by
  have held : x.2 ∈ ofNode x.1 ys := by
    simp only [ofNode, List.mem_map, List.mem_filter, decide_eq_true_eq]
    exact ⟨x, ⟨mem, rfl⟩, rfl⟩
  rw [← same] at held
  simp only [ofNode, List.mem_map, List.mem_filter, decide_eq_true_eq] at held
  obtain ⟨y, ⟨held, node⟩, entry⟩ := held
  rwa [← Prod.ext node entry]

theorem split_first {b : β} {bs : List β} (first : ofNode a xs = b :: bs) :
    ∃ block rest, xs = block ++ (a, b) :: rest ∧ (∀ y ∈ block, y.1 ≠ a) ∧ ofNode a rest = bs := by
  induction xs with
  | nil => simp [ofNode] at first
  | cons x xs ih =>
    rw [ofNode_cons] at first
    split_ifs at first with mine
    · obtain ⟨rfl, rfl⟩ := List.cons.inj first
      exact ⟨[], xs, by rw [← mine]; rfl, by simp, rfl⟩
    · obtain ⟨block, rest, rfl, apart, tail⟩ := ih first
      refine ⟨x :: block, rest, rfl, ?_, tail⟩
      simpa [mine] using apart

end Schedules

namespace Store

/-- Serves a schedule in order: every request's answer, tagged with its node, and the store the
last one leaves. -/
def serve (templates : Templates) (policy : NoncePolicy) (s : Store) :
    List (Address × Request) → List (Address × Except ServiceFault Answer) × Store
  | [] => ([], s)
  | q :: rest =>
    let after := (s.serveOne templates policy q).2.serve templates policy rest
    ((q.1, (s.serveOne templates policy q).1) :: after.1, after.2)

variable (templates : Templates) (policy : NoncePolicy)

theorem serve_cons (s : Store) (q : Address × Request) (rest : List (Address × Request)) :
    s.serve templates policy (q :: rest) =
      ((q.1, (s.serveOne templates policy q).1) ::
          ((s.serveOne templates policy q).2.serve templates policy rest).1,
        ((s.serveOne templates policy q).2.serve templates policy rest).2) := rfl

/-- A request served after a block of independent requests of other nodes gets the answer, and
leaves the store, it would if it went first. -/
theorem serve_bubble {p : Address × Request} (block rest : List (Address × Request))
    (apart : ∀ q ∈ block, q.1 ≠ p.1 ∧ q.2.Independent p.2) (s : Store) :
    (∀ a, ofNode a (s.serve templates policy (block ++ p :: rest)).1 =
        ofNode a (s.serve templates policy (p :: (block ++ rest))).1) ∧
      (s.serve templates policy (block ++ p :: rest)).2 =
        (s.serve templates policy (p :: (block ++ rest))).2 := by
  induction block generalizing s with
  | nil => exact ⟨fun _ => rfl, rfl⟩
  | cons q block ih =>
    obtain ⟨other, indep⟩ := apart q List.mem_cons_self
    obtain ⟨answers, store⟩ :=
      ih (fun q' mem => apart q' (List.mem_cons_of_mem q mem)) (s.serveOne templates policy q).2
    obtain ⟨answerP, answerQ, swapped⟩ := serveOne_swap templates policy other indep s
    simp only [List.cons_append, serve_cons]
    refine ⟨fun a => ?_, ?_⟩
    · -- past the block, p meets q; the swap exchanges them
      have tail : ofNode a ((s.serveOne templates policy q).2.serve templates policy
            (block ++ p :: rest)).1 =
          ofNode a ((p.1, (s.serveOne templates policy p).1) ::
            (((s.serveOne templates policy p).2.serveOne templates policy q).2.serve templates
              policy (block ++ rest)).1) := by
        rw [answers a, serve_cons, answerP, swapped]
      rw [ofNode_cons_congr tail, answerQ]
      exact ofNode_swap (by exact other) a
    · rw [store, serve_cons, swapped]

theorem serve_of_interleaved {σ τ : List (Address × Request)}
    (interleaved : ∀ a, ofNode a σ = ofNode a τ)
    (independent : ∀ p ∈ σ, ∀ q ∈ σ, p.1 ≠ q.1 → p.2.Independent q.2) (s : Store) :
    (∀ a, ofNode a (s.serve templates policy σ).1 = ofNode a (s.serve templates policy τ).1) ∧
      (s.serve templates policy σ).2 = (s.serve templates policy τ).2 := by
  induction σ generalizing τ s with
  | nil =>
    obtain rfl : τ = [] := eq_nil_of_ofNode fun a => (interleaved a).symm
    exact ⟨fun _ => rfl, rfl⟩
  | cons p σ ih =>
    obtain ⟨c, r⟩ := p
    have first : ofNode c τ = r :: ofNode c σ := by
      rw [← interleaved, ofNode_cons, if_pos rfl]
    obtain ⟨block, rest, rfl, apart, -⟩ := split_first first
    have apartP : ∀ q ∈ block, q.1 ≠ c ∧ q.2.Independent r := fun q mem =>
      have scheduled := mem_of_ofNode interleaved (List.mem_append_left _ mem)
      ⟨apart q mem, independent q scheduled (c, r) List.mem_cons_self (apart q mem)⟩
    obtain ⟨answers, store⟩ := @serve_bubble templates policy (c, r) block rest apartP s
    have tail : ∀ a, ofNode a σ = ofNode a (block ++ rest) :=
      ofNode_cons_cancel fun a => (interleaved a).trans (ofNode_bubble apart a)
    obtain ⟨answers', store'⟩ := ih tail
      (fun q mq q' mq' => independent q (.tail _ mq) q' (.tail _ mq'))
      ((s.serveOne templates policy (c, r)).2)
    refine ⟨fun a => ?_, ?_⟩
    · rw [answers a, serve_cons, serve_cons]
      exact ofNode_cons_congr (answers' a)
    · rw [store, serve_cons, serve_cons]
      exact store'

/-- Independent clients commute: schedules that interleave the same requests of every node,
where requests of different nodes are independent, give every request the same answer and end in
the same store, so the deposit-data set built next is the same whatever the interleaving. -/
theorem independent_clients_commute {σ τ : List (Address × Request)}
    (interleaved : ∀ a, ofNode a σ = ofNode a τ)
    (independent : ∀ p ∈ σ, ∀ q ∈ σ, p.1 ≠ q.1 → p.2.Independent q.2) (s : Store) :
    (∀ a, ofNode a (s.serve templates policy σ).1 = ofNode a (s.serve templates policy τ).1) ∧
      (s.serve templates policy σ).2 = (s.serve templates policy τ).2 ∧
      ∀ k limit, (s.serve templates policy σ).2.depositDataSet k limit =
        (s.serve templates policy τ).2.depositDataSet k limit := by
  obtain ⟨answers, store⟩ := serve_of_interleaved templates policy interleaved independent s
  exact ⟨answers, store, fun k limit => by rw [store]⟩

/-- The two nodes of the sample run each upload a batch to the vault and log in again on their
own session, one node after the other. -/
def sampleSchedule : List (Address × Request) :=
  [(sampleNode, .upload sampleVault [recordWithKey 0x66]), (sampleNode, .login "n" sampleSignature),
    (secondNode, .upload sampleVault [recordWithKey 0x77, recordWithKey 0x33]),
    (secondNode, .login "n2" secondSignature)]

/-- The same requests, the nodes taking turns. -/
def sampleTurns : List (Address × Request) :=
  [(secondNode, .upload sampleVault [recordWithKey 0x77, recordWithKey 0x33]),
    (sampleNode, .upload sampleVault [recordWithKey 0x66]), (secondNode, .login "n2" secondSignature),
    (sampleNode, .login "n" sampleSignature)]

theorem sample_clients_commute :
    (∀ a, ofNode a sampleSchedule = ofNode a sampleTurns) ∧
      (∀ p ∈ sampleSchedule, ∀ q ∈ sampleSchedule, p.1 ≠ q.1 → p.2.Independent q.2) ∧
      (∀ a, ofNode a (sampleService.store.serve helloConfig.templates helloConfig.noncePolicy
          sampleSchedule).1 =
        ofNode a (sampleService.store.serve helloConfig.templates helloConfig.noncePolicy
          sampleTurns).1) ∧
      (sampleService.store.serve helloConfig.templates helloConfig.noncePolicy sampleSchedule).2 =
        (sampleService.store.serve helloConfig.templates helloConfig.noncePolicy sampleTurns).2 ∧
      ∀ k limit,
        (sampleService.store.serve helloConfig.templates helloConfig.noncePolicy
          sampleSchedule).2.depositDataSet k limit =
        (sampleService.store.serve helloConfig.templates helloConfig.noncePolicy
          sampleTurns).2.depositDataSet k limit := by
  have interleaved : ∀ a, ofNode a sampleSchedule = ofNode a sampleTurns := by
    intro a
    by_cases second : secondNode = a
    · have other : sampleNode ≠ a := by
        subst second
        decide
      simp [ofNode, sampleSchedule, sampleTurns, second, other]
    · by_cases first : sampleNode = a <;> simp [ofNode, sampleSchedule, sampleTurns, second, first]
  have independent :
      ∀ p ∈ sampleSchedule, ∀ q ∈ sampleSchedule, p.1 ≠ q.1 → p.2.Independent q.2 := by
    decide
  exact ⟨interleaved, independent,
    independent_clients_commute helloConfig.templates helloConfig.noncePolicy interleaved independent
      sampleService.store⟩

end Store

end StakingHub
