import StakingHub.Proofs.AdminTransitions

/-!
# What an exit-message upload stores

A registered node uploads exit messages, sealed to the relay identity, for its Constellation
minipool validators of a deployment or for its StakeWise validators of a vault. Every entry of
the batch is checked, in batch order, before anything is stored: it must name a validator the
node owns; for minipools under the policy that refuses duplicates, its key must not be named by
an earlier entry and its validator must hold no exit message yet; and its message must open. The
first entry that fails a check ends the upload with that check's fault, and the store stays as
it was. An upload that passes answers how many entries the batch has, and each validator named
ends with the message of the last entry naming it.
-/

namespace StakingHub

/-! ### Batches checked entry by entry -/

section Batch

variable {ε α β : Type} {f : α → Except ε β}

theorem mapM_first_error {pre post : List α} {x : α} {e : ε}
    (passes : ∀ y ∈ pre, ∃ b, f y = .ok b) (fails : f x = .error e) :
    (pre ++ x :: post).mapM f = .error e := by
  induction pre with
  | nil => simp [fails, bind, Except.bind]
  | cons y ys ih =>
    obtain ⟨b, hb⟩ := passes y List.mem_cons_self
    have rest := ih fun z hz => passes z (List.mem_cons_of_mem y hz)
    simp only [List.cons_append, List.mapM_cons, hb, rest]
    rfl

theorem mapM_eq_ok_iff {xs : List α} {bs : List β} :
    xs.mapM f = .ok bs ↔ List.Forall₂ (fun x b => f x = .ok b) xs bs := by
  induction xs generalizing bs with
  | nil => cases bs <;> simp [pure, Except.pure]
  | cons x xs ih =>
    rw [List.mapM_cons]
    cases hx : f x with
    | error e => cases bs <;> simp [bind, Except.bind, hx]
    | ok b =>
      cases rest : xs.mapM f with
      | error e => cases bs <;> simp [bind, Except.bind, ← ih, rest, hx]
      | ok cs => cases bs <;> simp [bind, Except.bind, pure, Except.pure, ← ih, rest, hx]

theorem mapM_isOk_iff {xs : List α} : (∃ bs, xs.mapM f = .ok bs) ↔ ∀ x ∈ xs, ∃ b, f x = .ok b := by
  induction xs with
  | nil => simp [pure, Except.pure]
  | cons x xs ih =>
    rw [List.forall_mem_cons, ← ih, List.mapM_cons]
    cases hx : f x <;> cases rest : xs.mapM f <;> simp [bind, Except.bind, pure, Except.pure]

theorem forall₂_split {γ : Type} {R : α → γ → Prop} {pre post : List α} {x : α} {ys : List γ}
    (h : List.Forall₂ R (pre ++ x :: post) ys) :
    ∃ ypre y ypost, ys = ypre ++ y :: ypost ∧ List.Forall₂ R pre ypre ∧ R x y ∧
      List.Forall₂ R post ypost := by
  induction pre generalizing ys with
  | nil =>
    obtain ⟨y, ypost, hxy, rest, rfl⟩ := List.forall₂_cons_left_iff.mp h
    exact ⟨[], y, ypost, rfl, .nil, hxy, rest⟩
  | cons z zs ih =>
    obtain ⟨y₀, ys₀, hz, rest, rfl⟩ := List.forall₂_cons_left_iff.mp h
    obtain ⟨ypre, y, ypost, rfl, before, hxy, after⟩ := ih rest
    exact ⟨y₀ :: ypre, y, ypost, rfl, .cons hz before, hxy, after⟩

theorem forall₂_map_eq {γ δ : Type} {R : α → γ → Prop} {F : α → δ} {G : γ → δ} {xs : List α}
    {ys : List γ} (h : List.Forall₂ R xs ys) (same : ∀ x y, R x y → F x = G y) :
    xs.map F = ys.map G := by
  induction h with
  | nil => rfl
  | cons hxy _ ih => rw [List.map_cons, List.map_cons, same _ _ hxy, ih]

end Batch

/-! ### Writes by key, the last one winning -/

section Writes

variable {T L κ μ : Type} [DecidableEq κ] {write : T → κ × μ → T} {look : κ → T → L}
  {put : μ → L → L}

/-- A table written entry by entry (`write`), read by key (`look`): each write of a key puts its
value into what the key reads, and a later value overrides an earlier one. -/
structure LastWriteWins (write : T → κ × μ → T) (look : κ → T → L) (put : μ → L → L) : Prop where
  written : ∀ t e pk, look pk (write t e) = if e.1 = pk then put e.2 (look pk t) else look pk t
  overrides : ∀ m m' x, put m' (put m x) = put m' x

variable (laws : LastWriteWins write look put)
include laws

theorem LastWriteWins.look_of_not_mem {es : List (κ × μ)} {pk : κ} (absent : pk ∉ es.map Prod.fst)
    (t : T) : look pk (es.foldl write t) = look pk t := by
  induction es generalizing t with
  | nil => rfl
  | cons e es ih =>
    have other : e.1 ≠ pk := fun same => absent (same ▸ List.mem_map_of_mem List.mem_cons_self)
    rw [List.foldl_cons, ih (fun hin => absent (List.mem_cons_of_mem _ hin)), laws.written,
      if_neg other]

theorem LastWriteWins.put_look (es : List (κ × μ)) (t : T) (pk : κ) (m : μ) :
    put m (look pk (es.foldl write t)) = put m (look pk t) := by
  induction es generalizing t with
  | nil => rfl
  | cons e es ih =>
    rw [List.foldl_cons, ih, laws.written]
    split
    · exact laws.overrides _ _ _
    · rfl

theorem LastWriteWins.look_last {pre post : List (κ × μ)} {e : κ × μ}
    (last : e.1 ∉ post.map Prod.fst) (t : T) :
    look e.1 ((pre ++ e :: post).foldl write t) = put e.2 (look e.1 t) := by
  rw [List.foldl_append, List.foldl_cons, laws.look_of_not_mem last, laws.written, if_pos rfl,
    laws.put_look]

end Writes

section Opened

variable {T L : Type} {write : T → ValidatorPubkey × ExitMessage → T}
  {look : ValidatorPubkey → T → L} {put : ExitMessage → L → L} {s : Store}
  {exits : List EncryptedExit} {opened : List (ValidatorPubkey × ExitMessage)}

theorem LastWriteWins.opened_batch (laws : LastWriteWins write look put)
    (pairs : List.Forall₂ (fun x o => o.1 = x.pubkey ∧
      Relay.decryptExit s.identity x.ciphertext = .ok o.2) exits opened) (t : T) :
    (∀ pk, pk ∉ exits.map EncryptedExit.pubkey → look pk (opened.foldl write t) = look pk t) ∧
    ∀ pre x post, exits = pre ++ x :: post → x.pubkey ∉ post.map EncryptedExit.pubkey →
      ∃ msg, Relay.decryptExit s.identity x.ciphertext = .ok msg ∧
        look x.pubkey (opened.foldl write t) = put msg (look x.pubkey t) := by
  have keys : exits.map EncryptedExit.pubkey = opened.map Prod.fst :=
    forall₂_map_eq pairs fun _ _ paired => paired.1.symm
  refine ⟨fun pk absent => laws.look_of_not_mem (by rwa [← keys]) t,
    fun pre x post split last => ?_⟩
  obtain ⟨opre, o, opost, rfl, -, ⟨key, opens_o⟩, after⟩ := forall₂_split (split ▸ pairs)
  have last' : o.1 ∉ opost.map Prod.fst := by
    rw [key, ← forall₂_map_eq after fun _ _ paired => paired.1.symm]
    exact last
  refine ⟨o.2, opens_o, ?_⟩
  rw [← key]
  exact laws.look_last last' t

end Opened

theorem forall_split_cons {α : Type} {P : List α → α → Prop} {x : α} {xs : List α} :
    (∀ pre y post, x :: xs = pre ++ y :: post → P pre y) ↔
      P [] x ∧ ∀ pre y post, xs = pre ++ y :: post → P (x :: pre) y := by
  constructor
  · intro all
    exact ⟨all [] x xs rfl, fun pre y post split => all (x :: pre) y post (by rw [split]; rfl)⟩
  · rintro ⟨head, tail⟩ pre y post split
    cases pre with
    | nil =>
      obtain ⟨rfl, rfl⟩ := List.cons.inj split
      exact head
    | cons z zs =>
      obtain ⟨rfl, rest⟩ := List.cons.inj split
      exact tail zs y post rest

/-! ### Minipool exits -/

/-- An uploaded exit passes the checks of a minipool upload, given the keys named by the batch's
earlier entries: it names a minipool validator of the node; under the policy that refuses
duplicates, no earlier entry names its key and its validator holds no exit message yet; and its
message opens. -/
def MinipoolExitPasses (s : Store) (d : Deployment) (a : Address) (policy : ExitPolicy)
    (earlier : List ValidatorPubkey) (e : EncryptedExit) : Prop :=
  ∃ m ∈ d.minipools, m.pubkey = e.pubkey ∧ m.node = a ∧
    (policy = .rejectDuplicate → e.pubkey ∉ earlier ∧ m.exitMessage = none) ∧
    ∃ msg, Relay.decryptExit s.identity e.ciphertext = .ok msg

/-- Storing an opened minipool exit: the first validator of its key takes the message. -/
def storeMinipoolExit (vs : List MinipoolValidator) (e : ValidatorPubkey × ExitMessage) :
    List MinipoolValidator :=
  Keyed.modify MinipoolValidator.pubkey e.1 (fun v => { v with exitMessage := some e.2 }) vs

theorem lastWriteWins_storeMinipoolExit :
    LastWriteWins storeMinipoolExit (fun pk vs => Keyed.get? MinipoolValidator.pubkey pk vs)
      (fun msg found => found.map fun v => { v with exitMessage := some msg }) where
  written vs e pk := by
    rw [storeMinipoolExit, Keyed.get?_modify MinipoolValidator.pubkey e.1 pk
      (fun v => { v with exitMessage := some e.2 }) (fun _ => rfl) vs]
    split
    · rename_i same
      rw [same]
    · rfl
  overrides m m' found := by
    cases found <;> rfl

theorem keys_storeMinipoolExits (opened : List (ValidatorPubkey × ExitMessage))
    (vs : List MinipoolValidator) :
    (opened.foldl storeMinipoolExit vs).map MinipoolValidator.pubkey = vs.map MinipoolValidator.pubkey := by
  induction opened generalizing vs with
  | nil => rfl
  | cons e es ih =>
    rw [List.foldl_cons, ih]
    exact Keyed.map_modifyFirst _ _ _ _ fun _ _ => rfl

namespace Store

variable {s : Store} {d : Deployment} {a : Address} {policy : ExitPolicy}
  {seen : List ValidatorPubkey} {e : EncryptedExit} {m : MinipoolValidator}

theorem owned_minipool_iff (sorted : Keyed.Sorted MinipoolValidator.pubkey d.minipools) :
    (Keyed.get? MinipoolValidator.pubkey e.pubkey d.minipools).filter (·.node = a) = some m ↔
      m ∈ d.minipools ∧ m.pubkey = e.pubkey ∧ m.node = a := by
  rw [Option.filter_eq_some_iff]
  constructor
  · rintro ⟨found, mine⟩
    obtain ⟨hm, key⟩ := Keyed.get?_eq_some found
    exact ⟨hm, key, by simpa using mine⟩
  · rintro ⟨hm, key, mine⟩
    rw [← key]
    exact ⟨Keyed.get?_eq_some_of_mem sorted hm, by simpa using mine⟩

theorem openMinipoolExit_of_not_owned
    (unowned : ¬∃ m ∈ d.minipools, m.pubkey = e.pubkey ∧ m.node = a) :
    s.openMinipoolExit d a policy seen e =
      .error (.invalidPermissions ("validator " ++ e.pubkey.toHex ++ " is not owned by this node")) := by
  have missing : (Keyed.get? MinipoolValidator.pubkey e.pubkey d.minipools).filter (·.node = a) =
      none := by
    cases found : Keyed.get? MinipoolValidator.pubkey e.pubkey d.minipools with
    | none => rfl
    | some m =>
      obtain ⟨hm, key⟩ := Keyed.get?_eq_some found
      have other : m.node ≠ a := fun mine => unowned ⟨m, hm, key, mine⟩
      simp [Option.filter, other]
  simp only [openMinipoolExit, missing]
  rfl

theorem openMinipoolExit_of_owned (sorted : Keyed.Sorted MinipoolValidator.pubkey d.minipools)
    (hm : m ∈ d.minipools) (key : m.pubkey = e.pubkey) (mine : m.node = a) :
    s.openMinipoolExit d a policy seen e =
      if policy = .rejectDuplicate ∧ (e.pubkey ∈ seen ∨ m.exitMessage ≠ none) then
        .error (.exitMessageAlreadyExists e.pubkey)
      else (Relay.decryptExit s.identity e.ciphertext).map (e.pubkey, ·) := by
  have owned := (owned_minipool_iff sorted).mpr ⟨hm, key, mine⟩
  simp only [openMinipoolExit, owned]
  by_cases duplicate : policy = .rejectDuplicate ∧ (e.pubkey ∈ seen ∨ m.exitMessage ≠ none)
  · have flagged : ((seen.contains e.pubkey || m.exitMessage.isSome) &&
        decide (policy = .rejectDuplicate)) = true := by
      obtain ⟨reject, dup⟩ := duplicate
      cases hx : m.exitMessage <;> simp_all
    rw [if_pos flagged, if_pos duplicate]
    rfl
  · have clear : ((seen.contains e.pubkey || m.exitMessage.isSome) &&
        decide (policy = .rejectDuplicate)) = false := by
      cases hx : m.exitMessage <;> cases policy <;> simp_all
    simp only [clear, if_neg duplicate, Bool.false_eq_true, if_false]
    cases Relay.decryptExit s.identity e.ciphertext <;> rfl

theorem openMinipoolExit_isOk_iff (sorted : Keyed.Sorted MinipoolValidator.pubkey d.minipools) :
    (∃ o, s.openMinipoolExit d a policy seen e = .ok o) ↔ MinipoolExitPasses s d a policy seen e := by
  by_cases owned : ∃ m ∈ d.minipools, m.pubkey = e.pubkey ∧ m.node = a
  · obtain ⟨m, hm, key, mine⟩ := owned
    rw [openMinipoolExit_of_owned sorted hm key mine]
    have only : ∀ m' ∈ d.minipools, m'.pubkey = e.pubkey → m' = m := fun m' hm' key' =>
      Option.some.inj ((Keyed.get?_eq_some_of_mem sorted hm').symm.trans
        (key' ▸ key ▸ Keyed.get?_eq_some_of_mem sorted hm))
    constructor
    · intro ok
      split at ok
      · simp at ok
      · rename_i clear
        obtain ⟨o, opened⟩ := ok
        cases hd : Relay.decryptExit s.identity e.ciphertext with
        | error f => simp [hd, Except.map] at opened
        | ok msg =>
          refine ⟨m, hm, key, mine, fun reject => ?_, msg, hd⟩
          simp only [not_and, not_or, not_not] at clear
          exact clear reject
    · rintro ⟨m', hm', key', -, fresh, msg, opens⟩
      obtain rfl := only m' hm' key'
      rw [if_neg (fun ⟨reject, dup⟩ => by
        obtain ⟨unseen, none⟩ := fresh reject
        exact dup.elim unseen fun has => has none), opens]
      exact ⟨_, rfl⟩
  · rw [openMinipoolExit_of_not_owned owned]
    simp only [reduceCtorEq, exists_false, false_iff]
    rintro ⟨m, hm, key, mine, -⟩
    exact owned ⟨m, hm, key, mine⟩

theorem openMinipoolExit_ok (sorted : Keyed.Sorted MinipoolValidator.pubkey d.minipools)
    {o : ValidatorPubkey × ExitMessage} (opened : s.openMinipoolExit d a policy seen e = .ok o) :
    o.1 = e.pubkey ∧ Relay.decryptExit s.identity e.ciphertext = .ok o.2 := by
  obtain ⟨m, hm, key, mine, -⟩ := (openMinipoolExit_isOk_iff sorted).mp ⟨o, opened⟩
  rw [openMinipoolExit_of_owned sorted hm key mine] at opened
  split at opened
  · cases opened
  · cases hd : Relay.decryptExit s.identity e.ciphertext with
    | error f => simp [hd, Except.map] at opened
    | ok msg =>
      simp only [hd, Except.map, Except.ok.injEq] at opened
      exact ⟨by rw [← opened], by rw [← opened]⟩

theorem openMinipoolExit_congr_seen {seen' : List ValidatorPubkey}
    (same : ∀ pk, pk ∈ seen ↔ pk ∈ seen') :
    s.openMinipoolExit d a policy seen e = s.openMinipoolExit d a policy seen' e := by
  have contains : seen.contains e.pubkey = seen'.contains e.pubkey :=
    Bool.eq_iff_iff.mpr (by rw [List.contains_iff_mem, List.contains_iff_mem, same])
  simp only [openMinipoolExit, contains]

theorem earlier_cons (x : EncryptedExit) (pre : List EncryptedExit) :
    ((x :: pre).map EncryptedExit.pubkey).reverse ++ seen =
      (pre.map EncryptedExit.pubkey).reverse ++ (x.pubkey :: seen) := by
  simp

theorem openMinipoolExits_cons (x : EncryptedExit) (xs : List EncryptedExit) :
    s.openMinipoolExits d a policy seen (x :: xs) =
      s.openMinipoolExit d a policy seen x >>= fun o =>
        (s.openMinipoolExits d a policy (x.pubkey :: seen) xs).map (o :: ·) := by
  simp only [openMinipoolExits]
  cases s.openMinipoolExit d a policy seen x <;>
    cases s.openMinipoolExits d a policy (x.pubkey :: seen) xs <;> rfl

theorem openMinipoolExits_isOk_iff {exits : List EncryptedExit} :
    (∃ opened, s.openMinipoolExits d a policy seen exits = .ok opened) ↔
      ∀ pre x post, exits = pre ++ x :: post →
        ∃ o, s.openMinipoolExit d a policy ((pre.map EncryptedExit.pubkey).reverse ++ seen) x = .ok o := by
  induction exits generalizing seen with
  | nil => simp [openMinipoolExits]
  | cons x xs ih =>
    rw [forall_split_cons, openMinipoolExits_cons]
    simp only [earlier_cons, List.map_nil, List.reverse_nil, List.nil_append]
    rw [← ih]
    cases s.openMinipoolExit d a policy seen x <;>
      cases s.openMinipoolExits d a policy (x.pubkey :: seen) xs <;>
      simp [bind, Except.bind, Except.map]

theorem openMinipoolExits_first_error {pre post : List EncryptedExit} {f : ServiceFault}
    (passes : ∀ p x q, pre = p ++ x :: q →
      ∃ o, s.openMinipoolExit d a policy ((p.map EncryptedExit.pubkey).reverse ++ seen) x = .ok o)
    (fails : s.openMinipoolExit d a policy ((pre.map EncryptedExit.pubkey).reverse ++ seen) e =
      .error f) :
    s.openMinipoolExits d a policy seen (pre ++ e :: post) = .error f := by
  induction pre generalizing seen with
  | nil =>
    rw [List.nil_append, openMinipoolExits_cons]
    simp only [List.map_nil, List.reverse_nil, List.nil_append] at fails
    rw [fails]
    rfl
  | cons y ys ih =>
    obtain ⟨head, tail⟩ := forall_split_cons.mp passes
    obtain ⟨o, first⟩ := head
    simp only [List.map_nil, List.reverse_nil, List.nil_append] at first
    rw [List.cons_append, openMinipoolExits_cons, first]
    rw [earlier_cons] at fails
    have rest := @ih (y.pubkey :: seen) (fun p x q split => by
      rw [← earlier_cons]
      exact tail p x q split) fails
    rw [rest]
    rfl

theorem openMinipoolExits_forall₂ (sorted : Keyed.Sorted MinipoolValidator.pubkey d.minipools)
    {exits : List EncryptedExit} {opened : List (ValidatorPubkey × ExitMessage)}
    (ran : s.openMinipoolExits d a policy seen exits = .ok opened) :
    List.Forall₂ (fun x o => o.1 = x.pubkey ∧ Relay.decryptExit s.identity x.ciphertext = .ok o.2)
      exits opened := by
  induction exits generalizing seen opened with
  | nil =>
    cases ran
    exact .nil
  | cons x xs ih =>
    rw [openMinipoolExits_cons] at ran
    cases first : s.openMinipoolExit d a policy seen x with
    | error f => simp [first, bind, Except.bind] at ran
    | ok o =>
      cases rest : s.openMinipoolExits d a policy (x.pubkey :: seen) xs with
      | error f => simp [first, rest, bind, Except.bind, Except.map] at ran
      | ok os =>
        simp only [first, rest, bind, Except.bind, Except.map, Except.ok.injEq] at ran
        subst ran
        exact .cons (openMinipoolExit_ok sorted first) (ih rest)

variable {name : String} {n : Node} {exits : List EncryptedExit}

theorem uploadMinipoolExits_run (registered : s.registeredNode a = .ok n)
    (found : s.deployment name = .ok d) :
    (uploadMinipoolExits name a exits policy).run s =
      match s.openMinipoolExits d a policy [] exits with
      | .error f => .error f s
      | .ok opened => .ok opened.length (s.modifyDeployment name fun _ =>
          { d with minipools := opened.foldl storeMinipoolExit d.minipools }) := by
  cases opening : s.openMinipoolExits d a policy [] exits with
  | error f =>
    simp [uploadMinipoolExits, StoreM.read, registered, found, opening, EStateM.run, bind,
      EStateM.bind]
  | ok opened =>
    simp [uploadMinipoolExits, StoreM.read, registered, found, opening, deploymentMut,
      StoreM.borrow, EStateM.run, bind, EStateM.bind, Except.bind, pure, EStateM.pure, Except.pure]
    rfl

end Store

/-! ### StakeWise exits -/

/-- An uploaded exit passes the checks of a StakeWise upload: it names one of the node's
validators of the vault, and its message opens. -/
def SignedExitPasses (s : Store) (owned : List StakeWiseValidator) (e : EncryptedExit) : Prop :=
  (∃ v ∈ owned, v.pubkey = e.pubkey) ∧ ∃ msg, Relay.decryptExit s.identity e.ciphertext = .ok msg

/-- Storing an opened StakeWise exit at a node: the first validator of its key for the vault
takes the message and is marked as having one. -/
def storeSignedExit (k : VaultKey) (n : Node) (e : ValidatorPubkey × ExitMessage) : Node :=
  n.modifyValidator k e.1 fun v => { v with exitMessage := some e.2, exitUploaded := true }

namespace Node

variable {n : Node} {k : VaultKey} {pk : ValidatorPubkey}

theorem validator_modifyValidator_map {f : StakeWiseValidator → StakeWiseValidator}
    (keeps : ∀ v, (f v).pubkey = v.pubkey) (k' : VaultKey) (pk' : ValidatorPubkey) :
    (n.modifyValidator k pk f).validator k' pk' =
      if k = k' ∧ pk = pk' then (n.validator k pk).map f else n.validator k' pk' := by
  unfold validator
  rw [validatorsIn_modifyValidator]
  by_cases hk : k = k'
  · subst hk
    have lookup := Keyed.get?_modify StakeWiseValidator.pubkey pk pk' f keeps (n.validatorsIn k)
    simp only [Keyed.get?, Keyed.modify] at lookup
    rw [if_pos rfl, lookup]
    by_cases hpk : pk = pk'
    · subst hpk
      cases (n.validatorsIn k).find? (·.pubkey = pk) <;> simp [Except.map]
    · simp [hpk]
  · simp [hk]

theorem lastWriteWins_storeSignedExit (k : VaultKey) :
    LastWriteWins (storeSignedExit k) (fun pk n => n.validator k pk)
      (fun msg found => found.map fun v => { v with exitMessage := some msg, exitUploaded := true }) where
  written n e pk := by
    rw [storeSignedExit, validator_modifyValidator_map
      (f := fun v => { v with exitMessage := some e.2, exitUploaded := true }) (fun _ => rfl)]
    by_cases same : e.1 = pk
    · rw [if_pos ⟨rfl, same⟩, if_pos same, same]
    · rw [if_neg (fun both => same both.2), if_neg same]
  overrides m m' found := by
    cases found <;> rfl

theorem validator_storeSignedExits_other {k' : VaultKey} (other : k ≠ k')
    (opened : List (ValidatorPubkey × ExitMessage)) (n : Node) :
    (opened.foldl (storeSignedExit k) n).validator k' pk = n.validator k' pk := by
  induction opened generalizing n with
  | nil => rfl
  | cons e es ih =>
    rw [List.foldl_cons, ih, storeSignedExit, validator_modifyValidator_map
      (f := fun v => { v with exitMessage := some e.2, exitUploaded := true }) (fun _ => rfl),
      if_neg (fun both => other both.1)]

end Node

namespace Store

variable {s : Store} {owned : List StakeWiseValidator} {e : EncryptedExit}

/-- The check of one exit of a StakeWise upload, as `openSignedExits` makes it. -/
def openSignedExit (s : Store) (owned : List StakeWiseValidator) (e : EncryptedExit) :
    Except ServiceFault (ValidatorPubkey × ExitMessage) := do
  if !owned.any (·.pubkey = e.pubkey) then
    throw (.invalidPermissions ("validator " ++ e.pubkey.toHex ++ " does not belong to this node"))
  pure (e.pubkey, ← Relay.decryptExit s.identity e.ciphertext)

theorem openSignedExits_eq (exits : List EncryptedExit) :
    s.openSignedExits owned exits = exits.mapM (s.openSignedExit owned) := rfl

theorem openSignedExit_of_not_owned (unowned : ¬∃ v ∈ owned, v.pubkey = e.pubkey) :
    s.openSignedExit owned e =
      .error (.invalidPermissions ("validator " ++ e.pubkey.toHex ++ " does not belong to this node")) := by
  have missing : owned.any (·.pubkey = e.pubkey) = false := by
    simpa using fun v hv key => unowned ⟨v, hv, key⟩
  simp only [openSignedExit, missing]
  rfl

theorem openSignedExit_of_owned (held : ∃ v ∈ owned, v.pubkey = e.pubkey) :
    s.openSignedExit owned e = (Relay.decryptExit s.identity e.ciphertext).map (e.pubkey, ·) := by
  have present : owned.any (·.pubkey = e.pubkey) = true := by simpa using held
  simp only [openSignedExit, present]
  cases Relay.decryptExit s.identity e.ciphertext <;> rfl

theorem openSignedExit_isOk_iff :
    (∃ o, s.openSignedExit owned e = .ok o) ↔ SignedExitPasses s owned e := by
  by_cases held : ∃ v ∈ owned, v.pubkey = e.pubkey
  · rw [openSignedExit_of_owned held]
    cases hd : Relay.decryptExit s.identity e.ciphertext <;>
      simp [Except.map, SignedExitPasses, held, hd]
  · rw [openSignedExit_of_not_owned held]
    simp [SignedExitPasses, held]

theorem openSignedExit_ok {o : ValidatorPubkey × ExitMessage}
    (opened : s.openSignedExit owned e = .ok o) :
    o.1 = e.pubkey ∧ Relay.decryptExit s.identity e.ciphertext = .ok o.2 := by
  obtain ⟨held, -⟩ := openSignedExit_isOk_iff.mp ⟨o, opened⟩
  rw [openSignedExit_of_owned held] at opened
  cases hd : Relay.decryptExit s.identity e.ciphertext with
  | error f => simp [hd, Except.map] at opened
  | ok msg =>
    simp only [hd, Except.map, Except.ok.injEq] at opened
    exact ⟨by rw [← opened], by rw [← opened]⟩

variable {k : VaultKey} {w : Vault} {a : Address} {n : Node} {exits : List EncryptedExit}

theorem uploadSignedExits_run (found : s.vault k = .ok w) (registered : s.registeredNode a = .ok n) :
    (uploadSignedExits k a exits).run s =
      match s.openSignedExits (n.validatorsIn k) exits with
      | .error f => .error f s
      | .ok opened => .ok opened.length
          (s.modifyNode a fun _ => opened.foldl (storeSignedExit k) n) := by
  have held := whitelistedNode_of_registeredNode registered
  cases opening : s.openSignedExits (n.validatorsIn k) exits with
  | error f =>
    simp [uploadSignedExits, StoreM.read, registered, found, opening, EStateM.run, bind,
      EStateM.bind]
  | ok opened =>
    simp [uploadSignedExits, StoreM.read, registered, found, opening, nodeMut, held,
      StoreM.borrow, EStateM.run, bind, EStateM.bind, Except.bind, pure, EStateM.pure, Except.pure]
    rfl

theorem uploadSignedExits_spec (found : s.vault k = .ok w) (registered : s.registeredNode a = .ok n) :
    ((∃ count s', (uploadSignedExits k a exits).run s = .ok count s') ↔
      ∀ e ∈ exits, SignedExitPasses s (n.validatorsIn k) e) ∧
    (∀ pre e post, exits = pre ++ e :: post → (∀ x ∈ pre, SignedExitPasses s (n.validatorsIn k) x) →
      ((¬∃ v ∈ n.validatorsIn k, v.pubkey = e.pubkey) →
        (uploadSignedExits k a exits).run s =
          .error (.invalidPermissions ("validator " ++ e.pubkey.toHex ++ " does not belong to this node")) s) ∧
      ((∃ v ∈ n.validatorsIn k, v.pubkey = e.pubkey) → ∀ f,
        Relay.decryptExit s.identity e.ciphertext = .error f →
          (uploadSignedExits k a exits).run s = .error f s)) ∧
    ∀ count s', (uploadSignedExits k a exits).run s = .ok count s' →
      count = exits.length ∧ ∃ n', s' = s.modifyNode a (fun _ => n') ∧ n'.layout = n.layout ∧
        (∀ k' pk, k' ≠ k ∨ pk ∉ exits.map EncryptedExit.pubkey → n'.validator k' pk = n.validator k' pk) ∧
        ∀ pre x post, exits = pre ++ x :: post → x.pubkey ∉ post.map EncryptedExit.pubkey →
          ∃ msg, Relay.decryptExit s.identity x.ciphertext = .ok msg ∧
            n'.validator k x.pubkey = (n.validator k x.pubkey).map
              fun v => { v with exitMessage := some msg, exitUploaded := true } := by
  have run : (uploadSignedExits k a exits).run s = _ := uploadSignedExits_run found registered
  refine ⟨?_, ?_, ?_⟩
  · -- the upload succeeds exactly when the batch opens
    have opens : (∃ count s', (uploadSignedExits k a exits).run s = .ok count s') ↔
        ∃ opened, s.openSignedExits (n.validatorsIn k) exits = .ok opened := by
      rw [run]
      cases s.openSignedExits (n.validatorsIn k) exits <;> simp
    rw [opens, openSignedExits_eq, mapM_isOk_iff]
    exact forall₂_congr fun e _ => openSignedExit_isOk_iff
  · intro pre e post split before
    have passes : ∀ x ∈ pre, ∃ o, s.openSignedExit (n.validatorsIn k) x = .ok o :=
      fun x hx => openSignedExit_isOk_iff.mpr (before x hx)
    have fails_at {f : ServiceFault} (fails : s.openSignedExit (n.validatorsIn k) e = .error f) :
        (uploadSignedExits k a exits).run s = .error f s := by
      rw [run, openSignedExits_eq, split, mapM_first_error passes fails]
    refine ⟨fun unowned => fails_at (openSignedExit_of_not_owned unowned), fun held f closed => ?_⟩
    exact fails_at (by rw [openSignedExit_of_owned held, closed]; rfl)
  · intro count s' ran
    rw [run] at ran
    cases opening : s.openSignedExits (n.validatorsIn k) exits with
    | error f =>
      rw [opening] at ran
      cases ran
    | ok opened =>
      rw [opening] at ran
      obtain ⟨rfl, rfl⟩ := EStateM.Result.ok.inj ran
      have pairs : List.Forall₂ (fun x o => o.1 = x.pubkey ∧
          Relay.decryptExit s.identity x.ciphertext = .ok o.2) exits opened :=
        (mapM_eq_ok_iff.mp opening).imp fun _ _ => openSignedExit_ok
      obtain ⟨unnamed, named⟩ := (Node.lastWriteWins_storeSignedExit k).opened_batch pairs n
      refine ⟨pairs.length_eq.symm, _, rfl, Node.layout_storeExits k opened n, ?_, named⟩
      intro k' pk outside
      by_cases same : k' = k
      · subst same
        exact unnamed pk (outside.resolve_left fun other => other rfl)
      · exact Node.validator_storeSignedExits_other (Ne.symm same) opened n

variable {d : Deployment} {name : String} {policy : ExitPolicy}

theorem uploadMinipoolExits_spec (registered : s.registeredNode a = .ok n)
    (found : s.deployment name = .ok d) (sorted : Keyed.Sorted MinipoolValidator.pubkey d.minipools) :
    ((∃ count s', (uploadMinipoolExits name a exits policy).run s = .ok count s') ↔
      ∀ pre e post, exits = pre ++ e :: post →
        MinipoolExitPasses s d a policy (pre.map EncryptedExit.pubkey) e) ∧
    (∀ pre e post, exits = pre ++ e :: post →
      (∀ p x q, pre = p ++ x :: q → MinipoolExitPasses s d a policy (p.map EncryptedExit.pubkey) x) →
      ((¬∃ m ∈ d.minipools, m.pubkey = e.pubkey ∧ m.node = a) →
        (uploadMinipoolExits name a exits policy).run s =
          .error (.invalidPermissions ("validator " ++ e.pubkey.toHex ++ " is not owned by this node")) s) ∧
      ∀ m ∈ d.minipools, m.pubkey = e.pubkey → m.node = a →
        (policy = .rejectDuplicate ∧ (e.pubkey ∈ pre.map EncryptedExit.pubkey ∨ m.exitMessage ≠ none) →
          (uploadMinipoolExits name a exits policy).run s = .error (.exitMessageAlreadyExists e.pubkey) s) ∧
        (¬(policy = .rejectDuplicate ∧ (e.pubkey ∈ pre.map EncryptedExit.pubkey ∨ m.exitMessage ≠ none)) →
          ∀ f, Relay.decryptExit s.identity e.ciphertext = .error f →
            (uploadMinipoolExits name a exits policy).run s = .error f s)) ∧
    ∀ count s', (uploadMinipoolExits name a exits policy).run s = .ok count s' →
      count = exits.length ∧ ∃ d', s' = s.modifyDeployment name (fun _ => d') ∧
        d' = { d with minipools := d'.minipools } ∧
        d'.minipools.map MinipoolValidator.pubkey = d.minipools.map MinipoolValidator.pubkey ∧
        (∀ pk, pk ∉ exits.map EncryptedExit.pubkey →
          Keyed.get? MinipoolValidator.pubkey pk d'.minipools =
            Keyed.get? MinipoolValidator.pubkey pk d.minipools) ∧
        ∀ pre x post, exits = pre ++ x :: post → x.pubkey ∉ post.map EncryptedExit.pubkey →
          ∃ msg, Relay.decryptExit s.identity x.ciphertext = .ok msg ∧
            Keyed.get? MinipoolValidator.pubkey x.pubkey d'.minipools =
              (Keyed.get? MinipoolValidator.pubkey x.pubkey d.minipools).map
                fun m => { m with exitMessage := some msg } := by
  have run : (uploadMinipoolExits name a exits policy).run s = _ :=
    uploadMinipoolExits_run registered found
  have earlier (pre : List EncryptedExit) (x : EncryptedExit) :
      s.openMinipoolExit d a policy ((pre.map EncryptedExit.pubkey).reverse ++ []) x =
        s.openMinipoolExit d a policy (pre.map EncryptedExit.pubkey) x :=
    openMinipoolExit_congr_seen (by simp)
  refine ⟨?_, ?_, ?_⟩
  · have opens : (∃ count s', (uploadMinipoolExits name a exits policy).run s = .ok count s') ↔
        ∃ opened, s.openMinipoolExits d a policy [] exits = .ok opened := by
      rw [run]
      cases s.openMinipoolExits d a policy [] exits <;> simp
    rw [opens, openMinipoolExits_isOk_iff]
    refine forall_congr' fun pre => forall_congr' fun e => forall_congr' fun post =>
      imp_congr_right fun _ => ?_
    rw [earlier, openMinipoolExit_isOk_iff sorted]
  · intro pre e post split before
    have passes : ∀ p x q, pre = p ++ x :: q →
        ∃ o, s.openMinipoolExit d a policy ((p.map EncryptedExit.pubkey).reverse ++ []) x = .ok o :=
      fun p x q sp => by
        rw [earlier]
        exact (openMinipoolExit_isOk_iff sorted).mpr (before p x q sp)
    have fails_at {f : ServiceFault}
        (fails : s.openMinipoolExit d a policy (pre.map EncryptedExit.pubkey) e = .error f) :
        (uploadMinipoolExits name a exits policy).run s = .error f s := by
      rw [run, split, openMinipoolExits_first_error passes (by rw [earlier]; exact fails)]
    refine ⟨fun unowned => fails_at (openMinipoolExit_of_not_owned unowned),
      fun m hm key mine => ⟨fun duplicate => fails_at ?_, fun clear f closed => fails_at ?_⟩⟩
    · rw [openMinipoolExit_of_owned sorted hm key mine, if_pos duplicate]
    · rw [openMinipoolExit_of_owned sorted hm key mine, if_neg clear, closed]
      rfl
  · intro count s' ran
    rw [run] at ran
    cases opening : s.openMinipoolExits d a policy [] exits with
    | error f =>
      rw [opening] at ran
      cases ran
    | ok opened =>
      rw [opening] at ran
      obtain ⟨rfl, rfl⟩ := EStateM.Result.ok.inj ran
      have pairs := openMinipoolExits_forall₂ sorted opening
      obtain ⟨unnamed, named⟩ := lastWriteWins_storeMinipoolExit.opened_batch pairs d.minipools
      exact ⟨pairs.length_eq.symm, _, rfl, rfl, keys_storeMinipoolExits opened d.minipools,
        unnamed, named⟩

end Store

/-- Exit-message uploads by a registered node, on a store satisfying the invariant. A minipool
upload to a deployment succeeds exactly when every entry passes its checks against the entries
before it; otherwise it fails at the first entry that does not, with the fault of the first
check that entry fails: ownership, then, under the policy that refuses duplicates, the duplicate
check, then opening. A StakeWise upload to a vault behaves the same way, owning meaning holding
the validator for the vault, with no duplicate check. A success answers the batch's length and
leaves each validator named with the message of the last entry naming it, a StakeWise one also
marked as having one; nothing else changes. -/
theorem exit_uploads_keep_last_messages (s : Store) (h : s.Inv) (a : Address) (n : Node)
    (registered : s.registeredNode a = .ok n) :
    (∀ name d, s.deployment name = .ok d → ∀ (exits : List EncryptedExit) (policy : ExitPolicy),
      ((∃ count s', (Store.uploadMinipoolExits name a exits policy).run s = .ok count s') ↔
        ∀ pre e post, exits = pre ++ e :: post →
          MinipoolExitPasses s d a policy (pre.map EncryptedExit.pubkey) e) ∧
      (∀ pre e post, exits = pre ++ e :: post →
        (∀ p x q, pre = p ++ x :: q →
          MinipoolExitPasses s d a policy (p.map EncryptedExit.pubkey) x) →
        ((¬∃ m ∈ d.minipools, m.pubkey = e.pubkey ∧ m.node = a) →
          (Store.uploadMinipoolExits name a exits policy).run s =
            .error (.invalidPermissions ("validator " ++ e.pubkey.toHex ++ " is not owned by this node")) s) ∧
        ∀ m ∈ d.minipools, m.pubkey = e.pubkey → m.node = a →
          (policy = .rejectDuplicate ∧
              (e.pubkey ∈ pre.map EncryptedExit.pubkey ∨ m.exitMessage ≠ none) →
            (Store.uploadMinipoolExits name a exits policy).run s =
              .error (.exitMessageAlreadyExists e.pubkey) s) ∧
          (¬(policy = .rejectDuplicate ∧
              (e.pubkey ∈ pre.map EncryptedExit.pubkey ∨ m.exitMessage ≠ none)) →
            ∀ f, Relay.decryptExit s.identity e.ciphertext = .error f →
              (Store.uploadMinipoolExits name a exits policy).run s = .error f s)) ∧
      ∀ count s', (Store.uploadMinipoolExits name a exits policy).run s = .ok count s' →
        count = exits.length ∧ ∃ d', s' = s.modifyDeployment name (fun _ => d') ∧
          d' = { d with minipools := d'.minipools } ∧
          d'.minipools.map MinipoolValidator.pubkey = d.minipools.map MinipoolValidator.pubkey ∧
          (∀ pk, pk ∉ exits.map EncryptedExit.pubkey →
            Keyed.get? MinipoolValidator.pubkey pk d'.minipools =
              Keyed.get? MinipoolValidator.pubkey pk d.minipools) ∧
          ∀ pre x post, exits = pre ++ x :: post → x.pubkey ∉ post.map EncryptedExit.pubkey →
            ∃ msg, Relay.decryptExit s.identity x.ciphertext = .ok msg ∧
              Keyed.get? MinipoolValidator.pubkey x.pubkey d'.minipools =
                (Keyed.get? MinipoolValidator.pubkey x.pubkey d.minipools).map
                  fun m => { m with exitMessage := some msg }) ∧
    ∀ k w, s.vault k = .ok w → ∀ exits : List EncryptedExit,
      ((∃ count s', (Store.uploadSignedExits k a exits).run s = .ok count s') ↔
        ∀ e ∈ exits, SignedExitPasses s (n.validatorsIn k) e) ∧
      (∀ pre e post, exits = pre ++ e :: post →
        (∀ x ∈ pre, SignedExitPasses s (n.validatorsIn k) x) →
        ((¬∃ v ∈ n.validatorsIn k, v.pubkey = e.pubkey) →
          (Store.uploadSignedExits k a exits).run s =
            .error (.invalidPermissions ("validator " ++ e.pubkey.toHex ++ " does not belong to this node")) s) ∧
        ((∃ v ∈ n.validatorsIn k, v.pubkey = e.pubkey) → ∀ f,
          Relay.decryptExit s.identity e.ciphertext = .error f →
            (Store.uploadSignedExits k a exits).run s = .error f s)) ∧
      ∀ count s', (Store.uploadSignedExits k a exits).run s = .ok count s' →
        count = exits.length ∧ ∃ n', s' = s.modifyNode a (fun _ => n') ∧ n'.layout = n.layout ∧
          (∀ k' pk, k' ≠ k ∨ pk ∉ exits.map EncryptedExit.pubkey →
            n'.validator k' pk = n.validator k' pk) ∧
          ∀ pre x post, exits = pre ++ x :: post → x.pubkey ∉ post.map EncryptedExit.pubkey →
            ∃ msg, Relay.decryptExit s.identity x.ciphertext = .ok msg ∧
              n'.validator k x.pubkey = (n.validator k x.pubkey).map
                fun v => { v with exitMessage := some msg, exitUploaded := true } := by
  refine ⟨fun name d found exits policy => ?_, fun k w found exits =>
    Store.uploadSignedExits_spec found registered⟩
  -- the deployment is one of the store's, so its minipool validators are kept by key
  have sorted := h.minipools_sorted d (Store.mem_of_deployment found).1
  exact Store.uploadMinipoolExits_spec registered found sorted

theorem sample_minipool_exit_needs_identity :
    sampleService.store.Inv ∧
      (Store.uploadMinipoolExits "dev" sampleNode [⟨repeatedKey 0x55, "00"⟩] .rejectDuplicate).run
        sampleService.store = .error .identityNotConfigured sampleService.store := by
  have inv := sampleService_inv
  obtain ⟨n, registered⟩ : ∃ n, sampleService.store.registeredNode sampleNode = .ok n := ⟨_, rfl⟩
  obtain ⟨d, found, pools⟩ : ∃ d, sampleService.store.deployment "dev" = .ok d ∧
      d.minipools = [{ pubkey := repeatedKey 0x55, node := sampleNode, minipool := sampleMinipool }] :=
    ⟨_, rfl, rfl⟩
  have uploads := ((exit_uploads_keep_last_messages sampleService.store inv sampleNode n registered).1
    "dev" d found [⟨repeatedKey 0x55, "00"⟩] .rejectDuplicate).2.1 [] _ [] rfl (by simp)
  have owned : { pubkey := repeatedKey 0x55, node := sampleNode, minipool := sampleMinipool } ∈
      d.minipools := by
    rw [pools]
    exact List.mem_singleton_self _
  exact ⟨inv, (uploads.2 _ owned rfl rfl).2 (by simp) _ rfl⟩

end StakingHub
