import StakingHub.Proofs.Counters
import StakingHub.Proofs.Recovery

/-!
# When a deployment signs, and what its signatures recover to

A minipool deposit approval passes five gates in order, and the first that fails is the answer:
the deployment must exist; the node must be whitelisted and registered; the node's owner must own
fewer minipools of the deployment than its limit, if it has one; every minipool validator of the
node must hold an exit message, the one of least key reported first; the deployment must hold an
admin key. The owner's minipools are counted address by address over the owner's list of nodes.
The invariant lists each node's address once, under its owner and no other user, so that sum
counts every minipool of the owner's nodes once (`Store.Inv.minipoolsOfUser_eq`).

Both approvals are the admin key's signatures over the personal-message digest of an approval
digest naming the node, the contract that checks it and the node's counter of its own kind.
Whenever recovery undoes the key's signature of that digest, which is what ECDSA signing and
recovery are built for, the approval recovers to the admin's address; its recovery byte is 27 or
28 in any case.
-/

namespace StakingHub

namespace Keyed

variable {α κ : Type}

theorem lt_of_find? [Ord κ] {key : α → κ} {xs : List α} (sorted : Sorted key xs) {p : α → Bool}
    {x : α} (found : xs.find? p = some x) {y : α} (hy : y ∈ xs) (py : p y = true) (other : y ≠ x) :
    compare (key x) (key y) = .lt := by
  obtain ⟨-, pre, post, rfl, passed⟩ := List.find?_eq_some_iff_append.mp found
  rcases List.mem_append.mp hy with before | rest
  · have refused := passed y before
    simp [py] at refused
  · rcases List.mem_cons.mp rest with same | after
    · exact absurd same other
    · exact List.rel_of_pairwise_cons (List.pairwise_append.mp sorted).2.1 after

end Keyed

theorem countP_mem_cons {β γ : Type} [DecidableEq γ] (f : β → γ) {a : γ} {L : List γ}
    (fresh : a ∉ L) (M : List β) :
    (M.countP fun v => f v ∈ a :: L) = (M.countP fun v => f v = a) + M.countP fun v => f v ∈ L := by
  induction M with
  | nil => rfl
  | cons v M ih =>
    rw [List.countP_cons, List.countP_cons, List.countP_cons, ih]
    by_cases here : f v = a
    · simp [here, fresh]
      omega
    · simp [here]
      omega

theorem foldl_add_length_filter {β γ : Type} [DecidableEq γ] (f : β → γ) (M : List β)
    {L : List γ} (nodup : L.Nodup) (k : Nat) :
    L.foldl (fun owned a => owned + (M.filter fun v => f v = a).length) k =
      k + M.countP fun v => f v ∈ L := by
  induction L generalizing k with
  | nil => simp
  | cons a L ih =>
    obtain ⟨fresh, nodup⟩ := List.nodup_cons.mp nodup
    rw [List.foldl_cons, ih nodup, ← List.countP_eq_length_filter, countP_mem_cons f fresh M]
    omega

namespace Store

variable {s : Store} {name : String} {a : Address}

/-- The minipool validators of a deployment whose node belongs to the user of an email, each
counted once. -/
def minipoolsOwnedBy (s : Store) (d : Deployment) (email : String) : Nat :=
  d.minipools.countP fun v => s.nodes.any fun m => m.address = v.node && m.owner = email

/-! ### Lookups under the invariant -/

theorem deployment_of_absent (absent : ∀ d ∈ s.deployments, d.name ≠ name) :
    s.deployment name = .error (.deploymentNotFound name) := by
  have missing : Keyed.get? Deployment.name name s.deployments = none :=
    List.find?_eq_none.mpr fun d hd => by simpa using absent d hd
  simp [deployment, missing]

theorem Inv.deployment_of_mem (h : s.Inv) {d : Deployment} (hd : d ∈ s.deployments) :
    s.deployment d.name = .ok d := by
  simp [deployment, Keyed.get?_eq_some_of_mem h.deployments_sorted hd]

theorem registeredNode_of_absent (absent : ∀ m ∈ s.nodes, m.address ≠ a) :
    s.registeredNode a = .error (.addressMissingWhitelist a) := by
  have missing : s.node? a = none := List.find?_eq_none.mpr fun m hm => by simpa using absent m hm
  simp [registeredNode, whitelistedNode, missing, bind, Except.bind]

theorem Inv.registeredNode_of_mem (h : s.Inv) {m : Node} (hm : m ∈ s.nodes) :
    s.registeredNode m.address =
      if m.registered then .ok m else .error (.unregisteredNode m.address) := by
  have found : s.node? m.address = some m := Keyed.get?_eq_some_of_mem h.nodes_sorted hm
  by_cases registered : m.registered <;>
    simp [registeredNode, whitelistedNode, found, registered, bind, Except.bind, pure, Except.pure,
      throw, throwThe, MonadExceptOf.throw]

/-! ### Counting a user's minipools -/

theorem Inv.nodup_nodes_of_user (h : s.Inv) {u : User} (hu : u ∈ s.users) : u.nodes.Nodup := by
  refine List.nodup_iff_count_le_one.mpr fun x => ?_
  by_cases listed : x ∈ u.nodes
  · obtain ⟨m, hm, rfl⟩ := List.mem_map.mp (h.listed_whitelisted u hu x listed)
    rw [h.listed_once m hm u hu]
    split <;> omega
  · rw [List.count_eq_zero.mpr listed]
    omega

theorem Inv.mem_nodes_iff (h : s.Inv) {u : User} (hu : u ∈ s.users) {m : Node} (hm : m ∈ s.nodes) :
    m.address ∈ u.nodes ↔ m.owner = u.email := by
  rw [← List.count_pos_iff, h.listed_once m hm u hu]
  by_cases owner : u.email = m.owner
  · simp [owner]
  · simp [owner, Ne.symm owner]

/-- Under the invariant, the service's count of a user's minipools, summed over the user's node
addresses, counts each minipool of a node the user owns once. -/
theorem Inv.minipoolsOfUser_eq (h : s.Inv) (d : Deployment) (email : String) :
    s.minipoolsOfUser d email = s.minipoolsOwnedBy d email := by
  unfold minipoolsOfUser minipoolsOwnedBy
  cases found : s.user? email with
  | none =>
    have unknown : ∀ u ∈ s.users, u.email ≠ email := by
      simpa [user?, List.find?_eq_none] using found
    symm
    refine List.countP_eq_zero.mpr fun v _ owned => ?_
    obtain ⟨m, hm, -, rfl⟩ : ∃ m ∈ s.nodes, m.address = v.node ∧ m.owner = email := by
      simpa using owned
    obtain ⟨u, hu, same⟩ := List.mem_map.mp (h.owner_exists m hm)
    exact unknown u hu same
  | some u =>
    have hu : u ∈ s.users := List.mem_of_find?_eq_some found
    have email_eq : u.email = email := by simpa using List.find?_some found
    subst email_eq
    simp only [Deployment.minipoolsOf]
    rw [foldl_add_length_filter MinipoolValidator.node d.minipools (h.nodup_nodes_of_user hu),
      Nat.zero_add]
    refine List.countP_congr fun v _ => ?_
    simp only [decide_eq_true_eq, List.any_eq_true, Bool.and_eq_true]
    constructor
    · intro listed
      obtain ⟨m, hm, same⟩ := List.mem_map.mp (h.listed_whitelisted u hu v.node listed)
      exact ⟨m, hm, same, (h.mem_nodes_iff hu hm).mp (same ▸ listed)⟩
    · rintro ⟨m, hm, same, owner⟩
      exact same ▸ (h.mem_nodes_iff hu hm).mpr owner

/-! ### The exit-message gate -/

theorem Inv.checkExitMessages_refuses (h : s.Inv) {d : Deployment} (hd : d ∈ s.deployments)
    (lacking : ∃ v ∈ d.minipools, v.node = a ∧ v.exitMessage = none) :
    ∃ v ∈ d.minipools, v.node = a ∧ v.exitMessage = none ∧
      (∀ w ∈ d.minipools, w.node = a → w.exitMessage = none → w ≠ v →
        compare v.pubkey w.pubkey = .lt) ∧
      checkExitMessages (d.minipoolsOf a) = .error (.missingExitMessage v.pubkey) := by
  let first := fun v : MinipoolValidator => decide (v.node = a ∧ v.needsExitMessage = true)
  have search : (d.minipoolsOf a).find? MinipoolValidator.needsExitMessage =
      d.minipools.find? first := by
    simp [Deployment.minipoolsOf, List.find?_filter, first]
  obtain ⟨w, hw, node, missing⟩ := lacking
  cases found : d.minipools.find? first with
  | none =>
    have passed := List.find?_eq_none.mp found w hw
    simp [first, node, MinipoolValidator.needsExitMessage, missing] at passed
  | some v =>
    have picked : v.node = a ∧ v.exitMessage = none := by
      simpa [first, MinipoolValidator.needsExitMessage] using List.find?_some found
    refine ⟨v, List.mem_of_find?_eq_some found, picked.1, picked.2, ?_, ?_⟩
    · intro w hw node missing other
      exact Keyed.lt_of_find? (h.minipools_sorted d hd) found hw
        (by simp [first, node, MinipoolValidator.needsExitMessage, missing]) other
    · simp [checkExitMessages, search, found]

theorem checkExitMessages_passes {d : Deployment}
    (held : ∀ v ∈ d.minipools, v.node = a → v.exitMessage ≠ none) :
    checkExitMessages (d.minipoolsOf a) = .ok () := by
  have none : (d.minipoolsOf a).find? MinipoolValidator.needsExitMessage = none := by
    refine List.find?_eq_none.mpr fun v hv => ?_
    obtain ⟨mem, node⟩ : v ∈ d.minipools ∧ v.node = a := by
      simpa [Deployment.minipoolsOf] using hv
    simpa [MinipoolValidator.needsExitMessage, Option.isNone_iff_eq_none] using held v mem node
  simp [checkExitMessages, none]

end Store

/-! ### Recovery bytes and recovery -/

namespace Secp256k1

/-- Recovery undoes a key's signature of a message: whatever the key signs over the message's
personal digest recovers to the key's address. -/
def RecoversSigner (key : SecretKey) (message : List UInt8) : Prop :=
  ∀ sig, signPersonal key message = .ok sig → recoverPersonal message sig = .ok key.address

theorem RecoversSigner.of_run {key : SecretKey} {message : List UInt8} (digest : List UInt8)
    (sig : Signature) (address : Address) (hashed : Digest.personalMessageHash message = digest)
    (signed : (sign key digest).toOption = some sig)
    (recovered : (recoverAddress digest sig).toOption = some address)
    (owned : key.address = address) :
    RecoversSigner key message := by
  intro issued personal
  have signs : signPersonal key message = .ok sig := by
    rw [signPersonal, hashed]
    exact eq_ok_of_toOption signed
  rw [signs] at personal
  cases personal
  rw [recoverPersonal, hashed, owned]
  exact eq_ok_of_toOption recovered

end Secp256k1

theorem Deployment.signPersonal_of_signApproval {d : Deployment} {key : Secp256k1.SecretKey}
    (admin : d.admin = some key) {digest : List UInt8} {sig : Signature}
    (signed : d.signApproval digest = .ok sig) : Secp256k1.signPersonal key digest = .ok sig := by
  simp only [Deployment.signApproval, admin] at signed
  exact eq_ok_of_mapError signed

theorem Deployment.approval_recovers {d : Deployment} {key : Secp256k1.SecretKey}
    (admin : d.admin = some key) {digest : List UInt8} {sig : Signature}
    (signed : d.signApproval digest = .ok sig) (recovers : Secp256k1.RecoversSigner key digest) :
    (sig.v = 27 ∨ sig.v = 28) ∧ Secp256k1.recoverPersonal digest sig = .ok key.address := by
  have personal := d.signPersonal_of_signApproval admin signed
  have recovered := recovers sig personal
  exact ⟨Secp256k1.v_of_sign_of_recoverAddress personal recovered, recovered⟩

namespace Store

variable {s : Store} {name : String} {a : Address}

/-! ### The gates in order -/

theorem depositSignature_of_found {d : Deployment} {m : Node} {minipool : Address} {salt : Nat}
    (found : s.deployment name = .ok d) (node : s.registeredNode a = .ok m) :
    s.depositSignature name a minipool salt = (do
      checkMinipoolLimit m.owner (s.minipoolsOfUser d m.owner) d.minipoolLimit
      checkExitMessages (d.minipoolsOf a)
      let signature ← d.signApproval (Approval.depositHash
        { minipool, salt, node := a, factory := d.factory, nonce := d.depositNonce a,
          chainId := d.chainId })
      pure { signature, nonce := d.depositNonce a, chainId := d.chainId, contract := d.factory }) := by
  unfold depositSignature
  rw [found, node]
  rfl

end Store

/-- Minipool deposit approvals are gated in order. A missing deployment is reported first, then a
node that is not whitelisted or not registered; then the owner's minipool limit, reached when the
deployment's minipool validators on the owner's nodes, each counted once, are at least the limit;
then the node's minipool validator of least key without an exit message; then a deployment
without an admin key. Past every gate the approval is the admin key's signature and carries the
node's deposit counter, the deployment's chain and the factory contract. -/
theorem deposit_approvals_gated {s : Store} (h : s.Inv) (name : String) (a minipool : Address)
    (salt : Nat) :
    ((∀ d ∈ s.deployments, d.name ≠ name) →
      s.depositSignature name a minipool salt = .error (.deploymentNotFound name)) ∧
    ∀ d ∈ s.deployments, d.name = name →
      ((∀ m ∈ s.nodes, m.address ≠ a) →
        s.depositSignature name a minipool salt = .error (.addressMissingWhitelist a)) ∧
      ∀ m ∈ s.nodes, m.address = a →
        (m.registered = false →
          s.depositSignature name a minipool salt = .error (.unregisteredNode a)) ∧
        (m.registered = true →
          (∀ limit, d.minipoolLimit = some limit → limit ≤ s.minipoolsOwnedBy d m.owner →
            s.depositSignature name a minipool salt =
              .error (.minipoolLimitReached m.owner limit)) ∧
          ((∀ limit, d.minipoolLimit = some limit → s.minipoolsOwnedBy d m.owner < limit) →
            ((∃ v ∈ d.minipools, v.node = a ∧ v.exitMessage = none) →
              ∃ v ∈ d.minipools, v.node = a ∧ v.exitMessage = none ∧
                (∀ w ∈ d.minipools, w.node = a → w.exitMessage = none → w ≠ v →
                  compare v.pubkey w.pubkey = .lt) ∧
                s.depositSignature name a minipool salt = .error (.missingExitMessage v.pubkey)) ∧
            ((∀ v ∈ d.minipools, v.node = a → v.exitMessage ≠ none) →
              (d.admin = none →
                s.depositSignature name a minipool salt = .error (.missingPrivateKey name)) ∧
              ∀ key sig, d.admin = some key →
                Secp256k1.signPersonal key (Approval.depositHash
                  { minipool, salt, node := a, factory := d.factory, nonce := d.depositNonce a,
                    chainId := d.chainId }) = .ok sig →
                s.depositSignature name a minipool salt =
                  .ok { signature := sig, nonce := d.depositNonce a, chainId := d.chainId,
                        contract := d.factory }))) := by
  -- the gates in the order they are passed: deployment, node, registration
  refine ⟨fun absent => ?_, fun d hd named => ?_⟩
  · simp [Store.depositSignature, Store.deployment_of_absent absent, bind, Except.bind]
  have found := h.deployment_of_mem hd
  rw [named] at found
  refine ⟨fun absent => ?_, fun m hm addressed => ?_⟩
  · simp [Store.depositSignature, found, Store.registeredNode_of_absent absent, bind, Except.bind]
  have node := h.registeredNode_of_mem hm
  rw [addressed] at node
  refine ⟨fun unregistered => ?_, fun registered => ?_⟩
  · simp [Store.depositSignature, found, node, unregistered, bind, Except.bind]
  rw [if_pos registered] at node
  rw [Store.depositSignature_of_found found node, h.minipoolsOfUser_eq]
  refine ⟨fun limit limited reached => ?_, fun below => ?_⟩
  · simp [checkMinipoolLimit, limited, reached, bind, Except.bind]
  -- below the limit the first gate passes
  have passes : checkMinipoolLimit m.owner (s.minipoolsOwnedBy d m.owner) d.minipoolLimit = .ok () := by
    cases limited : d.minipoolLimit with
    | none => rfl
    | some limit =>
      have under := below limit limited
      simp only [checkMinipoolLimit]
      rw [if_neg (by omega)]
  refine ⟨fun lacking => ?_, fun held => ⟨fun unkeyed => ?_, fun key sig keyed signed => ?_⟩⟩
  · obtain ⟨v, hv, node, missing, least, refused⟩ := h.checkExitMessages_refuses hd lacking
    refine ⟨v, hv, node, missing, least, ?_⟩
    simp [passes, refused, bind, Except.bind]
  · simp [passes, Store.checkExitMessages_passes held, Deployment.signApproval, unkeyed, named,
      bind, Except.bind]
  · have approved : d.signApproval (Approval.depositHash
        { minipool, salt, node := a, factory := d.factory, nonce := d.depositNonce a,
          chainId := d.chainId }) = .ok sig := by
      simp only [Deployment.signApproval, keyed]
      rw [signed]
      rfl
    rw [passes, Store.checkExitMessages_passes held, approved]
    rfl

theorem sample_deposit_approval_needs_exit_message :
    sampleService.store.Inv ∧
      sampleService.store.depositSignature "dev" sampleNode sampleMinipool 7 =
        .error (.missingExitMessage (repeatedKey 0x55)) := by
  have inv := sampleService_inv
  obtain ⟨d, held, named, pools, unlimited⟩ : ∃ d ∈ sampleService.store.deployments, d.name = "dev" ∧
      d.minipools = [{ pubkey := repeatedKey 0x55, node := sampleNode, minipool := sampleMinipool }] ∧
      d.minipoolLimit = none := ⟨_, List.mem_singleton_self _, rfl, rfl, rfl⟩
  obtain ⟨m, listed, addressed, -, registered⟩ := sampleNode_listed
  have gated := (((deposit_approvals_gated inv "dev" sampleNode sampleMinipool 7).2 d held named).2
    m listed addressed).2 registered
  have owned : ∃ v ∈ d.minipools, v.node = sampleNode ∧ v.exitMessage = none := by
    rw [pools]
    exact ⟨_, List.mem_singleton_self _, rfl, rfl⟩
  obtain ⟨v, mem, -, -, -, refused⟩ :=
    (gated.2 fun limit capped => by simp [unlimited] at capped).1 owned
  rw [pools, List.mem_singleton] at mem
  subst mem
  exact ⟨inv, refused⟩

/-- The secret key of scalar `0x11…11`. -/
def sampleAdminKey : Secp256k1.SecretKey :=
  ⟨0x1111111111111111111111111111111111111111111111111111111111111111, by decide, by decide⟩

/-- A deployment with an admin key and a limit of one minipool per user, and a user with the
zero address whitelisted but not registered. -/
def approvalStore : Store :=
  (({ config := {} } : Service).runOps
    [.addDeployment "dev" 17000 Address.zero Address.zero, .setAdminKey "dev" sampleAdminKey,
     .setMinipoolLimit "dev" (some 1), .addUser "ops", .whitelistNode "ops" Address.zero]).store

/-- Both approvals are the admin key's signatures of their own digests: the whitelist approval's
names the node, the whitelist contract, the node's whitelist counter and the chain; the deposit
approval's names the minipool, the salt, the node, the factory contract, the node's deposit
counter and the chain. Each has a recovery byte of 27 or 28, and recovers to the admin's address
wherever recovery undoes the admin key's signature of that digest. -/
theorem approvals_recover_to_admin {s : Store} {name : String} {d : Deployment}
    {key : Secp256k1.SecretKey} (found : s.deployment name = .ok d) (admin : d.admin = some key)
    (a minipool : Address) (salt : Nat)
    (whitelistRecovers : Secp256k1.RecoversSigner key
      (Approval.whitelistHash a d.whitelist (d.whitelistNonce a) d.chainId))
    (depositRecovers : Secp256k1.RecoversSigner key (Approval.depositHash
      { minipool, salt, node := a, factory := d.factory, nonce := d.depositNonce a,
        chainId := d.chainId })) :
    (∀ sig, s.whitelistSignature name a = .ok sig →
      (sig.signature.v = 27 ∨ sig.signature.v = 28) ∧
      Secp256k1.recoverPersonal (Approval.whitelistHash a d.whitelist (d.whitelistNonce a) d.chainId)
        sig.signature = .ok key.address) ∧
    (∀ sig, s.depositSignature name a minipool salt = .ok sig →
      (sig.signature.v = 27 ∨ sig.signature.v = 28) ∧
      Secp256k1.recoverPersonal (Approval.depositHash
        { minipool, salt, node := a, factory := d.factory, nonce := d.depositNonce a,
          chainId := d.chainId }) sig.signature = .ok key.address) := by
  constructor
  · intro sig issued
    obtain ⟨d', found', -, signed, -⟩ := Store.whitelistSignature_ok issued
    rw [found, Except.ok.injEq] at found'
    subst found'
    exact Deployment.approval_recovers admin signed whitelistRecovers
  · intro sig issued
    obtain ⟨d', m, found', -, -, -, signed, -⟩ := Store.depositSignature_ok issued
    rw [found, Except.ok.injEq] at found'
    subst found'
    exact Deployment.approval_recovers admin signed depositRecovers

/-- The deployment `approvalStore` holds. -/
def approvalDeployment : Deployment :=
  { name := "dev", chainId := 17000, whitelist := Address.zero, factory := Address.zero,
    admin := some sampleAdminKey, minipoolLimit := some 1 }

theorem approvals_recover_to_admin_dev :
    approvalStore.deployment "dev" = .ok approvalDeployment ∧
    approvalDeployment.admin = some sampleAdminKey ∧
    Secp256k1.RecoversSigner sampleAdminKey (Approval.whitelistHash Address.zero
      approvalDeployment.whitelist (approvalDeployment.whitelistNonce Address.zero)
      approvalDeployment.chainId) ∧
    Secp256k1.RecoversSigner sampleAdminKey (Approval.depositHash
      { minipool := Address.zero, salt := 7, node := Address.zero,
        factory := approvalDeployment.factory,
        nonce := approvalDeployment.depositNonce Address.zero,
        chainId := approvalDeployment.chainId }) ∧
    (∀ sig, approvalStore.whitelistSignature "dev" Address.zero = .ok sig →
      (sig.signature.v = 27 ∨ sig.signature.v = 28) ∧
      Secp256k1.recoverPersonal (Approval.whitelistHash Address.zero approvalDeployment.whitelist
        (approvalDeployment.whitelistNonce Address.zero) approvalDeployment.chainId)
        sig.signature = .ok sampleAdminKey.address) ∧
    (∀ sig, approvalStore.depositSignature "dev" Address.zero Address.zero 7 = .ok sig →
      (sig.signature.v = 27 ∨ sig.signature.v = 28) ∧
      Secp256k1.recoverPersonal (Approval.depositHash
        { minipool := Address.zero, salt := 7, node := Address.zero,
          factory := approvalDeployment.factory,
          nonce := approvalDeployment.depositNonce Address.zero,
          chainId := approvalDeployment.chainId }) sig.signature = .ok sampleAdminKey.address) := by
  have found : approvalStore.deployment "dev" = .ok approvalDeployment := rfl
  have owned : sampleAdminKey.address =
      ⟨[25, 231, 227, 118, 231, 194, 19, 183, 231, 231, 228, 108, 199, 10, 93, 208, 134, 218, 255,
        42], rfl⟩ := by
    decide +kernel
  refine ⟨found, rfl, ?whitelist, ?deposit,
    approvals_recover_to_admin found rfl _ _ _ ?whitelist ?deposit⟩
  -- signing and recovering are run step by step, each step computed to its value, so that the
  -- kernel evaluates every digest once
  case whitelist =>
    exact Secp256k1.RecoversSigner.of_run
      [201, 134, 176, 146, 225, 205, 32, 12, 78, 92, 59, 167, 171, 238, 136, 168, 101, 142, 115,
       183, 217, 83, 128, 200, 18, 36, 119, 16, 178, 234, 65, 208]
      ⟨[130, 158, 233, 49, 130, 119, 141, 173, 50, 114, 152, 226, 251, 37, 65, 160, 184, 67, 172,
        174, 38, 216, 37, 31, 59, 119, 215, 83, 33, 127, 194, 137, 4, 144, 212, 107, 59, 54, 70,
        204, 120, 109, 233, 28, 164, 199, 35, 171, 71, 12, 182, 71, 48, 18, 225, 70, 194, 226, 80,
        92, 99, 225, 113, 253, 28], rfl⟩ _
      (by decide +kernel) (by decide +kernel) (by decide +kernel) owned
  case deposit =>
    exact Secp256k1.RecoversSigner.of_run
      [149, 123, 173, 239, 122, 157, 153, 111, 125, 120, 253, 205, 97, 241, 180, 159, 210, 56, 169,
       74, 120, 220, 194, 25, 199, 116, 208, 143, 77, 106, 198, 168]
      ⟨[35, 147, 113, 211, 57, 175, 52, 134, 87, 168, 77, 239, 20, 172, 153, 41, 74, 45, 108, 221,
        114, 61, 157, 75, 12, 194, 9, 136, 82, 37, 232, 112, 110, 218, 214, 149, 250, 150, 53, 45,
        148, 84, 48, 24, 113, 65, 0, 227, 42, 159, 233, 96, 232, 122, 107, 145, 40, 180, 129, 255,
        72, 63, 85, 48, 27], rfl⟩ _
      (by decide +kernel) (by decide +kernel) (by decide +kernel) owned

end StakingHub
