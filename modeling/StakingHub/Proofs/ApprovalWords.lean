import Mathlib.Data.Fintype.Pigeonhole
import Mathlib.Data.Fintype.Prod
import StakingHub.Proofs.BigEndian
import StakingHub.Proofs.ExitRelay
import StakingHub.Approval.Digest

/-!
# Approval digests hash ABI words

The contract checks an approval by hashing `abi.encode` of its fields: 32-byte words, each the
big-endian form of an unsigned number, with an address read as the 160-bit number of its 20
bytes. `abiWord` states that form independently of the code, as the base-256 digits of `Nat.digits`
padded to 32 and written most significant first. The words the code builds are these words:
`Approval.uintWord_eq_abiWord` for every number below `2^256`, `Address.word_eq_abiWord` for every
address.

Through the big-endian reading of byte strings (`Bytes.eq_of_toNat_eq`), each digest is
Keccak-256 of its words in the contract's order, and the words can be read back off the preimage:
the whitelist and salt preimages determine every field, the deposit preimage every field but the
salt and node, which it holds only through their commitment. That commitment is itself a
Keccak-256 digest, so distinct salts and nodes can share it (`exists_depositPreimage_collision`):
the deposit preimage determines the subject only where the commitments do not collide.
-/

namespace StakingHub

section Words

variable {width : Nat}

theorem length_flatten_of_wide :
    ∀ {words : List (List UInt8)}, (∀ w ∈ words, w.length = width) →
      words.flatten.length = words.length * width
  | [], _ => by simp
  | w :: words, wide => by
    rw [List.flatten_cons, List.length_append, wide w List.mem_cons_self,
      length_flatten_of_wide (fun v mem => wide v (List.mem_cons_of_mem w mem)),
      List.length_cons, Nat.succ_mul, Nat.add_comm]

theorem flatten_inj_of_wide :
    ∀ {words words' : List (List UInt8)}, words.length = words'.length →
      (∀ w ∈ words, w.length = width) → (∀ w ∈ words', w.length = width) →
      words.flatten = words'.flatten → words = words'
  | [], [], _, _, _, _ => rfl
  | w :: words, w' :: words', count, wide, wide', same => by
    obtain ⟨first, rest⟩ := List.append_inj same
      ((wide w List.mem_cons_self).trans (wide' w' List.mem_cons_self).symm)
    rw [first, flatten_inj_of_wide (Nat.succ.inj count)
      (fun v mem => wide v (List.mem_cons_of_mem w mem))
      (fun v mem => wide' v (List.mem_cons_of_mem w' mem)) rest]

end Words

namespace Approval

/-- The ABI word of a number: its base-256 digits, padded with zeros to 32 and written most
significant first. -/
def abiWord (n : Nat) : List UInt8 :=
  ((Nat.digitsAppend 256 32 n).map Nat.toUInt8).reverse

theorem toNat_abiWord (n : Nat) : Bytes.toNat (abiWord n) = n := by
  have small : ∀ d ∈ Nat.digitsAppend 256 32 n, (UInt8.toNat ∘ Nat.toUInt8) d = id d :=
    fun d mem => by
      simpa using Nat.mod_eq_of_lt (Nat.lt_of_mem_digitsAppend (by norm_num) 32 d mem)
  rw [Bytes.toNat_eq_ofDigits, abiWord, List.reverse_reverse, List.map_map,
    List.map_congr_left small, List.map_id, Nat.digitsAppend,
    Nat.ofDigits_append_replicate_zero, Nat.ofDigits_digits]

theorem length_abiWord {n : Nat} (small : n < 2 ^ 256) : (abiWord n).length = 32 := by
  rw [abiWord, List.length_reverse, List.length_map]
  exact Nat.length_digitsAppend (by norm_num) 32 (by simpa using small)

theorem abiWord_injective : Function.Injective abiWord :=
  Function.LeftInverse.injective toNat_abiWord

theorem wide_map_abiWord {values : List Nat} (small : ∀ v ∈ values, v < 2 ^ 256) :
    ∀ w ∈ values.map abiWord, w.length = 32 := by
  simp only [List.mem_map]
  rintro _ ⟨v, mem, rfl⟩
  exact length_abiWord (small v mem)

theorem flatten_map_abiWord_inj {values values' : List Nat} (count : values.length = values'.length)
    (small : ∀ v ∈ values, v < 2 ^ 256) (small' : ∀ v ∈ values', v < 2 ^ 256) :
    (values.map abiWord).flatten = (values'.map abiWord).flatten ↔ values = values' := by
  constructor
  · intro same
    have words := flatten_inj_of_wide (by simpa using count) (wide_map_abiWord small)
      (wide_map_abiWord small') same
    exact (List.map_injective_iff.mpr abiWord_injective) words
  · rintro rfl
    rfl

/-- The code's word for a number below `2^256` is its ABI word. -/
theorem uintWord_eq_abiWord {n : Nat} (small : n < 2 ^ 256) : uintWord n = abiWord n := by
  apply Bytes.eq_of_toNat_eq
  · rw [uintWord, Bytes.length_ofNat, length_abiWord small]
  · rw [uintWord, Bytes.toNat_ofNat_of_lt (by simpa using small), toNat_abiWord]

end Approval

theorem Address.toNat_lt_word (a : Address) : Bytes.toNat a.bytes < 2 ^ 256 :=
  (Address.toNat_lt a).trans (by norm_num)

open Approval in
/-- An address's word is the ABI word of the 160-bit number its bytes spell. -/
theorem Address.word_eq_abiWord (a : Address) : a.word = abiWord (Bytes.toNat a.bytes) := by
  apply Bytes.eq_of_toNat_eq
  · rw [Address.word, List.length_append, List.length_replicate, a.length_eq,
      length_abiWord a.toNat_lt_word]
  · rw [Address.word, Bytes.toNat_replicate_zero_append, toNat_abiWord]

namespace Approval

/-! ### Preimages -/

/-- The 160 bytes a whitelist approval hashes: the words of the node, the whitelist, the nonce,
the signature type and the chain id. -/
def whitelistPreimage (node whitelist : Address) (nonce chainId : Nat) : List UInt8 :=
  ([Bytes.toNat node.bytes, Bytes.toNat whitelist.bytes, nonce, signatureType, chainId].map
    abiWord).flatten

/-- The 64 bytes a salt commitment hashes: the words of the salt and the node. -/
def saltPreimage (salt : Nat) (node : Address) : List UInt8 :=
  ([salt, Bytes.toNat node.bytes].map abiWord).flatten

/-- The 192 bytes a deposit approval hashes: the word of the minipool, the salt commitment, then
the words of the factory, the nonce, the signature type and the chain id. -/
def depositPreimage (d : DepositSubject) : List UInt8 :=
  (abiWord (Bytes.toNat d.minipool.bytes) :: saltCommitment d.salt d.node ::
    [Bytes.toNat d.factory.bytes, d.nonce, signatureType, d.chainId].map abiWord).flatten

theorem length_saltCommitment (salt : Nat) (node : Address) :
    (saltCommitment salt node).length = 32 :=
  length_keccak256 _

section Bounded

variable {node whitelist node' whitelist' : Address} {salt salt' nonce chainId nonce' chainId' : Nat}

theorem whitelistHash_eq_keccak256 (smallNonce : nonce < 2 ^ 256) (smallChain : chainId < 2 ^ 256) :
    whitelistHash node whitelist nonce chainId =
      Digest.keccak256 (whitelistPreimage node whitelist nonce chainId) := by
  rw [whitelistHash, Digest.keccak256Many, whitelistPreimage, Address.word_eq_abiWord,
    Address.word_eq_abiWord, uintWord_eq_abiWord smallNonce, uintWord_eq_abiWord smallChain,
    uintWord_eq_abiWord (by norm_num [signatureType])]
  rfl

theorem saltCommitment_eq_keccak256 (smallSalt : salt < 2 ^ 256) (node : Address) :
    saltCommitment salt node = Digest.keccak256 (saltPreimage salt node) := by
  rw [saltCommitment, Digest.keccak256Many, saltPreimage, Address.word_eq_abiWord,
    uintWord_eq_abiWord smallSalt]
  rfl

theorem depositHash_eq_keccak256 {d : DepositSubject} (smallNonce : d.nonce < 2 ^ 256)
    (smallChain : d.chainId < 2 ^ 256) :
    depositHash d = Digest.keccak256 (depositPreimage d) := by
  rw [depositHash, Digest.keccak256Many, depositPreimage, Address.word_eq_abiWord,
    Address.word_eq_abiWord, uintWord_eq_abiWord smallNonce, uintWord_eq_abiWord smallChain,
    uintWord_eq_abiWord (by norm_num [signatureType])]
  rfl

theorem whitelist_values_small (smallNonce : nonce < 2 ^ 256) (smallChain : chainId < 2 ^ 256) :
    ∀ v ∈ [Bytes.toNat node.bytes, Bytes.toNat whitelist.bytes, nonce, signatureType, chainId],
      v < 2 ^ 256 := by
  intro v mem
  simp only [List.mem_cons, List.mem_nil_iff, or_false] at mem
  rcases mem with rfl | rfl | rfl | rfl | rfl
  exacts [node.toNat_lt_word, whitelist.toNat_lt_word, smallNonce, by norm_num [signatureType],
    smallChain]

theorem deposit_values_small {d : DepositSubject} (smallNonce : d.nonce < 2 ^ 256)
    (smallChain : d.chainId < 2 ^ 256) :
    ∀ v ∈ [Bytes.toNat d.factory.bytes, d.nonce, signatureType, d.chainId], v < 2 ^ 256 := by
  intro v mem
  simp only [List.mem_cons, List.mem_nil_iff, or_false] at mem
  rcases mem with rfl | rfl | rfl | rfl
  exacts [d.factory.toNat_lt_word, smallNonce, by norm_num [signatureType], smallChain]

theorem salt_values_small (smallSalt : salt < 2 ^ 256) (node : Address) :
    ∀ v ∈ [salt, Bytes.toNat node.bytes], v < 2 ^ 256 := by
  intro v mem
  simp only [List.mem_cons, List.mem_nil_iff, or_false] at mem
  rcases mem with rfl | rfl
  exacts [smallSalt, node.toNat_lt_word]

theorem length_whitelistPreimage (smallNonce : nonce < 2 ^ 256) (smallChain : chainId < 2 ^ 256) :
    (whitelistPreimage node whitelist nonce chainId).length = 160 := by
  rw [whitelistPreimage,
    length_flatten_of_wide (wide_map_abiWord (whitelist_values_small smallNonce smallChain))]
  rfl

theorem length_saltPreimage (smallSalt : salt < 2 ^ 256) (node : Address) :
    (saltPreimage salt node).length = 64 := by
  rw [saltPreimage, length_flatten_of_wide (wide_map_abiWord (salt_values_small smallSalt node))]
  rfl

theorem wide_depositWords {d : DepositSubject} (smallNonce : d.nonce < 2 ^ 256)
    (smallChain : d.chainId < 2 ^ 256) :
    ∀ w ∈ abiWord (Bytes.toNat d.minipool.bytes) :: saltCommitment d.salt d.node ::
      [Bytes.toNat d.factory.bytes, d.nonce, signatureType, d.chainId].map abiWord,
      w.length = 32 := by
  simp only [List.forall_mem_cons]
  exact ⟨length_abiWord d.minipool.toNat_lt_word, length_saltCommitment d.salt d.node,
    wide_map_abiWord (deposit_values_small smallNonce smallChain)⟩

theorem length_depositPreimage {d : DepositSubject} (smallNonce : d.nonce < 2 ^ 256)
    (smallChain : d.chainId < 2 ^ 256) : (depositPreimage d).length = 192 := by
  rw [depositPreimage, length_flatten_of_wide (wide_depositWords smallNonce smallChain)]
  rfl

theorem whitelistPreimage_inj (smallNonce : nonce < 2 ^ 256) (smallChain : chainId < 2 ^ 256)
    (smallNonce' : nonce' < 2 ^ 256) (smallChain' : chainId' < 2 ^ 256) :
    whitelistPreimage node whitelist nonce chainId =
        whitelistPreimage node' whitelist' nonce' chainId' ↔
      node = node' ∧ whitelist = whitelist' ∧ nonce = nonce' ∧ chainId = chainId' := by
  rw [whitelistPreimage, whitelistPreimage, flatten_map_abiWord_inj (by rfl)
    (whitelist_values_small smallNonce smallChain) (whitelist_values_small smallNonce' smallChain')]
  constructor
  · intro same
    simp only [List.cons.injEq, and_true, true_and] at same
    obtain ⟨sameNode, sameWhitelist, sameNonce, sameChain⟩ := same
    exact ⟨Address.eq_of_toNat_eq sameNode, Address.eq_of_toNat_eq sameWhitelist, sameNonce,
      sameChain⟩
  · rintro ⟨rfl, rfl, rfl, rfl⟩
    rfl

theorem saltPreimage_inj (smallSalt : salt < 2 ^ 256) (smallSalt' : salt' < 2 ^ 256) :
    saltPreimage salt node = saltPreimage salt' node' ↔ salt = salt' ∧ node = node' := by
  rw [saltPreimage, saltPreimage, flatten_map_abiWord_inj (by rfl)
    (salt_values_small smallSalt node) (salt_values_small smallSalt' node')]
  constructor
  · intro same
    simp only [List.cons.injEq, and_true] at same
    exact ⟨same.1, Address.eq_of_toNat_eq same.2⟩
  · rintro ⟨rfl, rfl⟩
    rfl

theorem depositPreimage_inj {d d' : DepositSubject} (smallNonce : d.nonce < 2 ^ 256)
    (smallChain : d.chainId < 2 ^ 256) (smallNonce' : d'.nonce < 2 ^ 256)
    (smallChain' : d'.chainId < 2 ^ 256) :
    depositPreimage d = depositPreimage d' ↔
      d.minipool = d'.minipool ∧ saltCommitment d.salt d.node = saltCommitment d'.salt d'.node ∧
        d.factory = d'.factory ∧ d.nonce = d'.nonce ∧ d.chainId = d'.chainId := by
  constructor
  · intro same
    have words := flatten_inj_of_wide (by rfl) (wide_depositWords smallNonce smallChain)
      (wide_depositWords smallNonce' smallChain') same
    simp only [List.cons.injEq, List.map_cons, List.map_nil, abiWord_injective.eq_iff,
      and_true, true_and] at words
    obtain ⟨sameMinipool, sameCommitment, sameFactory, sameNonce, sameChain⟩ := words
    exact ⟨Address.eq_of_toNat_eq sameMinipool, sameCommitment,
      Address.eq_of_toNat_eq sameFactory, sameNonce, sameChain⟩
  · rintro ⟨sameMinipool, sameCommitment, sameFactory, sameNonce, sameChain⟩
    rw [depositPreimage, depositPreimage, sameMinipool, sameCommitment, sameFactory, sameNonce,
      sameChain]

theorem eq_of_depositPreimage_eq {d d' : DepositSubject} (smallNonce : d.nonce < 2 ^ 256)
    (smallChain : d.chainId < 2 ^ 256) (smallNonce' : d'.nonce < 2 ^ 256)
    (smallChain' : d'.chainId < 2 ^ 256) (same : depositPreimage d = depositPreimage d')
    (noCollision : saltCommitment d.salt d.node = saltCommitment d'.salt d'.node →
      d.salt = d'.salt ∧ d.node = d'.node) :
    d = d' := by
  obtain ⟨sameMinipool, sameCommitment, sameFactory, sameNonce, sameChain⟩ :=
    (depositPreimage_inj smallNonce smallChain smallNonce' smallChain').mp same
  obtain ⟨sameSalt, sameNode⟩ := noCollision sameCommitment
  cases d
  cases d'
  simp_all

end Bounded

/-- The deposit preimage does not determine the subject on its own: the commitment maps the
`2^257` pairs of a salt below `2^256` and one of two nodes into `2^256` digests, so two distinct
subjects share a preimage. -/
theorem exists_depositPreimage_collision :
    ∃ d d' : DepositSubject, d.salt < 2 ^ 256 ∧ d'.salt < 2 ^ 256 ∧ d ≠ d' ∧
      depositPreimage d = depositPreimage d' := by
  let node : Bool → Address := fun b => if b then ⟨List.replicate 20 1, rfl⟩ else Address.zero
  have fewer : Fintype.card (Fin (2 ^ 256)) < Fintype.card (Fin (2 ^ 256) × Bool) := by
    rw [Fintype.card_prod, Fintype.card_fin, Fintype.card_bool]
    omega
  -- pigeonhole on the number each commitment spells, all below `2^256`
  let spelled : Fin (2 ^ 256) × Bool → Fin (2 ^ 256) := fun p =>
    ⟨Bytes.toNat (saltCommitment p.1 (node p.2)), by
      have bound := Bytes.toNat_lt (saltCommitment p.1 (node p.2))
      rw [length_saltCommitment] at bound
      exact bound.trans_le (by norm_num)⟩
  obtain ⟨p, q, differ, same⟩ := Fintype.exists_ne_map_eq_of_card_lt spelled fewer
  have commitment : saltCommitment p.1 (node p.2) = saltCommitment q.1 (node q.2) :=
    Bytes.eq_of_toNat_eq (by rw [length_saltCommitment, length_saltCommitment])
      (Fin.val_eq_of_eq same)
  have nodeInjective : Function.Injective node := by
    intro b b' same
    cases b <;> cases b' <;> simp_all [node, Address.zero]
  let subject : Fin (2 ^ 256) × Bool → DepositSubject := fun p =>
    ⟨Address.zero, p.1, node p.2, Address.zero, 0, 0⟩
  refine ⟨subject p, subject q, p.1.isLt, q.1.isLt, ?_, ?_⟩
  · intro sameSubject
    simp only [subject, DepositSubject.mk.injEq, true_and, and_true] at sameSubject
    exact differ (Prod.ext (Fin.ext sameSubject.1) (nodeInjective sameSubject.2))
  · simp only [depositPreimage, subject, commitment]

/-- Approval digests hash the contract's words. The ABI word of a number below `2^256` is the
32 bytes whose big-endian value is that number. Each digest is Keccak-256 of the words of its
fields in the contract's order: the whitelist approval of five words (160 bytes), the salt
commitment of two (64 bytes), the deposit approval of six (192 bytes) with the salt commitment
as its second word; every number below `2^256`, so every 64-bit nonce and chain id and every
256-bit salt. Each preimage gives back its fields: the whitelist and salt preimages all of
them, the deposit preimage its minipool, factory, nonce, chain id and salt commitment, and so
the whole subject wherever that commitment does not collide. -/
theorem approval_digests_hash_abi_words :
    (∀ n < 2 ^ 256, (abiWord n).length = 32 ∧ Bytes.toNat (abiWord n) = n) ∧
    (∀ (node whitelist node' whitelist' : Address) (nonce chainId nonce' chainId' : Nat),
      nonce < 2 ^ 256 → chainId < 2 ^ 256 → nonce' < 2 ^ 256 → chainId' < 2 ^ 256 →
      whitelistHash node whitelist nonce chainId =
          Digest.keccak256 (whitelistPreimage node whitelist nonce chainId) ∧
        (whitelistPreimage node whitelist nonce chainId).length = 160 ∧
        (whitelistPreimage node whitelist nonce chainId =
            whitelistPreimage node' whitelist' nonce' chainId' ↔
          node = node' ∧ whitelist = whitelist' ∧ nonce = nonce' ∧ chainId = chainId')) ∧
    (∀ (salt salt' : Nat) (node node' : Address), salt < 2 ^ 256 → salt' < 2 ^ 256 →
      saltCommitment salt node = Digest.keccak256 (saltPreimage salt node) ∧
        (saltPreimage salt node).length = 64 ∧
        (saltPreimage salt node = saltPreimage salt' node' ↔ salt = salt' ∧ node = node')) ∧
    (∀ d d' : DepositSubject, d.nonce < 2 ^ 256 → d.chainId < 2 ^ 256 →
      d'.nonce < 2 ^ 256 → d'.chainId < 2 ^ 256 →
      depositHash d = Digest.keccak256 (depositPreimage d) ∧
        (depositPreimage d).length = 192 ∧
        (depositPreimage d = depositPreimage d' ↔
          d.minipool = d'.minipool ∧ saltCommitment d.salt d.node = saltCommitment d'.salt d'.node ∧
            d.factory = d'.factory ∧ d.nonce = d'.nonce ∧ d.chainId = d'.chainId) ∧
        (depositPreimage d = depositPreimage d' →
          (saltCommitment d.salt d.node = saltCommitment d'.salt d'.node →
            d.salt = d'.salt ∧ d.node = d'.node) →
          d = d')) := by
  refine ⟨fun n small => ⟨length_abiWord small, toNat_abiWord n⟩, ?_, ?_, ?_⟩
  · intro node whitelist node' whitelist' nonce chainId nonce' chainId' smallNonce smallChain
      smallNonce' smallChain'
    exact ⟨whitelistHash_eq_keccak256 smallNonce smallChain,
      length_whitelistPreimage smallNonce smallChain,
      whitelistPreimage_inj smallNonce smallChain smallNonce' smallChain'⟩
  · intro salt salt' node node' smallSalt smallSalt'
    exact ⟨saltCommitment_eq_keccak256 smallSalt node, length_saltPreimage smallSalt node,
      saltPreimage_inj smallSalt smallSalt'⟩
  · intro d d' smallNonce smallChain smallNonce' smallChain'
    exact ⟨depositHash_eq_keccak256 smallNonce smallChain,
      length_depositPreimage smallNonce smallChain,
      depositPreimage_inj smallNonce smallChain smallNonce' smallChain',
      eq_of_depositPreimage_eq smallNonce smallChain smallNonce' smallChain'⟩

/-- A deposit on chain 17000 at nonce 7, salt 5, with every address zero. -/
def zeroAddressDeposit : DepositSubject :=
  ⟨Address.zero, 5, Address.zero, Address.zero, 7, 17000⟩

theorem approval_digests_hash_abi_words_zero_addresses :
    whitelistHash Address.zero Address.zero 7 17000 =
        Digest.keccak256 (whitelistPreimage Address.zero Address.zero 7 17000) ∧
      saltCommitment 5 Address.zero = Digest.keccak256 (saltPreimage 5 Address.zero) ∧
      depositHash zeroAddressDeposit = Digest.keccak256 (depositPreimage zeroAddressDeposit) := by
  obtain ⟨-, whitelist, salt, deposit⟩ := approval_digests_hash_abi_words
  have small : (7 : Nat) < 2 ^ 256 ∧ (17000 : Nat) < 2 ^ 256 ∧ (5 : Nat) < 2 ^ 256 := by
    norm_num
  exact ⟨(whitelist Address.zero Address.zero Address.zero Address.zero 7 17000 7 17000 small.1
      small.2.1 small.1 small.2.1).1,
    (salt _ _ Address.zero Address.zero small.2.2 small.2.2).1,
    (deposit zeroAddressDeposit zeroAddressDeposit small.1 small.2.1 small.1 small.2.1).1⟩

end Approval

end StakingHub
