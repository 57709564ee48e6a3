import StakingHub.Account.Address
import StakingHub.Bytes.Hex

/-!
# What deployments sign

A deployment's admin key approves two things: a node joining its whitelist, and a minipool
deposit. Each approval is the Keccak-256 digest of 32-byte words: addresses left-padded,
numbers big-endian, and a signature-type word of zero before the chain id.

Modelled on `crates/ns-mock/src/signing/encoding.rs:11-80` (`address_word`, `uint_word`,
`u64_word`, `whitelist_hash`, `salt_commitment`, `deposit_hash`).
-/

namespace StakingHub.Approval

/-- A number as a 32-byte big-endian word. -/
def uintWord (n : Nat) : List UInt8 :=
  Bytes.ofNat n 32

/-- The signature type folded into every approval. -/
def signatureType : Nat := 0

/-- The digest approving `node` on `whitelist` at `nonce` on chain `chainId`. -/
def whitelistHash (node whitelist : Address) (nonce chainId : Nat) : List UInt8 :=
  Digest.keccak256Many
    [node.word, whitelist.word, uintWord nonce, uintWord signatureType, uintWord chainId]

/-- The digest binding a salt to a node. -/
def saltCommitment (salt : Nat) (node : Address) : List UInt8 :=
  Digest.keccak256Many [uintWord salt, node.word]

/-- What a minipool deposit approval covers. -/
structure DepositSubject where
  minipool : Address
  salt : Nat
  node : Address
  factory : Address
  nonce : Nat
  chainId : Nat

/-- The digest approving a minipool deposit. -/
def depositHash (d : DepositSubject) : List UInt8 :=
  Digest.keccak256Many
    [d.minipool.word, saltCommitment d.salt d.node, d.factory.word, uintWord d.nonce,
     uintWord signatureType, uintWord d.chainId]

end StakingHub.Approval
