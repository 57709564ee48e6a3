import StakingHub.Proofs.ExitRelay

/-!
# Sealed payloads

A payload sealed to a relay identity's recipient key opens back to the message under that
identity, and is 72 bytes longer than the message: the 32-byte ephemeral public key, the
24-byte nonce and the 16-byte tag (`Identity.openSealed_of_sealWith`). The opener derives the
payload key from its own secret and recomputed recipient key, the sender from the recipient key
it was given; the two agree because X25519 gives both sides the same shared secret, which is
taken as a hypothesis for the keys involved. Sealing refuses a recipient key whose shared secret
is all zeros; opening refuses a payload shorter than 72 bytes, and never fails on reading its
nonce, since the slice between bytes 32 and 56 of a long enough payload has 24 bytes.
-/

namespace StakingHub.Relay

open Curve25519

namespace Recipient

variable {r : Recipient} {ephemeral nonce message sealed : List UInt8}

theorem sealWith_of_zero (zero : isZeroSecret (x25519 ephemeral r.bytes) = true) :
    r.sealWith ephemeral nonce message = .error .invalidPublicKey := by
  simp [sealWith, zero]

theorem contributory_of_sealWith (sealing : r.sealWith ephemeral nonce message = .ok sealed) :
    isZeroSecret (x25519 ephemeral r.bytes) = false := by
  cases zero : isZeroSecret (x25519 ephemeral r.bytes) with
  | false => rfl
  | true =>
    rw [sealWith_of_zero zero] at sealing
    cases sealing

theorem length_sealWith (nonceLength : nonce.length = Cipher.nonceLength)
    (sealing : r.sealWith ephemeral nonce message = .ok sealed) :
    sealed.length = minSealedLength + message.length := by
  rw [sealWith_eq_ok (contributory_of_sealWith sealing), Except.ok.injEq] at sealing
  subst sealing
  have keyLength := length_payloadKey (x25519 ephemeral r.bytes) (publicKey ephemeral) r.bytes
  have ephemeralLength : (publicKey ephemeral).length = 32 := length_x25519 _ _
  rw [List.length_append, List.length_append, Cipher.length_encrypt keyLength nonceLength,
    nonceLength, ephemeralLength]
  simp only [minSealedLength, Cipher.nonceLength, Cipher.tagLength]
  omega

end Recipient

namespace Identity

variable {id : Identity} {ephemeral nonce message sealed : List UInt8}

/-- What is sealed to an identity's recipient key opens back to the message, when X25519 gives
both sides the same shared secret. -/
theorem openSealed_of_sealWith (nonceLength : nonce.length = Cipher.nonceLength)
    (agree : x25519 ephemeral (publicKey id.secret) = x25519 id.secret (publicKey ephemeral))
    (sealing : id.recipient.sealWith ephemeral nonce message = .ok sealed) :
    id.openSealed sealed = .ok message := by
  have contributory := Recipient.contributory_of_sealWith sealing
  rw [Recipient.sealWith_eq_ok contributory, Except.ok.injEq] at sealing
  subst sealing
  exact openSealed_seal nonceLength agree contributory message

theorem openSealed_of_short (short : sealed.length < minSealedLength) :
    id.openSealed sealed = .error (.invalidCiphertext (.tooShort sealed.length)) := by
  simp [openSealed, short]

theorem openSealed_ne_invalidKeyLength (expected actual : Nat) :
    id.openSealed sealed ≠ .error (.invalidKeyLength expected actual) := by
  unfold openSealed
  by_cases short : sealed.length < minSealedLength
  · simp [short]
  · have sliced := Cipher.nonceOfSlice_of_length
      (length_nonceSlice (Nat.le_of_not_lt short))
    by_cases zero : isZeroSecret (x25519 id.secret (sealed.take 32)) = true
    · simp [short, zero]
    · -- what remains is decryption, whose only fault is a failed tag
      simp only [short, zero, sliced, Bool.false_eq_true, if_false]
      split <;> simp

end Identity

/-- Sealed payloads open as sealed. For every relay identity, message, ephemeral secret and
24-byte nonce, a payload sealed to the identity's recipient key is 72 bytes longer than the
message and opens back to it, wherever X25519 gives sender and opener the same shared secret.
Sealing refuses a shared secret of all zeros as an invalid public key; opening refuses every
payload shorter than 72 bytes as invalid ciphertext, and never fails on reading the nonce. -/
theorem sealed_payloads_open :
    (∀ (id : Identity) (ephemeral nonce message sealed : List UInt8),
      nonce.length = Cipher.nonceLength →
      x25519 ephemeral (publicKey id.secret) = x25519 id.secret (publicKey ephemeral) →
      id.recipient.sealWith ephemeral nonce message = .ok sealed →
      sealed.length = minSealedLength + message.length ∧ id.openSealed sealed = .ok message) ∧
    (∀ (r : Recipient) (ephemeral nonce message : List UInt8),
      isZeroSecret (x25519 ephemeral r.bytes) = true →
      r.sealWith ephemeral nonce message = .error .invalidPublicKey) ∧
    (∀ (id : Identity) (sealed : List UInt8), sealed.length < minSealedLength →
      id.openSealed sealed = .error (.invalidCiphertext (.tooShort sealed.length))) ∧
    (∀ (id : Identity) (sealed : List UInt8) (expected actual : Nat),
      id.openSealed sealed ≠ .error (.invalidKeyLength expected actual)) :=
  ⟨fun _ _ _ _ _ nonceLength agree sealing =>
      ⟨Recipient.length_sealWith nonceLength sealing,
        Identity.openSealed_of_sealWith nonceLength agree sealing⟩,
    fun _ _ _ _ zero => Recipient.sealWith_of_zero zero,
    fun _ _ short => Identity.openSealed_of_short short,
    fun _ _ expected actual => Identity.openSealed_ne_invalidKeyLength expected actual⟩

/-- A relay identity of secret bytes `05`. -/
def sealingIdentity : Identity := ⟨List.replicate 32 5, rfl⟩

theorem sealed_payloads_open_sample :
    ∃ sealed, sealingIdentity.recipient.sealWith (List.replicate 32 11) (List.replicate 24 2)
        [0x65, 0x78, 0x69, 0x74] = .ok sealed ∧
      sealed.length = minSealedLength + 4 ∧
      sealingIdentity.openSealed sealed = .ok [0x65, 0x78, 0x69, 0x74] := by
  obtain ⟨opens, -, -, -⟩ := sealed_payloads_open
  have contributory :
      isZeroSecret (x25519 (List.replicate 32 11) sealingIdentity.recipient.bytes) = false := by
    decide +kernel
  have agree : x25519 (List.replicate 32 11) (publicKey sealingIdentity.secret) =
      x25519 sealingIdentity.secret (publicKey (List.replicate 32 11)) := by
    decide +kernel
  have sealing := Recipient.sealWith_eq_ok contributory (List.replicate 24 2) [0x65, 0x78, 0x69, 0x74]
  exact ⟨_, sealing, opens _ _ _ _ _ rfl agree sealing⟩

end StakingHub.Relay
