import StakingHub.Proofs.FieldText
import StakingHub.Digest.Keccak

/-!
# Preimages of personal messages

A personal message is hashed as the prefix `\x19Ethereum Signed Message:\n`, the decimal byte
length of the message, and the message, with nothing between the length and the message.
The preimage still determines the message: its length is the prefix's, plus the number of
digits of `n`, plus `n`, and that sum grows strictly with `n` because the digit count never
falls, across `9`/`10`, `99`/`100` and every other boundary alike
(`eq_of_length_decimal_add`). So two messages hash alike only through a Keccak-256 collision
of two different preimages.
-/

namespace StakingHub.Digest

/-- The bytes a personal message is hashed as: the prefix, the decimal byte length of the
message, and the message. -/
def personalPreimage (message : List UInt8) : List UInt8 :=
  personalMessagePrefix.toUTF8.toList ++ (toString message.length).toUTF8.toList ++ message

theorem personalMessageHash_eq (message : List UInt8) :
    personalMessageHash message = keccak256 (personalPreimage message) := by
  rw [personalMessageHash, personalPreimage, utf8_append]

theorem length_utf8_toString (n : Nat) :
    (toString n).toUTF8.toList.length = (Nat.toDigits 10 n).length := by
  have ascii : ∀ c ∈ Nat.toDigits 10 n, c.toNat ≤ 127 := by
    intro c mem
    have digit := Nat.isDigit_of_mem_toDigits (by decide) (by decide) mem
    simp [Char.isDigit, UInt32.le_iff_toNat_le] at digit
    omega
  rw [utf8_eq_flatMap, Nat.toString_eq_repr, Nat.toList_repr, length_flatMap_utf8_of_ascii ascii]

theorem length_toDigits_mono {n m : Nat} (le : n ≤ m) :
    (Nat.toDigits 10 n).length ≤ (Nat.toDigits 10 m).length := by
  have pos := Nat.length_toDigits_pos (b := 10) (n := m)
  have bound := (Nat.length_toDigits_le_iff (by decide) pos).mp (Nat.le_refl _)
  exact (Nat.length_toDigits_le_iff (by decide) pos).mpr (Nat.lt_of_le_of_lt le bound)

/-- A length written in decimal before that many bytes fixes the length: the total grows
strictly with the length, since the digit count never falls. -/
theorem eq_of_length_decimal_add {n m : Nat}
    (same : (toString n).toUTF8.toList.length + n = (toString m).toUTF8.toList.length + m) :
    n = m := by
  rw [length_utf8_toString, length_utf8_toString] at same
  rcases Nat.le_total n m with le | le
  · have := length_toDigits_mono le
    omega
  · have := length_toDigits_mono le
    omega

theorem personalPreimage_injective : Function.Injective personalPreimage := by
  intro m₁ m₂ same
  rw [personalPreimage, personalPreimage, List.append_assoc, List.append_assoc] at same
  have tail := List.append_cancel_left same
  have lengths : m₁.length = m₂.length := by
    apply eq_of_length_decimal_add
    simpa only [List.length_append] using congrArg List.length tail
  rw [lengths] at tail
  exact List.append_cancel_left tail

/-- The personal-message preimage determines the message. Two different messages with the
same personal-message digest therefore give two different preimages with the same Keccak-256
digest; in particular a 32-byte digest signed as a personal message shares its preimage with
no message of another length. -/
theorem personal_preimages_unambiguous :
    (∀ m₁ m₂ : List UInt8, personalPreimage m₁ = personalPreimage m₂ → m₁ = m₂) ∧
    (∀ m₁ m₂ : List UInt8, m₁ ≠ m₂ → personalMessageHash m₁ = personalMessageHash m₂ →
      personalPreimage m₁ ≠ personalPreimage m₂ ∧
        keccak256 (personalPreimage m₁) = keccak256 (personalPreimage m₂)) ∧
    (∀ digest message : List UInt8, digest.length = 32 → message.length ≠ 32 →
      personalPreimage digest ≠ personalPreimage message) := by
  refine ⟨fun _ _ same => personalPreimage_injective same, ?_, ?_⟩
  · intro m₁ m₂ different hashed
    rw [personalMessageHash_eq, personalMessageHash_eq] at hashed
    exact ⟨fun same => different (personalPreimage_injective same), hashed⟩
  · intro digest message digestLength otherLength same
    exact otherLength (digestLength ▸ congrArg List.length (personalPreimage_injective same).symm)

/-- A digest of 32 bytes and a message of 10 bytes, whose lengths are written with two
digits, have different preimages. -/
theorem personal_preimages_unambiguous_digest :
    personalPreimage (List.replicate 32 0x11) ≠ personalPreimage (List.replicate 10 0x11) :=
  personal_preimages_unambiguous.2.2 _ _ List.length_replicate (by simp)

end StakingHub.Digest
