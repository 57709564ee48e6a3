import Mathlib.Data.Nat.Digits.Lemmas
import StakingHub.Account.Address
import StakingHub.Bytes.Hex

/-!
# Big-endian numbers

A byte string read most significant byte first spells the base-256 number `Nat.ofDigits` gives
for its bytes read last to first (`Bytes.toNat_eq_ofDigits`). Two strings of one length that
spell one number are equal (`Bytes.eq_of_toNat_eq`), and writing a number in `k` bytes keeps it
modulo `256^k` (`Bytes.toNat_ofNat`). An address spells a 160-bit number that determines it.
-/

namespace StakingHub

namespace Bytes

/-- A big-endian byte string spells the base-256 number of its bytes read last to first. -/
theorem toNat_eq_ofDigits (bytes : List UInt8) :
    toNat bytes = Nat.ofDigits 256 (bytes.reverse.map UInt8.toNat) := by
  induction bytes using List.reverseRecOn with
  | nil => rfl
  | append_singleton bytes b ih =>
    have last : toNat (bytes ++ [b]) = toNat bytes * 256 + b.toNat := by
      simp [toNat, List.foldl_append]
    rw [last, ih, List.reverse_append, List.reverse_singleton, List.singleton_append,
      List.map_cons, Nat.ofDigits_cons]
    ring

theorem digits_lt (bytes : List UInt8) : ∀ d ∈ bytes.reverse.map UInt8.toNat, d < 256 := by
  simp only [List.mem_map, List.mem_reverse]
  rintro _ ⟨b, -, rfl⟩
  exact b.toNat_lt

theorem toNat_lt (bytes : List UInt8) : toNat bytes < 256 ^ bytes.length := by
  rw [toNat_eq_ofDigits]
  simpa using Nat.ofDigits_lt_base_pow_length (by norm_num) (digits_lt bytes)

/-- Byte strings of one length are equal when they spell one number. -/
theorem eq_of_toNat_eq {a b : List UInt8} (length : a.length = b.length)
    (same : toNat a = toNat b) : a = b := by
  rw [toNat_eq_ofDigits, toNat_eq_ofDigits] at same
  have digits := Nat.ofDigits_inj_of_len_eq (by norm_num) (by simpa using length)
    (digits_lt a) (digits_lt b) same
  have bytewise : Function.Injective (List.map UInt8.toNat) :=
    List.map_injective_iff.mpr fun _ _ h => UInt8.toNat_inj.mp h
  exact List.reverse_injective (bytewise digits)

/-- Leading zero bytes do not change the number. -/
@[simp] theorem toNat_replicate_zero_append (k : Nat) (bytes : List UInt8) :
    toNat (List.replicate k 0 ++ bytes) = toNat bytes := by
  simp [toNat_eq_ofDigits, List.reverse_replicate, List.map_replicate]

theorem toNat_cons (b : UInt8) (bytes : List UInt8) :
    toNat (b :: bytes) = toNat bytes + 256 ^ bytes.length * b.toNat := by
  simp [toNat_eq_ofDigits, Nat.ofDigits_append]

theorem ofNat_succ (n k : Nat) :
    ofNat n (k + 1) = (n / 256 ^ k % 256).toUInt8 :: ofNat n k := by
  simp [ofNat, List.range_succ, Nat.pow_eq]

/-- Writing `n` in `k` bytes keeps `n` modulo `256^k`. -/
theorem toNat_ofNat (n k : Nat) : toNat (ofNat n k) = n % 256 ^ k := by
  induction k with
  | zero => simp [ofNat, toNat, Nat.mod_one]
  | succ k ih =>
    rw [ofNat_succ, toNat_cons, ih, length_ofNat, Nat.mod_pow_succ]
    simp

theorem toNat_ofNat_of_lt {n k : Nat} (small : n < 256 ^ k) : toNat (ofNat n k) = n := by
  rw [toNat_ofNat, Nat.mod_eq_of_lt small]

end Bytes

theorem Address.toNat_lt (a : Address) : Bytes.toNat a.bytes < 2 ^ 160 := by
  simpa [a.length_eq] using Bytes.toNat_lt a.bytes

/-- Two addresses spelling one number are the same address. -/
theorem Address.eq_of_toNat_eq {a b : Address} (same : Bytes.toNat a.bytes = Bytes.toNat b.bytes) :
    a = b := by
  obtain ⟨bytes, length⟩ := a
  obtain ⟨bytes', length'⟩ := b
  have : bytes = bytes' := Bytes.eq_of_toNat_eq (length.trans length'.symm) same
  subst this
  rfl

end StakingHub
