import StakingHub.Proofs.RecordValues
import StakingHub.Record.Deposit
import StakingHub.Record.Exit

/-!
# Deposit records and exit messages as JSON values

A deposit record and an exit message are written as the record writer writes their data, and
read through their shapes. For each of them:

* reading the value of a well-formed record gives it back (`ofValue_toValue`);
* a value written as the writer writes, members in any order, reads as a record whose value is
  that value up to member order (`toValue_sameAs_of_ofValue`);
* an object is refused when a hex field holds text of another length or a character that is
  no hex digit (`ofValue_refused_of_hex`).

Well-formed means what the wire types fix: byte fields of their lengths, and decimal fields
below `2^64`.
-/

namespace StakingHub

open Json

namespace DepositRecord

/-- The datum of a deposit record, in the layout of its shape. -/
def toDatum (r : DepositRecord) : Datum :=
  .record [.bytes r.pubkey.bytes, .bytes r.withdrawalCredentials, .nat r.amount,
    .bytes r.signature, .bytes r.depositMessageRoot, .bytes r.depositDataRoot,
    .bytes r.forkVersion, .text r.networkName]

theorem toValue_eq_writeValue (r : DepositRecord) : r.toValue = writeValue shape r.toDatum :=
  rfl

theorem ofDatum_toDatum (r : DepositRecord) : ofDatum r.toDatum = .ok r := by
  have key : ValidatorPubkey.ofBytes? r.pubkey.bytes = some r.pubkey := by
    simp [ValidatorPubkey.ofBytes?, r.pubkey.length_eq]
  simp only [toDatum, ofDatum, key]

theorem eq_toDatum_of_ofDatum {d : Datum} {r : DepositRecord} (h : ofDatum d = .ok r) :
    d = r.toDatum := by
  unfold ofDatum at h
  split at h
  · rename_i pk wc amount sig mr dr fv name
    split at h
    · rename_i key found
      cases h
      have bytes : key.bytes = pk := by
        unfold ValidatorPubkey.ofBytes? at found
        split at found
        · cases found
          rfl
        · cases found
      rw [toDatum, bytes]
    · cases h
  · cases h

/-- A deposit record whose byte fields have the lengths the record format fixes. -/
structure WellFormed (r : DepositRecord) : Prop where
  withdrawalCredentials : r.withdrawalCredentials.length = 32
  signature : r.signature.length = 96
  depositMessageRoot : r.depositMessageRoot.length = 32
  depositDataRoot : r.depositDataRoot.length = 32
  forkVersion : r.forkVersion.length = 4

theorem fits_toDatum {r : DepositRecord} (h : r.WellFormed) : Fits 1 shape r.toDatum := by
  refine .record (by decide) rfl ?_
  simp only [List.zip_cons_cons, List.zip_nil_left, List.mem_cons, List.not_mem_nil, or_false]
  rintro p (rfl | rfl | rfl | rfl | rfl | rfl | rfl | rfl)
  · exact .hex r.pubkey.length_eq
  · exact .hex h.withdrawalCredentials
  · exact .natural
  · exact .hex h.signature
  · exact .hex h.depositMessageRoot
  · exact .hex h.depositDataRoot
  · exact .hex h.forkVersion
  · exact .text

/-- Reading the JSON value of a well-formed deposit record gives the record back. -/
theorem ofValue_toValue {r : DepositRecord} (h : r.WellFormed) : ofValue r.toValue = .ok r := by
  have read : shape.decodeValue r.toValue = .ok r.toDatum := by
    rw [toValue_eq_writeValue]
    exact decodeValueAt_writeValue (fits_toDatum h) 14
  simp only [ofValue, read, bind, Except.bind, ofDatum_toDatum]

/-- The record read from a value written as the writer writes has that value as its own, up
to the order of object members. -/
theorem toValue_sameAs_of_ofValue {v : Value} {r : DepositRecord} (canonical : Canonical shape v)
    (h : ofValue v = .ok r) : r.toValue.SameAs v := by
  obtain ⟨d, read, back⟩ := except_bind_eq_ok.mp h
  rw [eq_toDatum_of_ofDatum back] at read
  rw [toValue_eq_writeValue]
  exact writeValue_sameAs canonical read

/-- An object whose member for a hex field is text of another length than the field's, or with
a character that is no hex digit, is refused. -/
theorem ofValue_refused_of_hex {members : List (String × Value)} {k s : String} {n : Nat}
    (field : (k, .hexBytes n) ∈ shape.fieldsOf) (mem : (k, .string s) ∈ members)
    (bad : ¬(s.utf8ByteSize = 2 * n ∧ ∀ c ∈ s.toList, c.isHexDigit)) (r : DepositRecord) :
    ofValue (.object members) ≠ .ok r := by
  intro h
  obtain ⟨d, read, _⟩ := except_bind_eq_ok.mp h
  exact decodeValueAt_object_refused (by decide) field mem (decodeValueAt_hexBytes_refused bad) d
    read

end DepositRecord

namespace ExitMessage

/-- The datum of an exit message, in the layout of its shape. -/
def toDatum (m : ExitMessage) : Datum :=
  .record [.record [.nat m.message.epoch, .nat m.message.validatorIndex], .bytes m.signature]

theorem toValue_eq_writeValue (m : ExitMessage) : m.toValue = writeValue shape m.toDatum :=
  rfl

theorem ofDatum_toDatum (m : ExitMessage) : ofDatum m.toDatum = .ok m :=
  rfl

theorem eq_toDatum_of_ofDatum {d : Datum} {m : ExitMessage} (h : ofDatum d = .ok m) :
    d = m.toDatum := by
  unfold ofDatum at h
  split at h
  · cases h
    rfl
  · cases h

/-- An exit message whose numbers fit 64 bits and whose signature has the length of a BLS
signature. -/
structure WellFormed (m : ExitMessage) : Prop where
  epoch : m.message.epoch < Nat.pow 2 64
  validatorIndex : m.message.validatorIndex < Nat.pow 2 64
  signature : m.signature.length = blsSignatureLength

theorem fits_toDatum {m : ExitMessage} (h : m.WellFormed) : Fits 2 shape m.toDatum := by
  refine .record (by decide) rfl ?_
  simp only [List.zip_cons_cons, List.zip_nil_left, List.mem_cons, List.not_mem_nil, or_false]
  rintro p (rfl | rfl)
  · refine .record (by decide) rfl ?_
    simp only [List.zip_cons_cons, List.zip_nil_left, List.mem_cons, List.not_mem_nil, or_false]
    rintro p (rfl | rfl)
    · exact .decimal h.epoch
    · exact .decimal h.validatorIndex
  · exact .hex h.signature

/-- Reading the JSON value of a well-formed exit message gives the message back. -/
theorem ofValue_toValue {m : ExitMessage} (h : m.WellFormed) : ofValue m.toValue = .ok m := by
  have read : shape.decodeValue m.toValue = .ok m.toDatum := by
    rw [toValue_eq_writeValue]
    exact decodeValueAt_writeValue (fits_toDatum h) 13
  simp only [ofValue, read, bind, Except.bind, ofDatum_toDatum]

/-- The message read from a value written as the writer writes has that value as its own, up
to the order of object members. -/
theorem toValue_sameAs_of_ofValue {v : Value} {m : ExitMessage} (canonical : Canonical shape v)
    (h : ofValue v = .ok m) : m.toValue.SameAs v := by
  obtain ⟨d, read, back⟩ := except_bind_eq_ok.mp h
  rw [eq_toDatum_of_ofDatum back] at read
  rw [toValue_eq_writeValue]
  exact writeValue_sameAs canonical read

/-- An object whose signature is text of another length than a signature's, or with a character
that is no hex digit, is refused. -/
theorem ofValue_refused_of_hex {members : List (String × Value)} {k s : String} {n : Nat}
    (field : (k, .hexBytes n) ∈ shape.fieldsOf) (mem : (k, .string s) ∈ members)
    (bad : ¬(s.utf8ByteSize = 2 * n ∧ ∀ c ∈ s.toList, c.isHexDigit)) (m : ExitMessage) :
    ofValue (.object members) ≠ .ok m := by
  intro h
  obtain ⟨d, read, _⟩ := except_bind_eq_ok.mp h
  exact decodeValueAt_object_refused (by decide) field mem (decodeValueAt_hexBytes_refused bad) d
    read

end ExitMessage

/-- Deposit records and exit messages read back as written. Each well-formed record reads back
from its JSON value; a value written as the writer writes (each field once, hex in lowercase,
decimal text without sign or leading zero) is written back as itself up to member order; and a
hex field is accepted exactly when its text has two hex digits per byte of the field, so that
an object with other text in a hex field is refused. -/
theorem payload_records_read_back :
    (∀ r : DepositRecord, r.WellFormed → DepositRecord.ofValue r.toValue = .ok r) ∧
    (∀ m : ExitMessage, m.WellFormed → ExitMessage.ofValue m.toValue = .ok m) ∧
    (∀ (v : Value) (r : DepositRecord), Canonical DepositRecord.shape v →
      DepositRecord.ofValue v = .ok r → r.toValue.SameAs v) ∧
    (∀ (v : Value) (m : ExitMessage), Canonical ExitMessage.shape v →
      ExitMessage.ofValue v = .ok m → m.toValue.SameAs v) ∧
    (∀ (n : Nat) (s : String), (∃ bytes, parseHexBytes n s = .ok bytes) ↔
      s.utf8ByteSize = 2 * n ∧ ∀ c ∈ s.toList, c.isHexDigit) ∧
    (∀ (members : List (String × Value)) (k s : String) (n : Nat),
      (k, Shape.hexBytes n) ∈ DepositRecord.shape.fieldsOf → (k, Value.string s) ∈ members →
      ¬(s.utf8ByteSize = 2 * n ∧ ∀ c ∈ s.toList, c.isHexDigit) →
      ∀ r, DepositRecord.ofValue (.object members) ≠ .ok r) ∧
    (∀ (members : List (String × Value)) (k s : String) (n : Nat),
      (k, Shape.hexBytes n) ∈ ExitMessage.shape.fieldsOf → (k, Value.string s) ∈ members →
      ¬(s.utf8ByteSize = 2 * n ∧ ∀ c ∈ s.toList, c.isHexDigit) →
      ∀ m, ExitMessage.ofValue (.object members) ≠ .ok m) :=
  ⟨fun _ h => DepositRecord.ofValue_toValue h, fun _ h => ExitMessage.ofValue_toValue h,
    fun _ _ => DepositRecord.toValue_sameAs_of_ofValue,
    fun _ _ => ExitMessage.toValue_sameAs_of_ofValue, fun _ _ => parseHexBytes_accepts_iff,
    fun _ _ _ _ field mem bad => DepositRecord.ofValue_refused_of_hex field mem bad,
    fun _ _ _ _ field mem bad => ExitMessage.ofValue_refused_of_hex field mem bad⟩

/-- A deposit record of the wire lengths, every byte field filled with one byte. -/
def sampleDeposit : DepositRecord where
  pubkey := ⟨List.replicate 48 0x5a, rfl⟩
  withdrawalCredentials := 0x01 :: List.replicate 11 0 ++ List.replicate 20 0xaa
  amount := 32000000000
  signature := List.replicate 96 0x22
  depositMessageRoot := List.replicate 32 0x33
  depositDataRoot := List.replicate 32 0x44
  forkVersion := [0x01, 0x01, 0x70, 0x00]
  networkName := "holesky"

/-- An exit message with the largest epoch a 64-bit number holds. -/
def sampleExit : ExitMessage where
  message := ⟨u64Max, 7⟩
  signature := List.replicate 96 0x55

theorem payload_records_read_back_samples :
    DepositRecord.ofValue sampleDeposit.toValue = .ok sampleDeposit ∧
      ExitMessage.ofValue sampleExit.toValue = .ok sampleExit ∧
      sampleDeposit.toValue.SameAs sampleDeposit.toValue ∧
      sampleExit.toValue.SameAs sampleExit.toValue ∧
      (∀ r, DepositRecord.ofValue (.object [("fork_version", .string "0101700")]) ≠ .ok r) ∧
      (∀ m, ExitMessage.ofValue (.object [("signature", .string "zz")]) ≠ .ok m) := by
  obtain ⟨deposit, exit, depositBack, exitBack, _, depositHex, exitHex⟩ := payload_records_read_back
  have depositWellFormed : sampleDeposit.WellFormed := ⟨rfl, rfl, rfl, rfl, rfl⟩
  have exitWellFormed : sampleExit.WellFormed := ⟨by decide, by decide, rfl⟩
  have depositRead := deposit sampleDeposit depositWellFormed
  have exitRead := exit sampleExit exitWellFormed
  refine ⟨depositRead, exitRead, ?_, ?_, ?_, ?_⟩
  · refine depositBack _ _ ?_ depositRead
    rw [DepositRecord.toValue_eq_writeValue]
    exact canonical_writeValue (DepositRecord.fits_toDatum depositWellFormed)
  · refine exitBack _ _ ?_ exitRead
    rw [ExitMessage.toValue_eq_writeValue]
    exact canonical_writeValue (ExitMessage.fits_toDatum exitWellFormed)
  · exact depositHex _ "fork_version" "0101700" 4 (by simp [DepositRecord.shape, Shape.fieldsOf])
      (by simp) (by decide)
  · exact exitHex _ "signature" "zz" 96 (by simp [ExitMessage.shape, Shape.fieldsOf]; rfl)
      (by simp) (by decide)

end StakingHub
