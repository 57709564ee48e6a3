import StakingHub.Proofs.BigEndian
import StakingHub.Secp256k1.Ecdsa

/-!
# Recovery bytes

A recoverable signature carries its recovery id in its last byte `v`: signing writes
`27 + ` the id's byte, and recovery normalises `v` to 27 or 28 (adding 27 to a raw 0 or 1,
refusing anything outside `{0, 1, 27, 28}`) and reads the id back from `v - 27`. The curve's own
signing and recovery are taken as inverse at the key and digest at hand (`CurveRecovers`): that
is the one fact of the curve these statements rest on. From it a signature recovers to its
signer, with a canonical `v` (`recoverAddress_sign`).

The curve may also return an id whose abscissa was reduced modulo `n`; signing then writes
`v = 29` or `30`, which recovery refuses (`recoverAddress_sign_of_xReduced`). Nothing on the
signing side excludes this: the canonical `v` rests on the curve returning an id of byte 0 or 1.
Recovery reads the raw form of `v` as its canonical form (`recoverAddress_withV_add`), and
normalising twice changes nothing (`Signature.normalized_normalized`).
-/

namespace StakingHub

/-! ### Normalising the recovery byte -/

theorem normalizeRecoveryId_of_raw {v : UInt8} (raw : v = 0 ∨ v = 1) :
    normalizeRecoveryId v = .ok (v + 27) := by
  rcases raw with rfl | rfl <;> rfl

theorem normalizeRecoveryId_of_canonical {v : UInt8} (canonical : v = 27 ∨ v = 28) :
    normalizeRecoveryId v = .ok v := by
  rcases canonical with rfl | rfl <;> rfl

theorem normalizeRecoveryId_of_invalid {v : UInt8}
    (invalid : ¬(v = 0 ∨ v = 1 ∨ v = 27 ∨ v = 28)) :
    normalizeRecoveryId v = .error (.invalidRecoveryId v) := by
  unfold normalizeRecoveryId
  split_ifs with raw canonical
  · exact absurd (by simpa using raw) fun h : v = 0 ∨ v = 1 => invalid (h.elim Or.inl (Or.inr ∘ Or.inl))
  · exact absurd (by simpa using canonical) fun h : v = 27 ∨ v = 28 => invalid (Or.inr (Or.inr h))
  · rfl

theorem accepted_of_normalizeRecoveryId {v w : UInt8} (normal : normalizeRecoveryId v = .ok w) :
    (v = 0 ∨ v = 1 ∨ v = 27 ∨ v = 28) ∧ (w = 27 ∨ w = 28) := by
  by_cases accepted : v = 0 ∨ v = 1 ∨ v = 27 ∨ v = 28
  · refine ⟨accepted, ?_⟩
    rcases accepted with rfl | rfl | rfl | rfl <;> (cases normal; decide)
  · rw [normalizeRecoveryId_of_invalid accepted] at normal
    cases normal

namespace Signature

variable {sig n : Signature} {b : UInt8}

theorem length_bytes (sig : Signature) : sig.bytes.length = 65 :=
  sig.length_eq

theorem ext_bytes {sig sig' : Signature} (same : sig.bytes = sig'.bytes) : sig = sig' := by
  obtain ⟨bytes, _⟩ := sig
  obtain ⟨bytes', _⟩ := sig'
  cases same
  rfl

theorem bytes_of_ofBytes {bytes : List UInt8} (read : Signature.ofBytes bytes = .ok sig) :
    sig.bytes = bytes := by
  unfold Signature.ofBytes at read
  split at read
  · cases read
    rfl
  · cases read

theorem ofBytes_append {body : List UInt8} (length : body.length = 64) (b : UInt8) :
    ∃ sig, Signature.ofBytes (body ++ [b]) = .ok sig ∧ sig.bytes = body ++ [b] := by
  have full : (body ++ [b]).length = signatureLength := by
    simp [length, signatureLength]
  exact ⟨⟨body ++ [b], full⟩, by rw [Signature.ofBytes, dif_pos full], rfl⟩

theorem v_of_bytes {body : List UInt8} (length : body.length = 64) (bytes : sig.bytes = body ++ [b]) :
    sig.v = b := by
  rw [Signature.v, bytes, List.getD_eq_getElem?_getD, List.getElem?_append_right (by omega),
    length]
  rfl

@[simp] theorem v_withV (sig : Signature) (b : UInt8) : (sig.withV b).v = b := by
  simp [Signature.v, Signature.withV, List.getD_eq_getElem?_getD, sig.length_bytes]

@[simp] theorem withV_withV (sig : Signature) (a b : UInt8) : (sig.withV a).withV b = sig.withV b :=
  ext_bytes (by simp [Signature.withV])

@[simp] theorem withV_v (sig : Signature) : sig.withV sig.v = sig := by
  apply ext_bytes
  have inside : 64 < sig.bytes.length := by simp [sig.length_bytes]
  show sig.bytes.set 64 sig.v = sig.bytes
  rw [Signature.v, List.getD_eq_getElem?_getD, List.getElem?_eq_getElem inside, Option.getD_some,
    List.set_getElem_self]

@[simp] theorem take_withV (sig : Signature) (b : UInt8) :
    (sig.withV b).bytes.take 64 = sig.bytes.take 64 := by
  show (sig.bytes.set 64 b).take 64 = sig.bytes.take 64
  rw [List.take_set, List.set_eq_of_length_le (by simp)]

theorem normalized_of_ok {w : UInt8} (normal : normalizeRecoveryId sig.v = .ok w) :
    sig.normalized = .ok (sig.withV w) := by
  simp [Signature.normalized, normal, bind, Except.bind, pure, Except.pure]

theorem normalized_of_error {f : CryptoFault} (refused : normalizeRecoveryId sig.v = .error f) :
    sig.normalized = .error f := by
  simp [Signature.normalized, refused, bind, Except.bind]

theorem normalized_eq_ok (normal : sig.normalized = .ok n) :
    ∃ w, normalizeRecoveryId sig.v = .ok w ∧ (w = 27 ∨ w = 28) ∧ n = sig.withV w := by
  cases result : normalizeRecoveryId sig.v with
  | error f =>
    rw [normalized_of_error result] at normal
    cases normal
  | ok w =>
    rw [normalized_of_ok result, Except.ok.injEq] at normal
    exact ⟨w, rfl, (accepted_of_normalizeRecoveryId result).2, normal.symm⟩

/-- Normalising a normalised signature changes nothing. -/
theorem normalized_normalized (normal : sig.normalized = .ok n) : n.normalized = .ok n := by
  obtain ⟨w, -, canonical, rfl⟩ := normalized_eq_ok normal
  rw [normalized_of_ok (by rw [v_withV]; exact normalizeRecoveryId_of_canonical canonical),
    withV_withV]

end Signature

namespace Secp256k1

/-! ### Scalars and recovery ids as bytes -/

theorem SignatureScalars.length_toBytes (σ : SignatureScalars) : σ.toBytes.length = 64 := by
  simp [SignatureScalars.toBytes, Bytes.length_ofNat]

theorem lt_of_lt_groupOrder {x : Nat} (lt : x < groupOrder) : x < 256 ^ 32 :=
  lt.trans (by decide)

theorem SignatureScalars.ofBytes?_toBytes (σ : SignatureScalars) (rest : List UInt8) :
    SignatureScalars.ofBytes? ((σ.toBytes ++ rest).take 64) = some σ := by
  have length_r : (Bytes.ofNat σ.r 32).length = 32 := Bytes.length_ofNat _ _
  have length_s : (Bytes.ofNat σ.s 32).length = 32 := Bytes.length_ofNat _ _
  have r_read : Bytes.toNat (σ.toBytes.take 32) = σ.r := by
    rw [SignatureScalars.toBytes, List.take_left' length_r,
      Bytes.toNat_ofNat_of_lt (lt_of_lt_groupOrder σ.r_lt)]
  have s_read : Bytes.toNat ((σ.toBytes.drop 32).take 32) = σ.s := by
    rw [SignatureScalars.toBytes, List.drop_left' length_r, List.take_of_length_le (by omega),
      Bytes.toNat_ofNat_of_lt (lt_of_lt_groupOrder σ.s_lt)]
  rw [List.take_left' σ.length_toBytes]
  unfold SignatureScalars.ofBytes?
  simp only [r_read, s_read]
  rw [dif_pos ⟨σ.r_pos, σ.r_lt, σ.s_pos, σ.s_lt⟩]

namespace RecoveryId

theorem ofByte?_toByte (id : RecoveryId) : ofByte? id.toByte = some id := by
  obtain ⟨yOdd, xReduced⟩ := id
  cases yOdd <;> cases xReduced <;> decide

theorem toByte_add_cases (id : RecoveryId) :
    (id.xReduced = false ∧ (id.toByte + 27 = 27 ∨ id.toByte + 27 = 28)) ∨
      (id.xReduced = true ∧ (id.toByte + 27 = 29 ∨ id.toByte + 27 = 30)) := by
  obtain ⟨yOdd, xReduced⟩ := id
  cases yOdd <;> cases xReduced <;> decide

end RecoveryId

/-! ### Signing -/

variable {key : SecretKey} {digest : List UInt8} {sig : Signature} {σ : SignatureScalars}
  {id : RecoveryId}

theorem sign_eq_ok_iff : sign key digest = .ok sig ↔
    ∃ σ id, signRecoverable key digest = .ok (σ, id) ∧ sig.bytes = σ.toBytes ++ [id.toByte + 27] := by
  constructor
  · intro signed
    unfold sign at signed
    cases curve : signRecoverable key digest with
    | error f =>
      rw [curve] at signed
      cases signed
    | ok result =>
      obtain ⟨σ, id⟩ := result
      rw [curve] at signed
      exact ⟨σ, id, rfl, Signature.bytes_of_ofBytes signed⟩
  · rintro ⟨σ, id, curve, bytes⟩
    obtain ⟨issued, read, issuedBytes⟩ := Signature.ofBytes_append σ.length_toBytes (id.toByte + 27)
    unfold sign
    rw [curve]
    change Signature.ofBytes (σ.toBytes ++ [id.toByte + 27]) = .ok sig
    rw [read, Signature.ext_bytes (issuedBytes.trans bytes.symm)]

theorem v_of_sign (signed : sign key digest = .ok sig) :
    ∃ σ id, signRecoverable key digest = .ok (σ, id) ∧ sig.v = id.toByte + 27 := by
  obtain ⟨σ, id, curve, bytes⟩ := sign_eq_ok_iff.mp signed
  exact ⟨σ, id, curve, Signature.v_of_bytes σ.length_toBytes bytes⟩

/-! ### Recovering -/

theorem recoverAddress_of_canonical (canonical : sig.v = 27 ∨ sig.v = 28)
    (idRead : RecoveryId.ofByte? (sig.v - 27) = some id)
    (scalarsRead : SignatureScalars.ofBytes? (sig.bytes.take 64) = some σ) :
    recoverAddress digest sig =
      (recoverPoint digest σ id).map fun point => addressOfPoint point.1 point.2 := by
  have normal := Signature.normalized_of_ok (normalizeRecoveryId_of_canonical canonical)
  rw [Signature.withV_v] at normal
  unfold recoverAddress
  rw [normal]
  simp only [bind, Except.bind, idRead, scalarsRead]
  cases recoverPoint digest σ id <;> rfl

theorem recoverAddress_of_invalid (invalid : ¬(sig.v = 0 ∨ sig.v = 1 ∨ sig.v = 27 ∨ sig.v = 28)) :
    recoverAddress digest sig = .error (.invalidRecoveryId sig.v) := by
  unfold recoverAddress
  rw [Signature.normalized_of_error (normalizeRecoveryId_of_invalid invalid)]
  rfl

theorem recoverAddress_of_normalized {n : Signature} (normal : sig.normalized = .ok n) :
    recoverAddress digest sig = recoverAddress digest n := by
  obtain ⟨w, -, canonical, rfl⟩ := Signature.normalized_eq_ok normal
  have idRead : RecoveryId.ofByte? ((sig.withV w).v - 27) =
      some ⟨(sig.withV w).v = 28, false⟩ := by
    rw [Signature.v_withV]
    rcases canonical with rfl | rfl <;> decide
  unfold recoverAddress
  rw [normal, Signature.normalized_normalized normal]
  simp only [bind, Except.bind]
  rw [idRead]

/-- A raw recovery byte 0 or 1 recovers as the canonical 27 or 28. -/
theorem recoverAddress_withV_add (raw : sig.v = 0 ∨ sig.v = 1) :
    recoverAddress digest sig = recoverAddress digest (sig.withV (sig.v + 27)) := by
  have normal := Signature.normalized_of_ok (normalizeRecoveryId_of_raw raw)
  rw [recoverAddress_of_normalized normal,
    ← recoverAddress_of_normalized (Signature.normalized_normalized normal)]

/-- What the curve promises at a key and a digest: signing succeeds with a recovery id whose
abscissa was not reduced, and recovering from the scalars and the id it returns gives the key's
public point. -/
def CurveRecovers (key : SecretKey) (digest : List UInt8) : Prop :=
  ∃ σ id point, signRecoverable key digest = .ok (σ, id) ∧ id.xReduced = false ∧
    recoverPoint digest σ id = .ok point ∧ key.publicPoint? = some point

/-- Where the curve's signing and recovery are inverse, a signature has recovery byte 27 or 28
and recovers to the signer's address. -/
theorem recoverAddress_sign (curve : CurveRecovers key digest) :
    ∃ sig, sign key digest = .ok sig ∧ (sig.v = 27 ∨ sig.v = 28) ∧
      recoverAddress digest sig = .ok key.address := by
  obtain ⟨σ, id, ⟨x, y⟩, signed, notReduced, recovered, owned⟩ := curve
  obtain ⟨sig, read, bytes⟩ := Signature.ofBytes_append σ.length_toBytes (id.toByte + 27)
  have issued : sign key digest = .ok sig := sign_eq_ok_iff.mpr ⟨σ, id, signed, bytes⟩
  have v := Signature.v_of_bytes σ.length_toBytes bytes
  have canonical : sig.v = 27 ∨ sig.v = 28 := by
    rw [v]
    rcases RecoveryId.toByte_add_cases id with ⟨-, written⟩ | ⟨reduced, -⟩
    · exact written
    · rw [notReduced] at reduced
      cases reduced
  have idRead : RecoveryId.ofByte? (sig.v - 27) = some id := by
    rw [v, UInt8.add_sub_cancel, RecoveryId.ofByte?_toByte]
  have scalarsRead : SignatureScalars.ofBytes? (sig.bytes.take 64) = some σ := by
    rw [bytes, SignatureScalars.ofBytes?_toBytes]
  refine ⟨sig, issued, canonical, ?_⟩
  rw [recoverAddress_of_canonical canonical idRead scalarsRead, recovered, SecretKey.address,
    owned]
  rfl

/-- An id with a reduced abscissa is written as 29 or 30, and recovery refuses it. -/
theorem recoverAddress_sign_of_xReduced (signed : signRecoverable key digest = .ok (σ, id))
    (reduced : id.xReduced = true) (digest' : List UInt8) :
    ∃ sig, sign key digest = .ok sig ∧ (sig.v = 29 ∨ sig.v = 30) ∧
      recoverAddress digest' sig = .error (.invalidRecoveryId sig.v) := by
  obtain ⟨sig, -, bytes⟩ := Signature.ofBytes_append σ.length_toBytes (id.toByte + 27)
  have v := Signature.v_of_bytes σ.length_toBytes bytes
  have high : sig.v = 29 ∨ sig.v = 30 := by
    rw [v]
    rcases RecoveryId.toByte_add_cases id with ⟨notReduced, -⟩ | ⟨-, written⟩
    · rw [reduced] at notReduced
      cases notReduced
    · exact written
  refine ⟨sig, sign_eq_ok_iff.mpr ⟨σ, id, signed, bytes⟩, high, ?_⟩
  apply recoverAddress_of_invalid
  rcases high with high | high <;> rw [high] <;> decide

theorem v_of_sign_of_recoverAddress {digest' : List UInt8} {a : Address}
    (signed : sign key digest = .ok sig) (recovered : recoverAddress digest' sig = .ok a) :
    sig.v = 27 ∨ sig.v = 28 := by
  have accepted : sig.v = 0 ∨ sig.v = 1 ∨ sig.v = 27 ∨ sig.v = 28 :=
    Classical.byContradiction fun invalid => by
      rw [recoverAddress_of_invalid invalid] at recovered
      cases recovered
  obtain ⟨-, id, -, v⟩ := v_of_sign signed
  rw [v] at accepted ⊢
  rcases RecoveryId.toByte_add_cases id with ⟨-, written⟩ | ⟨-, written | written⟩
  · exact written
  all_goals
    rw [written] at accepted ⊢
    revert accepted
    decide

/-! ### Signer and recoverer agree -/

/-- Signer and recoverer agree on the recovery byte. Wherever the curve's signing and recovery
are inverse at a key and a digest, signing the digest succeeds with a recovery byte of 27 or 28,
and the signature recovers to the key's address; so does a message signed under the personal
convention. Every signature is the curve's scalars followed by `27 + ` the byte of its recovery
id. For every signature and digest, a raw recovery byte 0 or 1 recovers exactly as the byte 27
higher, a byte outside `{0, 1, 27, 28}` is refused naming that byte, and normalising a
normalised signature changes nothing. -/
theorem recovery_ids_round_trip :
    (∀ (key : SecretKey) (digest : List UInt8), CurveRecovers key digest →
      ∃ sig, sign key digest = .ok sig ∧ (sig.v = 27 ∨ sig.v = 28) ∧
        recoverAddress digest sig = .ok key.address) ∧
    (∀ (key : SecretKey) (message : List UInt8),
      CurveRecovers key (Digest.personalMessageHash message) →
      ∃ sig, signPersonal key message = .ok sig ∧ recoverPersonal message sig = .ok key.address) ∧
    (∀ (key : SecretKey) (digest : List UInt8) (sig : Signature), sign key digest = .ok sig →
      ∃ σ id, signRecoverable key digest = .ok (σ, id) ∧
        sig.bytes = σ.toBytes ++ [id.toByte + 27]) ∧
    (∀ (digest : List UInt8) (sig : Signature), (sig.v = 0 ∨ sig.v = 1) →
      recoverAddress digest sig = recoverAddress digest (sig.withV (sig.v + 27))) ∧
    (∀ (digest : List UInt8) (sig : Signature),
      ¬(sig.v = 0 ∨ sig.v = 1 ∨ sig.v = 27 ∨ sig.v = 28) →
      recoverAddress digest sig = .error (.invalidRecoveryId sig.v)) ∧
    (∀ sig n : Signature, sig.normalized = .ok n → n.normalized = .ok n) := by
  refine ⟨fun _ _ curve => recoverAddress_sign curve, fun key message curve => ?_,
    fun _ _ _ signed => sign_eq_ok_iff.mp signed, fun _ _ raw => recoverAddress_withV_add raw,
    fun _ _ invalid => recoverAddress_of_invalid invalid,
    fun _ _ normal => Signature.normalized_normalized normal⟩
  obtain ⟨sig, signed, -, recovered⟩ := recoverAddress_sign curve
  exact ⟨sig, signed, recovered⟩

/-- The secret key of scalar `0x22…22`. -/
def recoveryKey : SecretKey :=
  ⟨0x2222222222222222222222222222222222222222222222222222222222222222, by decide, by decide⟩

theorem recovery_ids_round_trip_raw :
    ∃ sig, signPersonal recoveryKey [0x72, 0x61, 0x77] = .ok sig ∧ (sig.v = 27 ∨ sig.v = 28) ∧
      recoverPersonal [0x72, 0x61, 0x77] sig = .ok recoveryKey.address ∧
      recoverPersonal [0x72, 0x61, 0x77] (sig.withV (sig.v - 27)) = .ok recoveryKey.address ∧
      recoverPersonal [0x72, 0x61, 0x77] (sig.withV 29) = .error (.invalidRecoveryId 29) := by
  obtain ⟨signs, -, -, raw, invalid, -⟩ := recovery_ids_round_trip
  -- the curve's signing and recovery, each computed to its value at this key and digest
  have curve : CurveRecovers recoveryKey (Digest.personalMessageHash [0x72, 0x61, 0x77]) :=
    ⟨⟨72957319213649381808413883994466121589075107092669079893416801961739210753225,
      34422430841596128662601823774878508883594034343482432019176063371274332343313,
      by decide, by decide, by decide, by decide⟩, ⟨false, false⟩,
      (31855367722742370537280679280108010854876607759940877706949385967087672770343,
        46659058944867745027460438812818578793297503278458148978085384795486842595210),
      by decide +kernel, rfl, by decide +kernel, by decide +kernel⟩
  obtain ⟨sig, signed, canonical, recovered⟩ := signs _ _ curve
  have rawV : (sig.withV (sig.v - 27)).v = 0 ∨ (sig.withV (sig.v - 27)).v = 1 := by
    rw [Signature.v_withV]
    rcases canonical with v | v <;> rw [v] <;> decide
  have refused := invalid (Digest.personalMessageHash [0x72, 0x61, 0x77]) (sig.withV 29)
    (by rw [Signature.v_withV]; decide)
  rw [Signature.v_withV] at refused
  refine ⟨sig, signed, canonical, recovered, ?_, refused⟩
  rw [recoverPersonal, raw _ _ rawV, Signature.withV_withV, Signature.v_withV,
    UInt8.sub_add_cancel, Signature.withV_v]
  exact recovered

end Secp256k1

end StakingHub
