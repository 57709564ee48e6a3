import StakingHub.Proofs.Aead
import StakingHub.Proofs.Payloads
import StakingHub.Proofs.RecordText
import StakingHub.Relay.Sealed

/-!
# Exit messages through the relay

An exit message is sealed to the relay's recipient key as the bare hex of its sealed JSON text,
and opened with the relay identity. Three layers are undone in turn: the hex (`decodeHex_bare`),
the sealed payload (`openSealed_seal`), and the JSON text (`ExitMessage.ofText_toText`). Opening
the payload rests on both sides deriving the same shared secret, which is X25519's
Diffie-Hellman agreement; sealing succeeds when that secret is not all zeros. These two facts
about X25519 are taken as hypotheses for the keys involved; everything else is proved.

Opening fails in one way only for a service without an identity, and with one every failure is
corrupt ciphertext (`decryptExit_error`); it succeeds exactly when the hex reads, the payload
is long enough, the ephemeral key is contributory, the tag matches and the text is an exit
message (`decryptExit_eq_ok_iff`, `openSealed_eq_ok_iff`).
-/

namespace StakingHub

open Json Curve25519

/-! ### Exit messages as text -/

namespace ExitMessage

theorem shape_unescaped : shape.Unescaped := by
  refine .record (by decide) ?_
  simp only [List.mem_cons, List.not_mem_nil, or_false]
  rintro f (rfl | rfl)
  · refine .record (by decide) ?_
    simp only [List.mem_cons, List.not_mem_nil, or_false]
    rintro f (rfl | rfl) <;> exact .decimal
  · exact .hex

/-- The JSON text of a well-formed exit message reads back as the message. -/
theorem ofText_toText {m : ExitMessage} (h : m.WellFormed) : ofText m.toText = .ok m := by
  have read : shape.decodeText m.toText = .ok m.toDatum := by
    rw [toText, toValue_eq_writeValue]
    exact decodeText_writeValue (fits_toDatum h) shape_unescaped
  simp only [ofText, read, bind, Except.bind, ofDatum_toDatum]

end ExitMessage

/-! ### Hex on the wire -/

theorem stripPrefix_bare (bytes : List UInt8) :
    Hex.stripPrefix (Hex.bare bytes).toUTF8.toList = (Hex.bare bytes).toUTF8.toList := by
  rw [Hex.utf8_bare]
  cases bytes with
  | nil => rfl
  | cons b bytes =>
    simp only [List.flatMap_cons, Hex.digitBytes, List.cons_append, List.nil_append]
    obtain ⟨_, low⟩ := Hex.halves_lt b
    generalize b &&& 0x0f = v at low ⊢
    have code := Hex.toNat_digitByte low
    rw [UInt8.lt_iff_toNat_lt] at low
    simp at low
    have notX : ∀ x : UInt8, (x = 0x78 ∨ x = 0x58) → Hex.digitByte v ≠ x := by
      rintro x (rfl | rfl) same <;> have := congrArg UInt8.toNat same <;>
        split_ifs at code <;> simp [code] at this <;> omega
    unfold Hex.stripPrefix
    split
    · rename_i same
      simp only [List.cons.injEq] at same
      exact absurd same.2.1 (notX _ (.inl rfl))
    · rename_i same
      simp only [List.cons.injEq] at same
      exact absurd same.2.1 (notX _ (.inr rfl))
    · rfl

/-- The bare hex of bytes decodes to the bytes. -/
theorem decodeHex_bare (bytes : List UInt8) : decodeHex (Hex.bare bytes) = .ok bytes := by
  rw [decodeHex, Hex.decode, stripPrefix_bare, Hex.decodeDigits_bare]
  rfl

namespace Relay

theorem Recipient.parse_toHex (r : Recipient) : Recipient.parse r.toHex = .ok r := by
  rw [Recipient.parse, Recipient.toHex, Hex.decode_encode]
  simp only [r.length_eq, dif_pos]

end Relay

/-! ### Sealing and opening -/

theorem length_keccak256 (message : List UInt8) : (Digest.keccak256 message).length = 32 := by
  have lane : ∀ w, (Digest.bytesOfLane w).length = 8 := fun w => by simp [Digest.bytesOfLane]
  simp [Digest.keccak256, Function.comp_def, lane]

namespace Relay

theorem length_payloadKey (shared ephemeral recipient : List UInt8) :
    (payloadKey shared ephemeral recipient).length = 32 :=
  length_keccak256 _

theorem Recipient.sealWith_eq_ok {r : Recipient} {ephemeral : List UInt8}
    (contributory : isZeroSecret (x25519 ephemeral r.bytes) = false) (nonce message : List UInt8) :
    r.sealWith ephemeral nonce message =
      .ok (publicKey ephemeral ++ nonce ++
        Cipher.encrypt (payloadKey (x25519 ephemeral r.bytes) (publicKey ephemeral) r.bytes) nonce
          message) := by
  simp [Recipient.sealWith, contributory]

/-- The identity opens what was sealed to its recipient key, when both sides derive the same
shared secret. -/
theorem Identity.openSealed_seal {id : Identity} {ephemeral nonce : List UInt8}
    (nonceLength : nonce.length = Cipher.nonceLength)
    (agree : x25519 ephemeral (publicKey id.secret) = x25519 id.secret (publicKey ephemeral))
    (contributory : isZeroSecret (x25519 ephemeral (publicKey id.secret)) = false)
    (message : List UInt8) :
    id.openSealed (publicKey ephemeral ++ nonce ++
      Cipher.encrypt (payloadKey (x25519 ephemeral (publicKey id.secret)) (publicKey ephemeral)
        (publicKey id.secret)) nonce message) = .ok message := by
  have ephemeralLength : (publicKey ephemeral).length = 32 := length_x25519 _ _
  have keyLength := length_payloadKey (x25519 ephemeral (publicKey id.secret))
    (publicKey ephemeral) (publicKey id.secret)
  have sealedLength := Cipher.length_encrypt keyLength nonceLength message
  have recipient : id.recipient.bytes = publicKey id.secret := rfl
  have body : ∀ ciphertext : List UInt8,
      (publicKey ephemeral ++ (nonce ++ ciphertext)).drop (32 + Cipher.nonceLength) =
        ciphertext := by
    intro ciphertext
    rw [← ephemeralLength, ← nonceLength, ← List.length_append, ← List.append_assoc,
      List.drop_left]
  unfold Identity.openSealed
  rw [if_neg (by simp [minSealedLength, Cipher.tagLength, Cipher.nonceLength] at *; omega)]
  simp only [List.append_assoc, List.take_left' ephemeralLength, List.drop_left' ephemeralLength,
    List.take_left' nonceLength, body, ← agree, contributory, Bool.false_eq_true, if_false,
    recipient, Cipher.nonceOfSlice_of_length nonceLength, Cipher.decrypt_encrypt keyLength nonceLength]

theorem Identity.length_nonceSlice {sealed : List UInt8} (long : minSealedLength ≤ sealed.length) :
    ((sealed.drop 32).take Cipher.nonceLength).length = Cipher.nonceLength := by
  simp only [List.length_take, List.length_drop, minSealedLength, Cipher.nonceLength] at long ⊢
  omega

/-- Opening succeeds exactly when the payload is long enough, the ephemeral key gives a shared
secret that is not all zeros, and the tag matches under the key derived from it. -/
theorem Identity.openSealed_eq_ok_iff {id : Identity} {sealed text : List UInt8} :
    id.openSealed sealed = .ok text ↔
      minSealedLength ≤ sealed.length ∧ isZeroSecret (x25519 id.secret (sealed.take 32)) = false ∧
        Cipher.decrypt (payloadKey (x25519 id.secret (sealed.take 32)) (sealed.take 32)
          (publicKey id.secret)) ((sealed.drop 32).take Cipher.nonceLength)
          (sealed.drop (32 + Cipher.nonceLength)) = some text := by
  have recipient : id.recipient.bytes = publicKey id.secret := rfl
  unfold Identity.openSealed
  by_cases short : sealed.length < minSealedLength
  · simp only [short, if_true, reduceCtorEq, false_iff, not_and]
    intro long
    omega
  · have long : minSealedLength ≤ sealed.length := Nat.le_of_not_lt short
    have sliced := Cipher.nonceOfSlice_of_length (Identity.length_nonceSlice long)
    by_cases zero : isZeroSecret (x25519 id.secret (sealed.take 32)) = true
    · simp [short, zero]
    · cases opened : Cipher.decrypt (payloadKey (x25519 id.secret (sealed.take 32))
          (sealed.take 32) (publicKey id.secret)) ((sealed.drop 32).take Cipher.nonceLength)
          (sealed.drop (32 + Cipher.nonceLength)) <;>
        simp [short, long, zero, recipient, sliced, opened]

/-! ### Exit messages through the relay -/

/-- Opening an exit message succeeds exactly when the hex reads, the payload opens, and its
text is an exit message. -/
theorem decryptExit_eq_ok_iff {id : Identity} {c : String} {m : ExitMessage} :
    decryptExit (some id) c = .ok m ↔
      ∃ sealed text, decodeHex c = .ok sealed ∧ id.openSealed sealed = .ok text ∧
        ExitMessage.ofText text = .ok m := by
  unfold decryptExit
  cases hex : decodeHex c with
  | error f => simp [Except.mapError, bind, Except.bind]
  | ok sealed =>
    cases opened : id.openSealed sealed with
    | error f => simp [Except.mapError, bind, Except.bind, opened]
    | ok text =>
      cases read : ExitMessage.ofText text <;>
        simp [Except.mapError, bind, Except.bind, opened, read]

/-- With an identity, every failure to open an exit message is corrupt ciphertext. -/
theorem decryptExit_error {id : Identity} {c : String} {f : ServiceFault}
    (h : decryptExit (some id) c = .error f) : ∃ t, f = .corruptCiphertext t := by
  unfold decryptExit at h
  cases hex : decodeHex c with
  | error e =>
    simp [hex, Except.mapError, bind, Except.bind] at h
    exact ⟨_, h.symm⟩
  | ok sealed =>
    cases opened : id.openSealed sealed with
    | error e =>
      simp [hex, opened, Except.mapError, bind, Except.bind] at h
      exact ⟨_, h.symm⟩
    | ok text =>
      cases read : ExitMessage.ofText text with
      | error e =>
        simp [hex, opened, read, Except.mapError, bind, Except.bind] at h
        exact ⟨_, h.symm⟩
      | ok m => simp [hex, opened, read, Except.mapError, bind, Except.bind] at h

theorem decryptExit_sealWith {m : ExitMessage} (wellFormed : m.WellFormed) {id : Identity}
    {ephemeral nonce : List UInt8} (nonceLength : nonce.length = Cipher.nonceLength)
    (agree : x25519 ephemeral (publicKey id.secret) = x25519 id.secret (publicKey ephemeral))
    (contributory : isZeroSecret (x25519 ephemeral (publicKey id.secret)) = false) :
    ∃ sealed, id.recipient.sealWith ephemeral nonce m.toText = .ok sealed ∧
      decryptExit (some id) (Hex.bare sealed) = .ok m := by
  have recipient : id.recipient.bytes = publicKey id.secret := rfl
  have sealing := Recipient.sealWith_eq_ok (r := id.recipient) (by rw [recipient]; exact contributory)
    nonce m.toText
  rw [recipient] at sealing
  have opened := Identity.openSealed_seal nonceLength agree contributory m.toText
  exact ⟨_, sealing, decryptExit_eq_ok_iff.mpr
    ⟨_, _, decodeHex_bare _, opened, ExitMessage.ofText_toText wellFormed⟩⟩

theorem length_draw (e : Entropy) : e.draw.1.length = 32 :=
  length_keccak256 _

theorem encryptExit_toHex_eq_ok {m : ExitMessage} {r : Recipient} {e : Entropy}
    {sealed : List UInt8}
    (sealing : r.sealWith e.draw.1 (e.draw.2.draw.1.take Cipher.nonceLength) m.toText = .ok sealed) :
    (encryptExit m r.toHex e).1 = .ok (Hex.bare sealed) := by
  simp [encryptExit, Recipient.parse_toHex, Recipient.sealFresh, sealing]

/-- Exit messages travel through the relay and back. Every well-formed exit message sealed to
the recipient key of a relay identity opens back to the message: for every ephemeral secret
and 24-byte nonce, and through the service's own sealing from its source of fresh bytes, in
each case where X25519 gives both sides the same shared secret and that secret is not all
zeros. Without an identity, opening fails as unconfigured; with one, it succeeds exactly when
the hex reads, the payload holds an ephemeral key, a nonce and a tag, the key is contributory,
the tag matches and the text is an exit message, and every failure is corrupt ciphertext. -/
theorem exit_messages_open_as_sealed :
    (∀ (m : ExitMessage) (id : Identity) (ephemeral nonce : List UInt8), m.WellFormed →
      nonce.length = Cipher.nonceLength →
      x25519 ephemeral (publicKey id.secret) = x25519 id.secret (publicKey ephemeral) →
      isZeroSecret (x25519 ephemeral (publicKey id.secret)) = false →
      ∃ sealed, id.recipient.sealWith ephemeral nonce m.toText = .ok sealed ∧
        decryptExit (some id) (Hex.bare sealed) = .ok m) ∧
    (∀ (m : ExitMessage) (id : Identity) (e : Entropy), m.WellFormed →
      x25519 e.draw.1 (publicKey id.secret) = x25519 id.secret (publicKey e.draw.1) →
      isZeroSecret (x25519 e.draw.1 (publicKey id.secret)) = false →
      ∃ c, (encryptExit m id.recipient.toHex e).1 = .ok c ∧ decryptExit (some id) c = .ok m) ∧
    (∀ c, decryptExit none c = .error .identityNotConfigured) ∧
    (∀ (id : Identity) c m, decryptExit (some id) c = .ok m ↔
      ∃ sealed text, decodeHex c = .ok sealed ∧ minSealedLength ≤ sealed.length ∧
        isZeroSecret (x25519 id.secret (sealed.take 32)) = false ∧
        Cipher.decrypt (payloadKey (x25519 id.secret (sealed.take 32)) (sealed.take 32)
          (publicKey id.secret)) ((sealed.drop 32).take Cipher.nonceLength)
          (sealed.drop (32 + Cipher.nonceLength)) = some text ∧
        ExitMessage.ofText text = .ok m) ∧
    (∀ (id : Identity) c f, decryptExit (some id) c = .error f → ∃ t, f = .corruptCiphertext t) := by
  refine ⟨fun m id ephemeral nonce wellFormed nonceLength agree contributory =>
      decryptExit_sealWith wellFormed nonceLength agree contributory, ?_,
    fun _ => rfl, ?_, fun _ _ _ failed => decryptExit_error failed⟩
  · intro m id e wellFormed agree contributory
    -- The service seals with its first draw as the ephemeral secret and 24 bytes of the next.
    have nonceLength : (e.draw.2.draw.1.take Cipher.nonceLength).length = Cipher.nonceLength := by
      simp [length_draw, Cipher.nonceLength]
    obtain ⟨sealed, sealing, opened⟩ := decryptExit_sealWith wellFormed nonceLength agree contributory
    exact ⟨_, encryptExit_toHex_eq_ok sealing, opened⟩
  · intro id c m
    rw [decryptExit_eq_ok_iff]
    constructor
    · rintro ⟨sealed, text, hex, opened, read⟩
      obtain ⟨long, contributory, tag⟩ := Identity.openSealed_eq_ok_iff.mp opened
      exact ⟨sealed, text, hex, long, contributory, tag, read⟩
    · rintro ⟨sealed, text, hex, long, contributory, tag, read⟩
      exact ⟨sealed, text, hex, Identity.openSealed_eq_ok_iff.mpr ⟨long, contributory, tag⟩, read⟩

/-- A relay identity of secret bytes `07`. -/
def sampleIdentity : Identity := ⟨List.replicate 32 7, rfl⟩

theorem exit_messages_open_as_sealed_sample :
    (∃ sealed, sampleIdentity.recipient.sealWith (List.replicate 32 9) (List.replicate 24 1)
        sampleExit.toText = .ok sealed ∧
      decryptExit (some sampleIdentity) (Hex.bare sealed) = .ok sampleExit) ∧
    (∃ c, (encryptExit sampleExit sampleIdentity.recipient.toHex {}).1 = .ok c ∧
      decryptExit (some sampleIdentity) c = .ok sampleExit) ∧
    (∃ f, decryptExit (some sampleIdentity) (Hex.bare []) = .error f ∧
      ∃ t, f = .corruptCiphertext t) := by
  obtain ⟨sealedOpens, encryptedOpens, _, _, failures⟩ := exit_messages_open_as_sealed
  have wellFormed : sampleExit.WellFormed := ⟨by decide, by decide, rfl⟩
  have short : decryptExit (some sampleIdentity) (Hex.bare []) =
      .error (.corruptCiphertext (CryptoFault.invalidCiphertext (.tooShort 0)).message) := by
    simp [decryptExit, decodeHex_bare, Identity.openSealed, minSealedLength, Except.mapError,
      bind, Except.bind]
  exact ⟨sealedOpens _ _ _ _ wellFormed rfl (by decide +kernel) (by decide +kernel),
    encryptedOpens _ _ _ wellFormed (by decide +kernel) (by decide +kernel),
    ⟨_, short, failures _ _ _ short⟩⟩

end Relay

end StakingHub
