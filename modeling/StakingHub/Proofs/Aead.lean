import StakingHub.Cipher.Aead

/-!
# Decrypting what was encrypted

XChaCha20-Poly1305 decrypts its own ciphertext back to the message (`decrypt_encrypt`), for a
32-byte key and a 24-byte nonce. Two facts carry it: the key stream covers the message, since
every ChaCha20 block has 64 bytes (`length_block`), so XORing it in twice gives the message
back (`xorStream_xorStream`); and the tag, 16 bytes long, is recomputed over the same
ciphertext, so it matches.
-/

namespace StakingHub.Cipher

/-! ### Lengths -/

theorem length_wordsLE (bytes : List UInt8) : (wordsLE bytes).length = bytes.length / 4 := by
  simp [wordsLE]

theorem length_bytesLE (words : List UInt32) : (bytesLE words).length = 4 * words.length := by
  induction words with
  | nil => rfl
  | cons w words ih =>
    simp only [bytesLE, List.flatMap_cons, List.length_append, List.length_cons,
      List.length_nil] at ih ⊢
    omega

theorem size_quarterRound (s : Array UInt32) (a b c d : Nat) :
    (quarterRound s a b c d).size = s.size := by
  simp [quarterRound]

theorem size_doubleRound (s : Array UInt32) : (doubleRound s).size = s.size := by
  simp [doubleRound, size_quarterRound]

theorem size_rounds (s : Array UInt32) : (rounds s).size = s.size := by
  have fold : ∀ (l : List Nat) (s : Array UInt32),
      (l.foldl (fun s _ => doubleRound s) s).size = s.size := by
    intro l
    induction l with
    | nil => intro s; rfl
    | cons _ l ih => intro s; rw [List.foldl_cons, ih, size_doubleRound]
  exact fold _ s

/-- A block of a 32-byte key and a 12-byte nonce has 64 bytes. -/
theorem length_block {key nonce : List UInt8} (keyLength : key.length = 32)
    (nonceLength : nonce.length = 12) (counter : Nat) : (block key counter nonce).length = 64 := by
  simp [block, length_bytesLE, size_rounds, length_wordsLE, keyLength, nonceLength, constants]

theorem length_hchacha20 {key nonce : List UInt8} (keyLength : key.length = 32)
    (nonceLength : nonce.length = 16) : (hchacha20 key nonce).length = 32 := by
  simp [hchacha20, length_bytesLE, size_rounds, length_wordsLE, keyLength, nonceLength, constants]

theorem length_poly1305 (key message : List UInt8) : (poly1305 key message).length = 16 := by
  simp [poly1305, Bytes.length_ofNat]

theorem length_aeadTag (subkey chachaNonce ciphertext : List UInt8) :
    (aeadTag subkey chachaNonce ciphertext).length = tagLength := by
  simp [aeadTag, length_poly1305, tagLength]

/-! ### The key stream -/

theorem zipWith_xor_xor {l stream : List UInt8} (h : l.length ≤ stream.length) :
    List.zipWith (· ^^^ ·) (List.zipWith (· ^^^ ·) l stream) stream = l := by
  induction l generalizing stream with
  | nil => rfl
  | cons x l ih =>
    cases stream with
    | nil => simp at h
    | cons y stream =>
      simp only [List.zipWith_cons_cons, UInt8.xor_assoc, UInt8.xor_self, UInt8.xor_zero]
      rw [ih (by simp at h; omega)]

theorem length_stream {key nonce : List UInt8} (keyLength : key.length = 32)
    (nonceLength : nonce.length = 12) (counter blocks : Nat) :
    ((List.range blocks).map fun i => block key (counter + i) nonce).flatten.length =
      64 * blocks := by
  induction blocks with
  | zero => rfl
  | succ n ih =>
    rw [List.range_succ, List.map_append, List.flatten_append, List.length_append, ih]
    simp [length_block keyLength nonceLength]
    omega

theorem length_xorStream {key nonce : List UInt8} (keyLength : key.length = 32)
    (nonceLength : nonce.length = 12) (counter : Nat) (message : List UInt8) :
    (xorStream key counter nonce message).length = message.length := by
  rw [xorStream, List.length_zipWith, length_stream keyLength nonceLength]
  omega

/-- XORing in the key stream twice gives the message back. -/
theorem xorStream_xorStream {key nonce : List UInt8} (keyLength : key.length = 32)
    (nonceLength : nonce.length = 12) (counter : Nat) (message : List UInt8) :
    xorStream key counter nonce (xorStream key counter nonce message) = message := by
  rw [xorStream, length_xorStream keyLength nonceLength, xorStream]
  exact zipWith_xor_xor (by rw [length_stream keyLength nonceLength]; omega)

/-! ### Encryption and decryption -/

theorem nonceOfSlice_of_length {bytes : List UInt8} (h : bytes.length = nonceLength) :
    nonceOfSlice bytes = .ok bytes := by
  rw [nonceOfSlice, if_pos h]


theorem extendedKey_lengths {key nonce : List UInt8} (keyLength : key.length = 32)
    (nonceLength : nonce.length = 24) :
    (extendedKey key nonce).1.length = 32 ∧ (extendedKey key nonce).2.length = 12 := by
  constructor
  · have prefixLength : (nonce.take 16).length = 16 := by simp [nonceLength]
    simp only [extendedKey]
    exact length_hchacha20 keyLength prefixLength
  · simp [extendedKey, nonceLength]

theorem length_encrypt {key nonce : List UInt8} (keyLength : key.length = 32)
    (nonceLength : nonce.length = 24) (message : List UInt8) :
    (encrypt key nonce message).length = message.length + tagLength := by
  obtain ⟨subkeyLength, chachaNonceLength⟩ := extendedKey_lengths keyLength nonceLength
  simp only [encrypt, List.length_append, length_aeadTag,
    length_xorStream subkeyLength chachaNonceLength]

/-- Decryption inverts encryption under a 32-byte key and a 24-byte nonce. -/
theorem decrypt_encrypt {key nonce : List UInt8} (keyLength : key.length = 32)
    (nonceLength : nonce.length = 24) (message : List UInt8) :
    decrypt key nonce (encrypt key nonce message) = some message := by
  obtain ⟨subkeyLength, chachaNonceLength⟩ := extendedKey_lengths keyLength nonceLength
  have ciphertextLength := length_xorStream subkeyLength chachaNonceLength 1 message
  have split : (encrypt key nonce message).length - tagLength = message.length := by
    rw [length_encrypt keyLength nonceLength]
    omega
  rw [decrypt, if_neg (by rw [length_encrypt keyLength nonceLength]; omega), split]
  simp only [encrypt, List.take_left' ciphertextLength, List.drop_left' ciphertextLength,
    if_true, xorStream_xorStream subkeyLength chachaNonceLength]

end StakingHub.Cipher
