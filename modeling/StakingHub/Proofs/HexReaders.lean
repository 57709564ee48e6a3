import StakingHub.Proofs.FieldText
import StakingHub.Proofs.Recovery
import StakingHub.Relay.Sealed
import StakingHub.Validator.Pubkey

/-!
# The language of hex text and its readers

Hex text is read from its UTF-8 bytes: one leading `0x`, or else one leading `0X`, is dropped,
and the rest must have an even number of bytes, each a hex digit of either case. Since `0`, `x`
and `X` are single bytes and no other character begins with one of them, this is the same as
dropping the prefix from the characters (`stripPrefix_utf8`); since hex digits are single
bytes, the language is: past the prefix, an even number of hex digits (`decode_ok_iff`), and
`2 * n` of them for `n` bytes (`decode_length_iff`).

Five readers decode hex text and then check the bytes: addresses, validator keys, signatures
and relay recipient keys their length, secret keys also that they spell a scalar in `[1, n)`.
They differ only in the check and in the faults they report, so each is shown equal to one
reader with parameters, `readWith`, and `readsBytes_of_eq` gives what all of them do
(`ReadsBytes`): they accept exactly the text whose bytes pass the check, give the value of those
bytes, and refuse everything else with their own fault.
-/

namespace StakingHub.Hex

/-! ### The prefix -/

/-- The characters of hex text after one leading `0x`, or else one leading `0X`. -/
def unprefixed : List Char → List Char
  | '0' :: 'x' :: rest => rest
  | '0' :: 'X' :: rest => rest
  | cs => cs

example : unprefixed "0x0X12".toList = "0X12".toList := rfl

theorem flatMap_utf8_eq_cons {cs : List Char} {b : UInt8} {bytes : List UInt8}
    (encoded : cs.flatMap String.utf8EncodeChar = b :: bytes) (ascii : b.toNat < 128) :
    ∃ c rest, cs = c :: rest ∧ c.toNat = b.toNat ∧
      rest.flatMap String.utf8EncodeChar = bytes := by
  cases cs with
  | nil => cases encoded
  | cons c rest =>
    refine ⟨c, rest, rfl, ?_⟩
    rw [List.flatMap_cons] at encoded
    by_cases small : c.toNat ≤ 127
    · rw [utf8EncodeChar_of_le small, List.singleton_append, List.cons.injEq] at encoded
      obtain ⟨rfl, tail⟩ := encoded
      exact ⟨by simp [Nat.toUInt8]; omega, tail⟩
    · -- every byte of a character past ASCII is 128 or more, the first one included
      obtain ⟨x, xs, first⟩ := List.exists_cons_of_ne_nil (String.utf8EncodeChar_ne_nil (c := c))
      rw [first, List.cons_append, List.cons.injEq] at encoded
      have high := le_of_mem_utf8EncodeChar (by omega) (first ▸ List.mem_cons_self)
      rw [encoded.1] at high
      omega

theorem stripPrefix_eq_self {bytes : List UInt8} (lower : ∀ rest, bytes ≠ 0x30 :: 0x78 :: rest)
    (upper : ∀ rest, bytes ≠ 0x30 :: 0x58 :: rest) : stripPrefix bytes = bytes := by
  unfold stripPrefix
  split
  · exact absurd rfl (lower _)
  · exact absurd rfl (upper _)
  · rfl

/-- Stripping the prefix off the UTF-8 bytes of a text strips it off the characters: `0`, `x`
and `X` are single bytes, and no other character starts with one of theirs. -/
theorem stripPrefix_utf8 (cs : List Char) :
    stripPrefix (cs.flatMap String.utf8EncodeChar) =
      (unprefixed cs).flatMap String.utf8EncodeChar := by
  unfold unprefixed
  split
  · rfl
  · rfl
  · rename_i noLower noUpper
    have starts : ∀ x : UInt8, x.toNat < 128 → ∀ rest,
        cs.flatMap String.utf8EncodeChar = 0x30 :: x :: rest →
          ∃ c tail, cs = '0' :: c :: tail ∧ c.toNat = x.toNat := by
      intro x ascii rest encoded
      obtain ⟨zero, cs', rfl, zeroCode, encoded'⟩ := flatMap_utf8_eq_cons encoded (by decide)
      obtain ⟨c, tail, rfl, code, -⟩ := flatMap_utf8_eq_cons encoded' ascii
      have : zero = '0' := Char.toNat_inj.mp zeroCode
      exact ⟨c, tail, by rw [this], code⟩
    apply stripPrefix_eq_self
    · intro rest encoded
      obtain ⟨c, tail, rfl, code⟩ := starts 0x78 (by decide) rest encoded
      exact noLower tail (by rw [show c = 'x' from Char.toNat_inj.mp code])
    · intro rest encoded
      obtain ⟨c, tail, rfl, code⟩ := starts 0x58 (by decide) rest encoded
      exact noUpper tail (by rw [show c = 'X' from Char.toNat_inj.mp code])

/-! ### The language of hex text -/

theorem decode_eq (text : String) :
    decode text = decodeDigits (String.ofList (unprefixed text.toList)).toUTF8.toList := by
  rw [decode, utf8_eq_flatMap, stripPrefix_utf8, utf8_eq_flatMap, String.toList_ofList]

theorem utf8ByteSize_ofList_of_hex {cs : List Char} (hex : ∀ c ∈ cs, c.isHexDigit) :
    (String.ofList cs).utf8ByteSize = cs.length := by
  rw [← length_utf8, utf8_eq_flatMap, String.toList_ofList,
    length_flatMap_utf8_of_ascii (fun c mem => toNat_le_of_isHexDigit (hex c mem))]

/-- Hex text is read exactly when, past its prefix, it has an even number of characters, all
of them hex digits of either case. -/
theorem decode_ok_iff (text : String) :
    (∃ bytes, decode text = .ok bytes) ↔
      (unprefixed text.toList).length % 2 = 0 ∧ ∀ c ∈ unprefixed text.toList, c.isHexDigit := by
  rw [decode_eq, decodeDigits_ok_iff, String.toList_ofList]
  constructor
  · rintro ⟨even, hex⟩
    exact ⟨by rwa [utf8ByteSize_ofList_of_hex hex] at even, hex⟩
  · rintro ⟨even, hex⟩
    exact ⟨by rwa [utf8ByteSize_ofList_of_hex hex], hex⟩

theorem length_unprefixed_of_decode {text : String} {bytes : List UInt8}
    (read : decode text = .ok bytes) :
    (unprefixed text.toList).length = 2 * bytes.length ∧
      ∀ c ∈ unprefixed text.toList, c.isHexDigit := by
  rw [decode_eq] at read
  obtain ⟨size, hex⟩ := decodeDigits_ok read
  rw [String.toList_ofList] at hex
  rw [utf8ByteSize_ofList_of_hex hex] at size
  exact ⟨size, hex⟩

/-- Text reads as `n` bytes exactly when, past its prefix, it is `2 * n` hex digits. -/
theorem decode_length_iff (text : String) (n : Nat) :
    (∃ bytes, decode text = .ok bytes ∧ bytes.length = n) ↔
      (unprefixed text.toList).length = 2 * n ∧ ∀ c ∈ unprefixed text.toList, c.isHexDigit := by
  constructor
  · rintro ⟨bytes, read, rfl⟩
    exact length_unprefixed_of_decode read
  · rintro ⟨length, hex⟩
    obtain ⟨bytes, read⟩ := (decode_ok_iff text).mpr ⟨by omega, hex⟩
    have twice := (length_unprefixed_of_decode read).1
    exact ⟨bytes, read, by omega⟩

/-! ### Readers of values held as bytes -/

/-- How a reader of values held as bytes treats hex text: it accepts exactly the text that
decodes to bytes passing `valid`, gives the value of those bytes, and refuses text that is no
hex with `badHex` and hex whose bytes fail `valid` with `badBytes`. -/
structure ReadsBytes {α : Type} (parse : String → Except CryptoFault α) (bytes : α → List UInt8)
    (valid : List UInt8 → Prop) (badHex : String → HexFault → CryptoFault)
    (badBytes : String → List UInt8 → CryptoFault) : Prop where
  accepts : ∀ text, (∃ x, parse text = .ok x) ↔ ∃ bs, decode text = .ok bs ∧ valid bs
  value : ∀ text x, parse text = .ok x ↔ decode text = .ok (bytes x)
  refuses : ∀ text f, parse text = .error f ↔
    (∃ e, decode text = .error e ∧ f = badHex text e) ∨
      (∃ bs, decode text = .ok bs ∧ ¬valid bs ∧ f = badBytes text bs)

/-- Decodes hex text and builds a value from bytes that pass `valid`. -/
def readWith {α : Type} (valid : List UInt8 → Prop) [DecidablePred valid]
    (make : (bs : List UInt8) → valid bs → α) (badHex : HexFault → CryptoFault)
    (badBytes : List UInt8 → CryptoFault) (text : String) : Except CryptoFault α :=
  match decode text with
  | .error e => .error (badHex e)
  | .ok bs => if h : valid bs then .ok (make bs h) else .error (badBytes bs)

section ReadWith

variable {α : Type} {parse : String → Except CryptoFault α} {bytes : α → List UInt8}
  {valid : List UInt8 → Prop} [DecidablePred valid] {make : (bs : List UInt8) → valid bs → α}
  {badHex : String → HexFault → CryptoFault} {badBytes : String → List UInt8 → CryptoFault}

theorem readWith_of_error {text : String} {e : HexFault} (read : decode text = .error e)
    (bad : HexFault → CryptoFault) (other : List UInt8 → CryptoFault) :
    readWith valid make bad other text = .error (bad e) := by
  rw [readWith, read]

theorem readWith_of_ok {text : String} {bs : List UInt8} (read : decode text = .ok bs)
    (bad : HexFault → CryptoFault) (other : List UInt8 → CryptoFault) :
    readWith valid make bad other text =
      if h : valid bs then .ok (make bs h) else .error (other bs) := by
  rw [readWith, read]

/-- A reader that decodes and then builds its value from valid bytes, where the value's bytes
are the bytes it was built from and determine it, reads bytes as `ReadsBytes` says. -/
theorem readsBytes_of_eq (bytes_make : ∀ bs h, bytes (make bs h) = bs)
    (valid_bytes : ∀ x, valid (bytes x)) (bytes_inj : ∀ x y, bytes x = bytes y → x = y)
    (reads : ∀ text, parse text = readWith valid make (badHex text) (badBytes text) text) :
    ReadsBytes parse bytes valid badHex badBytes where
  accepts text := by
    rw [reads]
    cases read : decode text with
    | error e => simp [readWith_of_error read]
    | ok bs =>
      rw [readWith_of_ok read]
      by_cases ok : valid bs <;> simp [ok]
  value text x := by
    rw [reads]
    cases read : decode text with
    | error e => simp [readWith_of_error read]
    | ok bs =>
      rw [readWith_of_ok read, Except.ok.injEq]
      by_cases ok : valid bs
      · -- the value built from `bs` is `x` exactly when `bs` are the bytes of `x`
        rw [dif_pos ok, Except.ok.injEq]
        constructor
        · rintro rfl
          exact (bytes_make bs ok).symm
        · rintro rfl
          exact bytes_inj _ _ (bytes_make _ ok)
      · rw [dif_neg ok]
        simp only [reduceCtorEq, false_iff]
        rintro rfl
        exact ok (valid_bytes x)
  refuses text f := by
    rw [reads]
    cases read : decode text with
    | error e => simp [readWith_of_error read, eq_comm]
    | ok bs =>
      rw [readWith_of_ok read]
      by_cases ok : valid bs <;> simp [ok, eq_comm]

end ReadWith

namespace ReadsBytes

variable {α : Type} {parse : String → Except CryptoFault α} {bytes : α → List UInt8}
  {valid : List UInt8 → Prop} {badHex : String → HexFault → CryptoFault}
  {badBytes : String → List UInt8 → CryptoFault}

theorem parse_encode (reader : ReadsBytes parse bytes valid badHex badBytes) (x : α) :
    parse (encode (bytes x)) = .ok x :=
  (reader.value _ x).mpr (decode_encode (bytes x))

end ReadsBytes

end StakingHub.Hex

namespace StakingHub

open Hex

/-! ### The five readers -/

theorem Address.parse_eq_readWith (text : String) :
    Address.parse text = readWith (·.length = 20) (fun bs h => ⟨bs, h⟩)
      (fun _ => .invalidAddress text) (fun _ => .invalidAddress text) text := by
  cases read : decode text with
  | error e => rw [readWith_of_error read, Address.parse, read]
  | ok bs =>
    rw [readWith_of_ok read]
    by_cases width : bs.length = 20 <;> simp [Address.parse, read, Address.ofBytes?, width]

theorem decodeHex_of_error {text : String} {e : HexFault} (read : decode text = .error e) :
    decodeHex text = .error (.invalidHex e) := by
  rw [decodeHex, read]
  rfl

theorem decodeHex_of_ok {text : String} {bs : List UInt8} (read : decode text = .ok bs) :
    decodeHex text = .ok bs := by
  rw [decodeHex, read]
  rfl

theorem ValidatorPubkey.parse_eq_readWith (text : String) :
    ValidatorPubkey.parse text = readWith (·.length = 48) (fun bs h => ⟨bs, h⟩)
      .invalidHex (fun bs => .invalidKeyLength 48 bs.length) text := by
  cases read : decode text with
  | error e => rw [readWith_of_error read, ValidatorPubkey.parse, decodeHex_of_error read]; rfl
  | ok bs =>
    rw [readWith_of_ok read, ValidatorPubkey.parse, decodeHex_of_ok read]
    by_cases width : bs.length = 48 <;>
      simp [bind, Except.bind, ValidatorPubkey.ofBytes?, validatorPubkeyLength, width, pure,
        Except.pure, throw, throwThe, MonadExceptOf.throw]

theorem Signature.parse_eq_readWith (text : String) :
    Signature.parse text = readWith (·.length = 65) (fun bs h => ⟨bs, h⟩)
      .invalidHex (fun bs => .invalidSignatureLength 65 bs.length) text := by
  cases read : decode text with
  | error e => rw [readWith_of_error read, Signature.parse, decodeHex_of_error read]; rfl
  | ok bs =>
    rw [readWith_of_ok read, Signature.parse, decodeHex_of_ok read]
    by_cases width : bs.length = 65 <;>
      simp [bind, Except.bind, Signature.ofBytes, signatureLength, width]

theorem Relay.Recipient.parse_eq_readWith (text : String) :
    Relay.Recipient.parse text = readWith (·.length = 32) (fun bs h => ⟨bs, h⟩)
      (fun _ => .invalidPublicKey) (fun bs => .invalidKeyLength 32 bs.length) text := by
  cases read : decode text with
  | error e => rw [readWith_of_error read, Relay.Recipient.parse, read]
  | ok bs =>
    rw [readWith_of_ok read]
    by_cases width : bs.length = 32 <;> simp [Relay.Recipient.parse, read, width]

theorem Secp256k1.SecretKey.parse_eq_readWith (text : String) :
    Secp256k1.SecretKey.parse text =
      readWith
        (fun bs => bs.length = 32 ∧ 0 < Bytes.toNat bs ∧ Bytes.toNat bs < Secp256k1.groupOrder)
        (fun bs h => ⟨Bytes.toNat bs, h.2.1, h.2.2⟩) .invalidHex (fun _ => .invalidPrivateKey)
        text := by
  cases read : decode text with
  | error e =>
    rw [readWith_of_error read, Secp256k1.SecretKey.parse, decodeHex_of_error read]
    rfl
  | ok bs =>
    rw [readWith_of_ok read, Secp256k1.SecretKey.parse, decodeHex_of_ok read]
    by_cases width : bs.length = 32
    · by_cases range : 0 < Bytes.toNat bs ∧ Bytes.toNat bs < Secp256k1.groupOrder <;>
        simp [bind, Except.bind, Secp256k1.SecretKey.ofBytes, width, range]
    · simp [bind, Except.bind, Secp256k1.SecretKey.ofBytes, width]

theorem Address.readsBytes :
    ReadsBytes Address.parse Address.bytes (·.length = 20) (fun text _ => .invalidAddress text)
      (fun text _ => .invalidAddress text) := by
  refine readsBytes_of_eq (fun _ _ => rfl) Address.length_eq ?_ Address.parse_eq_readWith
  intro a b same
  cases a
  cases b
  cases same
  rfl

theorem ValidatorPubkey.readsBytes :
    ReadsBytes ValidatorPubkey.parse ValidatorPubkey.bytes (·.length = 48) (fun _ => .invalidHex)
      (fun _ bs => .invalidKeyLength 48 bs.length) := by
  refine readsBytes_of_eq (fun _ _ => rfl) ValidatorPubkey.length_eq ?_
    ValidatorPubkey.parse_eq_readWith
  intro k k' same
  cases k
  cases k'
  cases same
  rfl

theorem Signature.readsBytes :
    ReadsBytes Signature.parse Signature.bytes (·.length = 65) (fun _ => .invalidHex)
      (fun _ bs => .invalidSignatureLength 65 bs.length) :=
  readsBytes_of_eq (fun _ _ => rfl) Signature.length_eq (fun _ _ => Signature.ext_bytes)
    Signature.parse_eq_readWith

theorem Relay.Recipient.readsBytes :
    ReadsBytes Relay.Recipient.parse Relay.Recipient.bytes (·.length = 32)
      (fun _ _ => .invalidPublicKey) (fun _ bs => .invalidKeyLength 32 bs.length) := by
  refine readsBytes_of_eq (fun _ _ => rfl) Relay.Recipient.length_eq ?_
    Relay.Recipient.parse_eq_readWith
  intro r r' same
  cases r
  cases r'
  cases same
  rfl

namespace Secp256k1.SecretKey

theorem toNat_toBytes (key : SecretKey) : Bytes.toNat key.toBytes = key.scalar :=
  Bytes.toNat_ofNat_of_lt (lt_of_lt_groupOrder key.lt_order)

theorem readsBytes :
    ReadsBytes SecretKey.parse SecretKey.toBytes
      (fun bs => bs.length = 32 ∧ 0 < Bytes.toNat bs ∧ Bytes.toNat bs < groupOrder)
      (fun _ => .invalidHex) (fun _ _ => .invalidPrivateKey) := by
  refine readsBytes_of_eq ?_ ?_ ?_ SecretKey.parse_eq_readWith
  · -- 32 bytes are the bytes of the number they spell
    rintro bs ⟨width, -, small⟩
    apply Bytes.eq_of_toNat_eq (by rw [toBytes, Bytes.length_ofNat, width])
    exact Bytes.toNat_ofNat_of_lt (lt_of_lt_groupOrder small)
  · intro key
    rw [toNat_toBytes]
    exact ⟨Bytes.length_ofNat _ _, key.pos, key.lt_order⟩
  · intro key key' same
    have scalars := congrArg Bytes.toNat same
    rw [toNat_toBytes, toNat_toBytes] at scalars
    cases key
    cases key'
    cases scalars
    rfl

end Secp256k1.SecretKey

/-- Hex text is read exactly when, past one leading `0x` (or else one leading `0X`), it has an
even number of characters, all hex digits of either case; it reads as `n` bytes exactly when
there are `2 * n` of them, and the `0x` text of bytes reads back as those bytes. Each reader of
a value held as bytes accepts exactly the text that reads as bytes of its kind, gives the value
of those bytes, and refuses other text with its own fault: an address (20 bytes) with the
whole input text, a validator key (48 bytes) and a signature (65 bytes) with the hex fault or
the expected and actual lengths, a relay recipient key (32 bytes) as an invalid public key or
with the lengths, and a secret key (32 bytes spelling a scalar in `[1, n)`) with the hex fault
or as an invalid private key. Each value is read back from its own `0x` text. -/
theorem hex_readers_accept_their_grammar :
    (∀ text : String, (∃ bytes, decode text = .ok bytes) ↔
      (unprefixed text.toList).length % 2 = 0 ∧ ∀ c ∈ unprefixed text.toList, c.isHexDigit) ∧
    (∀ bytes : List UInt8, decode (encode bytes) = .ok bytes) ∧
    (∀ (text : String) (n : Nat), (∃ bytes, decode text = .ok bytes ∧ bytes.length = n) ↔
      (unprefixed text.toList).length = 2 * n ∧ ∀ c ∈ unprefixed text.toList, c.isHexDigit) ∧
    ReadsBytes Address.parse Address.bytes (·.length = 20) (fun text _ => .invalidAddress text)
      (fun text _ => .invalidAddress text) ∧
    ReadsBytes ValidatorPubkey.parse ValidatorPubkey.bytes (·.length = 48) (fun _ => .invalidHex)
      (fun _ bs => .invalidKeyLength 48 bs.length) ∧
    ReadsBytes Signature.parse Signature.bytes (·.length = 65) (fun _ => .invalidHex)
      (fun _ bs => .invalidSignatureLength 65 bs.length) ∧
    ReadsBytes Relay.Recipient.parse Relay.Recipient.bytes (·.length = 32)
      (fun _ _ => .invalidPublicKey) (fun _ bs => .invalidKeyLength 32 bs.length) ∧
    ReadsBytes Secp256k1.SecretKey.parse Secp256k1.SecretKey.toBytes
      (fun bs => bs.length = 32 ∧ 0 < Bytes.toNat bs ∧ Bytes.toNat bs < Secp256k1.groupOrder)
      (fun _ => .invalidHex) (fun _ _ => .invalidPrivateKey) ∧
    (∀ sig : Signature, Signature.parse sig.toHex = .ok sig) ∧
    (∀ r : Relay.Recipient, Relay.Recipient.parse r.toHex = .ok r) ∧
    (∀ k : ValidatorPubkey, ValidatorPubkey.parse k.toHex = .ok k) ∧
    (∀ a : Address, Address.parse a.toHex = .ok a) :=
  ⟨decode_ok_iff, decode_encode, decode_length_iff, Address.readsBytes,
    ValidatorPubkey.readsBytes, Signature.readsBytes, Relay.Recipient.readsBytes,
    Secp256k1.SecretKey.readsBytes, Signature.readsBytes.parse_encode,
    Relay.Recipient.readsBytes.parse_encode, ValidatorPubkey.readsBytes.parse_encode,
    Address.readsBytes.parse_encode⟩

end StakingHub
