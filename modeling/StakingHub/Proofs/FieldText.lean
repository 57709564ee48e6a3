import Mathlib.Data.List.Induction
import Mathlib.Data.Nat.Init
import Mathlib.Tactic.SplitIfs
import StakingHub.Json.Shape

/-!
# Texts of record fields

A record writes bytes as bare lowercase hex digits and a 64-bit number as its decimal text.
Reading such a field inverts writing it: the digits of bytes read back as those bytes
(`Hex.decodeDigits_bare`, and with the `0x` prefix `Hex.decode_encode`), the decimal text of a
number below `2^64` reads back as that number (`Json.parseDecimal_toString`). Reading also gives
the text back where the text is written as the writer writes it: hex without uppercase letters
is the bare digits of what it reads as (`Json.bare_of_parseHexBytes`), decimal text without sign
or leading zero is the text of its value (`Json.toString_of_parseDecimal`). A hex field is
accepted exactly when its text has two bytes per byte of the field, all of them hex digits
(`Json.parseHexBytes_accepts_iff`).

Hex is read from the UTF-8 bytes of the text, so the first section relates those bytes to the
text's characters.
-/

namespace StakingHub

/-! ### UTF-8 bytes of text -/

theorem ByteArray.toList_eq_data (b : ByteArray) : b.toList = b.data.toList := by
  have loop : ∀ i r, ByteArray.toList.loop b i r = r.reverse ++ b.data.toList.drop i := by
    intro i r
    induction i, r using ByteArray.toList.loop.induct b with
    | case1 i r lt ih =>
      have inList : i < b.data.toList.length := by
        rwa [Array.length_toList, ByteArray.size_data]
      rw [ByteArray.toList.loop.eq_1, if_pos lt, ih, List.drop_eq_getElem_cons inList]
      have get : b.get! i = b.data.toList[i] := by
        rw [ByteArray.get!]
        exact getElem!_pos b.data i (by rwa [ByteArray.size_data])
      simp [get]
    | case2 i r ge =>
      have past : b.data.toList.length ≤ i := by
        rw [Array.length_toList, ByteArray.size_data]
        omega
      rw [ByteArray.toList.loop.eq_1, if_neg ge, List.drop_eq_nil_of_le past, List.append_nil]
  simpa [ByteArray.toList] using loop 0 []

theorem utf8_eq_flatMap (s : String) :
    s.toUTF8.toList = s.toList.flatMap String.utf8EncodeChar := by
  rw [ByteArray.toList_eq_data, String.toUTF8, ← String.utf8Encode_toList, List.utf8Encode]
  simp

theorem utf8_append (s t : String) :
    (s ++ t).toUTF8.toList = s.toUTF8.toList ++ t.toUTF8.toList := by
  rw [utf8_eq_flatMap, utf8_eq_flatMap, utf8_eq_flatMap, String.toList_append, List.flatMap_append]

theorem utf8EncodeChar_of_le {c : Char} (h : c.toNat ≤ 127) :
    String.utf8EncodeChar c = [c.toNat.toUInt8] := by
  rw [String.utf8EncodeChar_eq_singleton (Char.utf8Size_eq_one_iff.mpr h)]
  rfl

theorem le_of_mem_utf8EncodeChar {c : Char} {x : UInt8} (h : 127 < c.toNat)
    (mem : x ∈ String.utf8EncodeChar c) : 128 ≤ x.toNat := by
  unfold String.utf8EncodeChar at mem
  simp only [Char.toNat] at h
  simp only [Nat.not_le.mpr h, if_false] at mem
  split_ifs at mem <;> simp only [List.mem_cons, List.not_mem_nil, or_false] at mem <;>
    rcases mem with rfl | rfl | rfl | rfl <;> simp [UInt8.toNat_ofNat] <;> omega

theorem length_flatMap_utf8_of_ascii {cs : List Char} (ascii : ∀ c ∈ cs, c.toNat ≤ 127) :
    (cs.flatMap String.utf8EncodeChar).length = cs.length := by
  induction cs with
  | nil => rfl
  | cons c cs ih =>
    rw [List.flatMap_cons, List.length_append, utf8EncodeChar_of_le (ascii c (by simp)),
      ih (fun d mem => ascii d (by simp [mem])), List.length_singleton, List.length_cons,
      Nat.add_comm]

theorem exists_char_of_mem_utf8 {s : String} {x : UInt8} (mem : x ∈ s.toUTF8.toList)
    (low : x.toNat < 128) : ∃ c ∈ s.toList, c.toNat = x.toNat := by
  rw [utf8_eq_flatMap, List.mem_flatMap] at mem
  obtain ⟨c, mem_s, mem_c⟩ := mem
  refine ⟨c, mem_s, ?_⟩
  by_cases ascii : c.toNat ≤ 127
  · rw [utf8EncodeChar_of_le ascii, List.mem_singleton] at mem_c
    subst mem_c
    simp [Nat.toUInt8]
    omega
  · exact absurd (le_of_mem_utf8EncodeChar (by omega) mem_c) (by omega)

theorem eq_of_utf8_eq {s t : String} (h : s.toUTF8.toList = t.toUTF8.toList) : s = t := by
  rw [ByteArray.toList_eq_data, ByteArray.toList_eq_data, Array.toList_inj] at h
  exact String.toByteArray_inj.mp (ByteArray.ext h)

theorem length_utf8 (s : String) : s.toUTF8.toList.length = s.utf8ByteSize := by
  rw [ByteArray.toList_eq_data, Array.length_toList, ByteArray.size_data, String.toUTF8,
    String.size_toByteArray]

theorem toNat_ofNat_of_valid {n : Nat} (valid : n.isValidChar) : (Char.ofNat n).toNat = n := by
  rw [Char.ofNat, dif_pos valid]
  rfl

theorem isUpper_eq_false_iff {c : Char} :
    c.isUpper = false ↔ ¬(65 ≤ c.toNat ∧ c.toNat ≤ 90) := by
  show decide (c.val ≥ 'A'.val ∧ c.val ≤ 'Z'.val) = false ↔ _
  simp [UInt32.le_iff_toNat_le]

/-! ### Hex digits -/

namespace Hex

/-- The UTF-8 byte of the lowercase digit of a value below sixteen. -/
def digitByte (v : UInt8) : UInt8 := (digitChar v).toNat.toUInt8

/-- The UTF-8 bytes a byte is written as: the digit of its high half, then of its low half. -/
def digitBytes (b : UInt8) : List UInt8 := [digitByte (b >>> 4), digitByte (b &&& 0x0f)]

/-! The halves of a byte and the sixteen digits, in numbers. -/

theorem toNat_high (b : UInt8) : (b >>> 4).toNat = b.toNat / 16 := by
  rw [UInt8.toNat_shiftRight, Nat.shiftRight_eq_div_pow]
  rfl

theorem toNat_low (b : UInt8) : (b &&& 0x0f).toNat = b.toNat % 16 := by
  rw [UInt8.toNat_and]
  exact Nat.and_two_pow_sub_one_eq_mod b.toNat 4

theorem toNat_join {h l : UInt8} (high : h < 16) (low : l < 16) :
    (h <<< 4 ||| l).toNat = 16 * h.toNat + l.toNat := by
  rw [UInt8.lt_iff_toNat_lt] at high low
  simp at high low
  have fits : h.toNat <<< 4 < 2 ^ 8 := by
    rw [Nat.shiftLeft_eq]
    omega
  rw [UInt8.toNat_or, UInt8.toNat_shiftLeft, show (4 : UInt8).toNat % 8 = 4 from rfl,
    Nat.mod_eq_of_lt fits, ← Nat.shiftLeft_add_eq_or_of_lt (by simpa using low), Nat.shiftLeft_eq]
  omega

theorem halves_lt (b : UInt8) : b >>> 4 < 16 ∧ b &&& 0x0f < 16 := by
  have := UInt8.toNat_lt b
  simp only [UInt8.lt_iff_toNat_lt, toNat_high, toNat_low]
  constructor <;> simp <;> omega

theorem join_halves (b : UInt8) : (b >>> 4) <<< 4 ||| (b &&& 0x0f) = b := by
  have ⟨high, low⟩ := halves_lt b
  apply UInt8.toNat_inj.mp
  rw [toNat_join high low, toNat_high, toNat_low]
  omega

theorem halves_join {h l : UInt8} (high : h < 16) (low : l < 16) :
    (h <<< 4 ||| l) >>> 4 = h ∧ (h <<< 4 ||| l) &&& 0x0f = l := by
  have joined := toNat_join high low
  rw [UInt8.lt_iff_toNat_lt] at high low
  simp at high low
  constructor <;> apply UInt8.toNat_inj.mp <;> simp only [toNat_high, toNat_low, joined] <;> omega

theorem toNat_digitChar {v : UInt8} (h : v < 16) :
    (digitChar v).toNat = if v.toNat < 10 then 48 + v.toNat else 87 + v.toNat := by
  rw [UInt8.lt_iff_toNat_lt] at h
  simp at h
  unfold digitChar
  split_ifs with small small' small'
  · have valid : (0x30 + v.toNat).isValidChar := Or.inl (by omega)
    rw [toNat_ofNat_of_valid valid]
  · simp [UInt8.lt_iff_toNat_lt] at small; omega
  · simp [UInt8.lt_iff_toNat_lt] at small; omega
  · have valid : (0x61 + v.toNat - 10).isValidChar := Or.inl (by omega)
    rw [toNat_ofNat_of_valid valid]
    omega

theorem digitValue?_eq_some {b v : UInt8} :
    digitValue? b = some v ↔
      (48 ≤ b.toNat ∧ b.toNat ≤ 57 ∧ v.toNat = b.toNat - 48) ∨
      (97 ≤ b.toNat ∧ b.toNat ≤ 102 ∧ v.toNat = b.toNat - 87) ∨
      (65 ≤ b.toNat ∧ b.toNat ≤ 70 ∧ v.toNat = b.toNat - 55) := by
  have lt := UInt8.toNat_lt b
  unfold digitValue?
  split_ifs with decimal lower upper <;>
    simp only [Bool.and_eq_true, decide_eq_true_eq, UInt8.le_iff_toNat_le] at * <;>
    simp [← UInt8.toNat_inj, UInt8.toNat_sub, UInt8.toNat_add] at * <;> omega

theorem lt_of_digitValue? {x v : UInt8} (h : digitValue? x = some v) : v < 16 := by
  rw [UInt8.lt_iff_toNat_lt]
  rcases digitValue?_eq_some.mp h with ⟨_, _, value⟩ | ⟨_, _, value⟩ | ⟨_, _, value⟩ <;>
    simp <;> omega

theorem toNat_digitByte {v : UInt8} (h : v < 16) :
    (digitByte v).toNat = if v.toNat < 10 then 48 + v.toNat else 87 + v.toNat := by
  have code := toNat_digitChar h
  rw [UInt8.lt_iff_toNat_lt] at h
  simp at h
  rw [digitByte, code]
  split_ifs <;> simp [Nat.toUInt8] <;> omega

theorem utf8EncodeChar_digitChar {v : UInt8} (h : v < 16) :
    String.utf8EncodeChar (digitChar v) = [digitByte v] := by
  apply utf8EncodeChar_of_le
  have code := toNat_digitChar h
  rw [UInt8.lt_iff_toNat_lt] at h
  simp at h
  rw [code]
  split_ifs <;> omega

theorem digitValue?_digitByte {v : UInt8} (h : v < 16) : digitValue? (digitByte v) = some v := by
  rw [digitValue?_eq_some, toNat_digitByte h]
  rw [UInt8.lt_iff_toNat_lt] at h
  simp at h
  split_ifs <;> omega

theorem digitByte_of_digitValue? {x v : UInt8} (upper : ¬(0x41 ≤ x ∧ x ≤ 0x46))
    (h : digitValue? x = some v) : digitByte v = x := by
  apply UInt8.toNat_inj.mp
  rw [toNat_digitByte (lt_of_digitValue? h)]
  simp only [UInt8.le_iff_toNat_le] at upper
  simp at upper
  rcases digitValue?_eq_some.mp h with ⟨_, _, value⟩ | ⟨_, _, value⟩ | ⟨_, _, value⟩ <;>
    split_ifs <;> omega

theorem digitChar_not_upper {v : UInt8} (h : v < 16) : (digitChar v).isUpper = false := by
  have code := toNat_digitChar h
  rw [UInt8.lt_iff_toNat_lt] at h
  simp at h
  rw [isUpper_eq_false_iff]
  split_ifs at code <;> omega

theorem toNat_le_of_isHexDigit {c : Char} (hex : c.isHexDigit) : c.toNat ≤ 127 := by
  simp [Char.isHexDigit, Char.isDigit, UInt32.le_iff_toNat_le] at hex
  omega

theorem isHexDigit_ofNat {n : Nat} (h : n < 128) :
    (Char.ofNat n).isHexDigit ↔
      (48 ≤ n ∧ n ≤ 57) ∨ (97 ≤ n ∧ n ≤ 102) ∨ (65 ≤ n ∧ n ≤ 70) := by
  have valid : n.isValidChar := Or.inl (by omega)
  simp [Char.isHexDigit, Char.isDigit, UInt32.le_iff_toNat_le, toNat_ofNat_of_valid valid]
  omega

theorem digit_ascii {x : UInt8} (h : (digitValue? x).isSome) :
    x.toNat < 128 ∧ (Char.ofNat x.toNat).isHexDigit := by
  obtain ⟨v, found⟩ := Option.isSome_iff_exists.mp h
  have ranges := digitValue?_eq_some.mp found
  have ascii : x.toNat < 128 := by omega
  exact ⟨ascii, (isHexDigit_ofNat ascii).mpr (by omega)⟩

theorem isSome_of_isHexDigit {x : UInt8} (ascii : x.toNat < 128)
    (hex : (Char.ofNat x.toNat).isHexDigit) : (digitValue? x).isSome := by
  have ranges := (isHexDigit_ofNat ascii).mp hex
  cases found : digitValue? x with
  | some v => rfl
  | none =>
    unfold digitValue? at found
    split_ifs at found with decimal lower upper
    simp [UInt8.le_iff_toNat_le] at decimal lower upper
    omega

theorem utf8_bare (bytes : List UInt8) : (bare bytes).toUTF8.toList = bytes.flatMap digitBytes := by
  rw [utf8_eq_flatMap, bare, String.toList_ofList, List.flatMap_assoc]
  congr 1
  funext b
  have ⟨high, low⟩ := halves_lt b
  simp [byteDigits, digitBytes, utf8EncodeChar_digitChar high, utf8EncodeChar_digitChar low]

theorem decodePairs_digitBytes (bytes : List UInt8) (offset : Nat) :
    decodePairs (bytes.flatMap digitBytes) offset = .ok bytes := by
  induction bytes generalizing offset with
  | nil => rfl
  | cons b rest ih =>
    have ⟨high, low⟩ := halves_lt b
    simp [digitBytes, decodePairs, digitValue?_digitByte high, digitValue?_digitByte low, ih,
      join_halves, Except.map]

/-- Bare digits read back as the bytes they were written from. -/
theorem decodeDigits_bare (bytes : List UInt8) :
    decodeDigits (bare bytes).toUTF8.toList = .ok bytes := by
  have even : (bytes.flatMap digitBytes).length = 2 * bytes.length := by
    induction bytes with
    | nil => rfl
    | cons b rest ih => simp [digitBytes, ih]; omega
  rw [utf8_bare, decodeDigits, if_neg (by omega), decodePairs_digitBytes]

/-- Reading hex text gives back the bytes it was written from. -/
theorem decode_encode (bytes : List UInt8) : decode (encode bytes) = .ok bytes := by
  have utf8 : (encode bytes).toUTF8.toList = 0x30 :: 0x78 :: (bare bytes).toUTF8.toList := by
    rw [encode, utf8_eq_flatMap, String.toList_append, List.flatMap_append,
      utf8_eq_flatMap (bare bytes)]
    rfl
  rw [decode, utf8, stripPrefix, decodeDigits_bare]

theorem decodePairs_ok {ds : List UInt8} {offset : Nat} {bytes : List UInt8}
    (h : decodePairs ds offset = .ok bytes) :
    ds.length = 2 * bytes.length ∧ ∀ x ∈ ds, (digitValue? x).isSome := by
  fun_induction decodePairs ds offset generalizing bytes with
  | case1 | case2 | case4 => cases h
  | case3 hi lo rest offset h l found_lo found_hi ih =>
    cases tail : decodePairs rest (offset + 2) with
    | error f => simp [tail, Except.map] at h
    | ok read =>
      simp only [tail, Except.map, Except.ok.injEq] at h
      subst h
      obtain ⟨length, digits⟩ := ih tail
      refine ⟨by simp [length]; omega, ?_⟩
      simp [found_hi, found_lo]
      exact digits
  | case5 => cases h; simp

theorem isUpper_of_mem_bare {bytes : List UInt8} {c : Char} (mem : c ∈ (bare bytes).toList) :
    c.isUpper = false := by
  simp only [bare, String.toList_ofList, List.mem_flatMap] at mem
  obtain ⟨b, _, mem_b⟩ := mem
  have ⟨high, low⟩ := halves_lt b
  simp only [byteDigits, List.mem_cons, List.not_mem_nil, or_false] at mem_b
  rcases mem_b with rfl | rfl
  · exact digitChar_not_upper high
  · exact digitChar_not_upper low

theorem eq_flatMap_of_decodePairs {ds : List UInt8} {offset : Nat} {bytes : List UInt8}
    (h : decodePairs ds offset = .ok bytes) (lower : ∀ x ∈ ds, ¬(0x41 ≤ x ∧ x ≤ 0x46)) :
    ds = bytes.flatMap digitBytes := by
  fun_induction decodePairs ds offset generalizing bytes with
  | case1 | case2 | case4 => cases h
  | case3 hi lo rest offset h l found_lo found_hi ih =>
    cases tail : decodePairs rest (offset + 2) with
    | error f => simp [tail, Except.map] at h
    | ok read =>
      simp only [tail, Except.map, Except.ok.injEq] at h
      subst h
      have hi_eq := digitByte_of_digitValue? (lower hi (by simp)) found_hi
      have lo_eq := digitByte_of_digitValue? (lower lo (by simp)) found_lo
      obtain ⟨high, low⟩ := halves_join (lt_of_digitValue? found_hi) (lt_of_digitValue? found_lo)
      have rest_eq := ih tail (fun x mem => lower x (by simp [mem]))
      simp [digitBytes, high, low, hi_eq, lo_eq, rest_eq]
  | case5 => cases h; rfl


theorem bare_of_decodeDigits {s : String} {bytes : List UInt8}
    (h : decodeDigits s.toUTF8.toList = .ok bytes) (lower : ∀ c ∈ s.toList, c.isUpper = false) :
    bare bytes = s := by
  have pairs : decodePairs s.toUTF8.toList 0 = .ok bytes := by
    unfold decodeDigits at h
    split at h
    · cases h
    · exact h
  have lowerBytes : ∀ x ∈ s.toUTF8.toList, ¬(0x41 ≤ x ∧ x ≤ 0x46) := by
    rintro x mem ⟨ge, le⟩
    rw [UInt8.le_iff_toNat_le] at ge le
    obtain ⟨c, mem_c, same⟩ := exists_char_of_mem_utf8 mem (by simp at le; omega)
    have upper := lower c mem_c
    rw [isUpper_eq_false_iff] at upper
    simp at ge le
    omega
  apply eq_of_utf8_eq
  rw [utf8_bare]
  exact (eq_flatMap_of_decodePairs pairs lowerBytes).symm

theorem decodeDigits_ok {s : String} {bytes : List UInt8}
    (h : decodeDigits s.toUTF8.toList = .ok bytes) :
    s.utf8ByteSize = 2 * bytes.length ∧ ∀ c ∈ s.toList, c.isHexDigit := by
  have pairs : decodePairs s.toUTF8.toList 0 = .ok bytes := by
    unfold decodeDigits at h
    split at h
    · cases h
    · exact h
  obtain ⟨length, digits⟩ := decodePairs_ok pairs
  refine ⟨by rw [← length_utf8, length], fun c mem => ?_⟩
  have bytes_of_c : ∀ x ∈ String.utf8EncodeChar c, (digitValue? x).isSome := by
    intro x mem_x
    exact digits x (by rw [utf8_eq_flatMap]; exact List.mem_flatMap.mpr ⟨c, mem, mem_x⟩)
  by_cases ascii : c.toNat ≤ 127
  · rw [utf8EncodeChar_of_le ascii] at bytes_of_c
    have ⟨_, hex⟩ := digit_ascii (bytes_of_c _ (List.mem_singleton_self _))
    have same : (c.toNat.toUInt8).toNat = c.toNat := by simp [Nat.toUInt8]; omega
    rwa [same, Char.ofNat_toNat] at hex
  · obtain ⟨x, mem_x⟩ := List.exists_mem_of_ne_nil _ String.utf8EncodeChar_ne_nil
    have high := le_of_mem_utf8EncodeChar (Nat.lt_of_not_le ascii) mem_x
    have ⟨low, _⟩ := digit_ascii (bytes_of_c x mem_x)
    omega

theorem decodePairs_of_digits {ds : List UInt8} (digits : ∀ x ∈ ds, (digitValue? x).isSome)
    (even : ds.length % 2 = 0) (offset : Nat) : ∃ bytes, decodePairs ds offset = .ok bytes := by
  fun_induction decodePairs ds offset with
  | case1 hi lo rest offset none_hi => simp [none_hi] at digits
  | case2 hi lo rest offset h none_lo _ => simp [none_lo] at digits
  | case3 hi lo rest offset h l _ _ ih =>
    obtain ⟨read, tail⟩ := ih (fun x mem => digits x (by simp [mem])) (by simp at even; omega)
    exact ⟨_, by rw [tail]; rfl⟩
  | case4 => simp at even
  | case5 => exact ⟨[], rfl⟩

theorem decodeDigits_ok_iff {s : String} :
    (∃ bytes, decodeDigits s.toUTF8.toList = .ok bytes) ↔
      s.utf8ByteSize % 2 = 0 ∧ ∀ c ∈ s.toList, c.isHexDigit := by
  constructor
  · rintro ⟨bytes, h⟩
    obtain ⟨size, hex⟩ := decodeDigits_ok h
    exact ⟨by omega, hex⟩
  · rintro ⟨even, hex⟩
    have digits : ∀ x ∈ s.toUTF8.toList, (digitValue? x).isSome := by
      intro x mem
      rw [utf8_eq_flatMap, List.mem_flatMap] at mem
      obtain ⟨c, mem_c, mem_x⟩ := mem
      have hex_c := hex c mem_c
      have ascii := toNat_le_of_isHexDigit hex_c
      rw [utf8EncodeChar_of_le ascii, List.mem_singleton] at mem_x
      have same : x.toNat = c.toNat := by subst mem_x; simp [Nat.toUInt8]; omega
      exact isSome_of_isHexDigit (by omega) (by rwa [same, Char.ofNat_toNat])
    have length := length_utf8 s
    obtain ⟨bytes, pairs⟩ := decodePairs_of_digits digits (by omega) 0
    exact ⟨bytes, by rw [decodeDigits, if_neg (by omega), pairs]⟩

end Hex

namespace Json

/-! ### Decimal text -/

/-- The value of decimal digits appended to `acc`, most significant first. -/
def decimalValue (acc : Nat) (cs : List Char) : Nat :=
  cs.foldl (fun acc c => acc * 10 + (c.toNat - 48)) acc

theorem decimalValue_nil (acc : Nat) : decimalValue acc [] = acc := rfl

theorem decimalValue_cons (acc : Nat) (c : Char) (cs : List Char) :
    decimalValue acc (c :: cs) = decimalValue (acc * 10 + (c.toNat - 48)) cs := by
  rw [decimalValue, List.foldl_cons, ← decimalValue]

theorem decimalValue_append_singleton (acc : Nat) (cs : List Char) (c : Char) :
    decimalValue acc (cs ++ [c]) = decimalValue acc cs * 10 + (c.toNat - 48) := by
  simp [decimalValue, List.foldl_append]

theorem le_decimalValue (acc : Nat) (cs : List Char) : acc ≤ decimalValue acc cs := by
  induction cs generalizing acc with
  | nil => exact Nat.le_refl acc
  | cons c cs ih =>
    rw [decimalValue_cons]
    have := ih (acc * 10 + (c.toNat - 48))
    omega

theorem digitChar_eq : ∀ k < 10, Nat.digitChar k = Char.ofNat (48 + k) := by
  decide

theorem digitChar_of_isDigit {c : Char} (h : c.isDigit) :
    c.toNat - 48 < 10 ∧ Nat.digitChar (c.toNat - 48) = c := by
  simp [Char.isDigit, UInt32.le_iff_toNat_le] at h
  have small : c.toNat - 48 < 10 := by omega
  refine ⟨small, ?_⟩
  rw [digitChar_eq _ small, show 48 + (c.toNat - 48) = c.toNat by omega, Char.ofNat_toNat]

theorem isDigit_digitChar {k : Nat} (h : k < 10) :
    (Nat.digitChar k).isDigit ∧ (Nat.digitChar k).toNat - 48 = k := by
  rw [digitChar_eq k h]
  have valid : Nat.isValidChar (48 + k) := Or.inl (by omega)
  simp [Char.isDigit, UInt32.le_iff_toNat_le, toNat_ofNat_of_valid valid]
  omega

theorem decimalValue_toDigits (n : Nat) : decimalValue 0 (Nat.toDigits 10 n) = n := by
  induction n using Nat.strong_induction_on with
  | _ n ih =>
    rw [Nat.toDigits_eq_if (by omega)]
    split_ifs with small
    · simp [decimalValue_cons, decimalValue_nil, (isDigit_digitChar small).2]
    · rw [decimalValue_append_singleton, ih (n / 10) (by omega),
        (isDigit_digitChar (Nat.mod_lt n (by omega))).2]
      omega

theorem isDigit_of_mem_toDigits {n : Nat} {c : Char} (mem : c ∈ Nat.toDigits 10 n) :
    c.isDigit := by
  induction n using Nat.strong_induction_on with
  | _ n ih =>
    rw [Nat.toDigits_eq_if (by omega)] at mem
    split_ifs at mem with small
    · rw [List.mem_singleton] at mem
      exact mem ▸ (isDigit_digitChar small).1
    · rcases List.mem_append.mp mem with mem | mem
      · exact ih (n / 10) (by omega) mem
      · rw [List.mem_singleton] at mem
        exact mem ▸ (isDigit_digitChar (Nat.mod_lt n (by omega))).1

theorem foldlM_digits {cs : List Char} (digits : ∀ c ∈ cs, c.isDigit) {acc : Nat}
    (small : acc < Nat.pow 2 64) :
    cs.foldlM (fun acc c =>
      if c.isDigit then
        if acc * 10 + (c.toNat - 48) ≥ Nat.pow 2 64 then
          Except.error "number too large to fit in target type"
        else Except.ok (acc * 10 + (c.toNat - 48))
      else Except.error "invalid digit found in string") acc =
    if decimalValue acc cs < Nat.pow 2 64 then Except.ok (decimalValue acc cs)
    else Except.error "number too large to fit in target type" := by
  induction cs generalizing acc with
  | nil => rw [decimalValue_nil, if_pos small]; rfl
  | cons c cs ih =>
    have digit := digits c (List.mem_cons_self ..)
    rw [List.foldlM_cons, decimalValue_cons]
    by_cases big : acc * 10 + (c.toNat - 48) ≥ Nat.pow 2 64
    · -- The partial value is too large already, and the whole value only larger.
      have whole := le_decimalValue (acc * 10 + (c.toNat - 48)) cs
      simp only [digit, if_true, big]
      rw [if_neg (by simp [Nat.pow_eq] at big ⊢; omega)]
      rfl
    · simp only [digit, if_true, big, if_false]
      exact ih (fun c mem => digits c (List.mem_cons_of_mem _ mem))
        (by simp [Nat.pow_eq] at big ⊢; omega)

theorem foldlM_digits_ok {cs : List Char} {acc n : Nat}
    (h : cs.foldlM (fun acc c =>
      if c.isDigit then
        if acc * 10 + (c.toNat - 48) ≥ Nat.pow 2 64 then
          Except.error "number too large to fit in target type"
        else Except.ok (acc * 10 + (c.toNat - 48))
      else Except.error "invalid digit found in string") acc = Except.ok n) :
    (∀ c ∈ cs, c.isDigit) ∧ n = decimalValue acc cs := by
  induction cs generalizing acc with
  | nil =>
    cases h
    exact ⟨fun c mem => absurd mem List.not_mem_nil, rfl⟩
  | cons c cs ih =>
    rw [List.foldlM_cons] at h
    by_cases digit : c.isDigit
    · by_cases big : acc * 10 + (c.toNat - 48) ≥ Nat.pow 2 64
      · simp [digit, big] at h
        cases h
      · simp only [digit, if_true, big, if_false] at h
        obtain ⟨digits, value⟩ := ih h
        refine ⟨?_, by rw [value, decimalValue_cons]⟩
        intro d mem
        rcases List.mem_cons.mp mem with rfl | mem
        · exact digit
        · exact digits d mem
    · simp [digit] at h
      cases h

theorem parseDecimal_eq_foldlM {s : String} (ne : s.toList ≠ [])
    (unsigned : s.toList.head? ≠ some '+') :
    parseDecimal s = s.toList.foldlM (fun acc c =>
      if c.isDigit then
        if acc * 10 + (c.toNat - 48) ≥ Nat.pow 2 64 then
          Except.error "number too large to fit in target type"
        else Except.ok (acc * 10 + (c.toNat - 48))
      else Except.error "invalid digit found in string") 0 := by
  simp only [parseDecimal]
  split
  · rename_i empty
    exact absurd empty ne
  · rename_i signed _
    split at signed <;> simp_all
  · rename_i cs read _
    have same : cs = s.toList := by split at read <;> simp_all
    rw [same]

/-- The decimal text of a number below `2^64` reads back as that number. -/
theorem parseDecimal_toString {n : Nat} (h : n < Nat.pow 2 64) :
    parseDecimal (toString n) = .ok n := by
  have text : (toString n).toList = Nat.toDigits 10 n := by
    rw [Nat.toString_eq_repr, Nat.repr_eq_ofList_toDigits, String.toList_ofList]
  have ne : Nat.toDigits 10 n ≠ [] := by
    rw [Nat.toDigits_eq_if (by omega)]
    split_ifs <;> simp
  have digits : ∀ c ∈ Nat.toDigits 10 n, c.isDigit := fun c mem => isDigit_of_mem_toDigits mem
  have unsigned : (Nat.toDigits 10 n).head? ≠ some '+' := by
    intro plus
    have := digits '+' (List.mem_of_mem_head? plus)
    simp at this
  rw [parseDecimal_eq_foldlM (text ▸ ne) (text ▸ unsigned), text,
    foldlM_digits digits (by decide), decimalValue_toDigits, if_pos h]

theorem head?_toDigits (n : Nat) :
    (Nat.toDigits 10 n).head? ≠ some '+' ∧
      ((Nat.toDigits 10 n).head? = some '0' → n = 0) := by
  induction n using Nat.strong_induction_on with
  | _ n ih =>
    rw [Nat.toDigits_eq_if (by omega)]
    split_ifs with small
    · have ⟨digit, value⟩ := isDigit_digitChar small
      refine ⟨fun plus => ?_, fun zero => ?_⟩
      · simp only [List.head?_cons, Option.some.injEq] at plus
        rw [plus] at digit
        exact absurd digit (by decide)
      simp only [List.head?_cons, Option.some.injEq] at zero
      rw [zero] at value
      simpa using value.symm
    · have ne : Nat.toDigits 10 (n / 10) ≠ [] := by
        rw [Nat.toDigits_eq_if (by omega)]
        split_ifs <;> simp
      obtain ⟨c, rest, first⟩ := List.exists_cons_of_ne_nil ne
      have ⟨unsigned, noZero⟩ := ih (n / 10) (by omega)
      rw [first] at unsigned noZero ⊢
      refine ⟨unsigned, fun zero => ?_⟩
      have := noZero zero
      omega

theorem toDigits_decimalValue {cs : List Char} (ne : cs ≠ []) (digits : ∀ c ∈ cs, c.isDigit)
    (noLeadingZero : cs.head? = some '0' → cs = ['0']) :
    Nat.toDigits 10 (decimalValue 0 cs) = cs := by
  induction cs using List.reverseRecOn with
  | nil => exact absurd rfl ne
  | append_singleton init c ih =>
    obtain ⟨small, same⟩ := digitChar_of_isDigit (digits c (by simp))
    rcases init with _ | ⟨d, rest⟩
    · rw [List.nil_append, decimalValue_cons, decimalValue_nil, Nat.toDigits_of_lt_base (by omega)]
      simp [same]
    · -- A first digit other than zero makes the prefix's value positive.
      have first : d ≠ '0' := by
        intro zero
        have := noLeadingZero (by simp [zero])
        simp at this
      have positive : 0 < decimalValue 0 (d :: rest) := by
        obtain ⟨_, digit_d⟩ := digitChar_of_isDigit (digits d (by simp))
        have low := le_decimalValue (0 * 10 + (d.toNat - 48)) rest
        rw [decimalValue_cons]
        have : d.toNat - 48 ≠ 0 := by
          intro zero
          rw [zero] at digit_d
          exact first (by rw [← digit_d]; decide)
        omega
      have prefix_digits := ih (List.cons_ne_nil d rest)
        (fun e mem => digits e (List.mem_append_left _ mem)) (by simp [first])
      have quotient : (decimalValue 0 (d :: rest) * 10 + (c.toNat - 48)) / 10 =
          decimalValue 0 (d :: rest) := by omega
      have remainder : (decimalValue 0 (d :: rest) * 10 + (c.toNat - 48)) % 10 = c.toNat - 48 := by
        omega
      rw [decimalValue_append_singleton, Nat.toDigits_eq_if (by omega), if_neg (by omega), quotient,
        remainder, prefix_digits, same]

/-- Decimal text without sign or leading zero that reads as a number is that number's text. -/
theorem toString_of_parseDecimal {s : String} {n : Nat} (h : parseDecimal s = .ok n)
    (unsigned : s.toList.head? ≠ some '+')
    (noLeadingZero : s.toList.head? = some '0' → s = "0") :
    toString n = s := by
  have ne : s.toList ≠ [] := by
    intro empty
    simp [parseDecimal, empty] at h
  rw [parseDecimal_eq_foldlM ne unsigned] at h
  obtain ⟨digits, value⟩ := foldlM_digits_ok h
  have zero : s.toList.head? = some '0' → s.toList = ['0'] := by
    intro first
    rw [noLeadingZero first]
    rfl
  apply String.ext
  rw [Nat.toString_eq_repr, Nat.repr_eq_ofList_toDigits, String.toList_ofList, value,
    toDigits_decimalValue ne digits zero]

/-! ### Hex fields -/

theorem parseHexBytes_eq_ok {n : Nat} {s : String} {bytes : List UInt8} :
    parseHexBytes n s = .ok bytes ↔
      Hex.decodeDigits s.toUTF8.toList = .ok bytes ∧ bytes.length = n := by
  unfold parseHexBytes
  cases Hex.decodeDigits s.toUTF8.toList with
  | error f => simp
  | ok read =>
    by_cases length : read.length = n
    · simp only [length, if_true, Except.ok.injEq]
      constructor
      · rintro rfl
        exact ⟨rfl, length⟩
      · rintro ⟨same, _⟩
        exact same
    · simp only [length, if_false, reduceCtorEq, Except.ok.injEq, false_iff, not_and]
      rintro rfl
      exact length

theorem parseHexBytes_bare {n : Nat} {bytes : List UInt8} (h : bytes.length = n) :
    parseHexBytes n (Hex.bare bytes) = .ok bytes :=
  parseHexBytes_eq_ok.mpr ⟨Hex.decodeDigits_bare bytes, h⟩

/-- A hex field written without uppercase letters is the bare digits of what it reads as. -/
theorem bare_of_parseHexBytes {n : Nat} {s : String} {bytes : List UInt8}
    (h : parseHexBytes n s = .ok bytes) (lower : ∀ c ∈ s.toList, c.isUpper = false) :
    Hex.bare bytes = s :=
  Hex.bare_of_decodeDigits (parseHexBytes_eq_ok.mp h).1 lower

/-- A hex field of `n` bytes is accepted exactly when its text has `2 * n` bytes, all hex digits:
text of odd length, of another length, or with a character that is no hex digit is refused. -/
theorem parseHexBytes_accepts_iff {n : Nat} {s : String} :
    (∃ bytes, parseHexBytes n s = .ok bytes) ↔
      s.utf8ByteSize = 2 * n ∧ ∀ c ∈ s.toList, c.isHexDigit := by
  constructor
  · rintro ⟨bytes, h⟩
    obtain ⟨read, length⟩ := parseHexBytes_eq_ok.mp h
    obtain ⟨size, hex⟩ := Hex.decodeDigits_ok read
    exact ⟨by omega, hex⟩
  · rintro ⟨size, hex⟩
    obtain ⟨bytes, read⟩ := Hex.decodeDigits_ok_iff.mpr ⟨by omega, hex⟩
    have length := (Hex.decodeDigits_ok read).1
    exact ⟨bytes, parseHexBytes_eq_ok.mpr ⟨read, by omega⟩⟩

end Json

end StakingHub
