import StakingHub.Proofs.ExitRelay

/-!
# Checksum text of addresses

An address is written as `0x` and its forty lowercase hex digits, each letter raised to upper
case where the matching nibble of the Keccak-256 digest of those digits is 8 or more: nibble `i`
is the high half of digest byte `i / 2` for even `i` and its low half for odd `i`
(`Address.checksum_spec`). Digits are never raised, and lowering every character gives the
digits back.

Reading hex ignores case: text whose characters lower to those of a text that reads as an
address reads as the same address (`Address.parse_of_toLower_eq`). The checksum text lowers to
the plain hex text of the address, so it reads back as the address, and every case variant of
an address text has the same checksum text.
-/

namespace StakingHub

/-! ### ASCII case -/

theorem Char.toNat_toLower (c : Char) :
    c.toLower.toNat = if 65 ≤ c.toNat ∧ c.toNat ≤ 90 then c.toNat + 32 else c.toNat := by
  unfold Char.toLower
  split
  · rename_i upper
    simp only [ge_iff_le, UInt32.le_iff_toNat_le] at upper
    change (c.val + ('a'.val - 'A'.val)).toNat = _
    rw [if_pos (by simpa using upper), UInt32.toNat_add]
    simp at upper ⊢
    omega
  · rename_i other
    simp only [ge_iff_le, UInt32.le_iff_toNat_le] at other
    rw [if_neg (by simpa using other)]

theorem Char.toNat_toUpper (c : Char) :
    c.toUpper.toNat = if 97 ≤ c.toNat ∧ c.toNat ≤ 122 then c.toNat - 32 else c.toNat := by
  unfold Char.toUpper
  split
  · rename_i lower
    simp only [UInt32.le_iff_toNat_le] at lower
    change (c.val + ('A'.val - 'a'.val)).toNat = _
    rw [if_pos (by simpa using lower), UInt32.toNat_add]
    simp at lower ⊢
    omega
  · rename_i other
    simp only [UInt32.le_iff_toNat_le] at other
    rw [if_neg (by simpa using other)]

theorem Char.le_iff_toNat_le {a b : Char} : a ≤ b ↔ a.toNat ≤ b.toNat :=
  UInt32.le_iff_toNat_le

theorem Char.isUpper_iff {c : Char} : c.isUpper = true ↔ 65 ≤ c.toNat ∧ c.toNat ≤ 90 := by
  have := (isUpper_eq_false_iff (c := c)).not
  simpa using this

theorem Char.isLower_iff {c : Char} : c.isLower = true ↔ 97 ≤ c.toNat ∧ c.toNat ≤ 122 := by
  show (c.val ≥ 97 && c.val ≤ 122) = true ↔ _
  simp [UInt32.le_iff_toNat_le]

theorem Char.toLower_of_isUpper_eq_false {c : Char} (h : c.isUpper = false) : c.toLower = c := by
  apply Char.ext
  apply UInt32.toNat_inj.mp
  have code := Char.toNat_toLower c
  rw [isUpper_eq_false_iff] at h
  rw [if_neg h] at code
  exact code

/-! ### Nibbles of a digest -/

namespace Digest

/-- Nibble `i` of a digest: the high half of byte `i / 2` for even `i`, the low half for odd
`i`. -/
def nibble (digest : List UInt8) (i : Nat) : UInt8 :=
  let b := digest.getD (i / 2) 0
  if i % 2 = 0 then b >>> 4 else b &&& 0x0f

/-- The halves of each byte in turn, high half first. -/
def nibbles (digest : List UInt8) : List UInt8 :=
  digest.flatMap fun (b : UInt8) => [b >>> 4, b &&& 0x0f]

theorem nibbles_cons (b : UInt8) (rest : List UInt8) :
    nibbles (b :: rest) = (b >>> 4) :: (b &&& 0x0f) :: nibbles rest := by
  simp [nibbles]

theorem length_nibbles (digest : List UInt8) : (nibbles digest).length = 2 * digest.length := by
  induction digest with
  | nil => simp [nibbles]
  | cons b rest ih =>
    rw [nibbles_cons, List.length_cons, List.length_cons, ih, List.length_cons]
    omega

theorem getElem_nibbles {digest : List UInt8} {i : Nat} (h : i < (nibbles digest).length) :
    (nibbles digest)[i] = nibble digest i := by
  induction digest generalizing i with
  | nil => simp [nibbles] at h
  | cons b rest ih =>
    simp only [nibbles_cons]
    match i with
    | 0 => rfl
    | 1 => rfl
    | i + 2 =>
      have inRest : i < (nibbles rest).length := by
        rw [nibbles_cons] at h
        simp only [List.length_cons] at h
        omega
      have shift : nibble (b :: rest) (i + 2) = nibble rest i := by
        simp only [nibble, show (i + 2) / 2 = i / 2 + 1 by omega,
          show (i + 2) % 2 = i % 2 by omega, List.getD_cons_succ]
      rw [shift, ← ih inRest]
      rfl

end Digest

/-! ### Digits and their case -/

namespace Hex

theorem isAlpha_digitChar {v : UInt8} (h : v < 16) :
    (digitChar v).isAlpha = true ↔ 'a' ≤ digitChar v ∧ digitChar v ≤ 'f' := by
  have code := toNat_digitChar h
  have small : v.toNat < 16 := by simpa [UInt8.lt_iff_toNat_lt] using h
  show ((digitChar v).isUpper || (digitChar v).isLower) = true ↔ _
  rw [Bool.or_eq_true, Char.isUpper_iff, Char.isLower_iff, Char.le_iff_toNat_le,
    Char.le_iff_toNat_le, code]
  split_ifs <;> simp <;> omega

theorem mem_flatMap_byteDigits {bytes : List UInt8} {c : Char}
    (mem : c ∈ bytes.flatMap byteDigits) : ∃ v, v < 16 ∧ c = digitChar v := by
  obtain ⟨b, _, mem_b⟩ := List.mem_flatMap.mp mem
  have ⟨high, low⟩ := halves_lt b
  simp only [byteDigits, List.mem_cons, List.not_mem_nil, or_false] at mem_b
  rcases mem_b with rfl | rfl
  · exact ⟨_, high, rfl⟩
  · exact ⟨_, low, rfl⟩

theorem length_flatMap_byteDigits (bytes : List UInt8) :
    (bytes.flatMap byteDigits).length = 2 * bytes.length := by
  induction bytes with
  | nil => rfl
  | cons b rest ih =>
    simp only [List.flatMap_cons, List.length_append, byteDigits, List.length_cons,
      List.length_nil] at ih ⊢
    omega

end Hex

/-! ### Reading hex ignores case -/

namespace Hex

/-- The ASCII lowercase of a byte: `A`..`Z` go to `a`..`z`, every other byte is kept. -/
def lowerByte (b : UInt8) : UInt8 :=
  if 0x41 ≤ b ∧ b ≤ 0x5a then b + 0x20 else b

theorem toNat_lowerByte (b : UInt8) :
    (lowerByte b).toNat = if 65 ≤ b.toNat ∧ b.toNat ≤ 90 then b.toNat + 32 else b.toNat := by
  by_cases upper : 65 ≤ b.toNat ∧ b.toNat ≤ 90
  · have letter : 0x41 ≤ b ∧ b ≤ 0x5a := by simp [UInt8.le_iff_toNat_le]; omega
    rw [lowerByte, if_pos letter, if_pos upper, UInt8.toNat_add]
    simp
    omega
  · have other : ¬(0x41 ≤ b ∧ b ≤ 0x5a) := by simp [UInt8.le_iff_toNat_le]; omega
    rw [lowerByte, if_neg other, if_neg upper]

theorem utf8EncodeChar_toLower (c : Char) :
    String.utf8EncodeChar c.toLower = (String.utf8EncodeChar c).map lowerByte := by
  have lowered := Char.toNat_toLower c
  by_cases ascii : c.toNat ≤ 127
  · have asciiLower : c.toLower.toNat ≤ 127 := by split_ifs at lowered <;> omega
    rw [utf8EncodeChar_of_le ascii, utf8EncodeChar_of_le asciiLower, List.map_singleton,
      List.cons.injEq, ← UInt8.toNat_inj, toNat_lowerByte]
    simp only [Nat.toUInt8, UInt8.toNat_ofNat', and_true]
    split_ifs at lowered ⊢ <;> omega
  · have kept : c.toLower = c := by
      apply Char.toNat_inj.mp
      rw [lowered, if_neg (by omega)]
    rw [kept]
    have keptBytes : ∀ x ∈ String.utf8EncodeChar c, lowerByte x = id x := by
      intro x mem
      have high := le_of_mem_utf8EncodeChar (by omega) mem
      apply UInt8.toNat_inj.mp
      rw [toNat_lowerByte, if_neg (by omega), id]
    rw [List.map_congr_left keptBytes, List.map_id]

theorem map_lowerByte_utf8 (s : String) :
    s.toUTF8.toList.map lowerByte = (s.toList.map Char.toLower).flatMap String.utf8EncodeChar := by
  rw [utf8_eq_flatMap, List.map_flatMap, List.flatMap_map]
  simp only [utf8EncodeChar_toLower]

theorem digitValue?_lowerByte (b : UInt8) : digitValue? (lowerByte b) = digitValue? b := by
  apply Option.ext
  intro v
  rw [digitValue?_eq_some, digitValue?_eq_some, toNat_lowerByte]
  split_ifs <;> omega

/-- A fault with its byte lowered. -/
def HexFault.lower : HexFault → HexFault
  | .oddLength => .oddLength
  | .badDigit byte offset => .badDigit (lowerByte byte) offset

theorem decodePairs_map_lowerByte (ds : List UInt8) (offset : Nat) :
    decodePairs (ds.map lowerByte) offset = (decodePairs ds offset).mapError HexFault.lower := by
  fun_induction decodePairs ds offset with
  | case1 hi lo rest offset none_hi =>
    simp [decodePairs, digitValue?_lowerByte, none_hi, Except.mapError, HexFault.lower]
  | case2 hi lo rest offset h none_lo found_hi =>
    simp [decodePairs, digitValue?_lowerByte, none_lo, found_hi, Except.mapError, HexFault.lower]
  | case3 hi lo rest offset h l found_lo found_hi ih =>
    simp only [List.map_cons, decodePairs, digitValue?_lowerByte, found_lo, found_hi, ih]
    cases decodePairs rest (offset + 2) <;> rfl
  | case4 => rfl
  | case5 => rfl

theorem decodeDigits_map_lowerByte (ds : List UInt8) :
    decodeDigits (ds.map lowerByte) = (decodeDigits ds).mapError HexFault.lower := by
  rw [decodeDigits, decodeDigits, List.length_map, decodePairs_map_lowerByte]
  split <;> rfl

theorem lowerByte_eq_iff {b c : UInt8} (other : ¬(0x41 ≤ c.toNat ∧ c.toNat ≤ 0x5a))
    (small : c.toNat < 0x61) : lowerByte b = c ↔ b = c := by
  rw [← UInt8.toNat_inj, toNat_lowerByte, ← UInt8.toNat_inj]
  split_ifs <;> omega

theorem stripPrefix_map_lowerByte : ∀ bytes : List UInt8,
    stripPrefix (bytes.map lowerByte) = (stripPrefix bytes).map lowerByte
  | [] => rfl
  | [b] => by simp [stripPrefix]
  | b₁ :: b₂ :: rest => by
    have zero : lowerByte b₁ = 0x30 ↔ b₁ = 0x30 := lowerByte_eq_iff (by decide) (by decide)
    have ex : lowerByte b₂ = 0x78 ↔ b₂ = 0x78 ∨ b₂ = 0x58 := by
      rw [← UInt8.toNat_inj, toNat_lowerByte, ← UInt8.toNat_inj, ← UInt8.toNat_inj]
      simp only [UInt8.toNat_ofNat]
      split_ifs <;> omega
    have notUpperEx : lowerByte b₂ ≠ 0x58 := by
      intro same
      have := congrArg UInt8.toNat same
      rw [toNat_lowerByte] at this
      simp only [UInt8.toNat_ofNat] at this
      split_ifs at this <;> omega
    by_cases first : b₁ = 0x30
    · subst first
      by_cases second : b₂ = 0x78 ∨ b₂ = 0x58
      · rcases second with rfl | rfl <;> rfl
      · have notEx : b₂ ≠ 0x78 := fun same => second (.inl same)
        have notUpper : b₂ ≠ 0x58 := fun same => second (.inr same)
        have zeroKept : lowerByte 0x30 = 0x30 := by decide
        simp [stripPrefix, notEx, notUpper, zeroKept, ex, notUpperEx]
    · simp [stripPrefix, first, zero]

theorem decode_of_toLower_eq {s s' : String}
    (same : s'.toList.map Char.toLower = s.toList.map Char.toLower) {bytes : List UInt8}
    (read : decode s = .ok bytes) : decode s' = .ok bytes := by
  have lowered : ∀ t : String, (decode t).mapError HexFault.lower =
      decodeDigits (stripPrefix ((t.toList.map Char.toLower).flatMap String.utf8EncodeChar)) := by
    intro t
    rw [decode, ← map_lowerByte_utf8, stripPrefix_map_lowerByte, decodeDigits_map_lowerByte]
  have both : (decode s').mapError HexFault.lower = .ok bytes := by
    rw [lowered, same, ← lowered, read]
    rfl
  cases reread : decode s' with
  | error f => rw [reread] at both; cases both
  | ok b => rw [reread] at both; cases both; rfl

end Hex

namespace Address

/-- Text whose characters lower to those of a text that reads as an address reads as the same
address. -/
theorem parse_of_toLower_eq {s s' : String}
    (same : s'.toList.map Char.toLower = s.toList.map Char.toLower) {a : Address}
    (read : parse s = .ok a) : parse s' = .ok a := by
  unfold parse at read ⊢
  cases decoded : Hex.decode s with
  | error f => rw [decoded] at read; cases read
  | ok bytes =>
    rw [decoded] at read
    rw [Hex.decode_of_toLower_eq same decoded]
    cases found : ofBytes? bytes <;> simp_all

theorem parse_encode (a : Address) : parse (Hex.encode a.bytes) = .ok a := by
  simp [parse, Hex.decode_encode, ofBytes?, a.length_eq]

end Address

namespace Address

variable {v : UInt8}

theorem toLower_caseDigit (h : v < 16) (nibble : UInt8) :
    (caseDigit (Hex.digitChar v) nibble).toLower = Hex.digitChar v := by
  unfold caseDigit
  split
  · -- a raised letter: `A`..`F` lowers to `a`..`f`
    have code := Hex.toNat_digitChar h
    have small : v.toNat < 16 := by simpa [UInt8.lt_iff_toNat_lt] using h
    have lowered := Char.toNat_toLower (Hex.digitChar v).toUpper
    have raised := Char.toNat_toUpper (Hex.digitChar v)
    apply Char.toNat_inj.mp
    split_ifs at code raised lowered <;> omega
  · exact Char.toLower_of_isUpper_eq_false (Hex.digitChar_not_upper h)

theorem isUpper_caseDigit (h : v < 16) (nibble : UInt8) :
    (caseDigit (Hex.digitChar v) nibble).isUpper = true ↔
      ('a' ≤ Hex.digitChar v ∧ Hex.digitChar v ≤ 'f') ∧ 8 ≤ nibble := by
  rw [← Hex.isAlpha_digitChar h]
  by_cases raised : (Hex.digitChar v).isAlpha = true ∧ 8 ≤ nibble
  · -- a letter `a`..`f` is raised to `A`..`F`
    have letter := (Hex.isAlpha_digitChar h).mp raised.1
    have code := Hex.toNat_digitChar h
    have upper := Char.toNat_toUpper (Hex.digitChar v)
    rw [Char.le_iff_toNat_le, Char.le_iff_toNat_le] at letter
    have picked : caseDigit (Hex.digitChar v) nibble = (Hex.digitChar v).toUpper := by
      simp [caseDigit, raised.1, raised.2]
    refine iff_of_true ?_ raised
    rw [picked, Char.isUpper_iff, upper]
    split_ifs <;> simp at letter <;> omega
  · have kept : caseDigit (Hex.digitChar v) nibble = Hex.digitChar v := by
      unfold caseDigit
      rw [if_neg (by simpa using raised)]
    rw [kept, Hex.digitChar_not_upper h]
    simpa using raised

theorem map_toLower_zipWith_caseDigit {ds : List Char} {ns : List UInt8}
    (digits : ∀ c ∈ ds, ∃ v, v < 16 ∧ c = Hex.digitChar v) (enough : ds.length ≤ ns.length) :
    (List.zipWith caseDigit ds ns).map Char.toLower = ds := by
  induction ds generalizing ns with
  | nil => simp
  | cons c ds ih =>
    cases ns with
    | nil => simp at enough
    | cons n ns =>
      obtain ⟨v, small, rfl⟩ := digits c (by simp)
      simp only [List.zipWith_cons_cons, List.map_cons, toLower_caseDigit small]
      rw [ih (fun c mem => digits c (by simp [mem])) (by simpa using enough)]

theorem checksum_eq (a : Address) :
    a.checksum = "0x" ++ String.ofList (List.zipWith caseDigit (a.bytes.flatMap Hex.byteDigits)
      (Digest.nibbles (Digest.keccak256 (Hex.bare a.bytes).toUTF8.toList))) := rfl

theorem length_digits (a : Address) : (a.bytes.flatMap Hex.byteDigits).length = 40 := by
  rw [Hex.length_flatMap_byteDigits, a.length_eq]

/-- The checksum text is `0x` and forty characters that lower to the address's digits, each
in upper case exactly when it is a letter `a`..`f` and its nibble of the digest of the digits
is 8 or more. -/
theorem checksum_spec (a : Address) :
    ∃ cs : List Char, a.checksum = "0x" ++ String.ofList cs ∧ cs.length = 40 ∧
      cs.map Char.toLower = (Hex.bare a.bytes).toList ∧
      ∀ i (h : i < cs.length), (cs[i].isUpper = true ↔
        ('a' ≤ cs[i].toLower ∧ cs[i].toLower ≤ 'f') ∧
          8 ≤ Digest.nibble (Digest.keccak256 (Hex.bare a.bytes).toUTF8.toList) i) := by
  have digits : ∀ c ∈ a.bytes.flatMap Hex.byteDigits, ∃ v, v < 16 ∧ c = Hex.digitChar v :=
    fun _ mem => Hex.mem_flatMap_byteDigits mem
  have nibblesLength := Digest.length_nibbles (Digest.keccak256 (Hex.bare a.bytes).toUTF8.toList)
  rw [length_keccak256] at nibblesLength
  have enough : (a.bytes.flatMap Hex.byteDigits).length ≤
      (Digest.nibbles (Digest.keccak256 (Hex.bare a.bytes).toUTF8.toList)).length := by
    rw [length_digits, nibblesLength]
    omega
  have lowered := map_toLower_zipWith_caseDigit digits enough
  refine ⟨_, checksum_eq a, ?_, ?_, fun i h => ?_⟩
  · rw [List.length_zipWith, length_digits, nibblesLength]
    rfl
  · rw [lowered, Hex.bare, String.toList_ofList]
  · -- character `i` lowers to digit `i`, and its nibble is nibble `i` of the digest
    have within : i < 40 := by rwa [List.length_zipWith, length_digits, nibblesLength] at h
    have hd : i < (a.bytes.flatMap Hex.byteDigits).length := by rw [length_digits]; exact within
    have hn : i < (Digest.nibbles (Digest.keccak256 (Hex.bare a.bytes).toUTF8.toList)).length := by
      rw [nibblesLength]
      omega
    have digit : (List.zipWith caseDigit (a.bytes.flatMap Hex.byteDigits)
        (Digest.nibbles (Digest.keccak256 (Hex.bare a.bytes).toUTF8.toList)))[i].toLower =
        (a.bytes.flatMap Hex.byteDigits)[i] := by
      have same := List.getElem_of_eq lowered (by simpa using h)
      rwa [List.getElem_map] at same
    obtain ⟨v, small, named⟩ := digits _ (List.getElem_mem hd)
    rw [digit, named, List.getElem_zipWith, named, Digest.getElem_nibbles]
    exact isUpper_caseDigit small _

theorem toLower_checksum (a : Address) :
    a.checksum.toList.map Char.toLower = (Hex.encode a.bytes).toList.map Char.toLower := by
  obtain ⟨cs, written, -, lowered, -⟩ := checksum_spec a
  have bareKept : ∀ c ∈ (Hex.bare a.bytes).toList, Char.toLower c = id c :=
    fun c mem => Char.toLower_of_isUpper_eq_false (Hex.isUpper_of_mem_bare mem)
  rw [written, Hex.encode, String.toList_append, String.toList_append, List.map_append,
    List.map_append, String.toList_ofList (l := cs), lowered, List.map_congr_left bareKept,
    List.map_id]

theorem parse_checksum (a : Address) : parse a.checksum = .ok a :=
  parse_of_toLower_eq (toLower_checksum a) (parse_encode a)

end Address

/-- The checksum text of an address is `0x` and forty characters that lower to the address's
hex digits; character `i` is upper case exactly when it is a letter `a`..`f` and nibble `i` of
the Keccak-256 digest of the lowercase digits is 8 or more, nibble `i` being the high half of
digest byte `i / 2` for even `i` and the low half for odd `i`. The checksum text reads back as
the address, and any text whose characters differ from those of an address text only in case
reads as the same address, so it has the same checksum text. -/
theorem checksum_case_follows_digest :
    (∀ a : Address, ∃ cs : List Char, a.checksum = "0x" ++ String.ofList cs ∧ cs.length = 40 ∧
      cs.map Char.toLower = (Hex.bare a.bytes).toList ∧
      ∀ i (h : i < cs.length), (cs[i].isUpper = true ↔
        ('a' ≤ cs[i].toLower ∧ cs[i].toLower ≤ 'f') ∧
          8 ≤ Digest.nibble (Digest.keccak256 (Hex.bare a.bytes).toUTF8.toList) i)) ∧
    (∀ a : Address, Address.parse a.checksum = .ok a) ∧
    ∀ (s s' : String) (a : Address), Address.parse s = .ok a →
      s'.toList.map Char.toLower = s.toList.map Char.toLower →
      (Address.parse s').map Address.checksum = .ok a.checksum := by
  refine ⟨Address.checksum_spec, Address.parse_checksum, fun s s' a read same => ?_⟩
  rw [Address.parse_of_toLower_eq same read]
  rfl

/-- The address of the first checksum example of the standard,
`0x5aAeb6053F3E94C9b9A09f33669435E7Ef1BeAed`. -/
def checksumSample : Address :=
  ⟨[0x5a, 0xae, 0xb6, 0x05, 0x3f, 0x3e, 0x94, 0xc9, 0xb9, 0xa0, 0x9f, 0x33, 0x66, 0x94, 0x35,
    0xe7, 0xef, 0x1b, 0xea, 0xed], rfl⟩

theorem checksum_case_follows_digest_sample :
    Address.parse "0x5aaeb6053f3e94c9b9a09f33669435e7ef1beaed" = .ok checksumSample ∧
    (Address.parse "0X5AAEB6053F3E94C9B9A09F33669435E7EF1BEAED").map Address.checksum =
      .ok "0x5aAeb6053F3E94C9b9A09f33669435E7Ef1BeAed" := by
  have read : Address.parse "0x5aaeb6053f3e94c9b9a09f33669435e7ef1beaed" = .ok checksumSample :=
    by decide +kernel
  have written : checksumSample.checksum = "0x5aAeb6053F3E94C9b9A09f33669435E7Ef1BeAed" := by
    decide +kernel
  obtain ⟨-, -, variants⟩ := checksum_case_follows_digest
  refine ⟨read, ?_⟩
  rw [variants _ _ _ read (by decide +kernel), written]

end StakingHub
