import StakingHub.Proofs.RecordValues
import StakingHub.Json.Stream

/-!
# Records as JSON text

A record is written as the compact text of its value (`writeValue`), and the streaming reader
`readShape` reads a record from text byte by byte. Reading the written text gives the record
back (`decodeText_writeValue`) for every datum that fits its shape, when the shape's leaves are
decimal numbers and hex bytes and its field names need no escapes (`Shape.Unescaped`): such a
record is written with no escape at all, as exit messages are.

The reader works on a byte array and an offset. `Holds s i bytes` says that `bytes` stand in
`s` from offset `i` on; each lemma below reads bytes that hold at an offset and says where
reading ends: a string that needs no escapes (`readString_unescaped`), a leaf, the members of an
object (`readRecordMembers_written`), and a whole record (`readsBack_of_fits`), by induction
over `Fits`.
-/

namespace StakingHub.Json

open Value (quote escapeChar render renderMembers)

/-! ### Bytes at an offset -/

/-- The bytes stand in the array from offset `i` on. -/
def Holds (s : ByteArray) (i : Nat) (bytes : List UInt8) : Prop :=
  ∀ k (lt : k < bytes.length), byteAt? s (i + k) = some bytes[k]

theorem holds_nil (s : ByteArray) (i : Nat) : Holds s i [] :=
  fun _ lt => absurd lt (by simp)

theorem holds_cons {s : ByteArray} {i : Nat} {b : UInt8} {bytes : List UInt8} :
    Holds s i (b :: bytes) ↔ byteAt? s i = some b ∧ Holds s (i + 1) bytes := by
  constructor
  · intro h
    refine ⟨h 0 (by simp), fun k lt => ?_⟩
    have := h (k + 1) (by simp; omega)
    rwa [show i + (k + 1) = i + 1 + k by omega] at this
  · rintro ⟨head, tail⟩ k lt
    cases k with
    | zero => exact head
    | succ k =>
      have := tail k (by simp at lt; omega)
      rwa [show i + 1 + k = i + (k + 1) by omega] at this

theorem holds_append {s : ByteArray} {i : Nat} {a b : List UInt8} :
    Holds s i (a ++ b) ↔ Holds s i a ∧ Holds s (i + a.length) b := by
  induction a generalizing i with
  | nil => simp [holds_nil]
  | cons x a ih =>
    rw [List.cons_append, holds_cons, holds_cons, ih, List.length_cons,
      show i + 1 + a.length = i + (a.length + 1) by omega, and_assoc]

theorem size_ofList (bytes : List UInt8) : (⟨bytes.toArray⟩ : ByteArray).size = bytes.length := by
  rw [← ByteArray.size_data]
  simp

theorem byteAt?_ofList (bytes : List UInt8) (i : Nat) :
    byteAt? ⟨bytes.toArray⟩ i = bytes[i]? := by
  unfold byteAt?
  have size := size_ofList bytes
  split
  · rename_i lt
    rw [List.getElem?_eq_getElem (size ▸ lt), ByteArray.getElem_eq_getElem_data]
    simp
  · rw [List.getElem?_eq_none (by omega)]

theorem holds_ofList (bytes : List UInt8) : Holds ⟨bytes.toArray⟩ 0 bytes := by
  intro k lt
  rw [byteAt?_ofList, Nat.zero_add, List.getElem?_eq_getElem lt]

theorem lt_size_of_byteAt? {s : ByteArray} {i : Nat} {b : UInt8} (h : byteAt? s i = some b) :
    i < s.size := by
  unfold byteAt? at h
  split at h
  · assumption
  · cases h

theorem skipBlank_of_byteAt? {s : ByteArray} {i : Nat} {b : UInt8} (h : byteAt? s i = some b)
    (blank : ¬(b = 0x20 ∨ b = 0x0a ∨ b = 0x09 ∨ b = 0x0d)) : skipBlank s i = i := by
  unfold byteAt? at h
  split at h
  · rename_i lt
    cases h
    rw [skipBlank, dif_pos lt]
    simp only [Bool.or_eq_true, decide_eq_true_eq, or_assoc]
    rw [if_neg blank]
  · cases h

theorem skipBlank_of_size_le {s : ByteArray} {i : Nat} (h : s.size ≤ i) : skipBlank s i = i := by
  rw [skipBlank, dif_neg (by omega)]

/-! ### Strings that need no escapes -/

/-- A character that a JSON string holds as itself, in one byte: printable ASCII other than the
quote and the backslash. -/
def UnescapedChar (c : Char) : Prop :=
  0x20 ≤ c.toNat ∧ c.toNat < 0x80 ∧ c ≠ '"' ∧ c ≠ '\\'

instance : DecidablePred UnescapedChar := fun _ => inferInstanceAs (Decidable (_ ∧ _))

/-- Text that a JSON string holds as itself. -/
def Unescaped (t : String) : Prop :=
  ∀ c ∈ t.toList, UnescapedChar c

-- The list's own instance, named: deciding a bound over characters may otherwise pick an
-- instance that runs through every character.
instance : DecidablePred Unescaped := fun t => List.decidableBAll UnescapedChar t.toList

theorem unescapedChar_iff {c : Char} :
    UnescapedChar c ↔ 0x20 ≤ c.toNat ∧ c.toNat < 0x80 ∧ c.toNat ≠ 0x22 ∧ c.toNat ≠ 0x5c := by
  have quote : '"'.toNat = 0x22 := rfl
  have backslash : '\\'.toNat = 0x5c := rfl
  simp only [UnescapedChar, ne_eq, ← Char.toNat_inj, quote, backslash]

theorem escapeChar_of_unescaped {c : Char} (h : UnescapedChar c) : escapeChar c = [c] := by
  obtain ⟨printable, _, notQuote, notBackslash⟩ := h
  have control : ∀ d : Char, d.toNat < 0x20 → c ≠ d := fun _ _ same => by
    subst same
    omega
  unfold escapeChar
  rw [if_neg notQuote, if_neg notBackslash, if_neg (control _ (by decide)),
    if_neg (control _ (by decide)), if_neg (control _ (by decide)), if_neg (control _ (by decide)),
    if_neg (control _ (by decide)), if_neg (by omega)]

theorem utf8_of_unescaped {t : String} (h : Unescaped t) :
    t.toUTF8.toList = t.toList.map fun c => c.toNat.toUInt8 := by
  rw [utf8_eq_flatMap, List.flatMap_congr (fun c mem => utf8EncodeChar_of_le (by
    have := (h c mem).2.1
    omega)), List.map_eq_flatMap]

theorem byte_of_unescaped {t : String} (h : Unescaped t) {b : UInt8} (mem : b ∈ t.toUTF8.toList) :
    0x20 ≤ b ∧ b ≠ 0x22 ∧ b ≠ 0x5c ∧ b < 0x80 := by
  rw [utf8_of_unescaped h, List.mem_map] at mem
  obtain ⟨c, mem_c, rfl⟩ := mem
  obtain ⟨printable, ascii, notQuote, notBackslash⟩ := unescapedChar_iff.mp (h c mem_c)
  simp only [UInt8.le_iff_toNat_le, UInt8.lt_iff_toNat_lt, ne_eq, ← UInt8.toNat_inj]
  simp [Nat.toUInt8, UInt8.toNat_ofNat]
  omega

theorem utf8_quote {t : String} (h : Unescaped t) :
    (quote t).toUTF8.toList = 0x22 :: t.toUTF8.toList ++ [0x22] := by
  have same : t.toList.flatMap escapeChar = t.toList := by
    rw [List.flatMap_congr (fun c mem => escapeChar_of_unescaped (h c mem)),
      List.flatMap_singleton']
  have quoted : quote t = "\"" ++ t ++ "\"" := by
    apply String.ext
    simp [quote, same]
  have mark : "\"".toUTF8.toList = [0x22] := by
    rw [utf8_eq_flatMap]
    decide
  rw [quoted, utf8_append, utf8_append, mark]
  rfl

theorem utf8InvalidAt?_of_lt {bytes : List UInt8} (ascii : ∀ b ∈ bytes, b < 0x80) (k : Nat) :
    utf8InvalidAt? bytes k = none := by
  induction bytes generalizing k with
  | nil => rfl
  | cons b bytes ih =>
    unfold utf8InvalidAt?
    rw [if_pos (ascii b (List.mem_cons_self ..))]
    exact ih (fun x mem => ascii x (List.mem_cons_of_mem _ mem)) (k + 1)

theorem readStringBytes_plain {s : ByteArray} {i : Nat} {plain : List UInt8} (acc : Array UInt8)
    {fuel : Nat} (holds : Holds s i (plain ++ [0x22]))
    (bytes : ∀ b ∈ plain, 0x20 ≤ b ∧ b ≠ 0x22 ∧ b ≠ 0x5c) (enough : plain.length < fuel) :
    readStringBytes s fuel i acc = .ok (acc ++ plain.toArray, i + plain.length + 1) := by
  induction plain generalizing i acc fuel with
  | nil =>
    obtain ⟨fuel, rfl⟩ : ∃ f, fuel = f + 1 := ⟨fuel - 1, by simp at enough; omega⟩
    rw [readStringBytes, (holds_cons.mp holds).1]
    simp
  | cons b plain ih =>
    obtain ⟨fuel, rfl⟩ : ∃ f, fuel = f + 1 := ⟨fuel - 1, by simp at enough; omega⟩
    obtain ⟨printable, notQuote, notBackslash⟩ := bytes b (List.mem_cons_self ..)
    obtain ⟨head, tail⟩ := holds_cons.mp holds
    rw [readStringBytes, head]
    split
    · rename_i same
      cases same
    · rename_i same
      cases same
      exact absurd rfl notQuote
    · rename_i same
      cases same
      exact absurd rfl notBackslash
    · rename_i c _ _ same
      cases same
      rw [if_neg (by simp only [UInt8.le_iff_toNat_le, UInt8.lt_iff_toNat_lt] at printable ⊢; omega),
        ih _ tail (fun x mem => bytes x (List.mem_cons_of_mem _ mem)) (by simp at enough; omega)]
      simp [Nat.add_assoc, Nat.add_comm 1]

/-- A string that needs no escapes, followed by its closing quote, reads as itself. -/
theorem readString_unescaped {s : ByteArray} {i : Nat} {t : String} (h : Unescaped t)
    (holds : Holds s i (t.toUTF8.toList ++ [0x22])) :
    readString s i = .ok (t, i + t.toUTF8.toList.length + 1) := by
  have close := (holds_cons.mp ((holds_append.mp holds).2)).1
  have size := lt_size_of_byteAt? close
  have bytes : ByteArray.mk (#[] ++ t.toUTF8.toList.toArray) = t.toByteArray := by
    rw [Array.empty_append, ByteArray.toList_eq_data, Array.toArray_toList]
    rfl
  unfold readString
  rw [readStringBytes_plain #[] holds (fun b mem => by
    obtain ⟨printable, notQuote, notBackslash, _⟩ := byte_of_unescaped h mem
    exact ⟨printable, notQuote, notBackslash⟩) (by omega)]
  simp only [bind, Except.bind, pure, Except.pure]
  rw [utf8InvalidAt?_of_lt (fun b mem => by
    simp only [Array.toList_append, List.nil_append] at mem
    exact (byte_of_unescaped h mem).2.2.2)]
  simp only [bytes, String.fromUTF8?, dif_pos t.isValidUTF8]
  rfl

/-! ### Leaves -/

theorem unescaped_toString (n : Nat) : Unescaped (toString n) := by
  intro c mem
  rw [Nat.toString_eq_repr, Nat.repr_eq_ofList_toDigits, String.toList_ofList] at mem
  have digit := isDigit_of_mem_toDigits mem
  simp only [Char.isDigit, Bool.and_eq_true, decide_eq_true_eq, UInt32.le_iff_toNat_le] at digit
  have code : c.toNat = c.val.toNat := rfl
  rw [unescapedChar_iff, code]
  simp at digit
  omega

theorem unescapedChar_digitChar {v : UInt8} (h : v < 16) : UnescapedChar (Hex.digitChar v) := by
  have code := Hex.toNat_digitChar h
  rw [UInt8.lt_iff_toNat_lt] at h
  simp at h
  rw [unescapedChar_iff, code]
  split_ifs <;> omega

theorem unescaped_bare (bytes : List UInt8) : Unescaped (Hex.bare bytes) := by
  intro c mem
  simp only [Hex.bare, String.toList_ofList, List.mem_flatMap, Hex.byteDigits, List.mem_cons,
    List.not_mem_nil, or_false] at mem
  obtain ⟨b, _, rfl | rfl⟩ := mem
  · exact unescapedChar_digitChar (Hex.halves_lt b).1
  · exact unescapedChar_digitChar (Hex.halves_lt b).2

theorem readShape_leaf {s : ByteArray} {i : Nat} {leaf : Shape}
    (isLeaf : leaf = .decimalText ∨ ∃ n, leaf = .hexBytes n) {str : String} (h : Unescaped str)
    (holds : Holds s i (quote str).toUTF8.toList) {d : Datum}
    (read : leafOfString leaf str = .ok d) (fuel : Nat) :
    readShape s (fuel + 1) leaf i = .ok (d, i + (quote str).toUTF8.toList.length) := by
  rw [utf8_quote h] at holds ⊢
  obtain ⟨opening, rest⟩ := holds_cons.mp holds
  have skip := skipBlank_of_byteAt? opening (by decide)
  have string := readString_unescaped h rest
  have after : i + (0x22 :: str.toUTF8.toList ++ [0x22]).length =
      i + 1 + str.toUTF8.toList.length + 1 := by
    simp
    omega
  rcases isLeaf with rfl | ⟨n, rfl⟩ <;>
  · rw [after]
    simp only [readShape, skip, opening, string, leafAt, read]

/-! ### Written text -/

/-- The UTF-8 bytes of a value's compact text. -/
def textBytes (v : Value) : List UInt8 :=
  v.render.toUTF8.toList

/-- The bytes of an object member: its quoted key, a colon and its value. -/
def memberBytes (m : String × Value) : List UInt8 :=
  (quote m.1 ++ ":" ++ render m.2).toUTF8.toList

/-- The bytes of object members in order, each after a comma but the first when `first`. -/
def membersBytes (first : Bool) : List (String × Value) → List UInt8
  | [] => []
  | m :: ms => (if first then [] else [0x2c]) ++ memberBytes m ++ membersBytes false ms

theorem utf8_intercalate_members : ∀ ms : List (String × Value),
    (",".intercalate (renderMembers ms)).toUTF8.toList = membersBytes true ms
  | [] => by
    rw [renderMembers, String.intercalate_nil, utf8_eq_flatMap]
    rfl
  | [(k, v)] => by
    rw [renderMembers, renderMembers, String.intercalate_singleton]
    simp [membersBytes, memberBytes]
  | (k, v) :: m :: ms => by
    have comma : ",".toUTF8.toList = [0x2c] := by
      rw [utf8_eq_flatMap]
      decide
    have rest : renderMembers (m :: ms) ≠ [] := by
      obtain ⟨k', v'⟩ := m
      simp [renderMembers]
    rw [renderMembers, String.intercalate_cons_of_ne_nil rest, utf8_append, utf8_append,
      utf8_intercalate_members (m :: ms), comma]
    simp [membersBytes, memberBytes]

theorem textBytes_object (ms : List (String × Value)) :
    textBytes (.object ms) = 0x7b :: membersBytes true ms ++ [0x7d] := by
  have opening : "\x7b".toUTF8.toList = [0x7b] := by
    rw [utf8_eq_flatMap]
    decide
  have closing : "\x7d".toUTF8.toList = [0x7d] := by
    rw [utf8_eq_flatMap]
    decide
  rw [textBytes, render, utf8_append, utf8_append, opening, closing, utf8_intercalate_members]
  rfl

theorem memberBytes_of_unescaped {k : String} (h : Unescaped k) (v : Value) :
    memberBytes (k, v) = 0x22 :: k.toUTF8.toList ++ 0x22 :: 0x3a :: textBytes v := by
  have colon : ":".toUTF8.toList = [0x3a] := by
    rw [utf8_eq_flatMap]
    decide
  rw [memberBytes, utf8_append, utf8_append, utf8_quote h, colon, textBytes]
  simp

/-! ### Members and records -/

theorem nextEntry_member {s : ByteArray} {i : Nat} {first : Bool} {eof commaOrEnd : Malformation}
    (holds : Holds s i ((if first then [] else [0x2c]) ++ [0x22])) :
    nextEntry s i first 0x7d eof commaOrEnd = .ok (some (i + if first then 0 else 1)) := by
  cases first with
  | true =>
    have quote := (holds_cons.mp holds).1
    simp [nextEntry, skipBlank_of_byteAt? quote (by decide), quote]
  | false =>
    obtain ⟨comma, rest⟩ := holds_cons.mp holds
    have quote := (holds_cons.mp rest).1
    simp [nextEntry, skipBlank_of_byteAt? comma (by decide), comma,
      skipBlank_of_byteAt? quote (by decide)]

theorem nextEntry_close {s : ByteArray} {i : Nat} {first : Bool} {eof commaOrEnd : Malformation}
    (h : byteAt? s i = some 0x7d) : nextEntry s i first 0x7d eof commaOrEnd = .ok none := by
  simp [nextEntry, skipBlank_of_byteAt? h (by decide), h]

/-- A shape written with no escapes: its leaves are decimal numbers and hex bytes, both written
as digits, and its field names need no escapes. -/
inductive Shape.Unescaped : Shape → Prop
  | decimal : Shape.Unescaped .decimalText
  | hex {length : Nat} : Shape.Unescaped (.hexBytes length)
  | record {name : String} {fields : List (String × Shape)} :
      (∀ f ∈ fields, Json.Unescaped f.1) → (∀ f ∈ fields, Shape.Unescaped f.2) →
      Shape.Unescaped (.record name fields)

/-- The reader reads the written text of `d` back as a `shape`, wherever the text stands, given
fuel beyond the text's length. -/
def ReadsBack (shape : Shape) (d : Datum) : Prop :=
  ∀ (s : ByteArray) (i fuel : Nat), Holds s i (textBytes (writeValue shape d)) →
    (textBytes (writeValue shape d)).length < fuel →
    readShape s fuel shape i = .ok (d, i + (textBytes (writeValue shape d)).length)

/-- The members written for the fields still to read are read into their slots, after those
already read. -/
theorem readRecordMembers_written {s : ByteArray} {name : String}
    {done todo : List (String × Shape)} {dsDone dsTodo : List Datum}
    (names : ((done ++ todo).map Prod.fst).Nodup) (doneLength : dsDone.length = done.length)
    (todoLength : dsTodo.length = todo.length) (keys : ∀ f ∈ todo, Unescaped f.1)
    (values : ∀ p ∈ todo.zip dsTodo, ReadsBack p.1.2 p.2) {i fuel : Nat} {first : Bool}
    (holds : Holds s i (membersBytes first (writeMembers todo dsTodo) ++ [0x7d]))
    (enough : (membersBytes first (writeMembers todo dsTodo)).length < fuel) :
    readRecordMembers s fuel name (done ++ todo) i first
        (dsDone.map some ++ todo.map fun _ => none) =
      .ok (.record (dsDone ++ dsTodo), i + (membersBytes first (writeMembers todo dsTodo)).length) := by
  induction todo generalizing done dsDone dsTodo i fuel first with
  | nil =>
    obtain rfl : dsTodo = [] := List.eq_nil_of_length_eq_zero todoLength
    obtain ⟨fuel, rfl⟩ : ∃ f, fuel = f + 1 := ⟨fuel - 1, by omega⟩
    have close : byteAt? s i = some 0x7d := (holds_cons.mp holds).1
    have filled : firstMissing done (dsDone.map some) = none :=
      firstMissing_eq_none (by simp [doneLength]) (fun j lt => by
        simp [List.getD_eq_getElem?_getD, doneLength ▸ lt])
    rw [readRecordMembers, nextEntry_close close]
    simp [filled, skipBlank_of_byteAt? close (by decide), membersBytes, writeMembers,
      Function.comp_def]
  | cons field todo ih =>
    obtain ⟨k, shape⟩ := field
    obtain ⟨d, dsTodo, rfl⟩ : ∃ d rest, dsTodo = d :: rest :=
      List.exists_cons_of_length_pos (by simp [todoLength])
    have key : Unescaped k := keys _ (List.mem_cons_self ..)
    have value : ReadsBack shape d := values ((k, shape), d) (List.mem_cons_self ..)
    have bytes : membersBytes first (writeMembers ((k, shape) :: todo) (d :: dsTodo)) =
        (if first then [] else [0x2c]) ++ 0x22 :: (k.toUTF8.toList ++
          0x22 :: 0x3a :: (textBytes (writeValue shape d) ++
            membersBytes false (writeMembers todo dsTodo))) := by
      simp [writeMembers, membersBytes, memberBytes_of_unescaped key]
    rw [bytes] at holds enough ⊢
    simp only [List.append_assoc, List.cons_append] at holds
    obtain ⟨holdsSep, holds⟩ := holds_append.mp holds
    obtain ⟨openKey, holds⟩ := holds_cons.mp holds
    obtain ⟨holdsKey, holds⟩ := holds_append.mp holds
    obtain ⟨closeKey, holds⟩ := holds_cons.mp holds
    obtain ⟨colon, holds⟩ := holds_cons.mp holds
    obtain ⟨holdsValue, holdsRest⟩ := holds_append.mp holds
    obtain ⟨fuel, rfl⟩ : ∃ f, fuel = f + 1 := ⟨fuel - 1, by simp at enough; omega⟩
    have next : nextEntry s i first 0x7d .eofWhileParsingObject .expectedObjectCommaOrEnd =
        .ok (some (i + (if first then [] else [(0x2c : UInt8)]).length)) := by
      rw [nextEntry_member (holds_append.mpr ⟨holdsSep, holds_cons.mpr ⟨openKey, holds_nil _ _⟩⟩)]
      cases first <;> rfl
    have string := readString_unescaped key
      (holds_append.mpr ⟨holdsKey, holds_cons.mpr ⟨closeKey, holds_nil _ _⟩⟩)
    have field : (done ++ (k, shape) :: todo).getD done.length ("", .text) = (k, shape) := by
      simp [List.getD_eq_getElem?_getD]
    have slot := findIdx?_of_nodup names (j := done.length) (by simp)
    rw [field] at slot
    have empty : (dsDone.map some ++ ((k, shape) :: todo).map fun _ => none).getD done.length
        none = none := by
      simp [List.getD_eq_getElem?_getD, doneLength]
    have filled : fillSlot (dsDone.map some ++ ((k, shape) :: todo).map fun _ => none)
        done.length d = (dsDone ++ [d]).map some ++ todo.map fun _ => none := by
      simp [fillSlot, List.set_append_right, doneLength]
    have read := value s _ fuel holdsValue (by simp at enough; omega)
    have rest := @ih (done ++ [(k, shape)]) (dsDone ++ [d]) dsTodo (by simpa using names)
      (by simp [doneLength]) (by simpa using todoLength)
      (fun f mem => keys f (List.mem_cons_of_mem _ mem))
      (fun p mem => values p (List.mem_cons_of_mem _ mem)) _ fuel false holdsRest
      (by simp at enough; omega)
    rw [List.append_assoc, List.singleton_append] at rest
    rw [readRecordMembers, next]
    simp only [openKey, string, slot, Option.bind_some, empty, skipBlank_of_byteAt? colon (by decide),
      colon, field, read, filled, ne_eq, not_true_eq_false, if_false, rest]
    simp only [List.append_assoc, List.singleton_append, List.length_append, List.length_cons,
      Except.ok.injEq, Prod.mk.injEq, true_and]
    omega

theorem readShape_record {s : ByteArray} {i fuel : Nat} {name : String}
    {fields : List (String × Shape)} {ds : List Datum} (names : (fields.map Prod.fst).Nodup)
    (length : fields.length = ds.length) (keys : ∀ f ∈ fields, Unescaped f.1)
    (values : ∀ p ∈ fields.zip ds, ReadsBack p.1.2 p.2)
    (holds : Holds s i (textBytes (.object (writeMembers fields ds))))
    (enough : (textBytes (.object (writeMembers fields ds))).length < fuel) :
    readShape s fuel (.record name fields) i =
      .ok (.record ds, i + (textBytes (.object (writeMembers fields ds))).length) := by
  rw [textBytes_object] at holds enough ⊢
  obtain ⟨fuel, rfl⟩ : ∃ f, fuel = f + 1 := ⟨fuel - 1, by simp at enough; omega⟩
  obtain ⟨opening, holds⟩ := holds_cons.mp holds
  have members := @readRecordMembers_written s name [] fields [] ds (by simpa using names) rfl
    length.symm keys values (i + 1) fuel true holds (by simp at enough; omega)
  have closing := (holds_cons.mp (holds_append.mp holds).2).1
  simp only [List.nil_append, List.map_nil] at members
  simp only [readShape, skipBlank_of_byteAt? opening (by decide), opening, members, closeObject,
    skipBlank_of_byteAt? closing (by decide), closing, Except.map]
  simp only [List.cons_append, List.length_cons, List.length_append, List.length_nil]
  congr 2
  omega

/-- The reader reads back the written text of every datum that fits a shape written with no
escapes. -/
theorem readsBack_of_fits {depth : Nat} {shape : Shape} {d : Datum} (fits : Fits depth shape d)
    (unescaped : shape.Unescaped) : ReadsBack shape d := by
  induction fits with
  | decimal small =>
    intro s i fuel holds enough
    obtain ⟨fuel, rfl⟩ : ∃ f, fuel = f + 1 := ⟨fuel - 1, by omega⟩
    exact readShape_leaf (.inl rfl) (unescaped_toString _) holds
      (by rw [leafOfString, parseDecimal_toString small]; rfl) fuel
  | hex length =>
    intro s i fuel holds enough
    obtain ⟨fuel, rfl⟩ : ∃ f, fuel = f + 1 := ⟨fuel - 1, by omega⟩
    exact readShape_leaf (.inr ⟨_, rfl⟩) (unescaped_bare _) holds
      (by simp [leafOfString, parseHexBytes_bare length]) fuel
  | natural => cases unescaped
  | text => cases unescaped
  | record names length _ ih =>
    cases unescaped with
    | record keys shapes =>
      intro s i fuel holds enough
      exact readShape_record names length keys
        (fun p mem => ih p mem (shapes p.1 (List.of_mem_zip mem).1)) holds enough

/-- The written text of a datum that fits a shape written with no escapes reads as that
datum. -/
theorem decodeText_writeValue {depth : Nat} {shape : Shape} {d : Datum}
    (fits : Fits depth shape d) (unescaped : shape.Unescaped) :
    shape.decodeText (textBytes (writeValue shape d)) = .ok d := by
  have size := size_ofList (textBytes (writeValue shape d))
  have read := readsBack_of_fits fits unescaped ⟨(textBytes (writeValue shape d)).toArray⟩ 0
    ((textBytes (writeValue shape d)).length + nestingLimit + 2) (holds_ofList _) (by omega)
  unfold Shape.decodeText
  simp only [read, Nat.zero_add, skipBlank_of_size_le (Nat.le_of_eq size), size,
    Nat.lt_irrefl, if_false]

end StakingHub.Json
