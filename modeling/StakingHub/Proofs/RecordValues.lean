import Mathlib.Data.List.Forall2
import Mathlib.Data.List.Nodup
import Mathlib.Data.List.Perm.Basic
import StakingHub.Proofs.FieldText

/-!
# Records as JSON values

A record is written as an object with its fields in order (`writeValue`) and read from an
object member by member (`decodeValueAt`). The reader inverts the writer both ways:

* `decodeValueAt_writeValue`: reading what the writer writes gives the datum back, for every
  datum that fits the shape;
* `writeValue_sameAs`: writing what is read from a value written as the writer writes (hex in
  lowercase, decimal text without sign or leading zero, each field once) gives that value back
  up to the order of object members;
* `decodeValueAt_object_refused`: an object is refused when one field's member does not read.

Both rest on `decodeValueAt_object_eq_ok`, which says what reading an object gives: a member of
each field, read as that field's datum. Reading one member is `readMember`; the facts about a
run over all members follow from its inversion lemma `readMember_eq_ok`.
-/

namespace StakingHub.Json

theorem except_bind_eq_ok {x : Except ε α} {f : α → Except ε β} {b : β} :
    x >>= f = .ok b ↔ ∃ a, x = .ok a ∧ f a = .ok b := by
  cases x <;> simp [bind, Except.bind]

/-! ### Field slots -/

theorem length_fillSlot (slots : List (Option Datum)) (j : Nat) (d : Datum) :
    (fillSlot slots j d).length = slots.length :=
  List.length_set

theorem getD_fillSlot_self {slots : List (Option Datum)} {j : Nat} (h : j < slots.length)
    (d : Datum) : (fillSlot slots j d).getD j none = some d := by
  simp [fillSlot, List.getD_eq_getElem?_getD, h]

theorem getD_fillSlot_of_ne (slots : List (Option Datum)) {i j : Nat} (h : i ≠ j) (d : Datum) :
    (fillSlot slots j d).getD i none = slots.getD i none := by
  simp [fillSlot, List.getD_eq_getElem?_getD, Ne.symm h]

theorem key_of_findIdx? {fields : List (String × Shape)} {k : String} {j : Nat}
    (found : fields.findIdx? (fun f => f.1 == k) = some j) :
    j < fields.length ∧ (fields.getD j ("", .text)).1 = k := by
  obtain ⟨lt, same, _⟩ := List.findIdx?_eq_some_iff_getElem.mp found
  refine ⟨lt, ?_⟩
  simpa [List.getD_eq_getElem?_getD, lt] using same

theorem findIdx?_of_nodup {fields : List (String × Shape)} (names : (fields.map Prod.fst).Nodup)
    {j : Nat} (lt : j < fields.length) :
    fields.findIdx? (fun f => f.1 == (fields.getD j ("", .text)).1) = some j := by
  rw [List.findIdx?_eq_some_iff_getElem]
  refine ⟨lt, by simp [List.getD_eq_getElem?_getD, lt], fun i before same => ?_⟩
  have hi : i < (fields.map Prod.fst).length := by simp; omega
  have hj : j < (fields.map Prod.fst).length := by simpa using lt
  have keys : (fields.map Prod.fst)[i] = (fields.map Prod.fst)[j] := by
    simpa [List.getD_eq_getElem?_getD, lt] using same
  have := (List.Nodup.getElem_inj_iff names).mp keys
  omega

/-! ### Reading an object -/

/-- One member of an object read into the field slots of a record: a member of a field fills
that field's slot unless it is filled already, any other member is skipped. -/
def readMember (fuel : Nat) (fields : List (String × Shape)) (slots : List (Option Datum))
    (member : String × Value) : Except Error (List (Option Datum)) :=
  match fields.findIdx? (fun f => f.1 == member.1) with
  | some j =>
    match slots.getD j none with
    | some _ => .error (unplaced (.duplicateField member.1))
    | none => do
      let d ← decodeValueAt fuel (fields.getD j ("", .text)).2 member.2
      pure (fillSlot slots j d)
  | none => pure slots

theorem decodeValueAt_object (fuel : Nat) (name : String) (fields : List (String × Shape))
    (members : List (String × Value)) :
    decodeValueAt (fuel + 1) (.record name fields) (.object members) = (do
      let slots ← members.foldlM (readMember fuel fields) (fields.map fun _ => none)
      match firstMissing fields slots with
      | some f => .error (unplaced (.missingField f))
      | none => pure (.record (slots.map fun o => o.getD default))) := rfl

variable {fuel : Nat} {fields : List (String × Shape)}

/-- What reading one member can do: skip a member of no field, or fill the empty slot of its
field with the datum read from its value. -/
theorem readMember_eq_ok {slots slots' : List (Option Datum)} {member : String × Value}
    (h : readMember fuel fields slots member = .ok slots') :
    (fields.findIdx? (fun f => f.1 == member.1) = none ∧ slots' = slots) ∨
    ∃ j d, fields.findIdx? (fun f => f.1 == member.1) = some j ∧ slots.getD j none = none ∧
      decodeValueAt fuel (fields.getD j ("", .text)).2 member.2 = .ok d ∧
      slots' = fillSlot slots j d := by
  unfold readMember at h
  split at h
  · rename_i j found
    split at h
    · cases h
    · rename_i empty
      obtain ⟨d, read, filled⟩ := except_bind_eq_ok.mp h
      cases filled
      exact .inr ⟨j, d, found, empty, read, rfl⟩
  · rename_i missing
    cases h
    exact .inl ⟨missing, rfl⟩

/-! The members read one after another; each fact below is by induction over the members,
from `readMember_eq_ok` for the member in front. -/

theorem length_foldlM_readMember {members : List (String × Value)}
    {slots slots' : List (Option Datum)}
    (h : members.foldlM (readMember fuel fields) slots = .ok slots') :
    slots'.length = slots.length := by
  induction members generalizing slots with
  | nil => cases h; rfl
  | cons member rest ih =>
    rw [List.foldlM_cons] at h
    obtain ⟨next, step, later⟩ := except_bind_eq_ok.mp h
    rw [ih later]
    rcases readMember_eq_ok step with ⟨_, rfl⟩ | ⟨j, d, _, _, _, rfl⟩
    · rfl
    · exact length_fillSlot slots j d

theorem getD_foldlM_readMember_of_filled {members : List (String × Value)}
    {slots slots' : List (Option Datum)} {j : Nat} {d : Datum}
    (h : members.foldlM (readMember fuel fields) slots = .ok slots')
    (filled : slots.getD j none = some d) : slots'.getD j none = some d := by
  induction members generalizing slots with
  | nil => cases h; exact filled
  | cons member rest ih =>
    rw [List.foldlM_cons] at h
    obtain ⟨next, step, later⟩ := except_bind_eq_ok.mp h
    apply ih later
    rcases readMember_eq_ok step with ⟨_, rfl⟩ | ⟨i, e, _, empty, _, rfl⟩
    · exact filled
    · have differ : j ≠ i := by
        rintro rfl
        rw [filled] at empty
        cases empty
      rw [getD_fillSlot_of_ne slots differ]
      exact filled

theorem getD_foldlM_readMember {members : List (String × Value)}
    {slots slots' : List (Option Datum)} (length : slots.length = fields.length)
    (h : members.foldlM (readMember fuel fields) slots = .ok slots')
    {member : String × Value} (mem : member ∈ members) {j : Nat}
    (found : fields.findIdx? (fun f => f.1 == member.1) = some j) :
    ∃ d, decodeValueAt fuel (fields.getD j ("", .text)).2 member.2 = .ok d ∧
      slots'.getD j none = some d := by
  induction members generalizing slots with
  | nil => cases mem
  | cons first rest ih =>
    rw [List.foldlM_cons] at h
    obtain ⟨next, step, later⟩ := except_bind_eq_ok.mp h
    rcases List.mem_cons.mp mem with rfl | mem
    · -- The member in front fills its slot, which then stays filled.
      rcases readMember_eq_ok step with ⟨missing, _⟩ | ⟨i, d, found', _, read, rfl⟩
      · rw [found] at missing
        cases missing
      · rw [found] at found'
        cases found'
        have lt : j < slots.length := length ▸ (key_of_findIdx? found).1
        exact ⟨d, read, getD_foldlM_readMember_of_filled later (getD_fillSlot_self lt d)⟩
    · apply ih _ later mem
      rcases readMember_eq_ok step with ⟨_, rfl⟩ | ⟨i, d, _, _, _, rfl⟩
      · exact length
      · rw [length_fillSlot]
        exact length

theorem foldlM_readMember_succeeds {members : List (String × Value)}
    (keys : (members.map Prod.fst).Nodup) {slots : List (Option Datum)}
    (ready : ∀ member ∈ members, ∀ j, fields.findIdx? (fun f => f.1 == member.1) = some j →
      slots.getD j none = none ∧
        ∃ d, decodeValueAt fuel (fields.getD j ("", .text)).2 member.2 = .ok d) :
    ∃ slots', members.foldlM (readMember fuel fields) slots = .ok slots' := by
  induction members generalizing slots with
  | nil => exact ⟨slots, rfl⟩
  | cons member rest ih =>
    rw [List.map_cons, List.nodup_cons] at keys
    rw [List.foldlM_cons]
    cases found : fields.findIdx? (fun f => f.1 == member.1) with
    | none =>
      have skip : readMember fuel fields slots member = .ok slots := by
        simp only [readMember, found]
        rfl
      rw [skip]
      exact ih keys.2 (fun m mem => ready m (List.mem_cons_of_mem _ mem))
    | some j =>
      obtain ⟨empty, d, read⟩ := ready member (List.mem_cons_self ..) j found
      have fill : readMember fuel fields slots member = .ok (fillSlot slots j d) := by
        simp only [readMember, found, empty, read]
        rfl
      rw [fill]
      apply ih keys.2
      intro m mem i found_m
      obtain ⟨empty_m, read_m⟩ := ready m (List.mem_cons_of_mem _ mem) i found_m
      have differ : i ≠ j := by
        rintro rfl
        have same := (key_of_findIdx? found_m).2.symm.trans (key_of_findIdx? found).2
        exact keys.1 (same ▸ List.mem_map_of_mem mem)
      rw [getD_fillSlot_of_ne slots differ]
      exact ⟨empty_m, read_m⟩

theorem value_unique {members : List (String × Value)} (keys : (members.map Prod.fst).Nodup)
    {k : String} {w w' : Value} (mem : (k, w) ∈ members) (mem' : (k, w') ∈ members) :
    w = w' := by
  have same := List.inj_on_of_nodup_map keys mem mem' rfl
  exact (Prod.mk.inj same).2

theorem firstMissing_eq_none {slots : List (Option Datum)} (length : slots.length = fields.length)
    (filled : ∀ j < fields.length, (slots.getD j none).isSome) :
    firstMissing fields slots = none := by
  simp only [firstMissing, Option.map_eq_none_iff, List.find?_eq_none]
  intro p mem
  obtain ⟨i, lt, rfl⟩ := List.mem_iff_getElem.mp mem
  have lt_fields : i < fields.length := by simp at lt; omega
  have some_i := filled i lt_fields
  simp [List.getD_eq_getElem?_getD, length ▸ lt_fields] at some_i
  simp [List.getElem_zip, Option.isSome_iff_ne_none.mp some_i]

/-- Reading an object whose keys are distinct and name every field of a record: it gives the
record exactly when the member of each field reads as that field's datum. -/
theorem decodeValueAt_object_eq_ok {name : String} {members : List (String × Value)} {d : Datum}
    (names : (fields.map Prod.fst).Nodup) (keys : (members.map Prod.fst).Nodup)
    (cover : ∀ f ∈ fields, ∃ w, (f.1, w) ∈ members) :
    decodeValueAt (fuel + 1) (.record name fields) (.object members) = .ok d ↔
      ∃ ds, d = .record ds ∧
        List.Forall₂ (fun f e => ∃ w, (f.1, w) ∈ members ∧ decodeValueAt fuel f.2 w = .ok e)
          fields ds := by
  have start : (fields.map fun _ => (none : Option Datum)).length = fields.length := by simp
  rw [decodeValueAt_object]
  constructor
  · intro h
    obtain ⟨slots, fold, finish⟩ := except_bind_eq_ok.mp h
    have length := (length_foldlM_readMember fold).trans start
    split at finish
    · cases finish
    · cases finish
      refine ⟨_, rfl, List.forall₂_iff_get.mpr ⟨by simp [length], fun i lt _ => ?_⟩⟩
      obtain ⟨w, mem⟩ := cover _ (List.get_mem fields ⟨i, lt⟩)
      have key : (fields.getD i ("", .text)).1 = (fields.get ⟨i, lt⟩).1 := by
        simp [List.getD_eq_getElem?_getD, lt]
      have found := findIdx?_of_nodup names lt
      rw [key] at found
      obtain ⟨e, read, slot⟩ := getD_foldlM_readMember start fold mem found
      refine ⟨w, mem, ?_⟩
      simp [List.getD_eq_getElem?_getD, lt, length ▸ lt] at read slot ⊢
      rw [slot]
      exact read
  · rintro ⟨ds, rfl, each⟩
    obtain ⟨same_length, each⟩ := List.forall₂_iff_get.mp each
    have slot_read : ∀ j (lt : j < fields.length) (w : Value),
        ((fields.getD j ("", .text)).1, w) ∈ members →
        decodeValueAt fuel (fields.getD j ("", .text)).2 w = .ok (ds.getD j default) := by
      intro j lt w mem
      obtain ⟨w', mem', read⟩ := each j lt (same_length ▸ lt)
      have get_j : fields.get ⟨j, lt⟩ = fields.getD j ("", .text) := by
        simp [List.getD_eq_getElem?_getD, lt]
      rw [get_j] at mem' read
      rw [value_unique keys mem mem']
      simpa [List.getD_eq_getElem?_getD, same_length ▸ lt] using read
    have ready : ∀ member ∈ members, ∀ j,
        fields.findIdx? (fun f => f.1 == member.1) = some j →
        (fields.map fun _ => (none : Option Datum)).getD j none = none ∧
          ∃ d, decodeValueAt fuel (fields.getD j ("", .text)).2 member.2 = .ok d := by
      intro member mem j found
      obtain ⟨lt, key⟩ := key_of_findIdx? found
      refine ⟨by simp [List.getD_eq_getElem?_getD, lt], _,
        slot_read j lt member.2 ?_⟩
      rw [key]
      exact mem
    obtain ⟨slots, fold⟩ := foldlM_readMember_succeeds keys ready
    have length := (length_foldlM_readMember fold).trans start
    have slot : ∀ j < fields.length, slots.getD j none = some (ds.getD j default) := by
      intro j lt
      obtain ⟨w, mem⟩ := cover _ (List.get_mem fields ⟨j, lt⟩)
      have key : (fields.get ⟨j, lt⟩).1 = (fields.getD j ("", .text)).1 := by
        simp [List.getD_eq_getElem?_getD, lt]
      rw [key] at mem
      obtain ⟨e, read, filled⟩ :=
        getD_foldlM_readMember start fold mem (findIdx?_of_nodup names lt)
      rw [slot_read j lt w mem] at read
      cases read
      exact filled
    have missing := firstMissing_eq_none length (fun j lt => by rw [slot j lt]; rfl)
    rw [fold]
    simp only [bind, Except.bind, missing]
    have data : slots.map (fun o => o.getD default) = ds := by
      apply List.ext_getElem (by simp [length, same_length])
      intro j lt_slots lt_ds
      have lt : j < fields.length := by simpa [length] using lt_slots
      have filled := slot j lt
      simp [List.getD_eq_getElem?_getD, length ▸ lt, lt_ds] at filled
      simp [filled]
    rw [data]
    rfl

/-- The fields of a record shape; other shapes have none. -/
def Shape.fieldsOf : Shape → List (String × Shape)
  | .record _ fields => fields
  | _ => []

/-- An object is refused as a record when the member of one of its fields does not read as a
datum of that field. -/
theorem decodeValueAt_object_refused {name : String} {members : List (String × Value)}
    (names : (fields.map Prod.fst).Nodup) {f : String × Shape} (field : f ∈ fields) {w : Value}
    (mem : (f.1, w) ∈ members) (refused : ∀ e, decodeValueAt fuel f.2 w ≠ .ok e) (d : Datum) :
    decodeValueAt (fuel + 1) (.record name fields) (.object members) ≠ .ok d := by
  intro h
  rw [decodeValueAt_object] at h
  obtain ⟨slots, fold, _⟩ := except_bind_eq_ok.mp h
  obtain ⟨j, lt, rfl⟩ := List.mem_iff_getElem.mp field
  have at_j : fields.getD j ("", .text) = fields[j] := by simp [List.getD_eq_getElem?_getD, lt]
  have found := findIdx?_of_nodup names lt
  rw [at_j] at found
  obtain ⟨e, read, _⟩ := getD_foldlM_readMember (by simp) fold mem found
  rw [at_j] at read
  exact refused e read

/-! ### Leaves -/

theorem decodeValueAt_decimalText_eq_ok {s : String} {d : Datum} :
    decodeValueAt (fuel + 1) .decimalText (.string s) = .ok d ↔
      ∃ n, parseDecimal s = .ok n ∧ d = .nat n := by
  simp only [decodeValueAt, leafOfString]
  cases parseDecimal s <;> simp [Functor.map, Except.map, eq_comm]

theorem decodeValueAt_hexBytes_eq_ok {len : Nat} {s : String} {d : Datum} :
    decodeValueAt (fuel + 1) (.hexBytes len) (.string s) = .ok d ↔
      ∃ bytes, parseHexBytes len s = .ok bytes ∧ d = .bytes bytes := by
  simp only [decodeValueAt, leafOfString]
  cases parseHexBytes len s <;> simp [Functor.map, Except.map, eq_comm]

theorem decodeValueAt_natural_eq_ok {v : Value} {d : Datum} :
    decodeValueAt (fuel + 1) .natural v = .ok d ↔ ∃ n, v = .nat n ∧ d = .nat n := by
  rcases v with _ | _ | (n | n | f) | _ | _ | _ <;> simp [decodeValueAt, Value.nat, eq_comm]

theorem decodeValueAt_text_eq_ok {v : Value} {d : Datum} :
    decodeValueAt (fuel + 1) .text v = .ok d ↔ ∃ s, v = .string s ∧ d = .text s := by
  rcases v with _ | _ | _ | s | _ | _ <;> simp [decodeValueAt, leafOfString, eq_comm]

theorem decodeValueAt_hexBytes_refused {len : Nat} {s : String}
    (bad : ¬(s.utf8ByteSize = 2 * len ∧ ∀ c ∈ s.toList, c.isHexDigit)) (d : Datum) :
    decodeValueAt (fuel + 1) (.hexBytes len) (.string s) ≠ .ok d := by
  intro read
  obtain ⟨bytes, parsed, _⟩ := decodeValueAt_hexBytes_eq_ok.mp read
  exact bad (parseHexBytes_accepts_iff.mp ⟨bytes, parsed⟩)

/-! ### Writing a datum -/

mutual
/-- The JSON value a record writer gives a datum of a shape: decimal text, bare hex, a number,
a string, or an object with the fields in order. -/
def writeValue : Shape → Datum → Value
  | .decimalText, .nat n => .string (toString n)
  | .hexBytes _, .bytes b => .string (Hex.bare b)
  | .natural, .nat n => .nat n
  | .text, .text s => .string s
  | .record _ fields, .record ds => .object (writeMembers fields ds)
  | _, _ => .null

/-- The members a record writer gives the fields of a record, in field order. -/
def writeMembers : List (String × Shape) → List Datum → List (String × Value)
  | (k, shape) :: fields, d :: ds => (k, writeValue shape d) :: writeMembers fields ds
  | _, _ => []
end

theorem keys_writeMembers {fields : List (String × Shape)} {ds : List Datum}
    (length : fields.length = ds.length) :
    (writeMembers fields ds).map Prod.fst = fields.map Prod.fst := by
  induction fields generalizing ds with
  | nil => cases ds <;> rfl
  | cons field fields ih =>
    cases ds with
    | nil => cases length
    | cons d ds => simp [writeMembers, ih (Nat.succ.inj length)]

theorem mem_writeMembers_of_mem_zip {fields : List (String × Shape)} {ds : List Datum}
    {f : String × Shape} {d : Datum} (mem : (f, d) ∈ fields.zip ds) :
    (f.1, writeValue f.2 d) ∈ writeMembers fields ds := by
  induction fields generalizing ds with
  | nil => cases mem
  | cons field fields ih =>
    cases ds with
    | nil => cases mem
    | cons e ds =>
      rcases List.mem_cons.mp mem with same | mem
      · cases same
        exact List.mem_cons_self ..
      · exact List.mem_cons_of_mem _ (ih mem)

theorem exists_of_mem_writeMembers {fields : List (String × Shape)} {ds : List Datum}
    {k : String} {w : Value} (mem : (k, w) ∈ writeMembers fields ds) :
    ∃ f d, (f, d) ∈ fields.zip ds ∧ k = f.1 ∧ w = writeValue f.2 d := by
  induction fields generalizing ds with
  | nil => cases ds <;> cases mem
  | cons field fields ih =>
    cases ds with
    | nil => cases mem
    | cons e ds =>
      rcases List.mem_cons.mp mem with same | mem
      · cases same
        exact ⟨field, e, List.mem_cons_self .., rfl, rfl⟩
      · obtain ⟨f, d, mem_zip, key, value⟩ := ih mem
        exact ⟨f, d, List.mem_cons_of_mem _ mem_zip, key, value⟩

/-- A datum the writer writes for a shape, with records nested at most `depth` deep: a number
of a decimal field below `2^64`, bytes as many as their field holds, and a record with distinct
field names and a datum for each field. -/
inductive Fits : Nat → Shape → Datum → Prop
  | decimal {depth n : Nat} : n < Nat.pow 2 64 → Fits depth .decimalText (.nat n)
  | hex {depth length : Nat} {b : List UInt8} : b.length = length →
      Fits depth (.hexBytes length) (.bytes b)
  | natural {depth n : Nat} : Fits depth .natural (.nat n)
  | text {depth : Nat} {s : String} : Fits depth .text (.text s)
  | record {depth : Nat} {name : String} {fields : List (String × Shape)} {ds : List Datum} :
      (fields.map Prod.fst).Nodup → fields.length = ds.length →
      (∀ p ∈ fields.zip ds, Fits depth p.1.2 p.2) →
      Fits (depth + 1) (.record name fields) (.record ds)

/-- Reading what the writer writes gives the datum back, with fuel for one level more than the
datum's nesting. -/
theorem decodeValueAt_writeValue {depth : Nat} {shape : Shape} {d : Datum}
    (fits : Fits depth shape d) (fuel : Nat) :
    decodeValueAt (fuel + depth + 1) shape (writeValue shape d) = .ok d := by
  induction fits generalizing fuel with
  | decimal small =>
    exact decodeValueAt_decimalText_eq_ok.mpr ⟨_, parseDecimal_toString small, rfl⟩
  | hex length => exact decodeValueAt_hexBytes_eq_ok.mpr ⟨_, parseHexBytes_bare length, rfl⟩
  | natural => exact decodeValueAt_natural_eq_ok.mpr ⟨_, rfl, rfl⟩
  | text => exact decodeValueAt_text_eq_ok.mpr ⟨_, rfl, rfl⟩
  | @record depth name fields ds names length _ ih =>
    have keys := keys_writeMembers length
    have cover : ∀ f ∈ fields, ∃ w, (f.1, w) ∈ writeMembers fields ds := by
      intro f mem
      obtain ⟨i, lt, rfl⟩ := List.mem_iff_getElem.mp mem
      have mem_zip : (fields[i], ds[i]) ∈ fields.zip ds := by
        rw [List.mem_iff_getElem]
        exact ⟨i, by simp; omega, by simp⟩
      exact ⟨_, mem_writeMembers_of_mem_zip mem_zip⟩
    rw [show fuel + (depth + 1) + 1 = fuel + depth + 1 + 1 by omega]
    refine (decodeValueAt_object_eq_ok names (keys ▸ names) cover).mpr ⟨ds, rfl, ?_⟩
    refine List.forall₂_iff_zip.mpr ⟨length, fun {f e} mem => ?_⟩
    exact ⟨_, mem_writeMembers_of_mem_zip mem, ih (f, e) mem fuel⟩

/-! ### Reading a value written as the writer writes -/

/-- Two JSON values that differ at most in the order of object members, whose keys are
distinct: objects compared as maps from keys to values. -/
inductive Value.SameAs : Value → Value → Prop
  | null : SameAs .null .null
  | bool (b : Bool) : SameAs (.bool b) (.bool b)
  | number (n : Number) : SameAs (.number n) (.number n)
  | string (s : String) : SameAs (.string s) (.string s)
  | array {items items' : List Value} : items.length = items'.length →
      (∀ p ∈ items.zip items', SameAs p.1 p.2) → SameAs (.array items) (.array items')
  | object {members members' : List (String × Value)} : (members.map Prod.fst).Nodup →
      (members.map Prod.fst).Perm (members'.map Prod.fst) →
      (∀ k w w', (k, w) ∈ members → (k, w') ∈ members' → SameAs w w') →
      SameAs (.object members) (.object members')

/-- A value written for a shape as the writer writes it, up to the order of object members: a
record is an object holding each of its fields once and nothing else, hex digits are
lowercase, and decimal text starts neither with the sign `+` (the only one reading takes) nor
with a zero, unless it is `0`. -/
inductive Canonical : Shape → Value → Prop
  | decimal {s : String} : s.toList.head? ≠ some '+' →
      (s.toList.head? = some '0' → s = "0") → Canonical .decimalText (.string s)
  | hex {length : Nat} {s : String} : (∀ c ∈ s.toList, c.isUpper = false) →
      Canonical (.hexBytes length) (.string s)
  | natural {v : Value} : Canonical .natural v
  | text {v : Value} : Canonical .text v
  | record {name : String} {fields : List (String × Shape)} {members : List (String × Value)} :
      (members.map Prod.fst).Nodup → (members.map Prod.fst).Perm (fields.map Prod.fst) →
      (∀ f ∈ fields, ∀ w, (f.1, w) ∈ members → Canonical f.2 w) →
      Canonical (.record name fields) (.object members)

theorem canonical_writeValue {depth : Nat} {shape : Shape} {d : Datum} (fits : Fits depth shape d) :
    Canonical shape (writeValue shape d) := by
  induction fits with
  | @decimal depth n small =>
    have text : (toString n).toList = Nat.toDigits 10 n := by
      rw [Nat.toString_eq_repr, Nat.repr_eq_ofList_toDigits, String.toList_ofList]
    have ⟨unsigned, noZero⟩ := head?_toDigits n
    refine .decimal (text ▸ unsigned) fun zero => ?_
    rw [noZero (text ▸ zero)]
    rfl
  | hex => exact .hex fun c mem => Hex.isUpper_of_mem_bare mem
  | natural => exact .natural
  | text => exact .text
  | @record depth name fields ds names length _ ih =>
    have keys := keys_writeMembers length
    refine .record (keys ▸ names) (by rw [keys]) fun f mem w mem_w => ?_
    obtain ⟨f', e, mem_zip, key, rfl⟩ := exists_of_mem_writeMembers mem_w
    have same : f = f' := List.inj_on_of_nodup_map names mem (List.of_mem_zip mem_zip).1 key
    subst same
    exact ih (f, e) mem_zip

/-- Writing what is read from a value written as the writer writes gives that value back, up
to the order of object members. -/
theorem writeValue_sameAs {fuel : Nat} {shape : Shape} {v : Value} {d : Datum}
    (canonical : Canonical shape v) (read : decodeValueAt fuel shape v = .ok d) :
    (writeValue shape d).SameAs v := by
  induction fuel generalizing shape v d with
  | zero => cases read
  | succ fuel ih =>
    cases canonical with
    | decimal unsigned noLeadingZero =>
      obtain ⟨n, parsed, rfl⟩ := decodeValueAt_decimalText_eq_ok.mp read
      rw [writeValue, toString_of_parseDecimal parsed unsigned noLeadingZero]
      exact .string _
    | hex lower =>
      obtain ⟨bytes, parsed, rfl⟩ := decodeValueAt_hexBytes_eq_ok.mp read
      rw [writeValue, bare_of_parseHexBytes parsed lower]
      exact .string _
    | natural =>
      obtain ⟨n, rfl, rfl⟩ := decodeValueAt_natural_eq_ok.mp read
      exact .number _
    | text =>
      obtain ⟨s, rfl, rfl⟩ := decodeValueAt_text_eq_ok.mp read
      exact .string _
    | @record name fields members keys perm fieldsCanonical =>
      have names : (fields.map Prod.fst).Nodup := perm.nodup_iff.mp keys
      have cover : ∀ f ∈ fields, ∃ w, (f.1, w) ∈ members := by
        intro f mem
        have key : f.1 ∈ members.map Prod.fst := perm.mem_iff.mpr (List.mem_map_of_mem mem)
        obtain ⟨⟨k, w⟩, mem_w, rfl⟩ := List.mem_map.mp key
        exact ⟨w, mem_w⟩
      obtain ⟨ds, rfl, each⟩ := (decodeValueAt_object_eq_ok names keys cover).mp read
      obtain ⟨length, each⟩ := List.forall₂_iff_zip.mp each
      rw [writeValue]
      have written := keys_writeMembers length
      refine .object (by rwa [written]) (by rw [written]; exact perm.symm) ?_
      intro k w w' mem mem'
      obtain ⟨f, e, mem_zip, rfl, rfl⟩ := exists_of_mem_writeMembers mem
      obtain ⟨w'', mem'', read_f⟩ := each mem_zip
      rw [value_unique keys mem' mem''] at *
      exact ih (fieldsCanonical f (List.of_mem_zip mem_zip).1 w'' mem'') read_f

end StakingHub.Json
