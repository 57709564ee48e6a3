import StakingHub.Json.Lexer

/-!
# Reading JSON values from text

A value of any shape is read from UTF-8 text. Object members are kept once per key, in
ascending key order, a later member replacing an earlier one of the same key. Brackets may
nest 127 deep.

It reads the text the records of `crates/ns-mock/src/domain/payloads.rs:12-110` are given in.
-/

namespace StakingHub.Json

/-- Inserts a member in ascending key order, replacing a member of the same key. -/
def insertMember (key : String) (v : Value) : List (String × Value) → List (String × Value)
  | [] => [(key, v)]
  | (k, w) :: rest =>
    if key = k then (key, v) :: rest
    else if key < k then (key, v) :: (k, w) :: rest
    else (k, w) :: insertMember key v rest

mutual
/-- A value starting at or after `i`; `depth` is how many more brackets may open. -/
def readValue (s : ByteArray) : Nat → Nat → Nat → Except Error (Value × Nat)
  | 0, _, i => failAt s i .eofWhileParsingValue
  | fuel + 1, depth, i =>
    let j := skipBlank s i
    match byteAt? s j with
    | none => failPeek s j .eofWhileParsingValue
    | some 0x6e => (readIdent s (j + 1) [0x75, 0x6c, 0x6c]).map fun k => (.null, k)
    | some 0x74 => (readIdent s (j + 1) [0x72, 0x75, 0x65]).map fun k => (.bool true, k)
    | some 0x66 => (readIdent s (j + 1) [0x61, 0x6c, 0x73, 0x65]).map fun k => (.bool false, k)
    | some 0x2d => (readNumber s false (j + 1)).map fun (n, k) => (.number n, k)
    | some 0x22 => (readString s (j + 1)).map fun (t, k) => (.string t, k)
    | some 0x5b =>
      if depth ≤ 1 then failPeek s j .recursionLimitExceeded
      else readItems s fuel (depth - 1) (j + 1) true []
    | some 0x7b =>
      if depth ≤ 1 then failPeek s j .recursionLimitExceeded
      else readMembers s fuel (depth - 1) (j + 1) true []
    | some c =>
      if isDigit c then (readNumber s true j).map fun (n, k) => (.number n, k)
      else failPeek s j .expectedSomeValue

/-- The items of an array after its opening bracket; `first` says that none was read yet. -/
def readItems (s : ByteArray) : Nat → Nat → Nat → Bool → List Value → Except Error (Value × Nat)
  | 0, _, i, _, _ => failAt s i .eofWhileParsingList
  | fuel + 1, depth, i, first, acc =>
    let j := skipBlank s i
    match byteAt? s j with
    | none => failPeek s j .eofWhileParsingList
    | some 0x5d => .ok (.array acc.reverse, j + 1)
    | some c =>
      let start :=
        if c = 0x2c && !first then .ok (skipBlank s (j + 1))
        else if first then .ok j
        else failPeek s j .expectedListCommaOrEnd
      match start with
      | .error e => .error e
      | .ok k =>
        match byteAt? s k with
        | some 0x5d => failPeek s k .trailingComma
        | none => failPeek s k .eofWhileParsingValue
        | some _ =>
          match readValue s fuel depth k with
          | .error e => .error e
          | .ok (v, m) => readItems s fuel depth m false (v :: acc)

/-- The members of an object after its opening brace; `first` says that none was read yet. -/
def readMembers (s : ByteArray) :
    Nat → Nat → Nat → Bool → List (String × Value) → Except Error (Value × Nat)
  | 0, _, i, _, _ => failAt s i .eofWhileParsingObject
  | fuel + 1, depth, i, first, acc =>
    let j := skipBlank s i
    match byteAt? s j with
    | none => failPeek s j .eofWhileParsingObject
    | some 0x7d => .ok (.object acc, j + 1)
    | some c =>
      let start :=
        if c = 0x2c && !first then .ok (skipBlank s (j + 1))
        else if first then .ok j
        else failPeek s j .expectedObjectCommaOrEnd
      match start with
      | .error e => .error e
      | .ok k =>
        match byteAt? s k with
        | some 0x22 =>
          match readString s (k + 1) with
          | .error e => .error e
          | .ok (key, m) =>
            let n := skipBlank s m
            match byteAt? s n with
            | some 0x3a =>
              match readValue s fuel depth (n + 1) with
              | .error e => .error e
              | .ok (v, p) => readMembers s fuel depth p false (insertMember key v acc)
            | some _ => failPeek s n .expectedColon
            | none => failPeek s n .eofWhileParsingObject
        | some 0x7d => failPeek s k .trailingComma
        | some _ => failPeek s k .keyMustBeAString
        | none => failPeek s k .eofWhileParsingValue
end

/-- Reads one JSON value filling the whole text, blanks around it apart. -/
def Value.parse (text : String) : Except Error Value := do
  let s := text.toUTF8
  let (v, i) ← readValue s (s.size + 1) 128 0
  let j := skipBlank s i
  if j < s.size then failPeek s j .trailingCharacters else pure v

end StakingHub.Json
