import StakingHub.Number.Binary64

/-!
# JSON values

A number is kept in the class it was read in: an unsigned 64-bit integer, a negative 64-bit
integer, or a binary64 value for every other numeral. Objects keep their members as a list;
values read from text hold each key once, in ascending key order. Writing is compact, with the
escapes JSON requires and every other character as is.

They are what the records of `crates/ns-mock/src/domain/payloads.rs:12-110` are read from.
-/

namespace StakingHub.Json

/-- A JSON number in the class it was read in. -/
inductive Number where
  /-- An integer in `[0, 2^64)`. -/
  | unsigned (n : Nat)
  /-- An integer in `[-2^63, 0)`. -/
  | signed (n : Int)
  /-- Any other numeral, rounded to binary64. -/
  | float (f : Binary64)
  deriving DecidableEq, Repr

/-- A JSON value. -/
inductive Value where
  | null
  | bool (b : Bool)
  | number (n : Number)
  | string (s : String)
  | array (items : List Value)
  | object (members : List (String × Value))
  deriving Repr, Inhabited

/-- The text of a number. Binary64 values are written as integers when they are whole;
answers carry no others. -/
def Number.render : Number → String
  | .unsigned n => toString n
  | .signed n => toString n
  | .float (.finite s m q) =>
    let magnitude := if 0 ≤ q then m * Nat.pow 2 q.toNat else m / Nat.pow 2 (-q).toNat
    (if s then "-" else "") ++ toString magnitude
  | .float (.infinite _) => "null"

namespace Value

/-- A natural number as a JSON number. -/
def nat (n : Nat) : Value := .number (.unsigned n)

/-- The member of an object under a key. -/
def field? (v : Value) (key : String) : Option Value :=
  match v with
  | .object members => members.lookup key
  | _ => none

/-- The hex digit of a value below sixteen, lowercase. -/
def hexDigit (n : Nat) : Char :=
  if n < 10 then Char.ofNat (0x30 + n) else Char.ofNat (0x61 + n - 10)

/-- How a character stands inside a JSON string. -/
def escapeChar (c : Char) : List Char :=
  if c = '"' then ['\\', '"']
  else if c = '\\' then ['\\', '\\']
  else if c = '\n' then ['\\', 'n']
  else if c = '\r' then ['\\', 'r']
  else if c = '\t' then ['\\', 't']
  else if c = '\x08' then ['\\', 'b']
  else if c = '\x0c' then ['\\', 'f']
  else if c.toNat < 0x20 then
    ['\\', 'u', '0', '0', hexDigit (c.toNat / 16), hexDigit (c.toNat % 16)]
  else [c]

/-- A string as JSON text. -/
def quote (s : String) : String :=
  String.ofList ('"' :: s.toList.flatMap escapeChar ++ ['"'])

mutual
/-- Compact JSON text of a value. -/
def render : Value → String
  | .null => "null"
  | .bool b => if b then "true" else "false"
  | .number n => n.render
  | .string s => quote s
  | .array items => "[" ++ ",".intercalate (renderItems items) ++ "]"
  | .object members => "\x7b" ++ ",".intercalate (renderMembers members) ++ "\x7d"

/-- The texts of array items. -/
def renderItems : List Value → List String
  | [] => []
  | v :: rest => render v :: renderItems rest

/-- The texts of object members. -/
def renderMembers : List (String × Value) → List String
  | [] => []
  | (k, v) :: rest => (quote k ++ ":" ++ render v) :: renderMembers rest
end

end Value

end StakingHub.Json
