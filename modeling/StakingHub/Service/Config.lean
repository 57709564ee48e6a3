import StakingHub.Account.Address

/-!
# How the service is configured

The service emulates one of two API generations. They differ in the message a node signs to
register and in what a second exit message for the same validator does: the older generation
overwrites it, the current one refuses it. Session nonces are either reusable or good for one
login. Messages are rendered from templates by replacing `{nonce}` or `{email}` first and then
`{address}` with the checksum address (`crates/ns-mock/src/domain/value_objects.rs:150-240`,
`crates/ns-mock/src/config.rs:8-70`).

Replacing a nonempty pattern replaces every occurrence from left to right, without overlap; the
replacement is not scanned again, so replacing two patterns one after the other also replaces
the second where the first replacement brought it in. Reading a generation trims the characters
of the Unicode `White_Space` property from both ends: tab to carriage return, space, next line,
no-break space, ogham space mark, en quad to hair space, the line and paragraph separators,
narrow no-break space, medium mathematical space and ideographic space.
-/

namespace StakingHub

namespace Text

/-- Replaces every occurrence of `pattern` (not empty), left to right and without overlap,
scanning only the text as given. -/
def replaceAll (text pattern replacement : List Char) : List Char :=
  match pattern with
  | [] => text
  | p :: ps =>
    let rec go (fuel : Nat) (rest : List Char) : List Char :=
      match fuel, rest with
      | 0, r => r
      | _, [] => []
      | fuel + 1, c :: cs =>
        if (c :: cs).take (ps.length + 1) = p :: ps then
          replacement ++ go fuel ((c :: cs).drop (ps.length + 1))
        else c :: go fuel cs
    go text.length text

/-- `replaceAll` on strings. -/
def replaceText (text pattern replacement : String) : String :=
  String.ofList (replaceAll text.toList pattern.toList replacement.toList)

/-- Whether a character has the Unicode `White_Space` property. -/
def isBlank (c : Char) : Bool :=
  let n := c.toNat
  (0x09 ≤ n && n ≤ 0x0d) || n = 0x20 || n = 0x85 || n = 0xa0 || n = 0x1680 ||
    (0x2000 ≤ n && n ≤ 0x200a) || n = 0x2028 || n = 0x2029 || n = 0x202f || n = 0x205f ||
    n = 0x3000

/-- The text without blank characters at either end. -/
def trimBlank (s : String) : String :=
  String.ofList ((s.toList.dropWhile isBlank).reverse.dropWhile isBlank).reverse

theorem isBlank_of_isWhitespace (c : Char) (h : c.isWhitespace = true) : isBlank c = true := by
  simp only [Char.isWhitespace, Bool.or_eq_true, decide_eq_true_eq] at h
  rcases h with ((h | h) | h) | h <;> subst h <;> decide

end Text

/-- The API generation the service emulates. -/
inductive Generation where
  | v2
  | v3
  deriving DecidableEq, Repr

/-- What a second exit message for a validator does. -/
inductive ExitPolicy where
  | overwrite
  | rejectDuplicate
  deriving DecidableEq, Repr

/-- Whether a session nonce may be used for more than one login. -/
inductive NoncePolicy where
  | reusable
  | singleUse
  deriving DecidableEq, Repr

/-- The message templates for logging in and registering. -/
structure Templates where
  login : String
  register : String
  deriving DecidableEq, Repr

/-- The placeholder of the session nonce. -/
def noncePlaceholder : String := "\x7bnonce\x7d"

/-- The placeholder of the user's email. -/
def emailPlaceholder : String := "\x7bemail\x7d"

/-- The placeholder of the node's checksum address. -/
def addressPlaceholder : String := "\x7baddress\x7d"

namespace Templates

/-- The login message for a nonce and a node. -/
def loginMessage (t : Templates) (nonce : String) (node : Address) : String :=
  Text.replaceText (Text.replaceText t.login noncePlaceholder nonce) addressPlaceholder
    node.checksum

/-- The registration message for an email and a node. -/
def registerMessage (t : Templates) (email : String) (node : Address) : String :=
  Text.replaceText (Text.replaceText t.register emailPlaceholder email) addressPlaceholder
    node.checksum

end Templates

namespace Generation

/-- The exit policy of a generation. -/
def exitPolicy : Generation → ExitPolicy
  | .v2 => .overwrite
  | .v3 => .rejectDuplicate

/-- The templates of a generation. -/
def templates (g : Generation) : Templates :=
  { login := "nonce: " ++ noncePlaceholder ++ "\naddress: " ++ addressPlaceholder
    register := match g with
      | .v2 => emailPlaceholder ++ ":" ++ addressPlaceholder
      | .v3 => "email: " ++ emailPlaceholder ++ "\nnode: " ++ addressPlaceholder }

/-- Reads a generation: blanks around it are ignored and ASCII letters in either case
accepted; `v2` or `2`, `v3` or `3`. -/
def parse? (text : String) : Option Generation :=
  let t := String.ofList ((Text.trimBlank text).toList.map Char.toLower)
  if t = "v2" || t = "2" then some .v2
  else if t = "v3" || t = "3" then some .v3
  else none

/-- The name of a generation. -/
def name : Generation → String
  | .v2 => "V2"
  | .v3 => "V3"

end Generation

/-- The name of an exit policy. -/
def ExitPolicy.name : ExitPolicy → String
  | .overwrite => "Overwrite"
  | .rejectDuplicate => "RejectDuplicate"

/-- The service's configuration; templates override those of the generation. -/
structure Config where
  generation : Generation := .v3
  noncePolicy : NoncePolicy := .reusable
  templates? : Option Templates := none
  deriving DecidableEq, Repr

/-- The templates in force. -/
def Config.templates (c : Config) : Templates :=
  c.templates?.getD c.generation.templates

/-- The exit policy in force. -/
def Config.exitPolicy (c : Config) : ExitPolicy :=
  c.generation.exitPolicy

end StakingHub
