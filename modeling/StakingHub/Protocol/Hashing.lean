import StakingHub.Protocol.Request
import StakingHub.Account.Address

/-!
# Answers about digests, hex and addresses
-/

namespace StakingHub.Protocol

open Json

/-- `{"hash"}` of the data. -/
def answerKeccak (req : Value) : Outcome := do
  let data ← needData req "data"
  pure (.object [("hash", .string (Hex.encode (Digest.keccak256 data)))])

/-- `{"hash"}` of the concatenated parts; parts that are not strings are passed over. -/
def answerKeccakMany (req : Value) : Outcome := do
  let parts ← ((← needArray req "parts").filterMap fun v => stringOf? (some v)).mapM requestHex
  pure (.object [("hash", .string (Hex.encode (Digest.keccak256Many parts)))])

/-- `{"hash"}` of the personal message. -/
def answerPersonalHash (req : Value) : Outcome := do
  let message ← needData req "message"
  pure (.object [("hash", .string (Hex.encode (Digest.personalMessageHash message)))])

/-- `{"bytes", "len"}` of hex text. -/
def answerDecodeHex (req : Value) : Outcome := do
  let bytes ← liftCrypto (decodeHex (← needString req "input"))
  pure (.object [("bytes", .string (Hex.encode bytes)), ("len", .nat bytes.length)])

/-- `{"address", "checksum"}` of address text. -/
def answerParseAddress (req : Value) : Outcome := do
  let a ← liftCrypto (Address.parse (← needString req "input"))
  pure (.object [("address", .string a.toHex), ("checksum", .string a.checksum)])

/-- `{"word"}` of an address. -/
def answerAddressWord (req : Value) : Outcome := do
  let a ← liftCrypto (Address.parse (← needString req "address"))
  pure (.object [("word", .string (Hex.encode a.word))])

end StakingHub.Protocol
