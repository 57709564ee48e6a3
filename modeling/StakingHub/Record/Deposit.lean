import StakingHub.Json.Stream
import StakingHub.Validator.Pubkey
import StakingHub.Account.Address

/-!
# Deposit records

A deposit record, as a deposit-data tool writes it for one validator: the validator key, the
withdrawal credentials (whose last 20 bytes are the withdrawal address), the amount in gwei,
the BLS signature, the two roots, the fork version and the network name. Byte fields are bare
hex; the amount is a JSON number.

Modelled on `DepositData` and `withdrawal_address` (`crates/ns-mock/src/domain/payloads.rs:12-48`).
-/

namespace StakingHub

/-- One validator's deposit record. -/
structure DepositRecord where
  pubkey : ValidatorPubkey
  withdrawalCredentials : List UInt8
  amount : Nat
  signature : List UInt8
  depositMessageRoot : List UInt8
  depositDataRoot : List UInt8
  forkVersion : List UInt8
  networkName : String
  deriving DecidableEq

namespace DepositRecord

open Json

/-- The record shape of a deposit record. -/
def shape : Shape :=
  .record "DepositData"
    [("pubkey", .hexBytes validatorPubkeyLength), ("withdrawal_credentials", .hexBytes 32),
     ("amount", .natural), ("signature", .hexBytes 96), ("deposit_message_root", .hexBytes 32),
     ("deposit_data_root", .hexBytes 32), ("fork_version", .hexBytes 4),
     ("network_name", .text)]

/-- The deposit record a datum of its shape holds. -/
def ofDatum : Datum → Except Error DepositRecord
  | .record [.bytes pk, .bytes wc, .nat amount, .bytes sig, .bytes mr, .bytes dr, .bytes fv,
      .text name] =>
    match ValidatorPubkey.ofBytes? pk with
    | some key => .ok ⟨key, wc, amount, sig, mr, dr, fv, name⟩
    | none => .error { fault := .custom "datum out of shape" }
  | _ => .error { fault := .custom "datum out of shape" }

/-- Reads a deposit record from a JSON value. -/
def ofValue (v : Value) : Except Error DepositRecord := do
  ofDatum (← shape.decodeValue v)

/-- The JSON value of a deposit record. -/
def toValue (d : DepositRecord) : Value :=
  .object [("pubkey", .string d.pubkey.toBare),
    ("withdrawal_credentials", .string (Hex.bare d.withdrawalCredentials)),
    ("amount", .nat d.amount), ("signature", .string (Hex.bare d.signature)),
    ("deposit_message_root", .string (Hex.bare d.depositMessageRoot)),
    ("deposit_data_root", .string (Hex.bare d.depositDataRoot)),
    ("fork_version", .string (Hex.bare d.forkVersion)), ("network_name", .string d.networkName)]

/-- The address the withdrawal credentials pay out to: their last 20 bytes. -/
def withdrawalAddress (d : DepositRecord) : Address :=
  (Address.ofBytes? (d.withdrawalCredentials.drop 12)).getD Address.zero

end DepositRecord

end StakingHub
