import StakingHub.Account.Address
import StakingHub.Validator.Pubkey
import StakingHub.Validator.Status

/-!
# Failures of the service

Every way a request to the service can fail, with its text, the key a client receives, the
category it belongs to, and whether it points at a mistake in the service's setup rather than
in the request.

Modelled on `MockError`, its messages, keys and categories
(`crates/ns-mock/src/domain/errors.rs:11-302`).
-/

namespace StakingHub

/-- The family a service failure belongs to. -/
inductive FaultCategory where
  | inputValidation
  | authentication
  | authorization
  | conflict
  | administrative
  deriving DecidableEq, Repr

/-- The name of a category. -/
def FaultCategory.name : FaultCategory → String
  | .inputValidation => "InputValidation"
  | .authentication => "Authentication"
  | .authorization => "Authorization"
  | .conflict => "Conflict"
  | .administrative => "Administrative"

/-- A failure of a service request. -/
inductive ServiceFault where
  | malformedInput (text : String)
  | malformedRecipientKey (text : String)
  | corruptCiphertext (text : String)
  | invalidSession
  | invalidSignature
  | signatureMismatch (expected actual : Address)
  | invalidNonce
  | unregisteredNode (node : Address)
  | alreadyRegistered (node : Address)
  | addressMissingWhitelist (node : Address)
  | deploymentNotFound (name : String)
  | vaultNotFound (vault : Address)
  | vaultMismatch (pubkey : ValidatorPubkey) (vault : Address)
  | minipoolLimitReached (user : String) (limit : Nat)
  | missingExitMessage (pubkey : ValidatorPubkey)
  | invalidPermissions (text : String)
  | missingPrivateKey (deployment : String)
  | exitMessageAlreadyExists (pubkey : ValidatorPubkey)
  | snapshotNotFound (name : String)
  | userNotFound (email : String)
  | userAlreadyExists (email : String)
  | nodeAlreadyWhitelisted (node : Address)
  | deploymentAlreadyExists (name : String)
  | vaultAlreadyExists (vault : Address)
  | validatorNotFound (pubkey : ValidatorPubkey)
  | minipoolAlreadyAssigned (pubkey : ValidatorPubkey)
  | invalidStatusTransition (pubkey : ValidatorPubkey) (src dst : ValidatorStatus)
  | identityNotConfigured
  | signingFailed (text : String)

namespace ServiceFault

/-- The name of the failure's kind. -/
def kind : ServiceFault → String
  | .malformedInput _ => "MalformedInput"
  | .malformedRecipientKey _ => "MalformedRecipientKey"
  | .corruptCiphertext _ => "CorruptCiphertext"
  | .invalidSession => "InvalidSession"
  | .invalidSignature => "InvalidSignature"
  | .signatureMismatch .. => "SignatureMismatch"
  | .invalidNonce => "InvalidNonce"
  | .unregisteredNode _ => "UnregisteredNode"
  | .alreadyRegistered _ => "AlreadyRegistered"
  | .addressMissingWhitelist _ => "AddressMissingWhitelist"
  | .deploymentNotFound _ => "DeploymentNotFound"
  | .vaultNotFound _ => "VaultNotFound"
  | .vaultMismatch .. => "VaultMismatch"
  | .minipoolLimitReached .. => "MinipoolLimitReached"
  | .missingExitMessage _ => "MissingExitMessage"
  | .invalidPermissions _ => "InvalidPermissions"
  | .missingPrivateKey _ => "MissingPrivateKey"
  | .exitMessageAlreadyExists _ => "ExitMessageAlreadyExists"
  | .snapshotNotFound _ => "SnapshotNotFound"
  | .userNotFound _ => "UserNotFound"
  | .userAlreadyExists _ => "UserAlreadyExists"
  | .nodeAlreadyWhitelisted _ => "NodeAlreadyWhitelisted"
  | .deploymentAlreadyExists _ => "DeploymentAlreadyExists"
  | .vaultAlreadyExists _ => "VaultAlreadyExists"
  | .validatorNotFound _ => "ValidatorNotFound"
  | .minipoolAlreadyAssigned _ => "MinipoolAlreadyAssigned"
  | .invalidStatusTransition .. => "InvalidStatusTransition"
  | .identityNotConfigured => "IdentityNotConfigured"
  | .signingFailed _ => "SigningFailed"

/-- The text of a failure; addresses in checksum form, keys as `0x` hex. -/
def message : ServiceFault → String
  | .malformedInput t => "Malformed input: " ++ t
  | .malformedRecipientKey t => "Malformed recipient key: " ++ t
  | .corruptCiphertext t => "Corrupt ciphertext: " ++ t
  | .invalidSession => "Invalid session"
  | .invalidSignature => "Invalid signature"
  | .signatureMismatch e a =>
    "Signature mismatch: expected " ++ e.checksum ++ ", recovered " ++ a.checksum
  | .invalidNonce => "Invalid nonce"
  | .unregisteredNode n => "Node " ++ n.checksum ++ " is not registered"
  | .alreadyRegistered n => "Node " ++ n.checksum ++ " is already registered"
  | .addressMissingWhitelist n => "Node " ++ n.checksum ++ " has not been whitelisted"
  | .deploymentNotFound d => "Deployment not found: " ++ d
  | .vaultNotFound v => "Vault not found: " ++ v.checksum
  | .vaultMismatch k v =>
    "Deposit data for " ++ k.toHex ++ " does not withdraw to vault " ++ v.checksum
  | .minipoolLimitReached u l =>
    "Minipool limit of " ++ toString l ++ " reached for user " ++ u
  | .missingExitMessage k => "Validator " ++ k.toHex ++ " is missing an exit message"
  | .invalidPermissions t => "Invalid permissions: " ++ t
  | .missingPrivateKey d => "Deployment " ++ d ++ " has no admin private key"
  | .exitMessageAlreadyExists k => "Exit message already exists for " ++ k.toHex
  | .snapshotNotFound n => "Snapshot not found: " ++ n
  | .userNotFound e => "User not found: " ++ e
  | .userAlreadyExists e => "User already exists: " ++ e
  | .nodeAlreadyWhitelisted n => "Node " ++ n.checksum ++ " is already whitelisted"
  | .deploymentAlreadyExists d => "Deployment already exists: " ++ d
  | .vaultAlreadyExists v => "Vault already exists: " ++ v.checksum
  | .validatorNotFound k => "Validator not found: " ++ k.toHex
  | .minipoolAlreadyAssigned k => "Validator " ++ k.toHex ++ " already has a minipool"
  | .invalidStatusTransition k s d =>
    "Invalid status transition for " ++ k.toHex ++ ": " ++ s.name ++ " -> " ++ d.name
  | .identityNotConfigured => "Exit-message identity not configured"
  | .signingFailed t => "Signing failed: " ++ t

/-- The key a client receives for the failure. -/
def key : ServiceFault → String
  | .malformedInput _ | .malformedRecipientKey _ | .corruptCiphertext _ => "malformed_input"
  | .invalidSession => "invalid_session"
  | .invalidSignature | .signatureMismatch .. => "invalid_signature"
  | .invalidNonce => "invalid_nonce"
  | .unregisteredNode _ => "unregistered_address"
  | .alreadyRegistered _ => "address_already_authorized"
  | .addressMissingWhitelist _ => "address_missing_whitelist"
  | .deploymentNotFound _ => "invalid_deployment"
  | .vaultNotFound _ | .vaultMismatch .. => "invalid_vault"
  | .minipoolLimitReached .. => "minipool_limit_reached"
  | .missingExitMessage _ => "missing_exit_message"
  | .exitMessageAlreadyExists _ => "exit_message_exists"
  | .invalidPermissions _ => "invalid_permissions"
  | _ => "server_error"

/-- The category of the failure. -/
def category : ServiceFault → FaultCategory
  | .malformedInput _ | .malformedRecipientKey _ | .corruptCiphertext _ => .inputValidation
  | .invalidSession | .invalidSignature | .signatureMismatch .. | .invalidNonce
  | .unregisteredNode _ | .alreadyRegistered _ => .authentication
  | .addressMissingWhitelist _ | .deploymentNotFound _ | .vaultNotFound _ | .vaultMismatch ..
  | .minipoolLimitReached .. | .missingExitMessage _ | .invalidPermissions _
  | .missingPrivateKey _ => .authorization
  | .exitMessageAlreadyExists _ => .conflict
  | _ => .administrative

/-- Whether the failure points at the service's setup rather than at the request. -/
def isSetupFault : ServiceFault → Bool
  | .missingPrivateKey _ | .signingFailed _ => true
  | _ => false

/-- A crypto fault met while serving a request: signing failures keep their kind, every other
fault is malformed input with the fault's text. -/
def ofCrypto : CryptoFault → ServiceFault
  | .signingFailed => .signingFailed "signature error"
  | f => .malformedInput f.message

end ServiceFault

end StakingHub
