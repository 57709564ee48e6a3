import StakingHub.Protocol.Hashing
import StakingHub.Protocol.Signing
import StakingHub.Protocol.Relay
import StakingHub.Protocol.Records
import StakingHub.Protocol.Scenario

/-!
# One request line, one answer line

A line of input holds one request object naming its operation under `op`; the answer is one
line of JSON.
-/

namespace StakingHub.Protocol

open Json

/-- The answer to a request object. -/
def answer (req : Value) : Value :=
  let outcome : Outcome := do
    match ← needString req "op" with
    | "keccak256" => answerKeccak req
    | "keccak256_many" => answerKeccakMany req
    | "personal_message_hash" => answerPersonalHash req
    | "decode_hex" => answerDecodeHex req
    | "parse_address" => answerParseAddress req
    | "address_word" => answerAddressWord req
    | "key_address" => answerKeyAddress req
    | "sign_personal" => answerSignPersonal req
    | "sign_prehash" => answerSignPrehash req
    | "recover" => answerRecover req
    | "recover_personal" => answerRecoverPersonal req
    | "normalize_recovery_id" => answerNormalizeRecoveryId req
    | "signature_parse" => answerSignatureParse req
    | "whitelist_hash" => answerWhitelistHash req
    | "salt_commitment" => answerSaltCommitment req
    | "deposit_hash" => answerDepositHash req
    | "relay_recipient" => answerRelayRecipient req
    | "recipient_parse" => answerRecipientParse req
    | "relay_open" => answerRelayOpen req
    | "relay_seal_open" => answerRelaySealOpen req
    | "sym_roundtrip" => answerSymRoundtrip req
    | "pubkey_parse" => answerPubkeyParse req
    | "deposit_data_parse" => answerDepositDataParse req
    | "exit_message_parse" => answerExitMessageParse req
    | "exit_roundtrip" => answerExitRoundtrip req
    | "decrypt_exit" => answerDecryptExit req
    | "templates" => answerTemplates req
    | "generation_parse" => answerGenerationParse req
    | "status_transition" => answerStatusTransition req
    | "minipool_limit" => answerMinipoolLimit req
    | "scenario" => answerScenario req
    | op => malformed ("unknown op " ++ op)
  outcome.toValue

/-- The answer line to a request line. -/
def answerLine (line : String) : String :=
  match Value.parse line with
  | .ok req => (answer req).render
  | .error e => (Failure.request ("bad json: " ++ e.message)).toValue.render

end StakingHub.Protocol
