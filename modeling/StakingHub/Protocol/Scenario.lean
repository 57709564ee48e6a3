import StakingHub.Protocol.Scenario.Steps

/-!
# Scenarios

A scenario configures one service, names signing keys, and runs steps against the service in
order; a failing step does not stop it. Its answer lists every step's answer and the state after
the last step.
-/

namespace StakingHub.Protocol

open Json

/-- The nonce policy a configuration names; reusable when it names none. -/
def noncePolicyOf : Option String → Except Failure NoncePolicy
  | some "reusable" => .ok .reusable
  | some "single_use" => .ok .singleUse
  | some other => malformed ("bad nonce_policy " ++ other)
  | none => .ok .reusable

/-- The service configuration of a scenario; fields of the wrong kind read as absent. -/
def configOf (config : Value) : Except Failure Config := do
  let generation ← generationOf (optString config "generation")
  let noncePolicy ← noncePolicyOf (optString config "nonce_policy")
  let templates? ← match config.field? "templates" with
    | some t => some <$> templatesOf t
    | none => pure none
  pure { generation, noncePolicy, templates? }

/-- The named keys of a scenario; a secret that is no string is empty text, which names no
key. -/
def keysOf : Option Value → List NamedKey
  | some (.object members) =>
    members.map fun (name, v) => NamedKey.ofSecret name ((stringOf? (some v)).getD "")
  | _ => []

/-- Runs a scenario: every step's answer and the final state. -/
def answerScenario (req : Value) : Outcome := do
  let config ← configOf ((req.field? "config").getD .null)
  let keys := keysOf (req.field? "keys")
  let steps ← match ← need req "steps" with
    | .array items => pure items
    | _ => malformed "steps must be an array"
  let (results, sc) := ({ service := { config }, keys } : Scenario).runSteps steps
  pure (.object [("results", .array results), ("final_state", sc.dump)])

end StakingHub.Protocol
