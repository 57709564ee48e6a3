/-!
# The lifecycle of a vault validator

A validator starts unknown, becomes pending when its deposit data is committed, uploaded when
the vault picks it up, registered when it is active on the beacon chain, and may be removed
from any state but removed itself. Removed is the only terminal state.

Modelled on `ValidatorStatus` and `can_transition_to`
(`crates/ns-mock/src/domain/value_objects.rs:105-150`).
-/

namespace StakingHub

/-- Where a vault validator is in its lifecycle. -/
inductive ValidatorStatus where
  | unknown
  | pending
  | uploaded
  | registered
  | removed
  deriving DecidableEq, Repr

namespace ValidatorStatus

/-- Whether a validator may move from one state to the other. -/
def canTransitionTo : ValidatorStatus → ValidatorStatus → Bool
  | .unknown, .pending => true
  | .pending, .uploaded => true
  | .uploaded, .registered => true
  | .removed, .removed => false
  | _, .removed => true
  | _, _ => false

/-- Whether no state follows this one. -/
def isTerminal (s : ValidatorStatus) : Bool :=
  s == .removed

/-- The name a message gives the state. -/
def name : ValidatorStatus → String
  | .unknown => "Unknown"
  | .pending => "Pending"
  | .uploaded => "Uploaded"
  | .registered => "Registered"
  | .removed => "Removed"

/-- The name records give the state. -/
def wireName : ValidatorStatus → String
  | .unknown => "UNKNOWN"
  | .pending => "PENDING"
  | .uploaded => "UPLOADED"
  | .registered => "REGISTERED"
  | .removed => "REMOVED"

/-- All states, in lifecycle order. -/
def all : List ValidatorStatus :=
  [.unknown, .pending, .uploaded, .registered, .removed]

/-- The state a record names, if any. -/
def ofWireName? : String → Option ValidatorStatus
  | "UNKNOWN" => some .unknown
  | "PENDING" => some .pending
  | "UPLOADED" => some .uploaded
  | "REGISTERED" => some .registered
  | "REMOVED" => some .removed
  | _ => none

theorem canTransitionTo_removed_iff (s : ValidatorStatus) :
    s.canTransitionTo .removed = true ↔ s ≠ .removed := by
  cases s <;> simp [canTransitionTo]

end ValidatorStatus

end StakingHub
