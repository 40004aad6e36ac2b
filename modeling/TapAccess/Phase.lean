/-!
# Phases of a transaction

The endpoint's side of a handshake passes through five phases. `Phase.Legal` says from which to which it
may move; staying in a phase is always legal.
-/

namespace TapAccess

/-- How far a handshake has come on the endpoint's side. -/
inductive Phase where
  | initial
  | selectDone
  | auth0FastDone
  | auth0StandardDone
  | auth1Done
  deriving DecidableEq, Repr

namespace Phase

def name : Phase → String
  | .initial => "Initial"
  | .selectDone => "SelectDone"
  | .auth0FastDone => "Auth0FastDone"
  | .auth0StandardDone => "Auth0StandardDone"
  | .auth1Done => "Auth1Done"

/-- The moves between different phases that are allowed. -/
def edges : List (Phase × Phase) := [
  (.initial, .selectDone),
  (.selectDone, .initial),
  (.selectDone, .auth0FastDone),
  (.selectDone, .auth0StandardDone),
  (.auth0FastDone, .initial),
  (.auth0FastDone, .selectDone),
  (.auth0FastDone, .auth1Done),
  (.auth0StandardDone, .initial),
  (.auth0StandardDone, .auth1Done),
  (.auth1Done, .initial),
  (.auth1Done, .selectDone)]

/-- A transaction may move from the one phase to the other. -/
def Legal (source target : Phase) : Prop := source = target ∨ (source, target) ∈ edges

instance (source target : Phase) : Decidable (Legal source target) :=
  inferInstanceAs (Decidable (_ ∨ _))

end Phase

end TapAccess
