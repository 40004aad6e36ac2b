import TapAccess.CredentialStore

/-!
# Named key pairs

A keystore makes a key pair for a name when the name is first asked for, and keeps it.
-/

namespace TapAccess

/-- Key pairs by name. -/
structure Keystore where
  keyPairs : Table String KeyPair
  deriving DecidableEq

namespace Keystore

def empty : Keystore := ⟨[]⟩

def aliases (k : Keystore) : List String := (k.keyPairs.map (·.1)).mergeSort fun a b => a ≤ b

/-- The key pair of a name, made when there is none. -/
def keyPair {ε : Type} (name : String) : Action ε Keystore KeyPair := do
  match (← Action.own).keyPairs.get? name with
  | some known => return known
  | none =>
    Action.debug ("generating keypair for alias " ++ name)
    let made ← Action.draw RandomSource.keyPair
    Action.update fun k => ⟨k.keyPairs.put name made⟩
    return made

end Keystore

end TapAccess
