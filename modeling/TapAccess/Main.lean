import TapAccess.CommandLine

/-!
# The program

Reads the arguments, the file or the standard input that they name, and random bytes; prints the output
or the reason why there is none.
-/

namespace TapAccess.Main

def seedLength : Nat := 32

/-- An endless stream that grows out of a seed: the tags of consecutive numbers under it. -/
def expandSeed (seed : Bytes) : RandomSource where
  byte i := (Hmac.tag seed (Bytes.ofNat 8 (i / 32))).toList.getD (i % 32) 0
  drawn := 0

def readText (path : String) : IO (Except String String) := do
  match ← (IO.FS.readFile path).toBaseIO with
  | .ok text => return .ok text
  | .error (.noFileOrDirectory _ _ _) => return .error "No such file or directory (os error 2)"
  | .error e => return .error (toString e)

/-- The path of the file that an invocation names. -/
def path? : CommandLine.Invocation → Option String
  | .simulate _ path => path
  | .parseApdu _ => none

/-- The invocation reads the standard input. -/
def readsInput : CommandLine.Invocation → Bool
  | .parseApdu .standardInput => true
  | _ => false

end TapAccess.Main

open TapAccess in
/-- Runs the program; the exit code is 0 for an output, 1 for a failure and 2 for wrong usage. -/
def main (arguments : List String) : IO UInt32 := do
  match CommandLine.parse? arguments with
  | none =>
    IO.eprint CommandLine.usage
    return 2
  | some .help =>
    IO.print CommandLine.usage
    return 0
  | some (.run invocation) =>
    let input ← if Main.readsInput invocation then (← IO.getStdin).readToEnd else pure ""
    let file ← match Main.path? invocation with
      | some path => Main.readText path
      | none => pure (.error "")
    let seed ← IO.getRandomBytes (USize.ofNat Main.seedLength)
    let (result, log) := CommandLine.run input file (Main.expandSeed seed.toList) invocation
    for event in log do
      if event.level ≠ .debug then IO.eprintln event.line
    match result with
    | .ok text =>
      IO.print text
      return 0
    | .error failure =>
      IO.eprint failure.report
      return 1
