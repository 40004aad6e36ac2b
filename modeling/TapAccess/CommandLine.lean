import TapAccess.Blank
import TapAccess.Endpoint
import TapAccess.Keystore
import TapAccess.Reader.Transact

/-!
# The command line

Two commands: `simulate` runs a standard and then a fast transaction between a reader and an endpoint,
and `parse-apdu` explains a command frame given in hexadecimal. Both print JSON. What is read from
outside, a file or the standard input, is handed in as text.
-/

namespace TapAccess.CommandLine

/-! ### Failures -/

/-- Why a command has no output: what was being done, and what went wrong, each cause after what it
caused. -/
structure Failure where
  context : String
  causes : List String
  deriving DecidableEq, Repr

/-- The failure as it is printed: a single cause stands alone, several are numbered. -/
def Failure.report (f : Failure) : String :=
  let lines := match f.causes with
    | [cause] => ["    " ++ cause]
    | causes => causes.zipIdx.map fun (cause, i) => s!"    {i}: {cause}"
  "Error: " ++ f.context ++ "\n\nCaused by:\n" ++ String.intercalate "\n" lines ++ "\n"

/-! ### Arguments -/

/-- Where a frame is taken from. -/
inductive FrameSource where
  | argument (text : String)
  | standardInput
  deriving DecidableEq, Repr

inductive Invocation where
  | simulate (code : TransactionCode) (configurationPath : Option String)
  | parseApdu (source : FrameSource)
  deriving DecidableEq, Repr

/-- What the arguments say: what to run, or that help is wanted. -/
inductive Arguments where
  | help
  | run (invocation : Invocation)
  deriving DecidableEq, Repr

def usage : String :=
  "usage: simulate [--code CODE] [--reader-config PATH] | parse-apdu APDU\n"

structure SimulateOptions where
  code : Option TransactionCode := none
  configurationPath : Option String := none

/-- The argument is taken for an option and not for a value. -/
def looksLikeOption (argument : String) : Bool := argument.startsWith "-" && argument ≠ "-"

def asksForHelp (argument : String) : Bool := argument = "--help" || argument.startsWith "-h"

/-- Takes an option with its value; every option may be given once. -/
def SimulateOptions.set? (o : SimulateOptions) (name value : String) : Option SimulateOptions :=
  if name = "--code" ∧ o.code.isNone then
    (TransactionCode.ofText? value).map fun code => { o with code := some code }
  else if name = "--reader-config" ∧ o.configurationPath.isNone ∧ value ≠ "" then
    some { o with configurationPath := some value }
  else none

/-- An argument split at its first equals sign. -/
def splitAtEquals (argument : List Char) : List Char × Option (List Char) :=
  match argument.dropWhile (· ≠ '=') with
  | [] => (argument, none)
  | _ :: value => (argument.takeWhile (· ≠ '='), some value)

/-- The simulation with the options that have been given. -/
def SimulateOptions.invocation (o : SimulateOptions) : Invocation :=
  .simulate (o.code.getD .unlock) o.configurationPath

def simulateArguments? (o : SimulateOptions) : List String → Option Arguments
  | [] => some (.run o.invocation)
  | ["--"] => some (.run o.invocation)
  | argument :: rest =>
    if asksForHelp argument then some .help
    else
      match splitAtEquals argument.toList with
      | (name, some value) =>
        match o.set? (String.ofList name) (String.ofList value) with
        | some o => simulateArguments? o rest
        | none => none
      | (_, none) =>
        match rest with
        | [] => none
        | value :: rest =>
          if looksLikeOption value then none
          else
            match o.set? argument value with
            | some o => simulateArguments? o rest
            | none => none

def FrameSource.ofArgument (argument : String) : FrameSource :=
  if argument = "-" then .standardInput else .argument argument

/-- Reads the arguments of `parse-apdu`: one value, which may begin with a dash behind a double dash. -/
def frameArguments? : List String → Option Arguments
  | ["--", argument] => some (.run (.parseApdu (.ofArgument argument)))
  | argument :: rest =>
    if asksForHelp argument then some .help
    else if looksLikeOption argument then none
    else
      match rest with
      | [] | ["--"] => some (.run (.parseApdu (.ofArgument argument)))
      | next :: _ => if asksForHelp next then some .help else none
  | [] => none

/-- Reads the arguments; nothing when they ask for nothing that there is. -/
def parse? : List String → Option Arguments
  | "simulate" :: rest => simulateArguments? {} rest
  | "parse-apdu" :: rest => frameArguments? rest
  | ["help"] | ["help", "simulate"] | ["help", "parse-apdu"] | ["help", "help"] => some .help
  | argument :: _ =>
    if asksForHelp argument ∨ argument = "--version" ∨ argument.startsWith "-V" then some .help
    else none
  | [] => none

/-! ### Explaining a frame -/

def hexJson (bytes : Bytes) : Json := .text (Hex.encode bytes)

def optionalHexJson : Option Bytes → Json
  | some bytes => hexJson bytes
  | none => .null

/-- A request as JSON, its fields in alphabetical order. -/
def requestJson : Request → Json
  | .select c => .object [("aid", hexJson c.aid), ("command", .text "SELECT")]
  | .auth0 c => .object [
    ("command", .text "AUTH0"),
    ("fast", .bool c.fast),
    ("protocol_version", .text (Hex.word16 c.version)),
    ("reader_epk", hexJson c.readerEphemeral.encode.toList),
    ("reader_identifier", .text c.readerIdentifier.shown),
    ("transaction_code", .ofNat c.transactionCode.byte.toNat),
    ("transaction_identifier", .text c.transactionIdentifier.shown)]
  | .auth1 c => .object [
    ("certificate", optionalHexJson c.certificate),
    ("command", .text "AUTH1"),
    ("endpoint_public_key_requested", .bool c.endpointKeyRequested),
    ("reader_signature", hexJson c.readerSignature.toList)]
  | .controlFlow c => .object [
    ("command", .text "CONTROL_FLOW"),
    ("domain_specific_data", optionalHexJson c.domainData),
    ("s1", .ofNat c.s1.toNat),
    ("s2", .ofNat c.s2.toNat)]

/-- A text without its mark of hexadecimal. -/
def dropMark : List Char → List Char
  | '0' :: 'x' :: rest => rest
  | text => text

/-- Explains a frame in hexadecimal, with or without a mark in front and blanks around. -/
def explain (text : String) : Except Failure Json := do
  let bytes ← (Hex.decode (String.ofList (dropMark (Blank.trim text.toList)))).mapError fun e =>
    { context := "APDU is not valid hex", causes := [e.message] }
  let request ← (Request.decode bytes).mapError fun e =>
    { context := "could not parse command APDU", causes := [e.message] }
  return requestJson request

/-! ### Simulating transactions -/

/-- A new reader and a new endpoint that have to do with each other. -/
abbrev Simulation := Reader.Linked (Endpoint × List Reader.Exchange)

def sentAuth1 (exchanges : List Reader.Exchange) : Bool :=
  exchanges.any fun exchange => exchange.1[1]? = some Instruction.auth1.byte

/-- The result of a transaction as JSON, its fields in alphabetical order. -/
def verdictJson (name : String) (auth1Sent : Bool) : Reader.Verdict → Json
  | .authorized transactionIdentifier endpointKey => .object [
    ("auth1_sent", .bool auth1Sent),
    ("endpoint_public_key", hexJson endpointKey.encode.toList),
    ("result", .text "authorized"),
    ("transaction", .text name),
    ("transaction_identifier", .text transactionIdentifier.shown)]
  | .unauthorized => .object [
    ("auth1_sent", .bool auth1Sent),
    ("result", .text "unauthorized"),
    ("transaction", .text name)]

/-- Runs one transaction, after which the endpoint is deselected. -/
def simulateOne (code : TransactionCode) (name : String) : Action Failure Simulation Json := do
  Action.update fun s => { s with link := (s.link.1, []) }
  let verdict ← (Reader.transact (Reader.Link.recorded Endpoint.answer) code).mapError fun e =>
    { context := name ++ " transaction failed", causes := [e.message] }
  Endpoint.deselect.within (·.link.1) fun endpoint s => { s with link := (endpoint, s.link.2) }
  return verdictJson name (sentAuth1 (← Action.own).link.2) verdict

/-- Runs the transactions between the configured reader and a new endpoint that is enrolled with it. -/
def simulateAll (configuration : Reader.Configuration) (code : TransactionCode) :
    Action Failure Unit Json := do
  let store ← Action.draw CredentialStore.create
  let keyPair ← (Keystore.keyPair "endpoint").within (fun _ => .empty) fun _ _ => ()
  let group : ReaderGroup :=
    ⟨configuration.identifier.group, configuration.keyPair.publicKey⟩
  let start : Simulation :=
    { reader := ⟨configuration, .empty⟩, link := (.new (store.enroll ⟨keyPair⟩ group), []) }
  let run : Action Failure Simulation Json := do
    let standard ← simulateOne code "standard"
    let fast ← simulateOne code "fast"
    return .object [
      ("known_devices", .ofNat (← Action.own).reader.knownDevices.size),
      ("reader_identifier", .text configuration.identifier.shown),
      ("transactions", .array [standard, fast])]
  run.within (fun _ => start) fun _ _ => ()

/-- The configuration to simulate with: read from a file's text, or made up. -/
def configurationFor (path : Option String) (file : Except String String) :
    Action Failure Unit Reader.Configuration :=
  match path with
  | none => Action.draw Reader.Configuration.generate
  | some path =>
    match file with
    | .error cause => throw { context := "could not read " ++ path, causes := [cause] }
    | .ok text =>
      Action.ofExcept ((Reader.Configuration.ofJson text).mapError fun e =>
        { context := "could not parse reader configuration", causes := e.chain })

/-! ### Running -/

/-- The output of an invocation. `input` is the text on the standard input and `file` the text of the
configuration's file, or why it cannot be read; only those that are needed count. -/
def output (input : String) (file : Except String String) : Invocation → Action Failure Unit Json
  | .simulate code path => do simulateAll (← configurationFor path file) code
  | .parseApdu (.argument text) => Action.ofExcept (explain text)
  | .parseApdu .standardInput => Action.ofExcept (explain input)

/-- What an invocation prints, or why it fails, and the log. -/
def run (input : String) (file : Except String String) (random : RandomSource)
    (invocation : Invocation) : Except Failure String × List Event :=
  let (result, host) := (output input file invocation).outcome ⟨(), random, []⟩
  (result.map fun json => json.pretty ++ "\n", host.log)

end TapAccess.CommandLine
