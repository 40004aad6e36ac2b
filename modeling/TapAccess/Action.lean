import TapAccess.Random

/-!
# Actions

Whatever a party of the protocol does besides computing is an action: it may change the party's own
state, draw random bytes, write to the log, and fail. What was changed, drawn or written before a
failure stays.
-/

namespace TapAccess

/-! ### The log -/

inductive Level where
  | error | warn | debug
  deriving DecidableEq, Repr

def Level.name : Level → String
  | .error => "ERROR"
  | .warn => "WARN"
  | .debug => "DEBUG"

structure Event where
  level : Level
  text : String
  deriving DecidableEq, Repr

def Event.line (e : Event) : String := e.level.name ++ " " ++ e.text

/-! ### Actions -/

/-- A party's state, the randomness it draws from and the log it writes, oldest event first. -/
structure Hosted (σ : Type) where
  own : σ
  random : RandomSource
  log : List Event

/-- A computation of a party with state `σ` that may fail with an `ε`. -/
abbrev Action (ε σ α : Type) := EStateM ε (Hosted σ) α

namespace Action

variable {ε σ τ α : Type}

def record (e : Event) : Action ε σ Unit := modify fun h => { h with log := h.log ++ [e] }

/-- Logs what only matters when a fault is looked for. -/
def debug (text : String) : Action ε σ Unit := record ⟨.debug, text⟩
/-- Logs what is unusual and goes on. -/
def warn (text : String) : Action ε σ Unit := record ⟨.warn, text⟩
/-- Logs what made a step fail. -/
def error (text : String) : Action ε σ Unit := record ⟨.error, text⟩

def own : Action ε σ σ := do return (← get).own

def update (f : σ → σ) : Action ε σ Unit := modify fun h => { h with own := f h.own }

def draw (f : RandomSource → α × RandomSource) : Action ε σ α := fun h =>
  let (a, random) := f h.random
  .ok a { h with random }

/-- Goes on with a result, or fails. -/
def ofExcept : Except ε α → Action ε σ α
  | .ok a => pure a
  | .error e => throw e

/-- Turns a failure into a value. -/
def attempt {δ : Type} (a : Action ε σ α) : Action δ σ (Except ε α) := fun h =>
  match a h with
  | .ok v h => .ok (.ok v) h
  | .error e h => .ok (.error e) h

/-- The same action with its failures seen as failures of another type. -/
def mapError {δ : Type} (a : Action ε σ α) (f : ε → δ) : Action δ σ α := fun h =>
  match a h with
  | .ok v h => .ok v h
  | .error e h => .error (f e) h

/-- An action on one part of a party's state. -/
def within (part : σ → τ) (replace : τ → σ → σ) (a : Action ε τ α) : Action ε σ α := fun h =>
  match a ⟨part h.own, h.random, h.log⟩ with
  | .ok v t => .ok v ⟨replace t.own h.own, t.random, t.log⟩
  | .error e t => .error e ⟨replace t.own h.own, t.random, t.log⟩

/-- The outcome of an action and everything that it left behind. -/
def outcome (a : Action ε σ α) (h : Hosted σ) : Except ε α × Hosted σ :=
  match a h with
  | .ok v h => (.ok v, h)
  | .error e h => (.error e, h)

end Action

end TapAccess
