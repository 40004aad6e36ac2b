import TapAccess.Json.Value

/-!
# Reading JSON

Reading is strict: nothing may follow the value but blanks, numbers have no leading zeros, texts no raw
control characters, and a comma stands between two items only. Escapes beyond the first plane come in
pairs; half a pair makes a text that can only be skipped.
-/

namespace TapAccess.Json

/-! ### Blanks and numbers -/

def isBlank (c : Char) : Bool := c = ' ' || c = '\n' || c = '\t' || c = '\r'

/-- The input from the first character on that is no blank. -/
def skipBlanks (input : List Char) : List Char := input.dropWhile isBlank

/-- Digits in front of the input, one at least. -/
def digits? (input : List Char) : Option (List Char × List Char) :=
  match input.takeWhile Char.isDigit with
  | [] => none
  | digits => some (digits, input.dropWhile Char.isDigit)

/-- The digits before the point; a zero stands alone. -/
def wholePart? (input : List Char) : Option (List Char × List Char) :=
  match digits? input with
  | some ('0' :: _ :: _, _) => none
  | part => part

/-- The point and the digits behind it, if there is a point. -/
def fraction? (input : List Char) : Option (List Char × List Char) :=
  match input with
  | '.' :: rest => (digits? rest).map fun (digits, rest) => ('.' :: digits, rest)
  | _ => some ([], input)

/-- The exponent, if there is one. -/
def exponent? (input : List Char) : Option (List Char × List Char) :=
  match input with
  | e :: rest =>
    if e = 'e' ∨ e = 'E' then
      match rest with
      | sign :: rest' =>
        if sign = '+' ∨ sign = '-' then
          (digits? rest').map fun (digits, rest) => (e :: sign :: digits, rest)
        else (digits? rest).map fun (digits, rest) => (e :: digits, rest)
      | [] => none
    else some ([], input)
  | [] => some ([], input)

/-- A number in front of the input. -/
def number? (input : List Char) : Option (List Char × List Char) := do
  let (sign, input) := match input with
    | '-' :: rest => (['-'], rest)
    | _ => ([], input)
  let (whole, input) ← wholePart? input
  let (fraction, input) ← fraction? input
  let (exponent, input) ← exponent? input
  return (sign ++ whole ++ fraction ++ exponent, input)

/-! ### Texts -/

/-- The number that four hexadecimal digits in front of the input spell. -/
def unit? : List Char → Option (Nat × List Char)
  | a :: b :: c :: d :: rest => do
    let a ← Hex.digitOfChar? a
    let b ← Hex.digitOfChar? b
    let c ← Hex.digitOfChar? c
    let d ← Hex.digitOfChar? d
    return (((a * 16 + b) * 16 + c) * 16 + d, rest)
  | _ => none

def escaped? (c : Char) : Option Char :=
  if c = '"' ∨ c = '\\' ∨ c = '/' then some c
  else if c = 'b' then some (Char.ofNat 0x08)
  else if c = 'f' then some (Char.ofNat 0x0C)
  else if c = 'n' then some '\n'
  else if c = 'r' then some '\r'
  else if c = 't' then some '\t'
  else none

/-- A piece of a text: a character, or a unit that is half a character. -/
inductive Piece where
  | whole (c : Char)
  | half
  | close

/-- What an escape names, after its backslash and `u`. -/
def unicodeEscape? (input : List Char) : Option (Piece × List Char) := do
  let (high, rest) ← unit? input
  if 0xD800 ≤ high ∧ high < 0xDC00 then
    match rest with
    | '\\' :: 'u' :: after =>
      let (low, after) ← unit? after
      if 0xDC00 ≤ low ∧ low < 0xE000 then
        return (.whole (Char.ofNat (0x10000 + (high - 0xD800) * 0x400 + (low - 0xDC00))), after)
      else return (.half, rest)
    | _ => return (.half, rest)
  else if 0xDC00 ≤ high ∧ high < 0xE000 then return (.half, rest)
  else return (.whole (Char.ofNat high), rest)

/-- The next piece of a text. -/
def piece? : List Char → Option (Piece × List Char)
  | '"' :: rest => some (.close, rest)
  | '\\' :: 'u' :: rest => unicodeEscape? rest
  | '\\' :: c :: rest => (escaped? c).map fun c => (.whole c, rest)
  | '\\' :: [] => none
  | c :: rest => if c.toNat < 0x20 then none else some (.whole c, rest)
  | [] => none

/-- Reads a text up to its closing quote, behind the characters in `done`, last one first. The text is
missing when a piece of it is half a character. -/
def readText : (depth : Nat) → (done : List Char) → (broken : Bool) → List Char →
    Option (Option String × List Char)
  | 0, _, _, _ => none
  | depth + 1, done, broken, input =>
    match piece? input with
    | none => none
    | some (.close, rest) =>
      some (if broken then none else some (String.ofList done.reverse), rest)
    | some (.half, rest) => readText depth done true rest
    | some (.whole c, rest) => readText depth (c :: done) broken rest

/-- Reads a text behind its opening quote. -/
def text? (input : List Char) : Option (Option String × List Char) :=
  readText (input.length + 1) [] false input

/-! ### Values -/

/-- The object with the given members, if all their names are whole. -/
def ofMembers (members : List (Option String × Json)) : Json :=
  match members.mapM fun (name, value) => name.map fun name => (name, value) with
  | some members => object members
  | none => brokenObject

mutual

/-- Reads a value in front of the input. -/
def readValue : (depth : Nat) → List Char → Option (Json × List Char)
  | 0, _ => none
  | depth + 1, input =>
    match skipBlanks input with
    | 'n' :: 'u' :: 'l' :: 'l' :: rest => some (null, rest)
    | 't' :: 'r' :: 'u' :: 'e' :: rest => some (bool true, rest)
    | 'f' :: 'a' :: 'l' :: 's' :: 'e' :: rest => some (bool false, rest)
    | '"' :: rest =>
      (text? rest).map fun (value, rest) =>
        (match value with
          | some value => text value
          | none => brokenText, rest)
    | '[' :: rest =>
      match skipBlanks rest with
      | ']' :: rest => some (array [], rest)
      | _ => (readItems depth [] rest).map fun (items, rest) => (array items, rest)
    | '\x7b' :: rest =>
      match skipBlanks rest with
      | '\x7d' :: rest => some (object [], rest)
      | _ => (readMembers depth [] rest).map fun (members, rest) => (ofMembers members, rest)
    | other => (number? other).map fun (literal, rest) => (number literal, rest)

/-- Reads the items of an array, one at least, and its end, behind those in `done`, last one first. -/
def readItems : (depth : Nat) → (done : List Json) → List Char → Option (List Json × List Char)
  | 0, _, _ => none
  | depth + 1, done, input =>
    match readValue depth input with
    | none => none
    | some (item, rest) =>
      match skipBlanks rest with
      | ',' :: rest => readItems depth (item :: done) rest
      | ']' :: rest => some ((item :: done).reverse, rest)
      | _ => none

/-- Reads the members of an object, one at least, and its end, behind those in `done`, last one first. -/
def readMembers : (depth : Nat) → (done : List (Option String × Json)) → List Char →
    Option (List (Option String × Json) × List Char)
  | 0, _, _ => none
  | depth + 1, done, input =>
    match skipBlanks input with
    | '"' :: rest =>
      match text? rest with
      | none => none
      | some (name, rest) =>
        match skipBlanks rest with
        | ':' :: rest =>
          match readValue depth rest with
          | none => none
          | some (value, rest) =>
            match skipBlanks rest with
            | ',' :: rest => readMembers depth ((name, value) :: done) rest
            | '\x7d' :: rest => some (((name, value) :: done).reverse, rest)
            | _ => none
        | _ => none
    | _ => none

end

/-- The value that a text spells. -/
def parse? (input : String) : Option Json :=
  let input := input.toList
  match readValue (2 * input.length + 2) input with
  | some (value, rest) => if skipBlanks rest = [] then some value else none
  | none => none

end TapAccess.Json
