import TapAccess.Hex

/-!
# JSON values and how they are written

A value keeps the members of an object in their order, and a number as it was written. It is written
compactly on one line, or pretty with one item a line and two spaces a level.
-/

namespace TapAccess

inductive Json where
  | null
  | bool (value : Bool)
  /-- A number, by its digits and signs. -/
  | number (literal : List Char)
  | text (value : String)
  /-- A text with an escape that names half a character. It may be skipped, and not read. -/
  | brokenText
  | array (items : List Json)
  | object (members : List (String × Json))
  /-- An object one of whose names is half a character short. -/
  | brokenObject

namespace Json

/-- The number of a natural number. -/
def ofNat (n : Nat) : Json := .number (Nat.toDigits 10 n)

/-- The number that a literal of digits only spells. -/
def natural? : Json → Option Nat
  | number literal =>
    if literal.all Char.isDigit then some (literal.foldl (fun acc c => 10 * acc + (c.toNat - 48)) 0)
    else none
  | _ => none

/-! ### Writing -/

/-- A character inside quotes. -/
def escape (c : Char) : List Char :=
  if c = '"' then ['\\', '"']
  else if c = '\\' then ['\\', '\\']
  else if c = '\n' then ['\\', 'n']
  else if c = '\r' then ['\\', 'r']
  else if c = '\t' then ['\\', 't']
  else if c.toNat = 0x08 then ['\\', 'b']
  else if c.toNat = 0x0C then ['\\', 'f']
  else if c.toNat < 0x20 then '\\' :: 'u' :: '0' :: '0' :: Hex.encodeChars [UInt8.ofNat c.toNat]
  else [c]

def quote (value : String) : List Char := '"' :: (value.toList.flatMap escape ++ ['"'])

/-- A line break and two spaces for each level. -/
def newline (level : Nat) : List Char := '\n' :: List.replicate (2 * level) ' '

/-- `items` with `separator` between each two. -/
def separated (separator : List Char) (items : List (List Char)) : List Char :=
  List.intercalate separator items

mutual

/-- A value on one line, without blanks. -/
def compactChars : Json → List Char
  | null => ['n', 'u', 'l', 'l']
  | bool true => ['t', 'r', 'u', 'e']
  | bool false => ['f', 'a', 'l', 's', 'e']
  | number literal => literal
  | text value => quote value
  | array items => '[' :: (separated [','] (compactItems items) ++ [']'])
  | object members => '\x7b' :: (separated [','] (compactMembers members) ++ ['\x7d'])
  | brokenText | brokenObject => ['n', 'u', 'l', 'l']

def compactItems : List Json → List (List Char)
  | [] => []
  | item :: items => compactChars item :: compactItems items

def compactMembers : List (String × Json) → List (List Char)
  | [] => []
  | (name, value) :: members =>
    (quote name ++ ':' :: compactChars value) :: compactMembers members

end

mutual

/-- A value whose first line stands at the given level. -/
def prettyChars (level : Nat) : Json → List Char
  | null => ['n', 'u', 'l', 'l']
  | bool true => ['t', 'r', 'u', 'e']
  | bool false => ['f', 'a', 'l', 's', 'e']
  | number literal => literal
  | text value => quote value
  | array [] => ['[', ']']
  | array (item :: items) =>
    '[' :: (separated [','] (prettyItems (level + 1) (item :: items)) ++ newline level ++ [']'])
  | object [] => ['\x7b', '\x7d']
  | object (entry :: members) =>
    '\x7b' :: (separated [','] (prettyMembers (level + 1) (entry :: members)) ++ newline level
      ++ ['\x7d'])
  | brokenText | brokenObject => ['n', 'u', 'l', 'l']

def prettyItems (level : Nat) : List Json → List (List Char)
  | [] => []
  | item :: items => (newline level ++ prettyChars level item) :: prettyItems level items

def prettyMembers (level : Nat) : List (String × Json) → List (List Char)
  | [] => []
  | (name, value) :: members =>
    (newline level ++ quote name ++ [':', ' '] ++ prettyChars level value) ::
      prettyMembers level members

end

/-- A value on one line, without blanks. -/
def compact (value : Json) : String := String.ofList value.compactChars

/-- A value with one item a line. -/
def pretty (value : Json) : String := String.ofList (value.prettyChars 0)

end Json

end TapAccess
