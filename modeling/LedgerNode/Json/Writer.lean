import LedgerNode.Json.Basic
import LedgerNode.Number.Decimal

/-!
# Writing JSON

The compact form: no blanks, members in the order in which the value holds them, and the characters
of a text as they are but for the quote, the backslash and the controls below the space.

- `Json.write`: the characters of a value's compact form.
- `Json.render`: the same as a text.
- `Json.realStyle`: how floating-point numbers are written.
-/

namespace LedgerNode.Json

/-- Floating-point numbers have no exponent from a hundred-thousandth up to ten to the sixteenth. -/
def realStyle : DecimalStyle where
  isPositional power := -5 ≤ power && power < 16

/-- How one character of a text is written. -/
def escape (c : Char) : List Char :=
  match c with
  | '"' => ['\\', '"']
  | '\\' => ['\\', '\\']
  | '\x08' => ['\\', 'b']
  | '\x0c' => ['\\', 'f']
  | '\n' => ['\\', 'n']
  | '\r' => ['\\', 'r']
  | '\t' => ['\\', 't']
  | c =>
    if c.toNat < 0x20 then
      ['\\', 'u', '0', '0', Nat.digitChar (c.toNat / 16), Nat.digitChar (c.toNat % 16)]
    else [c]

/-- A text between its quotes. -/
def writeText (s : String) : List Char :=
  '"' :: (s.toList.flatMap escape ++ ['"'])

mutual

/-- The compact form of a value. -/
def write : Json → List Char
  | .null => "null".toList
  | .bool true => "true".toList
  | .bool false => "false".toList
  | .integer n => (Text.integer n).toList
  | .real x => (x.toDecimalText realStyle).toList
  | .text s => writeText s
  | .array items => '[' :: (writeItems items ++ [']'])
  | .object members => '{' :: (writeMembers members ++ ['}'])

/-- The items of an array with commas between them. -/
def writeItems : List Json → List Char
  | [] => []
  | [item] => item.write
  | item :: rest => item.write ++ ',' :: writeItems rest

/-- The members of an object with commas between them. -/
def writeMembers : List (String × Json) → List Char
  | [] => []
  | [(name, value)] => writeText name ++ ':' :: value.write
  | (name, value) :: rest => writeText name ++ ':' :: (value.write ++ ',' :: writeMembers rest)

end

/-- The compact form of a value as a text. -/
def render (j : Json) : String :=
  String.ofList j.write

end LedgerNode.Json
