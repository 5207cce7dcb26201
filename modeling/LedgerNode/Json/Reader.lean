import LedgerNode.Json.Document
import LedgerNode.Text.Numeral

/-!
# Reading JSON

A reader takes characters from the front of its input and gives back the rest, or fails. Nested
values are read within a bound on the number of calls that the length of the input supplies. What
comes of them are documents: each member is put in its place in the object that it is read for.

- `Json.Reader`: the shape of the readers.
- `Json.readNumber`, `Json.readText`, `Json.readValue`: numbers, texts and values.
- `Json.Document.read?`: the document that a whole text denotes; `Json.read?`: its value.

A number without fraction and exponent that fits in 64 bits, signed or not, is an integer, except
that `-0` keeps its sign as a floating-point number. Any other number is rounded twice: first the
digits that fit in 64 bits, as an integer, and then their product or quotient with a power of ten.
-/

namespace LedgerNode.Json

/-- Takes characters from the front and gives back the rest. -/
abbrev Reader (α : Type) := List Char → Option (α × List Char)

/-- The blanks that may stand between the parts of a value. -/
def isBlank (c : Char) : Bool :=
  c = ' ' || c = '\n' || c = '\r' || c = '\t'

/-- Drops leading blanks. -/
def skipBlanks : List Char → List Char :=
  List.dropWhile isBlank

/-! ## Texts -/

/-- The value of a hexadecimal digit. -/
def hexValue? (c : Char) : Option Nat :=
  if '0' ≤ c ∧ c ≤ '9' then some (c.toNat - 48)
  else if 'a' ≤ c ∧ c ≤ 'f' then some (c.toNat - 87)
  else if 'A' ≤ c ∧ c ≤ 'F' then some (c.toNat - 55)
  else none

/-- The number that four hexadecimal digits spell. -/
def hexUnit? (a b c d : Char) : Option Nat := do
  let a ← hexValue? a
  let b ← hexValue? b
  let c ← hexValue? c
  let d ← hexValue? d
  return ((16 * a + b) * 16 + c) * 16 + d

/-- What a single character behind a backslash stands for. -/
def escaped? : Char → Option Char
  | '"' => some '"'
  | '\\' => some '\\'
  | '/' => some '/'
  | 'b' => some '\x08'
  | 'f' => some '\x0c'
  | 'n' => some '\n'
  | 'r' => some '\r'
  | 't' => some '\t'
  | _ => none

/-- Whether a number is the first half of a pair that spells one character. -/
def isHighHalf (unit : Nat) : Bool := 0xd800 ≤ unit && unit < 0xdc00

/-- Whether a number is the second half of a pair that spells one character. -/
def isLowHalf (unit : Nat) : Bool := 0xdc00 ≤ unit && unit < 0xe000

/-- The character that a pair of halves spells. -/
def joinHalves (high low : Nat) : Char :=
  Char.ofNat (0x10000 + (high - 0xd800) * 0x400 + (low - 0xdc00))

/-- Reads the characters of a text up to its closing quote, behind those read so far. -/
def readText (sofar : List Char) : Reader String
  | '"' :: rest => some (String.ofList sofar.reverse, rest)
  | '\\' :: 'u' :: a :: b :: c :: d :: rest =>
    match hexUnit? a b c d with
    | none => none
    | some unit =>
      if isHighHalf unit then
        match rest with
        | '\\' :: 'u' :: e :: f :: g :: h :: rest =>
          match hexUnit? e f g h with
          | none => none
          | some low =>
            if isLowHalf low then readText (joinHalves unit low :: sofar) rest else none
        | _ => none
      else if isLowHalf unit then none
      else readText (Char.ofNat unit :: sofar) rest
  | '\\' :: c :: rest =>
    match escaped? c with
    | none => none
    | some c => readText (c :: sofar) rest
  | c :: rest => if c.toNat < 0x20 then none else readText (c :: sofar) rest
  | [] => none

/-! ## Numbers -/

/-- Splits off the leading decimal digits. -/
def spanDigits (cs : List Char) : List Char × List Char :=
  (cs.takeWhile Char.isDigit, cs.dropWhile Char.isDigit)

/-- The digits in front of a decimal point or exponent: no leading zeros. -/
def readWholeDigits : Reader (List Char)
  | cs =>
    match spanDigits cs with
    | ([], _) => none
    | ('0' :: _ :: _, _) => none
    | (digits, rest) => some (digits, rest)

/-- The digits behind a decimal point, if there is one. -/
def readPlaces : Reader (Option (List Char))
  | '.' :: cs =>
    match spanDigits cs with
    | ([], _) => none
    | (digits, rest) => some (some digits, rest)
  | cs => some (none, cs)

/-- The signed digits of an exponent, whose mark has been taken. -/
def readPower (cs : List Char) : Option (Option Int × List Char) :=
  let (negative, cs) := match cs with
    | '+' :: cs => (false, cs)
    | '-' :: cs => (true, cs)
    | cs => (false, cs)
  match spanDigits cs with
  | ([], _) => none
  | (digits, rest) =>
    let n : Int := Nat.ofDigitChars 10 digits 0
    some (some (if negative then -n else n), rest)

/-- An exponent, if there is one. -/
def readExponent : Reader (Option Int)
  | 'e' :: cs => readPower cs
  | 'E' :: cs => readPower cs
  | cs => some (none, cs)

/-- Appends to a number as many of the given digits as it can take within 64 bits: how many those
are, and the number with them. -/
def appendDigits (value : Nat) : List Char → Nat × Nat
  | [] => (0, value)
  | c :: rest =>
    let next := Nat.ofDigitChars 10 [c] value
    if next < UInt64.size then
      let (count, value) := appendDigits next rest
      (count + 1, value)
    else (0, value)

/-- The nearest floating-point number to the product of a number with a power of ten, or to its
quotient with one. -/
def timesPower (negative : Bool) (x : Binary64) (power : Int) : Option Binary64 :=
  let ten := (Binary64.round false (Nat.pow 10 power.natAbs) 1).magnitude
  let (num, den) := x.magnitude
  if 0 ≤ power then Binary64.ofRatio? negative (num * ten.1) (den * ten.2)
  else Binary64.ofRatio? negative (num * ten.2) (den * ten.1)

/-- The greatest power of ten that a floating-point number scales by in one step. -/
def maxPower : Nat := 308

/-- Scales a number by a power of ten, by the greatest single step while the power lies below the
range of steps; powers above it are out of range but for zero. -/
def scaleByPower (negative : Bool) : (steps : Nat) → Binary64 → Int → Option Binary64
  | 0, _, _ => some (Binary64.zero negative)
  | steps + 1, x, power =>
    if power.natAbs ≤ maxPower then timesPower negative x power
    else if x.significand = 0 then some (Binary64.zero negative)
    else if 0 ≤ power then none
    else
      match timesPower negative x (-maxPower) with
      | some x => scaleByPower negative steps x (power + maxPower)
      | none => none

/-- The floating-point number that the digits of a literal spell. -/
def realOfDigits (negative : Bool) (whole places : List Char) (power : Int) : Option Binary64 :=
  let (wholeCount, value) := appendDigits 0 whole
  let (placesCount, value) := appendDigits value places
  let significand := Binary64.round negative value 1
  scaleByPower negative 5 significand (power + whole.length - wholeCount - placesCount)

/-- The number that a literal spells. -/
def ofLiteral (negative : Bool) (whole : List Char) (places : Option (List Char))
    (power : Option Int) : Option Document :=
  let real := (realOfDigits negative whole (places.getD []) (power.getD 0)).map Document.real
  if places.isSome || power.isSome then real
  else
    let n := Nat.ofDigitChars 10 whole 0
    if negative then
      if 0 < n ∧ Int64.minValue.toInt ≤ -n then some (.integer (-n)) else real
    else if n < UInt64.size then some (.integer n)
    else real

/-- Reads a number. -/
def readNumber (cs : List Char) : Option (Document × List Char) := do
  let (negative, cs) := match cs with
    | '-' :: cs => (true, cs)
    | cs => (false, cs)
  let (whole, cs) ← readWholeDigits cs
  let (places, cs) ← readPlaces cs
  let (power, cs) ← readExponent cs
  let number ← ofLiteral negative whole places power
  return (number, cs)

/-! ## Values -/

mutual

/-- Reads a value. -/
def readValue : (bound : Nat) → Reader Document
  | 0, _ => none
  | bound + 1, cs =>
    match skipBlanks cs with
    | 'n' :: 'u' :: 'l' :: 'l' :: rest => some (.null, rest)
    | 't' :: 'r' :: 'u' :: 'e' :: rest => some (.bool true, rest)
    | 'f' :: 'a' :: 'l' :: 's' :: 'e' :: rest => some (.bool false, rest)
    | '"' :: rest => (readText [] rest).map fun (s, rest) => (.text s, rest)
    | '[' :: rest =>
      match skipBlanks rest with
      | ']' :: rest => some (.array [], rest)
      | rest => (readItems bound rest).map fun (items, rest) => (.array items, rest)
    | '{' :: rest =>
      match skipBlanks rest with
      | '}' :: rest => some (.ofMembers [], rest)
      | rest => (readMembers bound rest).map fun (members, rest) => (.ofMembers members, rest)
    | cs => readNumber cs

/-- Reads the items of an array, of which there is at least one, and the closing bracket. -/
def readItems : (bound : Nat) → Reader (List Document)
  | 0, _ => none
  | bound + 1, cs =>
    match readValue bound cs with
    | none => none
    | some (item, rest) =>
      match skipBlanks rest with
      | ',' :: rest => (readItems bound rest).map fun (items, rest) => (item :: items, rest)
      | ']' :: rest => some ([item], rest)
      | _ => none

/-- Reads the members of an object, of which there is at least one, and the closing brace. -/
def readMembers : (bound : Nat) → Reader (List (String × Document))
  | 0, _ => none
  | bound + 1, cs =>
    match skipBlanks cs with
    | '"' :: rest =>
      match readText [] rest with
      | none => none
      | some (name, rest) =>
        match skipBlanks rest with
        | ':' :: rest =>
          match readValue bound rest with
          | none => none
          | some (value, rest) =>
            match skipBlanks rest with
            | ',' :: rest =>
              (readMembers bound rest).map fun (members, rest) => ((name, value) :: members, rest)
            | '}' :: rest => some ([(name, value)], rest)
            | _ => none
        | _ => none
    | _ => none

end

/-- The document that a text denotes, blanks around it allowed. -/
def Document.read? (s : String) : Option Document :=
  let cs := s.toList
  match readValue (2 * cs.length + 1) cs with
  | some (document, rest) => if (skipBlanks rest).isEmpty then some document else none
  | none => none

/-- The value that a text denotes. -/
def read? (s : String) : Option Json :=
  (Document.read? s).map Document.value

end LedgerNode.Json
