import LedgerNode.Text.Invisible
import LedgerNode.Text.Numeral

/-!
# Quoted text

Error messages show texts and characters between quotes, so that blank, control and invisible
characters can be told apart.

- `Text.quote`: a text between double quotes.
- `Text.quoteChar`: one character between single quotes.

Inside the quotes the backslash, the quote in use, NUL, tab, line feed and carriage return have
short escapes, an invisible character is spelled by its code point, and all else stands for itself.
-/

namespace LedgerNode.Text

/-- How one character is spelled between a pair of `quote` characters. -/
def escape (quote : Char) (c : Char) : String :=
  if c = '\x00' then "\\0"
  else if c = '\t' then "\\t"
  else if c = '\n' then "\\n"
  else if c = '\r' then "\\r"
  else if c = '\\' then "\\\\"
  else if c = quote then String.ofList ['\\', c]
  else if isInvisible c then "\\u\x7b" ++ hexNumeral c.toNat ++ "\x7d"
  else String.ofList [c]

/-- A text between double quotes. -/
def quote (s : String) : String :=
  "\"" ++ String.join (s.toList.map (escape '"')) ++ "\""

/-- A character between single quotes. -/
def quoteChar (c : Char) : String :=
  "'" ++ escape '\'' c ++ "'"

end LedgerNode.Text
