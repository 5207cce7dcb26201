/-!
# HTML

A document is a sequence of tags, which are written as they are, and of texts, in which the five
characters that could be taken for markup are written as entities.

- `Html.escape`: the written form of a text.
- `Html.Piece`: a tag or a text.
- `Html.write`: the document made of some pieces.
-/

namespace LedgerNode.Html

/-- The written form of a character of a text. -/
def entity : Char → List Char
  | '&' => "&amp;".toList
  | '<' => "&lt;".toList
  | '>' => "&gt;".toList
  | '"' => "&#34;".toList
  | '\'' => "&#39;".toList
  | c => [c]

/-- The written form of a text, which holds no markup. -/
def escape (s : String) : String :=
  String.ofList (s.toList.flatMap entity)

/-- The written form of two texts one behind the other. -/
theorem escape_append (s t : String) : escape (s ++ t) = escape s ++ escape t := by
  simp [escape]

/-- A part of a document. -/
inductive Piece where
  /-- Markup, written as it is. -/
  | tag (markup : String)
  /-- A text, written with entities. -/
  | text (content : String)
deriving DecidableEq, Repr

/-- The written form of a part. -/
def Piece.write : Piece → String
  | tag markup => markup
  | text content => escape content

/-- The document made of some parts. -/
def write (pieces : List Piece) : String :=
  String.join (pieces.map Piece.write)

end LedgerNode.Html
