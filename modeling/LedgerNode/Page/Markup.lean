import LedgerNode.Html
import LedgerNode.Page.Content

/-!
# The markup of the diagnostics page

The page is an HTML document with two tables, one for the node and one for its neighbours.

- `Page.pieces`: the tags and texts of the page.
- `Page.render`: the document.
-/

namespace LedgerNode.Page

open Html (Piece)

/-- The labels and values of the node's table. -/
def facts (page : Page) : List (String × String) :=
  [("Node Version", page.version),
    ("Node Id", page.nodeId),
    ("Node Type", page.role.label),
    ("Block Height", Text.numeral page.blockHeight.toNat),
    ("Node Port", Text.numeral page.nodePort.toNat),
    ("HTTP REST Port", Text.numeral page.restPort.toNat),
    ("HTTP WebSocket Port", Text.numeral page.webSocketPort.toNat),
    ("HTTP JSON-RPC Port", Text.numeral page.jsonPort.toNat),
    ("HTTP Local Port", Text.numeral page.localPort.toNat),
    ("Neighbor Count", Text.numeral page.neighborCount)]

/-- A row of the node's table. -/
def factPieces (label value : String) : List Piece :=
  [.tag "<tr><th>", .text label, .tag "</th><td>", .text value, .tag "</td></tr>\n"]

/-- The cell that links to the page of a neighbour, or says that there is none. -/
def infoPieces (row : Row) : List Piece :=
  if row.isInfoOpen then
    [.tag "<a href=\"http://", .text row.infoAddress, .tag "/info\">", .text row.infoAddress,
      .tag "</a>"]
  else [.text "closed"]

/-- A row of the neighbours' table. -/
def rowPieces (row : Row) : List Piece :=
  [.tag "<tr><td>", .text row.id, .tag "</td><td>", .text row.role.label, .tag "</td><td>",
      .text row.address, .tag "</td><td>"] ++
    infoPieces row ++ [.tag "</td></tr>\n"]

/-- The beginning of the document, up to the node's table. -/
def opening : List Piece :=
  [.tag "<!DOCTYPE html>\n<html>\n<head><meta charset=\"utf-8\"><title>", .text "Node Info",
    .tag "</title></head>\n<body>\n<table id=\"node\">\n"]

/-- What stands between the rows of the two tables. -/
def middle : List Piece :=
  [.tag "</table>\n<table id=\"neighbors\">\n<tr><th>", .text "Id", .tag "</th><th>", .text "Type",
    .tag "</th><th>", .text "Address", .tag "</th><th>", .text "Info", .tag "</th></tr>\n"]

/-- The end of the document, behind the neighbours' table. -/
def closing : List Piece :=
  [.tag "</table>\n</body>\n</html>\n"]

/-- The tags and texts of the page. -/
def pieces (page : Page) : List Piece :=
  opening ++ page.facts.flatMap (fun (label, value) => factPieces label value) ++ middle ++
    page.rows.flatMap rowPieces ++ closing

/-- The page as an HTML document. -/
def render (page : Page) : String :=
  Html.write page.pieces

end LedgerNode.Page
