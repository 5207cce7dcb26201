import LedgerNode.Page.Markup
import LedgerNode.Proofs.Html.Reading

/-!
# What the diagnostics page shows

The page is written from texts that others choose, such as the addresses of neighbours. No such
text adds a bracket or a quote to it, so that its tags are those of the program, and what is shown
is read back from the page as it was put in.

- `Page.tags_pieces`: the tags depend on which neighbours show their pages, and on nothing else.
- `Page.stretches`: the tags of the page, with the texts behind them.
- `Page.texts`: what the page is to say.
- `Page.texts_are_no_markup`: a text is no markup and is read back.
-/

namespace LedgerNode.Page

open Html (Stretch)

/-! ## Tags -/

/-- The tags of a row in the neighbours' table. -/
def rowTags (isInfoOpen : Bool) : List String :=
  ["<tr><td>", "</td><td>", "</td><td>", "</td><td>"] ++
    (if isInfoOpen then ["<a href=\"http://", "/info\">", "</a>"] else []) ++ ["</td></tr>\n"]

theorem tags_rowPieces (row : Row) : Html.tags (rowPieces row) = rowTags row.isInfoOpen := by
  unfold rowPieces infoPieces rowTags
  cases row.isInfoOpen <;> rfl

theorem tags_rows (rows : List Row) :
    Html.tags (rows.flatMap rowPieces) = (rows.map Row.isInfoOpen).flatMap rowTags := by
  induction rows with
  | nil => rfl
  | cons row rest ih =>
    rw [List.flatMap_cons, Html.tags_append, ih, tags_rowPieces, List.map_cons, List.flatMap_cons]

/-- Two pages whose neighbours show their pages alike have the same tags. -/
theorem tags_pieces {page other : Page}
    (h : other.rows.map Row.isInfoOpen = page.rows.map Row.isInfoOpen) :
    Html.tags other.pieces = Html.tags page.pieces := by
  have hfacts : Html.tags (other.facts.flatMap fun fact => factPieces fact.1 fact.2) =
      Html.tags (page.facts.flatMap fun fact => factPieces fact.1 fact.2) := rfl
  simp only [pieces, Html.tags_append, tags_rows]
  rw [hfacts, h]

/-! ## Tags with the texts behind them -/

/-- A row of the node's table. -/
def factStretches (label value : String) : List Stretch :=
  [⟨"tr", ""⟩, ⟨"th", label⟩, ⟨"/th", ""⟩, ⟨"td", value⟩, ⟨"/td", ""⟩, ⟨"/tr", "\n"⟩]

/-- The cell for the page of a neighbour. -/
def infoStretches (row : Row) : List Stretch :=
  if row.isInfoOpen then
    [⟨"td", ""⟩, ⟨"a href=\"http://" ++ Html.escape row.infoAddress ++ "/info\"", row.infoAddress⟩,
      ⟨"/a", ""⟩]
  else [⟨"td", "closed"⟩]

/-- A row of the neighbours' table. -/
def rowStretches (row : Row) : List Stretch :=
  [⟨"tr", ""⟩, ⟨"td", row.id⟩, ⟨"/td", ""⟩, ⟨"td", row.role.label⟩, ⟨"/td", ""⟩,
      ⟨"td", row.address⟩, ⟨"/td", ""⟩] ++
    infoStretches row ++ [⟨"/td", ""⟩, ⟨"/tr", "\n"⟩]

/-- The beginning of the document. -/
def openingStretches : List Stretch :=
  [⟨"!DOCTYPE html", "\n"⟩, ⟨"html", "\n"⟩, ⟨"head", ""⟩, ⟨"meta charset=\"utf-8\"", ""⟩,
    ⟨"title", "Node Info"⟩, ⟨"/title", ""⟩, ⟨"/head", "\n"⟩, ⟨"body", "\n"⟩,
    ⟨"table id=\"node\"", "\n"⟩]

/-- What stands between the rows of the two tables. -/
def middleStretches : List Stretch :=
  [⟨"/table", "\n"⟩, ⟨"table id=\"neighbors\"", "\n"⟩, ⟨"tr", ""⟩, ⟨"th", "Id"⟩, ⟨"/th", ""⟩,
    ⟨"th", "Type"⟩, ⟨"/th", ""⟩, ⟨"th", "Address"⟩, ⟨"/th", ""⟩, ⟨"th", "Info"⟩, ⟨"/th", ""⟩,
    ⟨"/tr", "\n"⟩]

/-- The end of the document. -/
def closingStretches : List Stretch :=
  [⟨"/table", "\n"⟩, ⟨"/body", "\n"⟩, ⟨"/html", "\n"⟩]

/-- The tags of the page, with the texts behind them. -/
def stretches (page : Page) : List Stretch :=
  openingStretches ++ page.facts.flatMap (fun (label, value) => factStretches label value) ++
    middleStretches ++ page.rows.flatMap rowStretches ++ closingStretches

theorem write_factPieces (label value : String) :
    Html.write (factPieces label value) = Html.document (factStretches label value) := by
  simp [Html.write, factPieces, factStretches, Html.Piece.write, Html.document, Stretch.write,
    ← String.toList_inj]

theorem write_rowPieces (row : Row) :
    Html.write (rowPieces row) = Html.document (rowStretches row) := by
  unfold rowPieces rowStretches infoPieces infoStretches
  cases row.isInfoOpen <;>
    simp [Html.write, Html.Piece.write, Html.document, Stretch.write, ← String.toList_inj]

theorem write_opening : Html.write opening = Html.document openingStretches := by
  simp [Html.write, opening, Html.Piece.write, Html.document, openingStretches, Stretch.write,
    ← String.toList_inj]

theorem write_middle : Html.write middle = Html.document middleStretches := by
  simp [Html.write, middle, Html.Piece.write, Html.document, middleStretches, Stretch.write,
    ← String.toList_inj]

theorem write_closing : Html.write closing = Html.document closingStretches := by
  simp [Html.write, closing, Html.Piece.write, Html.document, closingStretches, Stretch.write]

/-- The page is the document made of its tags with the texts behind them. -/
theorem render_eq_document (page : Page) : page.render = Html.document page.stretches := by
  have hfacts := Html.document_flatMap (fun fact : String × String =>
    write_factPieces fact.1 fact.2) page.facts
  have hrows := Html.document_flatMap write_rowPieces page.rows
  simp only [render, pieces, stretches, Html.write_append, Html.document_append, write_opening,
    write_middle, write_closing]
  rw [hfacts, hrows]

theorem isPlain_of_mem_rowStretches {row : Row} : ∀ t ∈ rowStretches row, t.IsPlain := by
  have hlt : '<' ∉ (Html.escape row.infoAddress).toList := Html.not_mem_escape (by decide)
  have hgt : '>' ∉ (Html.escape row.infoAddress).toList := Html.not_mem_escape (by decide)
  unfold rowStretches infoStretches
  cases row.isInfoOpen <;> simp [Stretch.IsPlain, hlt, hgt]

theorem isPlain_of_mem_stretches {page : Page} : ∀ t ∈ page.stretches, t.IsPlain := by
  have hopening : ∀ t ∈ openingStretches, t.IsPlain := by
    simp [openingStretches, Stretch.IsPlain]
  have hmiddle : ∀ t ∈ middleStretches, t.IsPlain := by
    simp [middleStretches, Stretch.IsPlain]
  have hclosing : ∀ t ∈ closingStretches, t.IsPlain := by
    simp [closingStretches, Stretch.IsPlain]
  have hfact : ∀ label value, ∀ t ∈ factStretches label value, t.IsPlain := by
    simp [factStretches, Stretch.IsPlain]
  unfold stretches
  simp only [List.forall_mem_append, List.forall_mem_flatMap]
  exact ⟨⟨⟨⟨hopening, fun fact _ => hfact fact.1 fact.2⟩, hmiddle⟩,
    fun row _ => isPlain_of_mem_rowStretches⟩, hclosing⟩

/-- What is read of the page are its tags with the texts behind them. -/
theorem read_render (page : Page) : Html.read page.render = page.stretches := by
  rw [render_eq_document, Html.read_document isPlain_of_mem_stretches]

/-! ## Texts -/

/-- What the cells of a row in the neighbours' table are to say. -/
def Row.texts (row : Row) : List String :=
  [row.id, row.role.label, row.address, if row.isInfoOpen then row.infoAddress else "closed"]

/-- What the page is to say: its title, ten values of the node with their labels, and under four
labels four values of each neighbour. -/
def texts (page : Page) : List String :=
  ["Node Info",
      "Node Version", page.version,
      "Node Id", page.nodeId,
      "Node Type", page.role.label,
      "Block Height", Text.numeral page.blockHeight.toNat,
      "Node Port", Text.numeral page.nodePort.toNat,
      "HTTP REST Port", Text.numeral page.restPort.toNat,
      "HTTP WebSocket Port", Text.numeral page.webSocketPort.toNat,
      "HTTP JSON-RPC Port", Text.numeral page.jsonPort.toNat,
      "HTTP Local Port", Text.numeral page.localPort.toNat,
      "Neighbor Count", Text.numeral page.neighborCount,
      "Id", "Type", "Address", "Info"] ++
    page.rows.flatMap Row.texts

theorem leafTexts_factStretches (label value : String) (rest : List Stretch) :
    Html.leafTexts (factStretches label value ++ rest) = [label, value] ++ Html.leafTexts rest := by
  simp [Html.leafTexts, Html.leaves, factStretches, Stretch.isEnd]

theorem leafTexts_rowStretches (row : Row) (rest : List Stretch) :
    Html.leafTexts (rowStretches row ++ rest) = row.texts ++ Html.leafTexts rest := by
  unfold rowStretches infoStretches Row.texts
  cases row.isInfoOpen <;> simp [Html.leafTexts, Html.leaves, Stretch.isEnd]

theorem leafTexts_opening {rest : List Stretch} (h : rest.head?.any Stretch.isEnd = false) :
    Html.leafTexts (openingStretches ++ rest) = ["Node Info"] ++ Html.leafTexts rest := by
  simp [Html.leafTexts, Html.leaves, openingStretches, Stretch.isEnd, h]

theorem leafTexts_middle (rest : List Stretch) :
    Html.leafTexts (middleStretches ++ rest) =
      ["Id", "Type", "Address", "Info"] ++ Html.leafTexts rest := by
  simp [Html.leafTexts, Html.leaves, middleStretches, Stretch.isEnd]

theorem leafTexts_closing : Html.leafTexts closingStretches = [] := by
  simp [Html.leafTexts, Html.leaves, closingStretches, Stretch.isEnd]

theorem leafTexts_stretches (page : Page) : Html.leafTexts page.stretches = page.texts := by
  have hfacts := Html.leafTexts_flatMap_append (fun fact : String × String =>
    leafTexts_factStretches fact.1 fact.2) page.facts
  have hrows := Html.leafTexts_flatMap_append leafTexts_rowStretches page.rows
  unfold stretches
  simp only [List.append_assoc]
  rw [leafTexts_opening, hfacts, leafTexts_middle, hrows, leafTexts_closing, List.append_nil]
  · rfl
  · simp [facts, factStretches, Stretch.isEnd]

/-- Texts are no markup. Whatever a page has to say, it has the same brackets and quotes, in the
same order, as any other page whose neighbours show their pages alike; and cut at its tags, and with
the entities replaced, it gives back, between its title and labels, the values of the node and of
each neighbour, all of them and as they were. -/
theorem texts_are_no_markup (page : Page) :
    (∀ other : Page, other.rows.map Row.isInfoOpen = page.rows.map Row.isInfoOpen →
      Html.marks other.render = Html.marks page.render) ∧
    Html.texts page.render = page.texts := by
  constructor
  · intro other h
    rw [render, render, Html.marks_write, Html.marks_write, tags_pieces h]
  · rw [Html.texts, read_render, leafTexts_stretches]

/-- An address that is a script, beside one that is none. -/
theorem texts_are_no_markup_script :
    let address := "<script>alert('x')</script>"
    let page := collect { version := "1.0 & <beta>" }
      { id := 1, publicKey := [], neighbors := [⟨3, [], address, 20333, true⟩] }
      { bookkeepers := [] }
    let other := collect {} { id := 2, publicKey := [], neighbors := [⟨4, [], "", 0, true⟩] }
      { bookkeepers := [] }
    Html.marks other.render = Html.marks page.render ∧ address ∈ Html.texts page.render := by
  intro address page other
  have hpage : page.rows = [Row.ofNeighbor { bookkeepers := [] } ⟨3, [], address, 20333, true⟩] :=
    List.mergeSort_singleton _
  have hother : other.rows = [Row.ofNeighbor { bookkeepers := [] } ⟨4, [], "", 0, true⟩] :=
    List.mergeSort_singleton _
  have hsame : other.rows.map Row.isInfoOpen = page.rows.map Row.isInfoOpen := by
    rw [hpage, hother]
    rfl
  refine ⟨(texts_are_no_markup page).1 other hsame, ?_⟩
  rw [(texts_are_no_markup page).2, texts, hpage]
  refine List.mem_append_right _ ?_
  simp [Row.texts, Row.ofNeighbor]

end LedgerNode.Page
