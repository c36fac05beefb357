import LeadSheet.Markup.Block
import LeadSheet.Markup.Inline
import LeadSheet.Markup.ListNest

/-!
# Rendering a body

The blocks of a body become elements, one a line. The literals of the whole body are numbered in the
order in which its lines are marked up, after the code spans. This is the order of the blocks but for
one case: a reference line is marked up when it is recognised, before the paragraph that it ends. A
reference line that ends a list is recognised twice, once to end the list and once for itself.
-/

namespace LeadSheet.Markup

open Token (element)

/-- Lines of tokens with a break between neighbours. -/
def joinBreaks (lines : List (List Token)) : List Token :=
  List.intercalate [.tag .lineBreak] lines

def renderParagraph (db : Chord.Database) (n : Nat) (lines : List Line) : List Token × Nat :=
  let (lines, n) := renderLines db n lines
  (element .paragraph (joinBreaks lines), n)

/-- The remark of a reference line, which is left out when it is blank. -/
def renderRemark (db : Chord.Database) (n : Nat) (r : Reference) : List Token × Nat :=
  if Line.isEmptyLine r.remark then ([], n) else renderLine db n r.remark

def referenceTokens (r : Reference) (remark : List Token) : List Token :=
  element .reference
    (element .referenceName (Line.tokens r.name) ++ [.char ':', .char ' '] ++
      element .referenceFrets (Line.tokens r.frets) ++ remark)

def renderCells (db : Chord.Database) (n : Nat) (kind : Element) (row : List Line) :
    List Token × Nat :=
  let (cells, n) := renderLines db n row
  (element .tableRow (cells.flatMap (element kind)), n)

def renderRows (db : Chord.Database) (n : Nat) : List (List Line) → List Token × Nat
  | [] => ([], n)
  | row :: rest =>
    let (row, n) := renderCells db n .cell row
    let (rows, n) := renderRows db n rest
    (row ++ rows, n)

def renderTable (db : Chord.Database) (n : Nat) (header : List Line) (rows : List (List Line)) :
    List Token × Nat :=
  let (head, n) := renderCells db n .headCell header
  let (body, n) := renderRows db n rows
  (element .table (element .tableHead head ++ element .tableBody body), n)

def renderList (db : Chord.Database) (n : Nat) (items : List Item) : List Token × Nat :=
  let (texts, n) := renderLines db n (items.map Item.text)
  (nestItems [] ((items.map fun i => ⟨i.indent, i.ordered⟩).zip texts), n)

def renderBlock (db : Chord.Database) (n : Nat) : Block → List Token × Nat
  | .gap => ([], n)
  | .fence language code =>
    (element .preformatted (element (.code language) (Token.ofChars code)), n)
  | .heading level text =>
    let (text, n) := renderLine db n text
    (element (.heading level) text, n)
  | .rule => ([.tag .rule], n)
  | .reference r =>
    let (remark, n) := renderRemark db n r
    (referenceTokens r remark, n)
  | .quote lines =>
    let (lines, n) := renderLines db n lines
    (element .quote (joinBreaks lines), n)
  | .table header rows => renderTable db n header rows
  | .list items => renderList db n items
  | .label name => (element .label (Line.tokens name), n)
  | .paragraph lines => renderParagraph db n lines

/-- The blocks of a body, gaps left out; the first literal has the number `n`. -/
def renderBlocks (db : Chord.Database) (n : Nat) : List Block → List (List Token)
  | [] => []
  | .gap :: rest => renderBlocks db n rest
  | .paragraph lines :: .reference r :: rest =>
    let (remark, n) := renderRemark db n r
    let (paragraph, n) := renderParagraph db n lines
    paragraph :: referenceTokens r remark :: renderBlocks db n rest
  | .list items :: .reference r :: rest =>
    let (_, n) := renderRemark db n r
    let (list, n) := renderList db n items
    let (remark, n) := renderRemark db n r
    list :: referenceTokens r remark :: renderBlocks db n rest
  | block :: rest =>
    let (tokens, n) := renderBlock db n block
    tokens :: renderBlocks db n rest

/-- The tokens of a body. A body without blocks is an empty paragraph. -/
def bodyTokens (db : Chord.Database) (body : List Char) : List Token :=
  let (lines, n) := setCode body
  match renderBlocks db n (readBlocks db lines) with
  | [] => element .paragraph []
  | blocks => List.intercalate [.char '\n'] blocks

def render (db : Chord.Database) (body : String) : String :=
  String.ofList (Token.print (bodyTokens db body.toList))

end LeadSheet.Markup
