import LeadSheet.Chord.Oracle
import LeadSheet.Markup.Code
import LeadSheet.Text.Digit
import LeadSheet.Text.Scan

/-!
# The blocks of a body

A body is read line by line. Each line is of one kind, which the first rule that fits decides; some
kinds take the lines after it into the same block. The blocks keep the text of their lines as written:
the rules inside a line are applied when a block is rendered.

A blank line is a block of its own, a gap. It ends every block before it, and it tells a paragraph that
a reference line has cut short from one that was complete.
-/

namespace LeadSheet.Markup

open Text

/-! ## Parts of lines -/

/-- The level and the text of a heading: one to five number signs, blanks, and the text without trailing
blanks. Of a heading that goes on with blanks only, the last of several blanks is the text. -/
def heading? (line : Line) : Option (Nat × Line) :=
  let marks := line.takeWhile (Piece.is '#')
  let rest := line.dropWhile (Piece.is '#')
  let blanks := rest.takeWhile (Piece.sat isBlank)
  let text := Line.dropEndBlanks (Line.dropBlanks rest)
  if marks.isEmpty || 5 < marks.length || blanks.isEmpty then none
  else if text.isEmpty then
    if blanks.length < 2 then none else some (marks.length, blanks.drop (blanks.length - 1))
  else some (marks.length, text)

/-- A rule: three or more hyphens, asterisks or underscores, all alike, and blanks around them. -/
def isRule (line : Line) : Bool :=
  let marks := Line.dropEndBlanks (Line.dropBlanks line)
  3 ≤ marks.length && ['-', '*', '_'].any fun c => marks.all (Piece.is c)

/-- The text of a quoted line: what follows `>` and one blank. -/
def quoted? (line : Line) : Option Line :=
  match Line.dropBlanks line with
  | .char '>' :: rest =>
    match rest with
    | [] => some []
    | piece :: more => some (if piece.sat isBlank then more else rest)
  | _ => none

/-- An item of a list: how far it is indented, of which kind it is, and its text. -/
structure Item where
  indent : Nat
  ordered : Bool
  text : Line
  deriving DecidableEq

def tabWidth : Nat := 4

/-- The column after a piece that begins in the given column. -/
def columnAfter (column : Nat) (piece : Piece) : Nat :=
  if piece.is '\t' then column + (tabWidth - column % tabWidth) else column + 1

/-- The kind of a bullet at the head of a line, ordered or not, and what follows it. -/
def bullet? (line : Line) : Option (Bool × Line) :=
  match line with
  | .char c :: rest =>
    if c = '-' ∨ c = '*' ∨ c = '+' then some (false, rest)
    else
      match Line.spanChars isDigit line with
      | ([], _) => none
      | (_, .char '.' :: after) => some (true, after)
      | _ => none
  | _ => none

/-- The item that a line holds: a bullet, at least one blank, and the text. A rule is not an item. -/
def item? (line : Line) : Option Item :=
  if isRule line then none
  else do
    let (ordered, rest) ← bullet? (Line.dropBlanks line)
    if rest.head?.any (Piece.sat isBlank) then
      some ⟨(line.takeWhile (Piece.sat isBlank)).foldl columnAfter 0, ordered, Line.dropBlanks rest⟩
    else none

def cutAtBars (line : Line) : List Line := cutAt (Piece.is '|') line

def dropBar : Line → Line
  | [] => []
  | piece :: rest => if piece.is '|' then rest else piece :: rest

def dropEndBar (line : Line) : Line := (dropBar line.reverse).reverse

/-- The cells of a table's row: what stands between vertical bars, without white space around it. A bar
at either end of the row closes it off. -/
def cells (row : Line) : List Line :=
  (cutAtBars (dropEndBar (dropBar (Line.trim row)))).map Line.trim

/-- One cell of the line under a table's header: hyphens, and a colon at either end. -/
def isSeparatorCell (cell : Line) : Bool :=
  let inner := Line.dropEndBlanks (Line.dropBlanks cell)
  let inner := if inner.head?.any (Piece.is ':') then inner.drop 1 else inner
  let marks := inner.takeWhile (Piece.is '-')
  let rest := inner.dropWhile (Piece.is '-')
  !marks.isEmpty && (rest.isEmpty || (rest.length = 1 && rest.all (Piece.is ':')))

def isSeparator (line : Line) : Bool :=
  let parts := cutAtBars (dropEndBar (dropBar (Line.dropEndBlanks (Line.dropBlanks line))))
  2 ≤ parts.length && parts.all isSeparatorCell

def hasBar (line : Line) : Bool := line.any (Piece.is '|')

/-- A reference line: the name of a chord, how to hold it, and a remark. -/
structure Reference where
  name : Line
  frets : Line
  remark : Line
  deriving DecidableEq

def isFretChar (c : Char) : Bool := isAsciiHexDigit c || c == 'x' || c == 'X'

/-- The parts of a line that reads like a reference line, `- name: [label|frets] remark`. The name begins
with a letter from A to G and is given without trailing white space. -/
def referenceParts? (line : Line) : Option Reference :=
  match Line.dropMark? ['-', ' '] line with
  | none => none
  | some rest =>
    let name := rest.takeWhile (Piece.sat (· != ':'))
    match Line.dropMark? [':', ' ', '['] (rest.dropWhile (Piece.sat (· != ':'))) with
    | none => none
    | some inner =>
      let content := inner.takeWhile (!Piece.is ']' ·)
      let frets := (content.reverse.takeWhile (!Piece.is '|' ·)).reverse
      match inner.dropWhile (!Piece.is ']' ·) with
      | [] => none
      | _ :: remark =>
        if name.head?.any (Piece.sat fun c => 'A' ≤ c && c ≤ 'G') && hasBar content &&
            !frets.isEmpty && frets.all (Piece.sat isFretChar) then
          some ⟨Line.trim name, frets, remark⟩
        else none

def reference? (db : Chord.Database) (line : Line) : Option Reference :=
  (referenceParts? line).filter fun r => db.isChord (Line.source r.name)

/-- The label that a line opens with, and the text after it. An address after the brackets makes a link
and no label; and a chord in the brackets is a label only when nothing follows it. -/
def label? (db : Chord.Database) (line : Line) : Option (Line × Line) :=
  match Line.dropBlanks line with
  | .char '[' :: rest =>
    let name := rest.takeWhile (!Piece.is ']' ·)
    match rest.dropWhile (!Piece.is ']' ·) with
    | [] => none
    | _ :: after =>
      let remainder := Line.trim after
      if name.isEmpty || after.head?.any (Piece.is '(') then none
      else if !remainder.isEmpty && db.isChord (Line.source name) then none
      else some (name, remainder)
  | _ => none

/-! ## Kinds of lines -/

/-- What a line is, with the parts that matter. -/
inductive Kind
  | blank
  | heading (level : Nat) (text : Line)
  | rule
  | reference (reference : Reference)
  | quote
  | table
  | item
  | label (name remainder : Line)
  | plain

/-- The kind of a line. A table is known by the line after its header. -/
def kind (db : Chord.Database) (line : Line) (next : Option (Source Line)) : Kind :=
  if Line.isEmptyLine line then .blank
  else
    match heading? line with
    | some (level, text) => .heading level text
    | none =>
      if isRule line then .rule
      else
        match reference? db line with
        | some r => .reference r
        | none =>
          if (quoted? line).isSome then .quote
          else if hasBar line && next.any (fun | .line l => isSeparator l | .fence _ _ => false) then
            .table
          else if (item? line).isSome then .item
          else
            match label? db line with
            | some (name, remainder) => .label name remainder
            | none => .plain

/-- The line belongs to a quote that is open: it is quoted itself, or it carries on the line before it
and opens no block of its own. -/
def continuesQuote : Source Line → Bool
  | .fence _ _ => false
  | .line l =>
    !Line.isEmptyLine l &&
      ((quoted? l).isSome || !((heading? l).isSome || isRule l || (item? l).isSome))

def quoteText : Source Line → Line
  | .fence _ _ => []
  | .line l => (quoted? l).getD (Line.trim l)

def continuesTable : Source Line → Bool
  | .fence _ _ => false
  | .line l => !Line.isEmptyLine l && hasBar l

def rowCells : Source Line → List Line
  | .fence _ _ => []
  | .line l => cells l

def continuesList (db : Chord.Database) : Source Line → Bool
  | .fence _ _ => false
  | .line l => (item? l).isSome && (reference? db l).isNone

def lineItem? : Source Line → Option Item
  | .fence _ _ => none
  | .line l => item? l

/-! ## Blocks -/

inductive Block
  | gap
  | fence (language code : List Char)
  | heading (level : Nat) (text : Line)
  | rule
  | reference (reference : Reference)
  | quote (lines : List Line)
  | table (header : List Line) (rows : List (List Line))
  | list (items : List Item)
  | label (name : Line)
  | paragraph (lines : List Line)

/-- Puts a line in front of the paragraph that the blocks begin with, or else of a new one. -/
def addLine (line : Line) : List Block → List Block
  | .paragraph lines :: rest => .paragraph (line :: lines) :: rest
  | blocks => .paragraph [line] :: blocks

def readBlocks (db : Chord.Database) (lines : List (Source Line)) : List Block :=
  match lines with
  | [] => []
  | .fence language code :: rest => .fence language code :: readBlocks db rest
  | .line line :: rest =>
    match kind db line rest.head? with
    | .blank => .gap :: readBlocks db rest
    | .heading level text => .heading level text :: readBlocks db rest
    | .rule => .rule :: readBlocks db rest
    | .reference r => .reference r :: readBlocks db rest
    | .quote =>
      have := Text.length_dropWhile_le continuesQuote rest
      .quote (quoteText (.line line) :: (rest.takeWhile continuesQuote).map quoteText) ::
        readBlocks db (rest.dropWhile continuesQuote)
    | .table =>
      have : (rest.tail.dropWhile continuesTable).length ≤ rest.length := by
        have h := Text.length_dropWhile_le continuesTable rest.tail
        simp only [List.length_tail] at h
        omega
      .table (cells line) ((rest.tail.takeWhile continuesTable).map rowCells) ::
        readBlocks db (rest.tail.dropWhile continuesTable)
    | .item =>
      have := Text.length_dropWhile_le (continuesList db) rest
      .list ((.line line :: rest.takeWhile (continuesList db)).filterMap lineItem?) ::
        readBlocks db (rest.dropWhile (continuesList db))
    | .label name remainder =>
      .label name ::
        if remainder.isEmpty then readBlocks db rest else addLine remainder (readBlocks db rest)
    | .plain => addLine line (readBlocks db rest)
termination_by lines.length

end LeadSheet.Markup
