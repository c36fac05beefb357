import LeadSheet.Markup.Block
import LeadSheet.Markup.ListNest
import LeadSheet.Markup.Raw.Inline

/-!
# The blocks of a body, on its text

The lines are escaped, so a quoted line begins with `&gt;`, and a code block is a line with a placeholder.
They are read and marked up in one pass: the lines of a paragraph are gathered until something ends it,
and are marked up then. A reference line is marked up when it is recognised, which is before the
paragraph that it ends, and once more for the list that it ends.
-/

namespace LeadSheet.Markup.Raw

open Text

/-! ## Parts of lines -/

def dropBlanks (s : List Char) : List Char := s.dropWhile isBlank

def dropEndBlanks (s : List Char) : List Char := dropEndWhile isBlank s

def isEmptyLine (line : List Char) : Bool := line.all isSpace

/-- The placeholder of a block, and nothing else. -/
def isBlockMark (line : List Char) : Bool :=
  match Placeholder.ofKind? .block line with
  | some (_, []) => true
  | _ => false

/-- The level and the text of a heading. -/
def heading? (line : List Char) : Option (Nat × List Char) :=
  let marks := line.takeWhile (· == '#')
  let rest := line.dropWhile (· == '#')
  let blanks := rest.takeWhile isBlank
  let text := dropEndBlanks (dropBlanks rest)
  if marks.isEmpty || 5 < marks.length || blanks.isEmpty then none
  else if text.isEmpty then
    if blanks.length < 2 then none else some (marks.length, blanks.drop (blanks.length - 1))
  else some (marks.length, text)

/-- Three or more hyphens, asterisks or underscores, all alike, and blanks around them. -/
def isRule (line : List Char) : Bool :=
  let marks := dropEndBlanks (dropBlanks line)
  3 ≤ marks.length && ['-', '*', '_'].any fun c => marks.all (· == c)

def dropBlank : List Char → List Char
  | [] => []
  | c :: rest => if isBlank c then rest else c :: rest

def quoted? (line : List Char) : Option (List Char) :=
  (dropMark? "&gt;".toList (dropBlanks line)).map dropBlank

/-- An item of a list. -/
structure Item where
  indent : Nat
  ordered : Bool
  text : List Char

/-- The column after a character that begins in the given column. -/
def columnAfter (column : Nat) (c : Char) : Nat :=
  if c = '\t' then column + (tabWidth - column % tabWidth) else column + 1

/-- The kind of a bullet at the head of a line, ordered or not, and what follows it. -/
def bullet? (line : List Char) : Option (Bool × List Char) :=
  match line with
  | [] => none
  | c :: rest =>
    if c = '-' ∨ c = '*' ∨ c = '+' then some (false, rest)
    else if line.takeWhile isDigit = [] then none
    else (dropMark? ['.'] (line.dropWhile isDigit)).map fun after => (true, after)

/-- The item that a line holds. A rule is not an item. -/
def item? (line : List Char) : Option Item :=
  if isRule line then none
  else (bullet? (dropBlanks line)).bind fun (ordered, rest) =>
    if rest.head?.any isBlank then
      some ⟨(line.takeWhile isBlank).foldl columnAfter 0, ordered, dropBlanks rest⟩
    else none

def cutAtBars (line : List Char) : List (List Char) := cutAt (· == '|') line

def dropBar : List Char → List Char
  | [] => []
  | c :: rest => if c = '|' then rest else c :: rest

def dropEndBar (line : List Char) : List Char := (dropBar line.reverse).reverse

def cells (row : List Char) : List (List Char) := (cutAtBars (dropEndBar (dropBar (trim row)))).map trim

/-- One cell of the line under a table's header: hyphens, and a colon at either end. -/
def isSeparatorCell (cell : List Char) : Bool :=
  let inner := dropEndBlanks (dropBlanks cell)
  let inner := if inner.head?.any (· == ':') then inner.drop 1 else inner
  let rest := inner.dropWhile (· == '-')
  !(inner.takeWhile (· == '-')).isEmpty && (rest.isEmpty || rest == [':'])

def isSeparator (line : List Char) : Bool :=
  let parts := cutAtBars (dropEndBar (dropBar (dropEndBlanks (dropBlanks line))))
  2 ≤ parts.length && parts.all isSeparatorCell

def hasBar (line : List Char) : Bool := line.any (· == '|')

structure Reference where
  name : List Char
  frets : List Char
  remark : List Char

/-- The parts of a line that reads like a reference line, `- name: [label|frets] remark`. -/
def referenceParts? (line : List Char) : Option Reference :=
  (dropMark? ['-', ' '] line).bind fun rest =>
    let name := rest.takeWhile (· != ':')
    (dropMark? [':', ' ', '['] (rest.dropWhile (· != ':'))).bind fun inner =>
      let content := inner.takeWhile isLabelChar
      let frets := (content.reverse.takeWhile (· != '|')).reverse
      (dropMark? [']'] (inner.dropWhile isLabelChar)).bind fun remark =>
        if name.head?.any (fun c => 'A' ≤ c && c ≤ 'G') && hasBar content &&
            !frets.isEmpty && frets.all isFretChar then
          some ⟨trim name, frets, remark⟩
        else none

def reference? (db : Chord.Database) (line : List Char) : Option Reference :=
  (referenceParts? line).filter fun r => db.isChord r.name

/-- The label that a line opens with, and the text after it. -/
def label? (db : Chord.Database) (line : List Char) : Option (List Char × List Char) :=
  (dropMark? ['['] (dropBlanks line)).bind fun rest =>
    (bracketed? rest).bind fun (name, after) =>
      if after.head?.any (· == '(') then none
      else if !(trim after).isEmpty && db.isChord name then none
      else some (name, trim after)

/-- The line opens a block of its own, which ends a quote. -/
def startsBlock (line : List Char) : Bool :=
  (heading? line).isSome || isRule line || isBlockMark (trim line) || (item? line).isSome

/-- The line belongs to a quote that is open. -/
def continuesQuote (line : List Char) : Bool :=
  !isEmptyLine line && ((quoted? line).isSome || !startsBlock line)

def quoteText (line : List Char) : List Char := (quoted? line).getD (trim line)

def continuesTable (line : List Char) : Bool := !isEmptyLine line && hasBar line

/-! ## Kinds of lines -/

/-- What a line is, with the parts that matter. -/
inductive Kind
  | blank
  | mark
  | heading (level : Nat) (text : List Char)
  | rule
  | reference (reference : Reference)
  | quote
  | table
  | item
  | label (name remainder : List Char)
  | plain

/-- The kind of a line, by the first rule that fits. -/
def kind (db : Chord.Database) (line : List Char) (next : Option (List Char)) : Kind :=
  if isEmptyLine line then .blank
  else if isBlockMark (trim line) then .mark
  else
    match heading? line with
    | some (level, text) => .heading level text
    | none =>
      if isRule line then .rule
      else
        match reference? db line with
        | some r => .reference r
        | none =>
          if (quoted? line).isSome then .quote
          else if hasBar line && next.any isSeparator then .table
          else if (item? line).isSome then .item
          else
            match label? db line with
            | some (name, remainder) => .label name remainder
            | none => .plain

/-! ## Blocks -/

/-- Lines with a break between neighbours. -/
def joinBreaks (lines : List (List Char)) : List Char := List.intercalate Tag.lineBreak.text lines

/-- The paragraph of the lines that were gathered, unless there are none. -/
def flush (db : Chord.Database) (paragraph : List (List Char)) : Marking (List (List Char)) :=
  if paragraph = [] then pure []
  else do return [wrap .paragraph (joinBreaks (← paragraph.mapM (renderLine db)))]

/-- The remark of a reference line, which is left out when it is blank. -/
def renderRemark (db : Chord.Database) (r : Reference) : Marking (List Char) :=
  if isEmptyLine r.remark then pure [] else renderLine db r.remark

def renderReference (db : Chord.Database) (r : Reference) : Marking (List Char) := do
  let remark ← renderRemark db r
  return wrap .reference
    (wrap .referenceName r.name ++ (": ".toList ++ (wrap .referenceFrets r.frets ++ remark)))

def referenceLine (db : Chord.Database) (line : List Char) : Marking (Option (List Char)) :=
  match reference? db line with
  | none => pure none
  | some r => do return some (← renderReference db r)

def renderCells (db : Chord.Database) (kind : Element) (row : List Char) : Marking (List Char) := do
  return wrap .tableRow ((← (cells row).mapM (renderLine db)).flatMap (wrap kind))

def renderTable (db : Chord.Database) (header : List Char) (rows : List (List Char)) : Marking (List Char) := do
  let head ← renderCells db .headCell header
  let body ← rows.mapM (renderCells db .cell)
  return wrap .table (wrap .tableHead head ++ wrap .tableBody body.flatten)

/-- Items with their content, within the open lists of the stack. -/
def nestItems (stack : List OpenList) : List (OpenList × List Char) → List Char
  | [] => Token.print (OpenList.closeAll stack)
  | (item, content) :: rest =>
    let isDeeper := fun l : OpenList => decide (item.indent < l.indent)
    let (enter, stack') := enterList item (stack.dropWhile isDeeper)
    Token.print (OpenList.closeAll (stack.takeWhile isDeeper) ++ enter) ++
      ((Tag.opening .item).text ++ (content ++ nestItems stack' rest))

def renderList (db : Chord.Database) (items : List Item) : Marking (List Char) := do
  let texts ← items.mapM fun i => renderLine db i.text
  return nestItems [] ((items.map fun i => ⟨i.indent, i.ordered⟩).zip texts)

/-- The items that lines begin with, up to a line that is not one or is a reference line. -/
def takeItems (db : Chord.Database) : List (List Char) → Marking (List Item)
  | [] => pure []
  | line :: rest =>
    match item? line with
    | none => pure []
    | some item => do
      match ← referenceLine db line with
      | some _ => return []
      | none => return item :: (← takeItems db rest)

/-- The line is an item and no reference line. -/
def continuesList (db : Chord.Database) (line : List Char) : Bool :=
  (item? line).isSome && (reference? db line).isNone

/-- The blocks of lines, after the lines of a paragraph that is still open. -/
def renderBlocks (db : Chord.Database) (paragraph lines : List (List Char)) : Marking (List (List Char)) :=
  match lines with
  | [] => flush db paragraph
  | line :: rest =>
    match kind db line rest.head? with
    | .blank => do return (← flush db paragraph) ++ (← renderBlocks db [] rest)
    | .mark => do return (← flush db paragraph) ++ trim line :: (← renderBlocks db [] rest)
    | .heading level text => do
      let before ← flush db paragraph
      let block := wrap (.heading level) (← renderLine db text)
      return before ++ block :: (← renderBlocks db [] rest)
    | .rule => do return (← flush db paragraph) ++ Tag.rule.text :: (← renderBlocks db [] rest)
    | .reference r => do
      let block ← renderReference db r
      return (← flush db paragraph) ++ block :: (← renderBlocks db [] rest)
    | .quote =>
      have := Text.length_dropWhile_le continuesQuote rest
      do
        let before ← flush db paragraph
        let quoted ← ((line :: rest.takeWhile continuesQuote).map quoteText).mapM (renderLine db)
        return before ++ wrap .quote (joinBreaks quoted) :: (← renderBlocks db [] (rest.dropWhile continuesQuote))
    | .table =>
      have : (rest.tail.dropWhile continuesTable).length ≤ rest.length := by
        have h := Text.length_dropWhile_le continuesTable rest.tail
        simp only [List.length_tail] at h
        omega
      do
        let before ← flush db paragraph
        let block ← renderTable db line (rest.tail.takeWhile continuesTable)
        return before ++ block :: (← renderBlocks db [] (rest.tail.dropWhile continuesTable))
    | .item =>
      have := Text.length_dropWhile_le (continuesList db) rest
      do
        let before ← flush db paragraph
        let block ← renderList db (← takeItems db (line :: rest))
        return before ++ block :: (← renderBlocks db [] (rest.dropWhile (continuesList db)))
    | .label name remainder => do
      let before ← flush db paragraph
      let paragraph := if remainder = [] then [] else [remainder]
      return before ++ wrap .label name :: (← renderBlocks db paragraph rest)
    | .plain => renderBlocks db (paragraph ++ [line]) rest
termination_by lines.length

end LeadSheet.Markup.Raw
