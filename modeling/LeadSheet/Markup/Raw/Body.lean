import LeadSheet.Markup.Code
import LeadSheet.Markup.Raw.Block
import LeadSheet.Text.Lines

/-!
# Rendering a body as text

A body is escaped, its code is moved to the side table, its blocks are marked up, and the literals are put
back in their places. All of this happens on text: no step knows which characters of it are the song's.
-/

namespace LeadSheet.Markup.Raw

open Text

/-! ## Code -/

/-- The markup of a code block; the code is escaped already. -/
def fenced (language code : List Char) : List Char :=
  "<pre><code".toList ++
    ((if language.isEmpty then [] else " class=\"language-".toList ++ (language ++ "\"".toList)) ++
      ('>' :: (code ++ "</code></pre>".toList)))

/-- Moves the code blocks of lines to the table. -/
def extractFences : List (List Char) → Marking (List (List Char))
  | [] => pure []
  | line :: rest =>
    match fenceLanguage? line with
    | none => do return line :: (← extractFences rest)
    | some language =>
      match h : rest.dropWhile (!closesFence ·) with
      | [] => do return line :: (← extractFences rest)
      | _ :: after =>
        have := Text.length_lt_of_dropWhile_cons h
        do
          let mark ← LiteralTable.add .block (fenced language (fencedCode (rest.takeWhile (!closesFence ·))))
          return mark :: (← extractFences after)
termination_by lines => lines.length
decreasing_by all_goals simp only [List.length_cons]; omega

def isCodeChar (c : Char) : Bool := c != '`' && c != '\n'

/-- The code between two backticks at the head of a text, and what follows. -/
def codeSpan? (s : List Char) : Option (List Char × List Char) :=
  (dropMark? ['`'] s).bind fun rest =>
    if rest.takeWhile isCodeChar = [] then none
    else (dropMark? ['`'] (rest.dropWhile isCodeChar)).map fun after => (rest.takeWhile isCodeChar, after)

theorem length_codeSpan? {s code after : List Char} (h : codeSpan? s = some (code, after)) :
    after.length < s.length := by
  obtain ⟨rest, hrest, h⟩ := Option.bind_eq_some_iff.mp h
  split at h
  · simp at h
  · obtain ⟨after', hafter, heq⟩ := Option.map_eq_some_iff.mp h
    obtain ⟨-, rfl⟩ := Prod.mk.inj heq
    have hopen := length_dropMark? hrest
    have hclose := length_dropMark? hafter
    have hrun := length_dropWhile_le isCodeChar rest
    simp only [List.length_singleton] at hopen hclose
    omega

def codeSpan : Pattern (List Char) where
  find? _ := codeSpan?
  shorter := length_codeSpan?

def putCodeSpan (code : List Char) : Marking (List Char) :=
  LiteralTable.add .inline ("<code>".toList ++ (code ++ "</code>".toList))

/-- The lines of a text that is escaped, with its code moved to the table. -/
def extractLiterals (text : List Char) : Marking (List (List Char)) := do
  (← extractFences (lines text)).mapM fun line => codeSpan.sub putCodeSpan none line

/-! ## Bodies -/

/-- A body with its literals still in the table. A body without blocks is an empty paragraph. -/
def markBody (db : Chord.Database) (body : List Char) : Marking (List Char) := do
  let lines ← extractLiterals (escape (unixLines body))
  let blocks ← renderBlocks db [] lines
  return if blocks.isEmpty then wrap .paragraph [] else joinLines blocks

/-- A body as HTML, unless a literal is missing from the table. -/
def transform (db : Chord.Database) (body : String) : Except MissingLiteral String := do
  let (html, table) := (markBody db body.toList).run .empty
  return String.ofList (← table.restore html)

end LeadSheet.Markup.Raw
