import LeadSheet.Text.CaseTable
import LeadSheet.Text.Word

/-!
# Letter case

Upper, lower and capitalised forms of a text by the full mappings of Unicode 14. Lower case depends
on the context in one place: a capital sigma that ends a word becomes `ς` and any other `σ`.
-/

namespace LeadSheet.Text

/-- The upper-case form of one character. ASCII is decided without the table. -/
def upperChar (c : Char) : List Char :=
  if c.toNat < 128 then [c.toUpper] else upperTable.apply c

/-- The lower-case form of one character out of context. -/
def lowerChar (c : Char) : List Char :=
  if c.toNat < 128 then [c.toLower] else lowerTable.apply c

def titleChar (c : Char) : List Char :=
  if c.toNat < 128 then [c.toUpper] else titleTable.apply c

/-- The search for a word's end passes over the character. -/
def isCaseIgnorable (c : Char) : Bool := caseIgnorableRanges.contains c

/-- A letter with case that bounds the search. -/
def isCased (c : Char) : Bool :=
  if c.toNat < 128 then isAsciiLetter c else casedRanges.contains c

/-- Whether a letter has been seen, updated by one more character. -/
def afterLetter (seen : Bool) (c : Char) : Bool :=
  if isCaseIgnorable c then seen else isCased c

/-- The text goes on with a letter, marks passed over. -/
def beforeLetter (s : List Char) : Bool :=
  match s.dropWhile isCaseIgnorable with
  | [] => false
  | c :: _ => isCased c

/-- Lower case of a text; `seen` says whether a letter comes before it. -/
def lowerFrom (seen : Bool) : List Char → List Char
  | [] => []
  | c :: rest =>
    let here := if c == 'Σ' then (if seen && !beforeLetter rest then ['ς'] else ['σ']) else lowerChar c
    here ++ lowerFrom (afterLetter seen c) rest

def lower (s : List Char) : List Char := lowerFrom false s

def upper (s : List Char) : List Char := s.flatMap upperChar

/-- The first character in title case and all others in lower case. -/
def capitalize : List Char → List Char
  | [] => []
  | c :: rest => titleChar c ++ lowerFrom (afterLetter false c) rest

end LeadSheet.Text
