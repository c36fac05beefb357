/-!
# Escaped text

Inside a document the three characters `&`, `<` and `>` are written as entities, so that no text can
be taken for markup; inside an attribute value the double quote is too.
-/

namespace LeadSheet.Text

/-- One character as text content. -/
def escapeChar (c : Char) : List Char :=
  if c = '&' then ['&', 'a', 'm', 'p', ';']
  else if c = '<' then ['&', 'l', 't', ';']
  else if c = '>' then ['&', 'g', 't', ';']
  else [c]

/-- A text as text content. -/
def escape (s : List Char) : List Char := s.flatMap escapeChar

/-- One character inside a quoted attribute value. -/
def escapeAttributeChar (c : Char) : List Char :=
  if c = '"' then ['&', 'q', 'u', 'o', 't', ';'] else escapeChar c

/-- A text inside a quoted attribute value. -/
def escapeAttribute (s : List Char) : List Char := s.flatMap escapeAttributeChar

def escapeString (s : String) : String := String.ofList (escape s.toList)

@[simp] theorem escape_nil : escape [] = [] := rfl

@[simp] theorem escape_cons (c : Char) (s : List Char) :
    escape (c :: s) = escapeChar c ++ escape s := rfl

@[simp] theorem escape_append (s t : List Char) : escape (s ++ t) = escape s ++ escape t :=
  List.flatMap_append

end LeadSheet.Text
