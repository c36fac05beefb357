import LeadSheet.Text.Escape

/-!
# Documents as a sequence of tags and characters

A rendered body is a list of tokens: characters, which are printed escaped, and tags from a fixed
vocabulary. Whatever is printed from tokens can therefore contain no markup but the library's own. What
comes from a song inside a tag, an address or a description, is escaped for a quoted attribute.
-/

namespace LeadSheet.Markup

/-- The elements of a rendered body. -/
inductive Element
  | paragraph
  | heading (level : Nat)
  | quote
  | orderedList
  | bulletList
  | item
  | table
  | tableHead
  | tableBody
  | tableRow
  | headCell
  | cell
  | preformatted
  | code (language : List Char)
  | deleted
  | strong
  | emphasis
  | anchor (address : List Char)
  | chord
  | label
  | reference
  | referenceName
  | referenceFrets
  deriving DecidableEq

namespace Element

def name : Element → List Char
  | paragraph => "p".toList
  | heading level => 'h' :: Nat.toDigits 10 level
  | quote => "blockquote".toList
  | orderedList => "ol".toList
  | bulletList => "ul".toList
  | item => "li".toList
  | table => "table".toList
  | tableHead => "thead".toList
  | tableBody => "tbody".toList
  | tableRow => "tr".toList
  | headCell => "th".toList
  | cell => "td".toList
  | preformatted => "pre".toList
  | code _ => "code".toList
  | deleted => "del".toList
  | strong => "strong".toList
  | emphasis => "em".toList
  | anchor _ => "a".toList
  | chord | referenceName | referenceFrets => "span".toList
  | label | reference => "div".toList

/-- The role of the element, which a style sheet refers to. -/
def role : Element → Option (List Char)
  | table => some "tab-table".toList
  | code [] => none
  | code language => some ("language-".toList ++ language)
  | chord => some "chord-inline".toList
  | label => some "section-label".toList
  | reference => some "chord-ref-line".toList
  | referenceName => some "chord-name".toList
  | referenceFrets => some "chord-frets".toList
  | _ => none

end Element

/-- A tag: the start or end of an element, or an element without content. -/
inductive Tag
  | opening (element : Element)
  | closing (element : Element)
  | lineBreak
  | rule
  | image (address description : List Char)
  deriving DecidableEq

/-- An attribute with its value, after a space. -/
def attributeText (name : String) (value : List Char) : List Char :=
  ' ' :: name.toList ++ '=' :: '"' :: Text.escapeAttribute value ++ ['"']

namespace Tag

def attributes : Tag → List (String × List Char)
  | opening (.anchor address) => [("href", address)]
  | opening element => (element.role.map fun r => ("class", r)).toList
  | image address description => [("src", address), ("alt", description)]
  | _ => []

/-- The name of a tag, after a slash at the end of an element. -/
def name : Tag → List Char
  | opening element => element.name
  | closing element => '/' :: element.name
  | lineBreak => "br".toList
  | rule => "hr".toList
  | image _ _ => "img".toList

def text (tag : Tag) : List Char :=
  '<' :: tag.name ++ tag.attributes.flatMap (fun a => attributeText a.1 a.2) ++ ['>']

end Tag

inductive Token
  | char (c : Char)
  | tag (t : Tag)
  deriving DecidableEq

namespace Token

def text : Token → List Char
  | char c => Text.escapeChar c
  | tag t => t.text

def print (tokens : List Token) : List Char := tokens.flatMap text

/-- A text without tags. -/
def ofChars (s : List Char) : List Token := s.map char

/-- The tokens between the tags of an element. -/
def element (e : Element) (content : List Token) : List Token :=
  tag (.opening e) :: content ++ [tag (.closing e)]

end Token

end LeadSheet.Markup
