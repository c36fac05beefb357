import LeadSheet.Numeric.Decimal
import LeadSheet.Text.Quoted

/-!
# Decoded JSON

A value keeps the two things that a message can show and a plain reading of JSON would lose: whether a
number was written as a whole number, and the order of an object's fields.
-/

namespace LeadSheet

/-- A decoded JSON value. The keys of an object are distinct. -/
inductive Json
  | null
  | bool (value : Bool)
  | int (value : Int)
  | float (value : Float)
  | text (value : String)
  | array (items : List Json)
  | object (fields : List (String × Json))

namespace Json

mutual

/-- A value as messages show it. -/
def display : Json → String
  | null => "None"
  | bool true => "True"
  | bool false => "False"
  | int n => toString n
  | float x => Numeric.valueText x
  | text s => Text.quotedString s
  | array items => "[" ++ displayItems items ++ "]"
  | object fields => "\x7b" ++ displayFields fields ++ "\x7d"

def displayItems : List Json → String
  | [] => ""
  | [item] => item.display
  | item :: next :: rest => item.display ++ ", " ++ displayItems (next :: rest)

def displayFields : List (String × Json) → String
  | [] => ""
  | [(key, value)] => Text.quotedString key ++ ": " ++ value.display
  | (key, value) :: next :: rest =>
    Text.quotedString key ++ ": " ++ value.display ++ ", " ++ displayFields (next :: rest)

end

/-- A value as plain text: a text is itself, and any other value as messages show it. -/
def plain : Json → String
  | text s => s
  | value => value.display

def field? (key : String) : Json → Option Json
  | object fields => fields.lookup key
  | _ => none

end Json

end LeadSheet
