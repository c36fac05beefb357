import LeadSheet.Page.Style
import LeadSheet.Text.Case
import LeadSheet.Text.Escape
import LeadSheet.Text.Space

/-!
# Song sheets

A sheet puts a rendered body together with the diagrams of its chords: as a page that stands by itself,
with a title and the fields of the song, or as a fragment to be embedded in another page. Titles and
fields are text and are escaped; the body and the diagrams are markup already and stand as they are.
-/

namespace LeadSheet

/-- The forms of a sheet. -/
inductive SheetFormat
  | page
  | fragment
  deriving DecidableEq

/-- What goes on a sheet. -/
structure Sheet where
  title : String
  metadata : List (String × String)
  body : String
  diagrams : List String

namespace SheetFormat

def name : SheetFormat → String
  | page => "html"
  | fragment => "fragment"

/-- The form of a name, in any letter case and with white space around it. -/
def ofName? (s : String) : Option SheetFormat :=
  let name := Text.lower (Text.trim s.toList)
  if name = "html".toList then some .page
  else if name = "fragment".toList then some .fragment
  else none

/-- The ending of a file that holds a sheet. -/
def fileExtension : SheetFormat → String
  | page | fragment => ".html"

end SheetFormat

namespace Page

/-- The fields that are shown first. -/
def leadingFields : List String := ["artist", "album", "key", "genre", "difficulty"]

/-- The fields of a song in the order in which they are shown. The title has its own place. -/
def shownFields (metadata : List (String × String)) : List (String × String) :=
  leadingFields.filterMap (fun name => (metadata.lookup name).map fun value => (name, value)) ++
    metadata.filter fun (name, _) => !leadingFields.contains name && name != "title"

/-- The name of a field as a label: words separated by spaces, the first with a capital. -/
def fieldLabel (name : String) : String :=
  String.ofList (Text.capitalize (name.toList.map fun c => if c = '_' ∨ c = '-' then ' ' else c))

def fieldRow (field : String × String) : String :=
  "    <dt>" ++ Text.escapeString (fieldLabel field.1) ++ "</dt><dd>" ++
    Text.escapeString field.2 ++ "</dd>"

/-- A diagram in its frame. -/
def framed (svg : String) : String := "<div class=\"chord-diagram\">" ++ svg ++ "</div>"

/-- Everything before the body of a page. -/
def openingLines (title : String) : List String :=
  ["<!DOCTYPE html>", "<html lang=\"en\">", "<head>", "  <meta charset=\"UTF-8\" />",
    "  <meta name=\"viewport\" content=\"width=device-width, initial-scale=1.0\" />",
    "  <title>" ++ Text.escapeString title ++ "</title>", "  <style>"] ++ styleLines ++
    ["  </style>", "</head>", "<body>"]

/-- The heading of a page, if it has a title. -/
def headingLines (title : String) : List String :=
  if title.isEmpty then [] else ["  <h1>" ++ Text.escapeString title ++ "</h1>"]

/-- The fields of a song, if any are shown. -/
def fieldLines (metadata : List (String × String)) : List String :=
  let rows := (shownFields metadata).map fieldRow
  if rows.isEmpty then [] else "  <dl class=\"metadata\">" :: rows ++ ["  </dl>"]

/-- The diagrams of a song, if there are any. -/
def galleryLines (diagrams : List String) : List String :=
  if diagrams.isEmpty then []
  else
    "  <h2>Chords Used</h2>" :: "  <div class=\"chord-gallery\">" ::
      diagrams.map (fun svg => "    " ++ framed svg) ++ ["  </div>"]

def page (s : Sheet) : String :=
  String.intercalate "\n"
    (openingLines s.title ++ headingLines s.title ++ fieldLines s.metadata ++
      galleryLines s.diagrams ++
      ["  <div class=\"song-content\">", s.body, "  </div>", "</body>", "</html>"])

def fragment (s : Sheet) : String :=
  "<div class=\"chord-gallery\">" ++ String.join (s.diagrams.map framed) ++ "</div>\n" ++
    "<div class=\"song-content\">\n" ++ s.body ++ "\n</div>\n"

end Page

def Sheet.render (s : Sheet) : SheetFormat → String
  | .page => Page.page s
  | .fragment => Page.fragment s

end LeadSheet
