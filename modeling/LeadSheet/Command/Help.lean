import LeadSheet.Command.Interface
import LeadSheet.Command.Options

/-!
# The commands and their help

There are three commands. Each takes one argument, a database, and options of its own. Help texts are
laid out for a terminal of eighty columns.
-/

namespace LeadSheet.Command

/-- The options before a command. -/
def leadingOptions : List OptionName := [.version, .verbose, .help]

namespace CommandName

/-- The commands in the order of their names. -/
def all : List CommandName := [chords, diagram, render]

def ofName? (s : SystemText) : Option CommandName := all.find? fun c => SystemText.ofString c.name = s

/-- What the argument of a command is called. -/
def argumentLabel : CommandName → String
  | render | chords => "SONG_FILE"
  | diagram => "CHORD"

def options : CommandName → List OptionName
  | render => [.database, .output, .title, .format, .help]
  | chords => [.database, .help]
  | diagram => [.database, .output, .help]

end CommandName

def usageLine : Option CommandName → String
  | none => s!"Usage: {programName} [OPTIONS] COMMAND [ARGS]..."
  | some c => s!"Usage: {programName} {c.name} [OPTIONS] {c.argumentLabel}"

/-- Where help on the program, or on one of its commands, is found. -/
def helpHint : Option CommandName → String
  | none => s!"Try '{programName} --help' for help."
  | some c => s!"Try '{programName} {c.name} --help' for help."

/-- The lines of help below the usage line. -/
def helpLines : Option CommandName → List String
  | none => [
    "  chordsheet — render tab-markup songs with chord diagrams.",
    "",
    "Options:",
    "  --version      Show the version and exit.",
    "  -v, --verbose  Show debug logging.",
    "  -h, --help     Show this message and exit.",
    "",
    "Commands:",
    "  chords   List the chords a song uses, with their first fingering.",
    "  diagram  Draw the fretboard diagram for a single CHORD as SVG.",
    "  render   Render a song document with its chord diagrams."]
  | some .render => [
    "  Render a song document with its chord diagrams.",
    "",
    "  SONG_FILE is a text document with optional --- front matter.",
    "",
    "  Examples:",
    "    chordsheet render wonderwall.md --db guitar.json",
    "    chordsheet render wonderwall.md --db guitar.json -o song.html --title \"Wonderwall\"",
    "    chordsheet render wonderwall.md --db guitar.json --format fragment -o song.part.html",
    "",
    "Options:",
    "  --db PATH                 Chord database JSON (chords-db layout). Also read",
    "                            from $CHORDSHEET_DB.  [required]",
    "  -o, --output PATH         Destination file path. Defaults to the song path",
    "                            with an .html suffix (.rendered.html for .html",
    "                            songs).",
    "  --title TEXT              Page title. Defaults to the 'title' metadata field,",
    "                            then the file stem.",
    "  --format [html|fragment]  Self-contained HTML page, or an embeddable fragment",
    "                            (diagrams + markup).  [default: html]",
    "  -h, --help                Show this message and exit."]
  | some .chords => [
    "  List the chords a song uses, with their first fingering.",
    "",
    "  Example:",
    "    chordsheet chords wonderwall.md --db guitar.json",
    "",
    "Options:",
    "  --db PATH   Chord database JSON (chords-db layout). Also read from",
    "              $CHORDSHEET_DB.  [required]",
    "  -h, --help  Show this message and exit."]
  | some .diagram => [
    "  Draw the fretboard diagram for a single CHORD as SVG.",
    "",
    "  Unknown chords produce the \"not found\" placeholder diagram.",
    "",
    "  Examples:",
    "    chordsheet diagram Am7 --db guitar.json",
    "    chordsheet diagram \"F#m\" --db guitar.json -o fsharp-minor.svg",
    "",
    "Options:",
    "  --db PATH          Chord database JSON (chords-db layout). Also read from",
    "                     $CHORDSHEET_DB.  [required]",
    "  -o, --output PATH  Destination SVG path. Prints the SVG to stdout when",
    "                     omitted.",
    "  -h, --help         Show this message and exit."]

def helpText (command : Option CommandName) : String :=
  String.intercalate "\n" (usageLine command :: "" :: helpLines command)

end LeadSheet.Command
