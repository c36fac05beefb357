import LeadSheet.Proofs.Chord.Loading
import LeadSheet.Proofs.Command.Atomicity
import LeadSheet.Proofs.Command.Reader
import LeadSheet.Proofs.Diagram.Characters
import LeadSheet.Proofs.Page.Gallery
import LeadSheet.Proofs.Song.Diagrams

/-!
# Chords that are listed and chords that are drawn

`chords` reads a song and takes the chords from its body by itself; `render` does so by rendering the song. Both come to
the same chords, and what is listed for each of them is the fingering that its diagram draws.

* `Listed db name diagram entry` : the entry of a chord, beside its diagram (`listed_chordLine`); it says that there is
  no fingering just where the diagram does (`Listed.notFound_iff`);
* `Renders.exists_page` : what `render` does when it succeeds;
* `run_agrees` : so the entries of the one are about the diagrams of the other, and where there are none the page has no
  gallery.
-/

namespace LeadSheet

namespace Command

/-! ## Entries -/

def padded (name : String) : String := String.ofList (name.toList.rightpad nameWidth ' ')

/-- The entry of a chord that has a diagram: the symbols of the fingering that the diagram shows, or that there is none.
No symbols can be taken for the latter. -/
inductive Listed (db : Chord.Database) (name : String) : Diagram → String → Prop
  | fingering {definition : Chord.Definition} {position : Chord.Position} {chart : Diagram.Chart} {width height : Int} :
      db.findName? name.toList = some definition → definition.positions.head? = some position →
      Diagram.chart {} position = .ok chart → position.frets ≠ "not found" →
      Listed db name ⟨name, width, height, .chart chart⟩ (padded name ++ " " ++ position.frets)
  | missing : Listed db name (Diagram.notFound {} name) (padded name ++ " " ++ "not found")

theorem padded_eq (name : String) :
    padded name = name ++ String.ofList (List.replicate (nameWidth - name.length) ' ') := by
  rw [← String.toList_inj, padded, String.toList_ofList, String.toList_append, String.toList_ofList, List.rightpad,
    String.length_toList]

theorem mem_definitions_of_findName? {db : Chord.Database} {name : List Char} {d : Chord.Definition}
    (h : db.findName? name = some d) : ∃ key, d ∈ db.definitions key := by
  rw [Chord.Database.findName?] at h
  split at h
  · exact absurd h (by simp)
  · exact ⟨_, List.mem_of_find?_eq_some h⟩

theorem listed_chordLine {db : Chord.Database} {name : String} {diagram : Diagram}
    (hfrets : ∀ key, ∀ d ∈ db.definitions key, ∀ p ∈ d.positions, p.frets.length = 6)
    (h : Diagram.ofName {} db name.toList = .ok diagram) : Listed db name diagram (chordLine db name) := by
  rw [Diagram.ofName, String.ofList_toList] at h
  rw [chordLine, ← padded_eq]
  rcases Diagram.ofPosition_eq_ok h with ⟨hposition, rfl⟩ | ⟨position, chart, hposition, hchart, rfl⟩
  · rw [hposition]
    exact .missing
  · rw [hposition]
    obtain ⟨definition, hfind, hhead⟩ := Option.bind_eq_some_iff.mp hposition
    obtain ⟨key, hmem⟩ := mem_definitions_of_findName? hfind
    refine .fingering hfind hhead hchart fun heq => ?_
    have hlength := hfrets key definition hmem position (List.mem_of_mem_head? hhead)
    rw [heq] at hlength
    exact absurd hlength (by decide)

/-- Just the entries of chords without a diagram say so. -/
theorem Listed.notFound_iff {db : Chord.Database} {name entry : String} {diagram : Diagram}
    (h : Listed db name diagram entry) :
    entry = padded name ++ " " ++ "not found" ↔ diagram = Diagram.notFound {} name := by
  cases h with
  | fingering _ _ _ hfrets =>
      constructor
      · intro heq
        exact absurd ((String.append_right_inj _).mp heq) hfrets
      · intro heq
        exact absurd (congrArg Diagram.content heq) (by simp [Diagram.notFound])
  | missing => simp

theorem forall₂_listed {db : Chord.Database}
    (hfrets : ∀ key, ∀ d ∈ db.definitions key, ∀ p ∈ d.positions, p.frets.length = 6)
    {names : List String} {diagrams : List Diagram}
    (h : List.Forall₂ (fun name diagram => Diagram.ofName {} db name.toList = .ok diagram) names diagrams) :
    List.Forall₂ (fun shown entry => Listed db shown.1 shown.2 entry) (names.zip diagrams)
      (names.map (chordLine db)) := by
  induction h with
  | nil => exact .nil
  | cons hdiagram _ ih => exact .cons (listed_chordLine hfrets hdiagram) ih

/-! ## The two commands -/

theorem pageText_eq_some {song : Song} {asked : Option SystemText} {format : SheetFormat} {page : String}
    (h : pageText song asked format = .ok (some page)) : ∃ asked, song.page asked format = .ok page := by
  have hsome : ∀ {asked}, (song.page asked format).map some = .ok (some page) → ∃ asked, song.page asked format = .ok page := by
    intro asked h
    cases hpage : song.page asked format with
    | error e => rw [hpage] at h; exact absurd h (by simp [Except.map])
    | ok page' =>
        rw [hpage] at h
        exact ⟨asked, hpage.trans (congrArg Except.ok (Option.some.inj (Except.ok.inj h)))⟩
  unfold pageText at h
  split at h
  · exact hsome h
  · split at h
    · exact hsome h
    · exact hsome h
    · cases hpage : song.page none .page with
      | error e => rw [hpage] at h; exact absurd h (by simp [Except.map])
      | ok page' => rw [hpage] at h; exact absurd h (by simp [Except.map])

theorem Renders.exists_page {I : Interface} {t files : FileTree} {terminal : Bool} {song database target : SystemText}
    {title : Option SystemText} (h : Renders I t terminal song database target title .page (.ok ()) files) :
    ∃ db log text rendered page, t.database database = .ok (db, log) ∧ t.text song = .ok text ∧
      Song.render {} db (String.ofList text) = .ok rendered ∧
      pageText rendered (askedTitle song title (String.ofList text)) .page = .ok (some page) ∧
      files.Holds target page.toUTF8.toList := by
  cases h with
  | written _ hsheet hwrite =>
      obtain ⟨db, log, text, rendered, hdatabase, hsong, hrendered, hpage⟩ := hsheet
      obtain ⟨place, access, hplace, hsets⟩ := FileTree.sets_of_write hwrite
      exact ⟨db, log, text, rendered, _, hdatabase, hsong, hrendered, hpage, hsets.holds hplace⟩

/-- Lines that have no escape characters, or that go to a terminal, are printed as they are. -/
theorem eq_lines_of_plain {I : Interface} (hecho : I.EchoesPlain) {terminal : Bool} {entries lines : List String}
    (h : List.Forall₂ (fun entry line => I.line? terminal (SystemText.ofString entry) = some line) entries lines)
    (hplain : terminal = true ∨ ∀ entry ∈ entries, '\x1b' ∉ entry.toList) : lines = entries.map (· ++ "\n") := by
  induction h with
  | nil => rfl
  | @cons entry line entries lines hline _ ih =>
      have hplain' : terminal = true ∨ '\x1b' ∉ entry.toList := hplain.imp_right fun h => h _ List.mem_cons_self
      rw [line?_of_plain hecho hplain'] at hline
      rw [List.map_cons, ← Option.some.inj hline,
        ih (hplain.imp_right fun h entry hentry => h entry (List.mem_cons_of_mem _ hentry))]

/-- The page of a song has a gallery if and only if the song has chords. -/
theorem gallery_infix_page_iff {db : Chord.Database} {asked : Option String} {text : List Char} {rendered : Song}
    {page : String} (h : Song.RenderedFrom {} db (String.ofList text) rendered)
    (hpage : rendered.page asked .page = .ok page) :
    Page.galleryTag <:+: page.toList ↔ rendered.chords ≠ [] := by
  obtain ⟨sheet, hsheet, rfl⟩ := Song.exists_sheet_of_page hpage
  have hbody : Markup.Begins '<' Page.OtherTag sheet.body.toList := by
    rw [hsheet.body, h.markup]
    exact Page.begins_render db _
  have hempty : sheet.diagrams = [] ↔ rendered.chords = [] := by
    rw [← List.length_eq_zero_iff, ← List.length_eq_zero_iff, ← hsheet.diagrams.length_eq,
      h.diagrams.length_eq]
  rw [show Sheet.render sheet .page = Page.page sheet from rfl, Page.gallery_infix_sheet_iff hbody, Ne, hempty]

/-! ## Runs -/

/-- What is printed for a song agrees with what is drawn for it: one entry for each chord, in order, which tells what
the diagram of the chord shows. Of the entries, control sequences may be left out. -/
structure Agrees (I : Interface) (terminal : Bool) (db : Chord.Database) (rendered : Song) (page stdout : String) : Prop where
  diagrams : rendered.chords.length = rendered.diagrams.length
  entries : ∃ entries lines,
    List.Forall₂ (fun shown entry => Listed db shown.1 shown.2 entry) (rendered.chords.zip rendered.diagrams) entries ∧
    List.Forall₂ (fun entry line => I.line? terminal (SystemText.ofString entry) = some line) entries lines ∧
    stdout = String.join lines ∧
    ((terminal = true ∨ ∀ entry ∈ entries, '\x1b' ∉ entry.toList) → stdout = String.join (entries.map (· ++ "\n")))
  nothing : rendered.chords = [] → stdout = ""
  gallery : Page.galleryTag <:+: page.toList ↔ rendered.chords ≠ []

section Runs

variable {σ σ' : Type} {I : Interface} {L : Log.Loggers σ} {L' : Log.Loggers σ'} {s s' : Setting}
  {arguments arguments' : List SystemText} {verbose verbose' : Bool} {song song' database database' : SystemText}
  {output title : Option SystemText}

/-- Both commands come to the same chords of a song, and take their fingerings from the same database. -/
theorem exists_rendered (hsong : s.files.read song = s'.files.read song')
    (hdatabase : s.files.read database = s'.files.read database')
    (hchords : I.reading s arguments = .call verbose (.chords song database))
    (hrender : I.reading s' arguments' = .call verbose' (.render song' database' output title .page))
    (hlisted : (I.run L s arguments).ending.status = 0) (hrendered : (I.run L' s' arguments').ending.status = 0) :
    ∃ db log text rendered page, s'.files.database database' = .ok (db, log) ∧ s'.files.text song' = .ok text ∧
      Song.render {} db (String.ofList text) = .ok rendered ∧
      pageText rendered (askedTitle song' title (String.ofList text)) .page = .ok (some page) ∧
      (I.run L' s' arguments').files.Holds (renderTarget song' output) page.toUTF8.toList ∧
      List.Forall₂ (fun shown entry => Listed db shown.1 shown.2 entry) (rendered.chords.zip rendered.diagrams)
        (rendered.chords.map (chordLine db)) ∧
      ∃ lines, List.Forall₂ (fun entry line => I.line? (s.terminal .stdout) (SystemText.ofString entry) = some line)
          (rendered.chords.map (chordLine db)) lines ∧
        (I.run L s arguments).stdout = String.join lines := by
  obtain ⟨result, hending, hperforms⟩ := performs_of_reading I L s arguments hchords
  obtain ⟨result', hending', hperforms'⟩ := performs_of_reading I L' s' arguments' hrender
  rw [hending] at hlisted
  rw [hending'] at hrendered
  obtain rfl := eq_ok_of_status hlisted
  obtain rfl := eq_ok_of_status hrendered
  have hlists := hperforms.lists
  generalize (I.run L s arguments).stdout = stdout at hlists ⊢
  cases hlists with
  | @listed db log text lines hloaded htext hlines =>
      obtain ⟨db', log', text', rendered, page, hloaded', htext', hrender, hpage, hholds⟩ := hperforms'.renders.exists_page
      obtain rfl := Except.ok.inj ((FileTree.text_of_read_eq hsong htext).symm.trans htext')
      obtain ⟨rfl, rfl⟩ :=
        Prod.mk.inj (Except.ok.inj ((FileTree.database_of_read_eq hdatabase hloaded).symm.trans hloaded'))
      have hfrom := Song.renderedFrom_of_render hrender
      obtain ⟨source, -, hsource⟩ := FileTree.database_eq_ok_iff.mp hloaded
      have hfrets : ∀ key, ∀ d ∈ db.definitions key, ∀ p ∈ d.positions, p.frets.length = 6 :=
        fun key d hd p hp => Chord.length_frets_of_ofText hsource hd hp
      refine ⟨db, log, text, rendered, page, hloaded', htext', hrender, hpage, hholds,
        forall₂_listed hfrets hfrom.diagrams, lines, ?_, rfl⟩
      rwa [hfrom.chords, hfrom.document, List.forall₂_map_left_iff]

end Runs

/-! ### One chord -/

/-- A database, which has one fingering of C major, and a song with this chord. -/
def oneChord (frets : String) : Setting where
  files :=
    { cwd := []
      nodes :=
        [(["db.json"], .file {}
          ("\x7b\"C\": [\x7b\"suffix\": \"major\", \"positions\": [\x7b\"frets\": \"" ++ frets ++
            "\"\x7d]\x7d]\x7d").toUTF8.toList),
        (["song.txt"], .file {} "hello [C] world".toUTF8.toList)] }

def oneChordListed (frets : String) : Outcome :=
  reader.run Log.Registry.loggers (oneChord frets) ["chords", "song.txt", "--db", "db.json"]

def oneChordRendered (frets : String) : Outcome :=
  reader.run Log.Registry.loggers (oneChord frets) ["render", "song.txt", "--db", "db.json"]

theorem reading_chords (frets : String) :
    reader.reading (oneChord frets) ["chords", "song.txt", "--db", "db.json"] =
      .call false (.chords "song.txt" "db.json") :=
  rfl

theorem reading_render (frets : String) :
    reader.reading (oneChord frets) ["render", "song.txt", "--db", "db.json"] =
      .call false (.render "song.txt" "db.json" none none .page) :=
  rfl

end Command

end LeadSheet
