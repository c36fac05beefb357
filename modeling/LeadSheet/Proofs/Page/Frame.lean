import LeadSheet.Proofs.Json.Keys
import LeadSheet.Proofs.Markup.Elements
import LeadSheet.Proofs.Page.Gallery
import Mathlib.Data.List.Nodup

/-!
# The frame of a page

What a page has before its gallery and its body is put together from the title and the fields of a song, which may hold
anything. They are escaped, so they are shown and change nothing else: how many rows there are and whether there is a
heading settles the tags of a page.

* `perm_shownFields`, `keys_shownFields` : which fields have a row, and in which order;
* `reads_tagLines`, `reads_escaped` : a line that is a tag, and an element that holds an escaped text;
* `reads_opening`, `reads_heading`, `reads_fields` : the lines before the gallery, part by part, and `reads_frame` for
  all of them;
* `toList_page` : the gallery and the body stand after them, as they are;
* `page_frame` : this together, and that pages with as many rows have the same tags.
-/

namespace LeadSheet.Page

open Markup (tags tagName elements Reads linesText linesText_append toList_intercalate_lines)

/-! ## The fields that are shown -/

section Fields

variable {metadata : List (String × String)}

/-- The leading fields come first, then the others as they are declared. -/
theorem keys_shownFields (metadata : List (String × String)) :
    Dictionary.keys (shownFields metadata) =
      leadingFields.filter (fun name => name ∈ Dictionary.keys metadata) ++
        (Dictionary.keys metadata).filter fun name => name ∉ leadingFields ∧ name ≠ "title" := by
  have hleading : (fun name => ((metadata.lookup name).map fun value => (name, value)).map Prod.fst) =
      Option.guard fun name => name ∈ Dictionary.keys metadata := by
    funext name
    rw [Option.map_map]
    by_cases hname : name ∈ Dictionary.keys metadata
    · obtain ⟨value, hvalue⟩ := Option.isSome_iff_exists.mp (Dictionary.lookup_isSome_iff.mpr hname)
      simp [hvalue, Option.guard, hname]
    · have hnone : metadata.lookup name = none := by
        rw [← Option.not_isSome_iff_eq_none]
        exact mt Dictionary.lookup_isSome_iff.mp hname
      simp [hnone, Option.guard, hname]
  rw [Dictionary.keys, shownFields, List.map_append, List.map_filterMap, hleading, List.filterMap_eq_filter,
    Dictionary.keys, List.filter_map]
  refine congrArg (_ ++ ·) (congrArg _ (List.filter_congr fun field _ => ?_))
  rw [Bool.eq_iff_iff]
  simp

theorem mem_shownFields_iff (h : (Dictionary.keys metadata).Nodup) {field : String × String} :
    field ∈ shownFields metadata ↔ field ∈ metadata ∧ field.1 ≠ "title" := by
  have hleading : ∀ name ∈ leadingFields, name ≠ "title" := by decide
  obtain ⟨name, value⟩ := field
  rw [shownFields, List.mem_append, List.mem_filterMap, List.mem_filter]
  constructor
  · rintro (⟨key, hkey, hfield⟩ | ⟨hmem, hother⟩)
    · obtain ⟨stored, hstored, hpair⟩ := Option.map_eq_some_iff.mp hfield
      obtain ⟨rfl, rfl⟩ := Prod.mk.inj hpair
      exact ⟨(Dictionary.lookup_eq_some_iff_mem h).mp hstored, hleading key hkey⟩
    · simp only [Bool.and_eq_true, bne_iff_ne, ne_eq] at hother
      exact ⟨hmem, hother.2⟩
  · rintro ⟨hmem, hname⟩
    by_cases hkey : name ∈ leadingFields
    · exact Or.inl ⟨name, hkey, by rw [(Dictionary.lookup_eq_some_iff_mem h).mpr hmem]; rfl⟩
    · exact Or.inr ⟨hmem, by simpa [hkey] using hname⟩

/-- The fields that are shown are those of the song but for the title, each once. -/
theorem perm_shownFields (h : (Dictionary.keys metadata).Nodup) :
    (shownFields metadata).Perm (metadata.filter fun field => field.1 ≠ "title") := by
  have hkeys : (Dictionary.keys (shownFields metadata)).Nodup := by
    rw [keys_shownFields, List.nodup_append]
    refine ⟨List.Nodup.filter _ (by decide), List.Nodup.filter _ h, ?_⟩
    rintro name hleading _ hother rfl
    have hnot := (List.mem_filter.mp hother).2
    simp [(List.mem_filter.mp hleading).1] at hnot
  have hfields := List.Nodup.filter (fun field : String × String => field.1 ≠ "title") (List.Nodup.of_map _ h)
  refine (List.perm_ext_iff_of_nodup (List.Nodup.of_map _ hkeys) hfields).mpr fun field => ?_
  rw [mem_shownFields_iff h, List.mem_filter, decide_eq_true_eq]

end Fields

/-! ## The lines before the diagrams -/

/-- The elements of a page whose contents the song gives. -/
def shownNames : List (List Char) := ["title".toList, "h1".toList, "dt".toList, "dd".toList]

def openingTags : List (List Char) :=
  ["!DOCTYPE html", "html lang=\"en\"", "head", "meta charset=\"UTF-8\" /",
    "meta name=\"viewport\" content=\"width=device-width, initial-scale=1.0\" /", "title", "/title", "style", "/style",
    "/head", "body"].map String.toList

def headingTags (title : String) : List (List Char) :=
  if title = "" then [] else ["h1".toList, "/h1".toList]

def headingElements (title : String) : List (List Char × List Char) :=
  if title = "" then [] else [("h1".toList, Text.escape title.toList)]

def rowTags (count : Nat) : List (List Char) :=
  (List.replicate count ["dt".toList, "/dt".toList, "dd".toList, "/dd".toList]).flatten

def fieldTags (count : Nat) : List (List Char) :=
  if count = 0 then [] else "dl class=\"metadata\"".toList :: (rowTags count ++ ["/dl".toList])

def rowElements (field : String × String) : List (List Char × List Char) :=
  [("dt".toList, Text.escape (Text.capitalize (field.1.toList.map fun c => if c = '_' ∨ c = '-' then ' ' else c))),
    ("dd".toList, Text.escape field.2.toList)]

section Lines

/-- Lines each of which is a tag, with some spaces before it. -/
theorem reads_tagLines {lines : List String} (tagged : List (Nat × String))
    (hlines : lines.map String.toList =
      tagged.map fun p => List.replicate p.1 ' ' ++ ('<' :: p.2.toList ++ ['>']))
    (h : ∀ p ∈ tagged, '>' ∉ p.2.toList ∧ tagName p.2.toList ∉ shownNames) :
    Reads shownNames (linesText lines) (tagged.map fun p => p.2.toList) [] := by
  have hspaces : ∀ n, '<' ∉ List.replicate n ' ' := fun n hmem => absurd (List.eq_of_mem_replicate hmem) (by decide)
  have hline : ∀ p ∈ tagged, Reads shownNames
      (List.replicate p.1 ' ' ++ ('<' :: p.2.toList ++ ['>']) ++ ['\n']) [p.2.toList] [] := fun p hp =>
    ((Reads.text (hspaces p.1)).append (.tag (h p hp).1 (h p hp).2)).append (.text (by decide))
  have htext : linesText lines =
      tagged.flatMap fun p => List.replicate p.1 ' ' ++ ('<' :: p.2.toList ++ ['>']) ++ ['\n'] := calc
    linesText lines = (lines.map String.toList).flatMap (· ++ ['\n']) := by rw [linesText, List.flatMap_map]
    _ = _ := by rw [hlines, List.flatMap_map]
  have hreads := Reads.flatMap hline
  rwa [← htext, ← List.map_eq_flatMap, List.flatMap_eq_nil_iff.mpr fun _ _ => rfl] at hreads

/-- An element that holds an escaped text, with some spaces before it. -/
theorem reads_escaped {name closing before after : String} {depth : Nat} (hname : name.toList ∈ shownNames)
    (hclosing : closing.toList = '/' :: name.toList)
    (hbefore : before.toList = List.replicate depth ' ' ++ ('<' :: name.toList ++ ['>']))
    (hafter : after.toList = '<' :: closing.toList ++ ['>']) (content : String) :
    Reads shownNames (before ++ Text.escapeString content ++ after).toList [name.toList, closing.toList]
      [(name.toList, Text.escape content.toList)] := by
  have hspaces : '<' ∉ List.replicate depth ' ' := fun hmem => absurd (List.eq_of_mem_replicate hmem) (by decide)
  have hnames : ∀ n ∈ shownNames, '>' ∉ n ∧ tagName n = n ∧ '/' :: n ∉ shownNames := by decide
  obtain ⟨hclose, htag, hslash⟩ := hnames _ hname
  have hreads := @Reads.element shownNames name.toList (Text.escape content.toList) hclose (htag.symm ▸ hname)
    (htag.symm ▸ hslash) (Markup.not_mem_escape content.toList)
  have hsplit : (before ++ Text.escapeString content ++ after).toList = List.replicate depth ' ' ++
      ('<' :: name.toList ++ '>' :: Text.escape content.toList ++ '<' :: '/' :: name.toList ++ ['>']) := by
    rw [String.toList_append, String.toList_append, Text.escapeString, String.toList_ofList, hbefore, hafter, hclosing]
    simp
  rw [htag] at hreads
  rw [hsplit, hclosing]
  exact (Reads.text hspaces).append hreads

theorem reads_style : Reads shownNames (linesText styleLines) [] [] := by
  refine .text fun hmem => ?_
  obtain ⟨line, hline, hmem⟩ := List.mem_flatMap.mp hmem
  rcases List.mem_append.mp hmem with hmem | hmem
  · exact not_mem_styleLines line hline hmem
  · exact absurd hmem (by decide)

theorem reads_opening (title : String) :
    Reads shownNames (linesText (openingLines title)) openingTags [("title".toList, Text.escape title.toList)] := by
  have hsplit : linesText (openingLines title) =
      linesText ["<!DOCTYPE html>", "<html lang=\"en\">", "<head>", "  <meta charset=\"UTF-8\" />",
        "  <meta name=\"viewport\" content=\"width=device-width, initial-scale=1.0\" />"] ++
      linesText ["  <title>" ++ Text.escapeString title ++ "</title>"] ++ linesText ["  <style>"] ++
      linesText styleLines ++ linesText ["  </style>", "</head>", "<body>"] := by
    simp only [← linesText_append]
    rfl
  have hfirst := @reads_tagLines ["<!DOCTYPE html>", "<html lang=\"en\">", "<head>", "  <meta charset=\"UTF-8\" />",
      "  <meta name=\"viewport\" content=\"width=device-width, initial-scale=1.0\" />"]
    [(0, "!DOCTYPE html"), (0, "html lang=\"en\""), (0, "head"), (2, "meta charset=\"UTF-8\" /"),
      (2, "meta name=\"viewport\" content=\"width=device-width, initial-scale=1.0\" /")] (by decide) (by decide)
  have htitle : Reads shownNames ("  <title>" ++ Text.escapeString title ++ "</title>").toList
      ["title".toList, "/title".toList] [("title".toList, Text.escape title.toList)] :=
    @reads_escaped _ _ _ _ 2 (by decide) (by decide) (by decide) (by decide) title
  have hstyle := @reads_tagLines ["  <style>"] [(2, "style")] (by decide) (by decide)
  have hlast := @reads_tagLines ["  </style>", "</head>", "<body>"] [(2, "/style"), (0, "/head"), (0, "body")]
    (by decide) (by decide)
  rw [hsplit]
  exact (((hfirst.append htitle.line).append hstyle).append reads_style).append hlast

theorem reads_heading (title : String) :
    Reads shownNames (linesText (headingLines title)) (headingTags title) (headingElements title) := by
  rw [headingLines, headingTags, headingElements]
  by_cases htitle : title = ""
  · rw [if_pos htitle, if_pos htitle, if_pos (by rw [htitle]; rfl)]
    exact .text List.not_mem_nil
  · have hline : Reads shownNames ("  <h1>" ++ Text.escapeString title ++ "</h1>").toList ["h1".toList, "/h1".toList]
        [("h1".toList, Text.escape title.toList)] :=
      @reads_escaped _ _ _ _ 2 (by decide) (by decide) (by decide) (by decide) title
    rw [if_neg htitle, if_neg htitle, if_neg (by rwa [String.isEmpty_iff])]
    exact hline.line

theorem reads_row (field : String × String) :
    Reads shownNames (fieldRow field).toList ["dt".toList, "/dt".toList, "dd".toList, "/dd".toList]
      (rowElements field) := by
  have hlabel : (fieldLabel field.1).toList =
      Text.capitalize (field.1.toList.map fun c => if c = '_' ∨ c = '-' then ' ' else c) := String.toList_ofList
  have hterm : Reads shownNames ("    <dt>" ++ Text.escapeString (fieldLabel field.1) ++ "</dt>").toList
      ["dt".toList, "/dt".toList] [("dt".toList, Text.escape (fieldLabel field.1).toList)] :=
    @reads_escaped _ _ _ _ 4 (by decide) (by decide) (by decide) (by decide) (fieldLabel field.1)
  have hvalue : Reads shownNames ("<dd>" ++ Text.escapeString field.2 ++ "</dd>").toList
      ["dd".toList, "/dd".toList] [("dd".toList, Text.escape field.2.toList)] :=
    @reads_escaped _ _ _ _ 0 (by decide) (by decide) (by decide) (by decide) field.2
  have hsplit : (fieldRow field).toList =
      ("    <dt>" ++ Text.escapeString (fieldLabel field.1) ++ "</dt>").toList ++
        ("<dd>" ++ Text.escapeString field.2 ++ "</dd>").toList := by
    have hbetween : "</dt><dd>".toList = "</dt>".toList ++ "<dd>".toList := by decide
    simp only [fieldRow, String.toList_append, hbetween, List.append_assoc]
  rw [hsplit, rowElements, ← hlabel]
  exact hterm.append hvalue

theorem reads_fields (metadata : List (String × String)) :
    Reads shownNames (linesText (fieldLines metadata)) (fieldTags (shownFields metadata).length)
      ((shownFields metadata).flatMap rowElements) := by
  by_cases hempty : shownFields metadata = []
  · rw [fieldLines, fieldTags, hempty]
    exact .text List.not_mem_nil
  · have hlines : linesText (fieldLines metadata) = linesText ["  <dl class=\"metadata\">"] ++
        linesText ((shownFields metadata).map fieldRow) ++ linesText ["  </dl>"] := by
      have hrows : ((shownFields metadata).map fieldRow).isEmpty = false := by
        rwa [List.isEmpty_map, List.isEmpty_eq_false_iff]
      rw [fieldLines, hrows, ← linesText_append, ← linesText_append]
      rfl
    have hopening := @reads_tagLines ["  <dl class=\"metadata\">"] [(2, "dl class=\"metadata\"")] (by decide)
      (by decide)
    have hrows := Reads.lines fun field (_ : field ∈ shownFields metadata) => reads_row field
    have hclosing := @reads_tagLines ["  </dl>"] [(2, "/dl")] (by decide) (by decide)
    have htags : fieldTags (shownFields metadata).length = ["dl class=\"metadata\"".toList] ++
        (shownFields metadata).flatMap (fun _ => ["dt".toList, "/dt".toList, "dd".toList, "/dd".toList]) ++
          ["/dl".toList] := by
      rw [fieldTags, if_neg (mt List.length_eq_zero_iff.mp hempty), rowTags, List.flatMap, List.map_const']
      rfl
    have hreads := (hopening.append hrows).append hclosing
    rw [List.nil_append, List.append_nil] at hreads
    rw [hlines, htags]
    exact hreads

end Lines

/-! ## Pages -/

/-- The gallery of a page, if there is one, with every diagram as it is. -/
def galleryText (diagrams : List String) : List Char :=
  if diagrams = [] then []
  else
    linesText ["  <h2>Chords Used</h2>", "  <div class=\"chord-gallery\">"] ++
      linesText (diagrams.map fun svg => "    <div class=\"chord-diagram\">" ++ svg ++ "</div>") ++
      linesText ["  </div>"]

/-- The body of a page, as it is, and the end of the page. -/
def contentText (body : String) : List Char :=
  linesText ["  <div class=\"song-content\">", body, "  </div>", "</body>"] ++ "</html>".toList

/-- The rows are the fields of a song in the order in which they are shown: all but the title, each once, some names
first and the others as they are declared. -/
structure Shows (metadata rows : List (String × String)) : Prop where
  perm : rows.Perm (metadata.filter fun field => field.1 ≠ "title")
  keys : Dictionary.keys rows = leadingFields.filter (fun name => name ∈ Dictionary.keys metadata) ++
    (Dictionary.keys metadata).filter fun name => name ∉ leadingFields ∧ name ≠ "title"

theorem framed_indented (svg : String) :
    "    " ++ framed svg = "    <div class=\"chord-diagram\">" ++ svg ++ "</div>" := by
  have hopening : "    " ++ "<div class=\"chord-diagram\">" = "    <div class=\"chord-diagram\">" := by decide
  have hassoc : ∀ s t u v : String, s ++ (t ++ u ++ v) = s ++ t ++ u ++ v := by simp [String.append_assoc]
  calc "    " ++ framed svg = "    " ++ "<div class=\"chord-diagram\">" ++ svg ++ "</div>" := hassoc ..
    _ = _ := congrArg (fun opening => opening ++ svg ++ "</div>") hopening

theorem linesText_gallery (diagrams : List String) : linesText (galleryLines diagrams) = galleryText diagrams := by
  by_cases hempty : diagrams = []
  · rw [galleryLines, galleryText, if_pos hempty, if_pos (List.isEmpty_iff.mpr hempty), linesText, List.flatMap_nil]
  · rw [galleryLines, galleryText, if_neg hempty, if_neg (mt List.isEmpty_iff.mp hempty), funext framed_indented,
      ← linesText_append, ← linesText_append, List.append_assoc]
    rfl

/-- A page is its frame, with the gallery and the body in it. -/
theorem toList_page (sheet : Sheet) :
    (page sheet).toList = linesText (openingLines sheet.title) ++ linesText (headingLines sheet.title) ++
      linesText (fieldLines sheet.metadata) ++ galleryText sheet.diagrams ++ contentText sheet.body := by
  have hsplit : openingLines sheet.title ++ headingLines sheet.title ++ fieldLines sheet.metadata ++
      galleryLines sheet.diagrams ++ ["  <div class=\"song-content\">", sheet.body, "  </div>", "</body>", "</html>"] =
      (openingLines sheet.title ++ headingLines sheet.title ++ fieldLines sheet.metadata ++
        galleryLines sheet.diagrams ++ ["  <div class=\"song-content\">", sheet.body, "  </div>", "</body>"]) ++
        ["</html>"] := by
    rw [List.append_assoc _ _ ["</html>"]]
    rfl
  rw [page, hsplit, toList_intercalate_lines]
  simp only [linesText_append, linesText_gallery, contentText, List.append_assoc]

/-- What a page has before its gallery and its body is read as so many rows and perhaps a heading, whatever the title
and the fields hold. -/
theorem reads_frame (sheet : Sheet) :
    ∃ head, (page sheet).toList = head ++ galleryText sheet.diagrams ++ contentText sheet.body ∧
      Reads shownNames head
        (openingTags ++ headingTags sheet.title ++ fieldTags (shownFields sheet.metadata).length)
        (("title".toList, Text.escape sheet.title.toList) :: headingElements sheet.title ++
          (shownFields sheet.metadata).flatMap rowElements) :=
  ⟨_, toList_page sheet,
    ((reads_opening sheet.title).append (reads_heading sheet.title)).append (reads_fields sheet.metadata)⟩

/-- A page shows each field of the song but the title in a row of its own, with its label and its value escaped, some
names first and the others as they are declared. The gallery and the body stand in it once and as they are. What a
title or a field holds has no part in the tags of the page. No name is declared twice, by `Dictionary.ofPairs_spec`. -/
theorem page_frame {sheet : Sheet} (hkeys : (Dictionary.keys sheet.metadata).Nodup) :
    Shows sheet.metadata (shownFields sheet.metadata) ∧
    (∃ head, (page sheet).toList = head ++ galleryText sheet.diagrams ++ contentText sheet.body ∧
      Reads shownNames head
        (openingTags ++ headingTags sheet.title ++ fieldTags (shownFields sheet.metadata).length)
        (("title".toList, Text.escape sheet.title.toList) :: headingElements sheet.title ++
          (shownFields sheet.metadata).flatMap rowElements)) ∧
    ∀ other : Sheet, (Dictionary.keys other.metadata).Nodup → other.body = sheet.body →
      other.diagrams = sheet.diagrams → (other.title = "" ↔ sheet.title = "") →
      (other.metadata.filter fun field => field.1 ≠ "title").length =
        (sheet.metadata.filter fun field => field.1 ≠ "title").length →
      tags (page other).toList = tags (page sheet).toList := by
  refine ⟨⟨perm_shownFields hkeys, keys_shownFields _⟩, reads_frame sheet, ?_⟩
  intro other hother hbody hdiagrams htitle hcount
  obtain ⟨head, hpage, hreads⟩ := reads_frame sheet
  obtain ⟨head', hpage', hreads'⟩ := reads_frame other
  have hlength : (shownFields other.metadata).length = (shownFields sheet.metadata).length := by
    rw [(perm_shownFields hother).length_eq, hcount, (perm_shownFields hkeys).length_eq]
  have hheading : headingTags other.title = headingTags sheet.title := by
    rw [headingTags, headingTags]
    exact if_congr htitle rfl rfl
  rw [hpage, hpage', List.append_assoc, List.append_assoc, hreads.tags_append, hreads'.tags_append, hlength, hheading,
    hbody, hdiagrams]

/-- A song that has markup wherever it can have a text. -/
def markedSheet : Sheet where
  title := "</title><b>"
  metadata := [("re-mix_of", "</dl>"), ("title", "<h1>"), ("artist", "A & B"), ("<dt>", "<dd>")]
  body := "<p>C</p>"
  diagrams := ["<svg></svg>"]

/-- A song with as many fields, in which there is no markup. -/
def plainSheet : Sheet where
  title := "Song"
  metadata := [("key", "C"), ("artist", "A"), ("album", "B")]
  body := "<p>C</p>"
  diagrams := ["<svg></svg>"]

theorem page_frame_marked :
    (Dictionary.keys markedSheet.metadata).Nodup ∧ (Dictionary.keys plainSheet.metadata).Nodup ∧
      (∃ head, (page markedSheet).toList = head ++ galleryText ["<svg></svg>"] ++ contentText "<p>C</p>" ∧
        elements shownNames head =
          [("title".toList, "&lt;/title&gt;&lt;b&gt;".toList), ("h1".toList, "&lt;/title&gt;&lt;b&gt;".toList),
            ("dt".toList, "Artist".toList), ("dd".toList, "A &amp; B".toList),
            ("dt".toList, "Re mix of".toList), ("dd".toList, "&lt;/dl&gt;".toList),
            ("dt".toList, "&lt;dt&gt;".toList), ("dd".toList, "&lt;dd&gt;".toList)]) ∧
      tags (page plainSheet).toList = tags (page markedSheet).toList := by
  have hmarked : (Dictionary.keys markedSheet.metadata).Nodup := by decide
  have hplain : (Dictionary.keys plainSheet.metadata).Nodup := by decide
  obtain ⟨-, ⟨head, hpage, hreads⟩, htags⟩ := page_frame hmarked
  refine ⟨hmarked, hplain, ⟨head, hpage, ?_⟩, htags plainSheet hplain rfl rfl (by decide) rfl⟩
  rw [hreads.elements_eq]
  decide +kernel

end LeadSheet.Page
