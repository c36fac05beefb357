import LeadSheet.Page.Sheet
import LeadSheet.Proofs.Markup.Safety
import LeadSheet.Proofs.Scan
import Mathlib.Tactic.Common

/-!
# The gallery of a page

A page has a gallery just where there are diagrams to show. That it has none where there are none says more than that
none is put there: neither the style sheet nor a title, a field or a body holds what could be taken for one.

* `OtherTag` : a tag that does not open a gallery; a text with no other tags has no gallery (`not_gallery_infix`);
* `begins_opening`, `begins_heading`, `begins_fields` : the lines before the body are such texts, whatever the title and
  the fields are, and so is a rendered body (`begins_render`);
* `gallery_infix_sheet_iff` : so a page has a gallery if and only if it has diagrams.
-/

namespace LeadSheet

open Markup (Begins OwnTag)

/-! ## Tags -/

namespace Page

def galleryTag : List Char := "<div class=\"chord-gallery\">".toList

/-- A single tag that does not open a gallery. -/
def OtherTag (tag : List Char) : Prop := ∃ s, tag = '<' :: s ++ ['>'] ∧ '>' ∉ s ∧ tag ≠ galleryTag

section Texts

variable {s : List Char}

theorem not_gallery_infix (h : Begins '<' OtherTag s) : ¬ galleryTag <:+: s := by
  rintro ⟨before, after, hs⟩
  -- the tag of a gallery has only one closing bracket, so a tag that begins where it does is this tag
  obtain ⟨inside, hgallery, hinside⟩ : ∃ inside, galleryTag = '<' :: inside ++ ['>'] ∧ '>' ∉ inside :=
    ⟨"div class=\"chord-gallery\"".toList, rfl, by decide⟩
  have hsplit : s = before ++ '<' :: (inside ++ '>' :: after) := by
    rw [← hs, hgallery]
    simp
  obtain ⟨_, ⟨other, rfl, hother, hne⟩, rest, hrest⟩ := h before _ hsplit
  have htail : other ++ '>' :: rest = inside ++ '>' :: after := by simpa using hrest
  obtain ⟨rfl, -⟩ := Text.append_mark_inj hother hinside htail
  exact hne hgallery.symm

/-- Every tag of a text ends in it and does not open a gallery. -/
def hasOtherTags : List Char → Bool
  | [] => true
  | c :: rest => (c != '<' || (rest.contains '>' && !galleryTag.isPrefixOf (c :: rest))) && hasOtherTags rest

theorem begins_of_hasOtherTags (h : hasOtherTags s = true) : Begins '<' OtherTag s := by
  induction s with
  | nil => exact .of_not_mem List.not_mem_nil
  | cons c s ih =>
      rw [hasOtherTags, Bool.and_eq_true] at h
      intro before after hs
      cases before with
      | cons d before => exact ih h.2 before after (List.cons.inj hs).2
      | nil =>
          obtain ⟨rfl, rfl⟩ := List.cons.inj hs
          simp only [bne_self_eq_false, Bool.false_or, Bool.and_eq_true, List.contains_iff_mem,
            Bool.not_eq_true'] at h
          obtain ⟨inside, rest, rfl, hinside⟩ := List.eq_append_cons_of_mem h.1.1
          have hprefix : '<' :: inside ++ ['>'] <+: '<' :: (inside ++ '>' :: rest) := ⟨rest, by simp⟩
          refine ⟨_, ⟨inside, rfl, hinside, fun heq => ?_⟩, hprefix⟩
          rw [heq, ← List.isPrefixOf_iff_prefix, h.1.2] at hprefix
          exact absurd hprefix Bool.false_ne_true

/-! ## What stands on a page -/

theorem ne_galleryTag {tag : List Char} (h : tag[1]? ≠ some 'd') : tag ≠ galleryTag := by
  rintro rfl
  exact h (by decide)

theorem otherTag_of_ownTag {tag : List Char} (h : OwnTag tag) : OtherTag tag := by
  obtain ⟨s, hs, hmarkless⟩ := h.eq_markless
  refine ⟨s, hs, hmarkless.no_close, ?_⟩
  cases h with
  | bare hname =>
      exact (by decide : ∀ name ∈ Markup.bareNames, '<' :: name.toList ++ ['>'] ≠ galleryTag) _ hname
  | closing hname =>
      exact (by decide : ∀ name ∈ Markup.closingNames, '<' :: '/' :: name.toList ++ ['>'] ≠ galleryTag) _ hname
  | @role name role hrole =>
      exact (by decide : ∀ r ∈ Markup.elementRoles,
        '<' :: r.1.toList ++ " class=\"".toList ++ r.2.toList ++ "\">".toList ≠ galleryTag) (name, role) hrole
  | code => exact ne_galleryTag (by simp)
  | image => exact ne_galleryTag (by simp)
  | anchor => exact ne_galleryTag (by simp)

/-- A rendered body has no gallery of its own. -/
theorem begins_render (db : Chord.Database) (body : String) : Begins '<' OtherTag (Markup.render db body).toList := by
  intro before after hs
  rw [Markup.render, String.toList_ofList] at hs
  obtain ⟨tag, htag, hprefix⟩ := (Markup.safe_print (Markup.bodyTokens_own db body.toList)).opens before after hs
  exact ⟨tag, otherTag_of_ownTag htag, hprefix⟩

theorem begins_escape (s : String) : Begins '<' OtherTag (Text.escapeString s).toList := by
  rw [Text.escapeString, String.toList_ofList]
  exact .of_not_mem (Markup.not_mem_escape s.toList)

theorem begins_append {u v : String} (hu : Begins '<' OtherTag u.toList) (hv : Begins '<' OtherTag v.toList) :
    Begins '<' OtherTag (u ++ v).toList := by
  rw [String.toList_append]
  exact hu.append hv

/-! ### The style sheet -/

def StyleRule.texts (r : StyleRule) : List String := r.selector :: r.properties.flatMap fun p => [p.1, p.2]

def StylePart.texts : StylePart → List String
  | rule r => r.texts
  | medium query rules => query :: rules.flatMap StyleRule.texts

theorem not_mem_append {u v : String} (hu : '<' ∉ u.toList) (hv : '<' ∉ v.toList) : '<' ∉ (u ++ v).toList := by
  rw [String.toList_append, List.mem_append, not_or]
  exact ⟨hu, hv⟩

theorem not_mem_indented (depth : Nat) {line : String} (h : '<' ∉ line.toList) :
    '<' ∉ (indented depth line).toList := by
  refine not_mem_append (fun hmem => ?_) h
  rw [String.toList_ofList] at hmem
  exact absurd (List.eq_of_mem_replicate hmem) (by decide)

theorem not_mem_rule {r : StyleRule} (h : ∀ u ∈ r.texts, '<' ∉ u.toList) (depth : Nat) :
    ∀ line ∈ r.lines depth, '<' ∉ line.toList := by
  obtain ⟨hselector, hproperties⟩ := List.forall_mem_cons.mp h
  have hproperty : ∀ line ∈ r.properties.map (fun p => p.1 ++ ": " ++ p.2 ++ ";"), '<' ∉ line.toList := by
    refine List.forall_mem_map.mpr fun p hp => ?_
    have htexts : ∀ u ∈ [p.1, p.2], '<' ∉ u.toList := fun u hu => hproperties u (List.mem_flatMap.mpr ⟨p, hp, hu⟩)
    exact not_mem_append (not_mem_append (not_mem_append (htexts _ List.mem_cons_self) (by decide))
      (htexts _ (List.mem_cons_of_mem _ List.mem_cons_self))) (by decide)
  rw [StyleRule.lines]
  split
  · simp only [List.cons_append, List.forall_mem_cons, List.forall_mem_append, List.forall_mem_map]
    exact ⟨not_mem_indented depth (not_mem_append hselector (by decide)),
      fun p hp => not_mem_indented _ (hproperty _ (List.mem_map_of_mem hp)),
      not_mem_indented depth (by decide), List.forall_mem_nil _⟩
  · have hjoined : '<' ∉ (String.intercalate " " (r.properties.map fun p => p.1 ++ ": " ++ p.2 ++ ";")).toList := by
      rw [String.toList_intercalate]
      exact Text.not_mem_intercalate (by decide : '<' ≠ ' ') (List.forall_mem_map.mpr hproperty)
    exact List.forall_mem_singleton.mpr (not_mem_indented depth
      (not_mem_append (not_mem_append (not_mem_append hselector (by decide)) hjoined) (by decide)))

theorem not_mem_part {part : StylePart} (h : ∀ u ∈ part.texts, '<' ∉ u.toList) (depth : Nat) :
    ∀ line ∈ part.lines depth, '<' ∉ line.toList := by
  cases part with
  | rule r => exact not_mem_rule h depth
  | medium query rules =>
      obtain ⟨hquery, hrules⟩ := List.forall_mem_cons.mp h
      simp only [StylePart.lines, List.cons_append, List.forall_mem_cons, List.forall_mem_append]
      refine ⟨not_mem_indented depth (not_mem_append (not_mem_append (by decide) hquery) (by decide)),
        fun line hline => ?_, not_mem_indented depth (by decide), List.forall_mem_nil _⟩
      obtain ⟨r, hr, hline⟩ := List.mem_flatMap.mp hline
      exact not_mem_rule (fun u hu => hrules u (List.mem_flatMap.mpr ⟨r, hr, hu⟩)) _ line hline

/-- No tag begins in the style sheet. -/
theorem not_mem_styleLines : ∀ line ∈ styleLines, '<' ∉ line.toList := by
  have htexts : ∀ part ∈ styleSheet, ∀ u ∈ part.texts, '<' ∉ u.toList := by decide +kernel
  intro line hline
  obtain ⟨part, hpart, hline⟩ := List.mem_flatMap.mp hline
  exact not_mem_part (htexts part hpart) 4 line hline

/-! ### The other lines -/

/-- What stands before the body of a page. -/
theorem begins_opening (title : String) : ∀ line ∈ openingLines title, Begins '<' OtherTag line.toList := by
  have htitle : Begins '<' OtherTag ("  <title>" ++ Text.escapeString title ++ "</title>").toList :=
    begins_append (begins_append (begins_of_hasOtherTags (by decide)) (begins_escape title))
      (begins_of_hasOtherTags (by decide))
  intro line hline
  rw [openingLines, List.mem_append, List.mem_append] at hline
  rcases hline with (hline | hline) | hline
  · simp only [List.mem_cons, List.not_mem_nil, or_false] at hline
    rcases hline with rfl | rfl | rfl | rfl | rfl | rfl | rfl
    · exact begins_of_hasOtherTags (by decide)
    · exact begins_of_hasOtherTags (by decide)
    · exact begins_of_hasOtherTags (by decide)
    · exact begins_of_hasOtherTags (by decide)
    · exact begins_of_hasOtherTags (by decide)
    · exact htitle
    · exact begins_of_hasOtherTags (by decide)
  · exact .of_not_mem (not_mem_styleLines line hline)
  · exact begins_of_hasOtherTags ((by decide : ∀ line ∈ ["  </style>", "</head>", "<body>"],
      hasOtherTags line.toList = true) line hline)

theorem begins_heading (title : String) : ∀ line ∈ headingLines title, Begins '<' OtherTag line.toList := by
  rw [headingLines]
  split
  · exact List.forall_mem_nil _
  · exact List.forall_mem_singleton.mpr (begins_append
      (begins_append (begins_of_hasOtherTags (by decide)) (begins_escape title)) (begins_of_hasOtherTags (by decide)))

theorem begins_fieldRow (field : String × String) : Begins '<' OtherTag (fieldRow field).toList :=
  begins_append (begins_append (begins_append (begins_append (begins_of_hasOtherTags (by decide)) (begins_escape _))
    (begins_of_hasOtherTags (by decide))) (begins_escape _)) (begins_of_hasOtherTags (by decide))

theorem begins_fields (metadata : List (String × String)) :
    ∀ line ∈ fieldLines metadata, Begins '<' OtherTag line.toList := by
  rw [fieldLines]
  split
  · exact List.forall_mem_nil _
  · intro line hline
    rw [List.cons_append, List.mem_cons, List.mem_append, List.mem_singleton] at hline
    rcases hline with rfl | hline | rfl
    · exact begins_of_hasOtherTags (by decide)
    · obtain ⟨field, -, rfl⟩ := List.mem_map.mp hline
      exact begins_fieldRow field
    · exact begins_of_hasOtherTags (by decide)

/-! ## Pages -/

/-- A page has a gallery if and only if it has diagrams. -/
theorem gallery_infix_sheet_iff {sheet : Sheet} (hbody : Begins '<' OtherTag sheet.body.toList) :
    galleryTag <:+: (page sheet).toList ↔ sheet.diagrams ≠ [] := by
  rw [page, String.toList_intercalate]
  constructor
  · intro hgallery hdiagrams
    refine not_gallery_infix (Begins.intercalate (.of_not_mem (by decide)) ?_) hgallery
    rw [hdiagrams, galleryLines, List.isEmpty_nil, if_pos rfl, List.append_nil, List.forall_mem_map]
    intro line hline
    simp only [List.mem_append, or_assoc] at hline
    rcases hline with hline | hline | hline | hline
    · exact begins_opening _ line hline
    · exact begins_heading _ line hline
    · exact begins_fields _ line hline
    · simp only [List.mem_cons, List.not_mem_nil, or_false] at hline
      rcases hline with rfl | rfl | rfl | rfl | rfl
      · exact begins_of_hasOtherTags (by decide)
      · exact hbody
      · exact begins_of_hasOtherTags (by decide)
      · exact begins_of_hasOtherTags (by decide)
      · exact begins_of_hasOtherTags (by decide)
  · intro hdiagrams
    have hline : "  <div class=\"chord-gallery\">" ∈ galleryLines sheet.diagrams := by
      rw [galleryLines, if_neg (mt List.isEmpty_iff.mp hdiagrams)]
      exact List.mem_cons_of_mem _ List.mem_cons_self
    have hgallery : galleryTag <:+: "  <div class=\"chord-gallery\">".toList := ⟨[' ', ' '], [], rfl⟩
    refine hgallery.trans (Text.infix_intercalate (List.mem_map_of_mem ?_))
    exact List.mem_append_left _ (List.mem_append_right _ hline)

end Texts

end Page

end LeadSheet
