import LeadSheet.Proofs.Markup.Preformatted
import LeadSheet.Proofs.Markup.Raw.Blocks

/-!
# Code on text

Code is set apart in a text that is escaped already, and the lines of such a text are the escaped lines.

* `fenceLanguage?_escape`, `closesFence_escape` : a fence is one before and after escaping;
* `extractFences_agree`, `sub_codeSpan` : code blocks and code spans are set apart alike;
* `extractLiterals_agree` : so the lines of a body are those of its pieces.
-/

namespace LeadSheet.Markup

open Text
open Raw (LiteralTable Marking Placeholder)

/-! ## Escaped lines -/

theorem escape_cons_source (c : Char) (s : List Char) : escape (c :: s) = (Piece.char c).source ++ escape s := rfl

theorem takeWhile_escape {q : Char → Bool} (hq : Ordinary q) (s : List Char) :
    (escape s).takeWhile q = s.takeWhile q ∧ (escape s).dropWhile q = escape (s.dropWhile q) := by
  obtain ⟨htake, hdrop⟩ := takeWhile_source (l := Line.ofChars s) fun p _ => readsAlike_sat hq p
  have hplain : (s.takeWhile q).all isPlain = true := List.all_eq_true.mpr fun c hc => by
    exact isPlain_of_class ⟨hq.2.1, hq.2.2.1, hq.1⟩ (List.mem_takeWhile_imp hc)
  have hsat : Piece.sat q ∘ Piece.char = q := rfl
  rw [Line.source_ofChars, Line.ofChars, List.takeWhile_map, hsat] at htake
  rw [Line.source_ofChars, Line.ofChars, List.dropWhile_map, hsat] at hdrop
  exact ⟨htake.trans (source_ofChars_of_plain hplain), hdrop.trans (Line.source_ofChars _)⟩

theorem lines_escape (s : List Char) : lines (escape s) = (lines s).map escape := by
  rw [lines, lines]
  induction s with
  | nil => rfl
  | cons c s ih =>
      have hcons : escape (c :: s) = escapeChar c ++ escape s := rfl
      obtain ⟨line, ls, hls⟩ := List.exists_cons_of_ne_nil (cutAt_ne_nil (· == '\n') s)
      rw [hls, List.map_cons] at ih
      by_cases hc : c = '\n'
      · rw [hcons, hc, show escapeChar '\n' = ['\n'] from rfl, List.singleton_append, cutAt_mark rfl, cutAt_mark rfl, ih, hls]
        rfl
      · have hne : ∀ d ∈ escapeChar c, (d == '\n') = false := by
          intro d hd
          have hgo := escapeChar_goes (q := (· != '\n')) (c := c) (by decide) (fun _ => by simpa using hc) d hd
          simpa using hgo
        have hcut : cutAt (· == '\n') (c :: s) = (c :: line) :: ls := by
          rw [cutAt, if_neg (by simpa using hc), hls]
        rw [hcons, cutAt_append hne ih, hcut]
        rfl

theorem eq_append_of_dropMark? {mark s rest : List Char} (h : dropMark? mark s = some rest) : s = mark ++ rest := by
  fun_induction dropMark? mark s with
  | case1 s => exact Option.some.inj h
  | case2 mark d s ih => rw [ih h, List.cons_append]
  | case3 => simp at h
  | case4 => simp at h

theorem dropMark?_ofChars (mark s : List Char) :
    Line.dropMark? mark (Line.ofChars s) = (dropMark? mark s).map Line.ofChars := by
  fun_induction dropMark? mark s with
  | case1 s => rfl
  | case2 mark d s ih => rw [Line.ofChars_cons, Line.dropMark?, if_pos rfl, ih]
  | case3 c mark d s hne => rw [Line.ofChars_cons, Line.dropMark?, if_neg hne, Option.map_none]
  | case4 c mark => rfl

theorem afterFence?_eq (line : List Char) :
    afterFence? line = (dropMark? ['`', '`', '`'] (line.dropWhile isBlank)).map (·.dropWhile isBlank) := by
  rw [afterFence?]
  split
  · rename_i rest hline
    rw [hline]
    rfl
  · rename_i hline
    cases hmark : dropMark? ['`', '`', '`'] (line.dropWhile isBlank) with
    | none => rfl
    | some rest => exact absurd (eq_append_of_dropMark? hmark) (hline rest)

theorem dropMark?_escape {mark : List Char} (hmark : mark.all isPlain = true) (s : List Char) :
    dropMark? mark (escape s) = (dropMark? mark s).map escape := by
  have hsource := dropMark?_source hmark (Line.ofChars s)
  rw [Line.source_ofChars, dropMark?_ofChars, Option.map_map] at hsource
  rw [hsource]
  congr 1
  funext rest
  exact Line.source_ofChars rest

theorem afterFence?_escape (line : List Char) : afterFence? (escape line) = (afterFence? line).map escape := by
  rw [afterFence?_eq, afterFence?_eq, (takeWhile_escape (by decide) line).2, dropMark?_escape (by decide),
    Option.map_map, Option.map_map]
  congr 1
  funext rest
  exact (takeWhile_escape (by decide) rest).2

theorem fenceLanguage?_escape (line : List Char) : fenceLanguage? (escape line) = fenceLanguage? line := by
  rw [fenceLanguage?, fenceLanguage?, afterFence?_escape, Option.map_map]
  congr 1
  funext rest
  exact (takeWhile_escape (by decide) rest).1

theorem closesFence_eq (line : List Char) : closesFence line = (afterFence? line == some []) := by
  rw [closesFence]
  split
  · rename_i h
    rw [h]
    rfl
  · rename_i h
    exact (beq_eq_false_iff_ne.mpr h).symm

theorem closesFence_escape (line : List Char) : closesFence (escape line) = closesFence line := by
  rw [closesFence_eq, closesFence_eq, afterFence?_escape]
  cases afterFence? line with
  | none => rfl
  | some rest =>
      rw [Option.map_some, Bool.eq_iff_iff, beq_iff_eq, beq_iff_eq, Option.some.injEq, Option.some.injEq, escape_eq_nil]

theorem untilClosing_escape (ls : List (List Char)) :
    (ls.map escape).takeWhile (!closesFence ·) = (ls.takeWhile (!closesFence ·)).map escape ∧
      (ls.map escape).dropWhile (!closesFence ·) = (ls.dropWhile (!closesFence ·)).map escape := by
  have hsame : (!closesFence ·) ∘ escape = (!closesFence ·) := by
    funext l
    rw [Function.comp_apply, closesFence_escape]
  rw [List.takeWhile_map, List.dropWhile_map, hsame]
  exact ⟨rfl, rfl⟩

theorem joinLines_escape (ls : List (List Char)) : joinLines (ls.map escape) = escape (joinLines ls) := by
  induction ls with
  | nil => rfl
  | cons l ls ih =>
      by_cases hls : ls = []
      · rw [hls]
        simp [joinLines]
      · rw [List.map_cons, joinLines_cons _ (by simpa using hls), joinLines_cons _ hls, ih]
        simp [escape]
        rfl

theorem fencedCode_escape (ls : List (List Char)) : fencedCode (ls.map escape) = escape (fencedCode ls) := by
  obtain ⟨hdrop, -⟩ := dropEndWhile_source (l := Line.ofChars (joinLines ls)) fun p _ =>
    readsAlike_sat (q := (· == '\n')) (by decide) p
  have hsat : dropEndWhile (Piece.sat (· == '\n')) (Line.ofChars (joinLines ls)) = Line.ofChars (fencedCode ls) := by
    rw [fencedCode, dropEndWhile, dropEndWhile, Line.ofChars, Line.ofChars, ← List.map_reverse, List.dropWhile_map,
      List.map_reverse]
    rfl
  rw [hsat, Line.source_ofChars, Line.source_ofChars] at hdrop
  rw [fencedCode, joinLines_escape, hdrop]

/-! ## Code blocks -/

theorem fenced_eq (language code : List Char) : Raw.fenced language code = "<pre><code".toList ++
    ((if language.isEmpty then [] else " class=\"language-".toList ++ (language ++ "\"".toList)) ++
      ('>' :: (code ++ "</code></pre>".toList))) := rfl

theorem fenced_escape {language : List Char} (h : ∀ c ∈ language, isLanguageChar c = true) (code : List Char) :
    Raw.fenced language (escape code) = Token.print (fenceTokens language code) := by
  have hquote : "\"".toList = ['"'] := rfl
  rw [print_fenceTokens h, fenced_eq]
  simp only [List.isEmpty_iff, List.append_assoc, List.cons_append, List.nil_append, hquote]

/-- A line of a body with its code blocks set apart, and its text. -/
inductive FenceFor (t : LiteralTable) : Source (List Char) → List Char → Prop
  | line {s : List Char} : '\n' ∉ s → FenceFor t (.line s) (escape s)
  | fence {language code : List Char} {n : Nat} :
      t.blocks[n]? = some (Token.print (fenceTokens language code)) → FenceFor t (.fence language code) (blockMark n)

theorem FenceFor.mono {t t' : LiteralTable} (ht : t ≤ t') {src : Source (List Char)} {text : List Char}
    (h : FenceFor t src text) : FenceFor t' src text := by
  cases h with
  | line hs => exact .line hs
  | fence hn => exact .fence (LiteralTable.getElem?_of_le ht .block hn)

theorem addBlock_agree (t : LiteralTable) (language code : List Char) :
    Agree (fun t text src => FenceFor t src text) t (LiteralTable.add .block (Token.print (fenceTokens language code)))
      (.fence language code, t.inlines.length) where
  grows := ⟨List.prefix_append _ _, List.prefix_rfl⟩
  count := rfl
  result := .fence List.getElem?_concat_length

theorem extractFences_agree {t : LiteralTable} {ls : List (List Char)} (hls : ∀ l ∈ ls, '\n' ∉ l) :
    Agree (fun t texts srcs => List.Forall₂ (FenceFor t) srcs texts) t (Raw.extractFences (ls.map escape))
      (setFences ls, t.inlines.length) := by
  fun_induction setFences ls generalizing t with
  | case1 =>
      rw [List.map_nil, Raw.extractFences]
      exact .pure .nil
  | case2 line rest hlanguage ih =>
      obtain ⟨hline, hrest⟩ := List.forall_mem_cons.mp hls
      rw [List.map_cons, Raw.extractFences, fenceLanguage?_escape, hlanguage]
      have hagree := ih hrest (t := t)
      exact hagree.map (.cons (.line hline) hagree.result)
  | case3 line rest language hlanguage hdrop ih =>
      obtain ⟨hline, hrest⟩ := List.forall_mem_cons.mp hls
      have hagree := ih hrest (t := t)
      rw [List.map_cons, Raw.extractFences, fenceLanguage?_escape, hlanguage]
      simp only
      split
      · exact hagree.map (.cons (.line hline) hagree.result)
      · rename_i heq
        rw [(untilClosing_escape rest).2, hdrop] at heq
        simp at heq
  | case4 line rest language hlanguage mark after hdrop _ ih =>
      obtain ⟨hline, hrest⟩ := List.forall_mem_cons.mp hls
      have hafter : ∀ l ∈ after, '\n' ∉ l := fun l hl =>
        hrest l ((List.dropWhile_sublist _).mem (hdrop ▸ List.mem_cons_of_mem mark hl))
      rw [List.map_cons, Raw.extractFences, fenceLanguage?_escape, hlanguage]
      simp only
      split
      · rename_i heq
        rw [(untilClosing_escape rest).2, hdrop] at heq
        simp at heq
      · rename_i heq
        rw [(untilClosing_escape rest).2, hdrop] at heq
        obtain ⟨-, rfl⟩ := List.cons.inj heq
        have hlanguage : ∀ c ∈ language, isLanguageChar c = true := fenceLanguage?_eq_some hlanguage
        have hadd := addBlock_agree t language (fencedCode (rest.takeWhile (!closesFence ·)))
        have hrest := ih hafter (t := (LiteralTable.add .block
          (Token.print (fenceTokens language (fencedCode (rest.takeWhile (!closesFence ·))))) t).2)
        rw [(untilClosing_escape rest).1, fencedCode_escape, fenced_escape hlanguage]
        exact hadd.bind (hrest.map (.cons (hadd.result.mono hrest.grows) hrest.result))

/-! ## Code spans -/

theorem fits_ofChars {s : List Char} (hs : '\n' ∉ s) (t : LiteralTable) : (Line.ofChars s).Fits t := by
  intro p hp
  obtain ⟨c, hc, rfl⟩ := List.mem_map.mp hp
  exact fun heq => hs (heq ▸ hc)

/-- Code goes on up to the next backtick. -/
theorem takeWhile_isCodeChar {s : List Char} (hs : '\n' ∉ s) :
    (escape s).takeWhile Raw.isCodeChar = escape (s.takeWhile (· != '`')) ∧
      (escape s).dropWhile Raw.isCodeChar = escape (s.dropWhile (· != '`')) := by
  obtain ⟨htake, hdrop⟩ := takeWhile_source (l := Line.ofChars s) fun p hp =>
    readsAlike_until (q := Raw.isCodeChar) (c := '`') (by decide) (by decide)
      (fun d hd hline => by simp [Raw.isCodeChar, hd, hline]) (fits_ofChars hs .empty p hp)
  have hsat : (!Piece.is '`' ·) ∘ Piece.char = (· != '`') := rfl
  rw [Line.source_ofChars, Line.ofChars, List.takeWhile_map, hsat] at htake
  rw [Line.source_ofChars, Line.ofChars, List.dropWhile_map, hsat] at hdrop
  exact ⟨htake.trans (Line.source_ofChars _), hdrop.trans (Line.source_ofChars _)⟩

theorem find?_codeSpan {s : List Char} (hs : '\n' ∉ s) (before : Option Char) :
    Raw.codeSpan.find? before (escape s) = (dropMark? ['`'] s).bind fun rest =>
      if rest.takeWhile (· != '`') = [] then none
      else (dropMark? ['`'] (rest.dropWhile (· != '`'))).map fun after =>
        (escape (rest.takeWhile (· != '`')), escape after) := by
  have hfind : Raw.codeSpan.find? before (escape s) = Raw.codeSpan? (escape s) := rfl
  rw [hfind, Raw.codeSpan?, dropMark?_escape (by decide)]
  cases hopen : dropMark? ['`'] s with
  | none => rfl
  | some rest =>
      have hrest : '\n' ∉ rest := fun hmem => hs (by simp [eq_append_of_dropMark? hopen, hmem])
      obtain ⟨htake, hdrop⟩ := takeWhile_isCodeChar hrest
      simp only [Option.map_some, Option.bind_some, htake, hdrop, escape_eq_nil, dropMark?_escape (by decide : ['`'].all isPlain = true),
        Option.map_map]
      rfl

theorem find?_codeSpan_of_head (before : Option Char) {s : List Char} (hs : s.head? ≠ some '`') :
    Raw.codeSpan.find? before s = none := by
  have hfind : Raw.codeSpan.find? before s = Raw.codeSpan? s := rfl
  rw [hfind, Raw.codeSpan?, dropMark?_of_head hs]
  rfl

theorem passes_codeSpan : Passes Raw.codeSpan :=
  passes_of_mark (c := '`') (by decide) fun before _ hs => find?_codeSpan_of_head before hs

theorem print_codeSpan (code : List Char) :
    Token.print (codeSpan code) = "<code>".toList ++ (escape code ++ "</code>".toList) := by
  have hopening : (Tag.opening (.code [])).text = "<code>".toList := by decide
  have hclosing : (Tag.closing (.code [])).text = "</code>".toList := rfl
  rw [codeSpan, print_element, hopening, hclosing, print_ofChars]

theorem putCodeSpan_agree (t : LiteralTable) (code : List Char) :
    Agree SourceOf t (Raw.putCodeSpan (escape code))
      ([.literal t.inlines.length (codeSpan code)], t.inlines.length + 1) := by
  have hadd := add_agree t (codeSpan code)
  rwa [print_codeSpan] at hadd

/-- Without a backtick there is nothing to find. -/
theorem sub_codeSpan_of_not_mem {s : List Char} (hs : '`' ∉ s) (before : Option Char) :
    Raw.codeSpan.sub Raw.putCodeSpan before s = pure s := by
  have hnone : ∀ u v, s = u ++ v → v ≠ [] → Raw.codeSpan.find? (u.getLast?.or before) (v ++ []) = none := by
    intro u v huv hv
    obtain ⟨d, v, rfl⟩ := List.exists_cons_of_ne_nil hv
    refine find?_codeSpan_of_head _ ?_
    rintro ⟨⟩
    exact hs (by simp [huv])
  have hsub : Raw.codeSpan.sub Raw.putCodeSpan before (s ++ []) = _ := Pattern.sub_append hnone
  simpa using hsub

theorem backtick_not_mem_escape {s : List Char} (hs : '`' ∉ s) : '`' ∉ escape s := by
  intro hmem
  obtain ⟨c, hc, hmem⟩ := List.mem_flatMap.mp hmem
  have hgo := escapeChar_goes (q := (· != '`')) (c := c) (by decide)
    (fun _ => bne_iff_ne.mpr fun heq => hs (heq ▸ hc)) _ hmem
  exact absurd hgo (by decide)

theorem sub_codeSpan {t : LiteralTable} {s : List Char} (hs : '\n' ∉ s) (before : Option Char) :
    Agree SourceOf t (Raw.codeSpan.sub Raw.putCodeSpan before (escape s)) (setSpans t.inlines.length s) := by
  generalize hn : t.inlines.length = n
  fun_induction setSpans n s generalizing t before with
  | case1 n =>
      rw [show escape [] = [] from rfl, Pattern.sub_nil, ← hn]
      exact .pure ⟨rfl, by simp [Line.Fits]⟩
  | case2 n c rest hc hdrop =>
      obtain ⟨hline, hrest⟩ := not_or.mp (List.mem_cons.not.mp hs)
      obtain ⟨hc, -⟩ := Bool.and_eq_true_iff.mp hc
      obtain rfl := beq_iff_eq.mp hc
      have hclose : '`' ∉ rest := fun hmem => by simpa using List.dropWhile_eq_nil_iff.mp hdrop _ hmem
      have hfind := find?_codeSpan hs before
      rw [dropMark?, if_pos rfl, dropMark?, Option.bind_some, hdrop, dropMark?, Option.map_none, ite_self] at hfind
      have hpiece : (Piece.char '`').Fits t := Ne.symm hline
      have hagree : Agree SourceOf t (pure (escape rest)) (Line.ofChars rest, t.inlines.length) :=
        .pure ⟨(Line.source_ofChars rest).symm, fits_ofChars hrest t⟩
      rw [escape_cons_source] at hfind ⊢
      rw [sub_piece passes_codeSpan hpiece hfind,
        sub_codeSpan_of_not_mem (backtick_not_mem_escape hclose), ← hn]
      exact hagree.cons_piece hpiece
  | case3 n c rest hc mark after hdrop _ pieces m heq ih =>
      obtain ⟨hline, hrest⟩ := not_or.mp (List.mem_cons.not.mp hs)
      obtain ⟨hc, hcode⟩ := Bool.and_eq_true_iff.mp hc
      obtain rfl := beq_iff_eq.mp hc
      have hafter : '\n' ∉ after := fun hmem =>
        hrest ((List.dropWhile_sublist _).mem (hdrop ▸ List.mem_cons_of_mem mark hmem))
      have hmark : mark = '`' := by simpa using (eq_takeWhile_append hdrop).1
      have hfind := find?_codeSpan hs before
      rw [dropMark?, if_pos rfl, dropMark?, Option.bind_some, hdrop, hmark, dropMark?, if_pos rfl, dropMark?, Option.map_some,
        if_neg (by simpa using hcode)] at hfind
      have hput := putCodeSpan_agree t (rest.takeWhile (· != '`'))
      have hagree := ih hafter (Pattern.lastBefore (escape ('`' :: rest)) (escape after)) (by rw [hput.count, hn])
      rw [heq] at hagree
      rw [Pattern.sub_of_some hfind]
      exact hput.bind (hagree.map (hn ▸ (hput.result.mono hagree.grows).append hagree.result))
  | case4 n c rest hc pieces m heq ih =>
      obtain ⟨hline, hrest⟩ := not_or.mp (List.mem_cons.not.mp hs)
      have hfind : Raw.codeSpan.find? before (escape (c :: rest)) = none := by
        rw [find?_codeSpan hs, dropMark?]
        by_cases hopen : c = '`'
        · obtain rfl := hopen
          have hcode : rest.takeWhile (· != '`') = [] := by simpa using hc
          rw [if_pos rfl, dropMark?, Option.bind_some, if_pos hcode]
        · rw [if_neg (Ne.symm hopen), Option.bind_none]
      have hagree := ih hrest (Piece.source (.char c)).getLast? hn
      have hpiece : (Piece.char c).Fits t := Ne.symm hline
      rw [heq] at hagree
      rw [escape_cons_source] at hfind ⊢
      rw [sub_piece passes_codeSpan hpiece hfind]
      exact hagree.cons_piece hpiece

theorem spans_agree {t : LiteralTable} {srcs : List (Source (List Char))} {texts : List (List Char)}
    (h : List.Forall₂ (FenceFor t) srcs texts) :
    Agree (fun t texts srcs => List.Forall₂ (StandsFor t) srcs texts) t
      (texts.mapM fun line => Raw.codeSpan.sub Raw.putCodeSpan none line) (setAllSpans t.inlines.length srcs) := by
  induction srcs generalizing t texts with
  | nil =>
      cases h
      exact .pure .nil
  | cons src srcs ih =>
      cases h with
      | @cons _ text _ texts hs h =>
      rw [List.mapM_cons]
      cases hs with
      | @line s hs =>
          have hspans := sub_codeSpan (t := t) hs none
          have hline : StandsFor (Raw.codeSpan.sub Raw.putCodeSpan none (escape s) t).2
              (.line (setSpans t.inlines.length s).1) (Raw.codeSpan.sub Raw.putCodeSpan none (escape s) t).1 := by
            rw [hspans.result.1]
            exact .line hspans.result.2 (setSpans_bare t.inlines.length s)
          have hrest := ih (h.imp fun _ _ h => h.mono hspans.grows)
          rw [hspans.count] at hrest
          exact hspans.bind (hrest.map (.cons (hline.mono hrest.grows) hrest.result))
      | @fence language code n hn =>
          have hmark : Raw.codeSpan.sub Raw.putCodeSpan none (blockMark n) = (pure (blockMark n) : Marking (List Char)) :=
            sub_codeSpan_of_not_mem (fun hmem => absurd (isFiller_blockMark n _ hmem) (by decide)) none
          have hrest := ih h
          rw [hmark, pure_bind]
          exact hrest.map (.cons (.fence (LiteralTable.getElem?_of_le hrest.grows .block hn)) hrest.result)

theorem extractLiterals_agree (body : List Char) :
    Agree (fun t texts srcs => List.Forall₂ (StandsFor t) srcs texts) .empty
      (Raw.extractLiterals (escape (unixLines body))) (setCode body) := by
  have hlines : ∀ l ∈ lines (unixLines body), '\n' ∉ l := fun l hl hmem =>
    absurd (not_mem_of_mem_cutAt hl _ hmem) (by decide)
  have hfences := extractFences_agree (t := .empty) hlines
  rw [← lines_escape] at hfences
  have hspans := spans_agree hfences.result
  rw [hfences.count] at hspans
  exact hfences.bind hspans

end LeadSheet.Markup
