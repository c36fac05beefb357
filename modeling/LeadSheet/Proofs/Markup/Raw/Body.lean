import LeadSheet.Proofs.Markup.Raw.Code

/-!
# Bodies on text

* `transform_eq_render` : the text of a body, with its literals put back, is the printed tokens of the body, and no
  literal is missing;
* `transform_markup` : it holds no tags, no entities and no comments but those of the markup;
* `transform_regions` : its elements `pre` are the literal regions of the body.
-/

namespace LeadSheet.Markup

open Text
open Raw (LiteralTable)

theorem stands_body {t : LiteralTable} {ss : List (List Char)} {tss : List (List Token)} (h : StandsAll t ss tss) :
    StandsIn t (if ss.isEmpty then Raw.wrap .paragraph [] else joinLines ss)
      (if tss = [] then Token.element .paragraph [] else List.intercalate [.char '\n'] tss) := by
  have hbreak : StandsIn t ['\n'] [.char '\n'] := .print t _ [.char '\n']
  cases h with
  | nil => exact .wrap .paragraph .nil
  | cons hs h => exact stands_intercalate hbreak (.cons hs h)

theorem bodyTokens_eq_ite (db : Chord.Database) (body : List Char) :
    bodyTokens db body =
      if renderBlocks db (setCode body).2 (readBlocks db (setCode body).1) = [] then Token.element .paragraph []
      else List.intercalate [.char '\n'] (renderBlocks db (setCode body).2 (readBlocks db (setCode body).1)) := by
  rw [bodyTokens]
  simp only
  split
  · rename_i hnil
    rw [if_pos hnil]
  · rename_i hne
    rw [if_neg hne]

/-- What is marked up, with its literals in the table, stands for the tokens of the body. -/
theorem markBody_stands (db : Chord.Database) (body : List Char) :
    StandsIn (Raw.markBody db body .empty).2 (Raw.markBody db body .empty).1 (bodyTokens db body) := by
  have hlines := extractLiterals_agree body
  obtain ⟨n, hblocks⟩ := renderBlocks_agree db hlines.result (List.forall_mem_nil _)
  rw [hlines.count] at hblocks
  have hwhole : Agree StandsIn .empty (Raw.markBody db body) (_, n) :=
    hlines.bind (hblocks.map (stands_body hblocks.result))
  rw [bodyTokens_eq_ite]
  exact hwhole.result

/-- Bodies are transformed without a missing literal, to what their tokens print. -/
theorem transform_eq_render (db : Chord.Database) (body : String) : Raw.transform db body = .ok (render db body) := by
  have hrestore := restore_of_stands (markBody_stands db body.toList)
  have htransform : Raw.transform db body = (do
      return String.ofList (← (Raw.markBody db body.toList .empty).2.restore (Raw.markBody db body.toList .empty).1)) := rfl
  rw [htransform, hrestore]
  rfl

/-- Every body is transformed. Each `<` of the document begins a tag of the vocabulary, each `>` ends one, and each `&`
begins an entity; no comment, as it might stand for a literal, is in it. -/
theorem transform_markup (db : Chord.Database) (body : String) :
    ∃ html, Raw.transform db body = .ok html ∧ Begins '<' OwnTag html.toList ∧ Ends '>' OwnTag html.toList ∧
      Begins '&' (· ∈ entities) html.toList ∧ ¬ "<!--".toList <:+: html.toList := by
  have hsafe := safe_render db body
  have hdeclaration : "<!".toList <:+: "<!--".toList := by decide
  exact ⟨_, transform_eq_render db body, hsafe.opens, hsafe.closes, hsafe.entity, fun hcomment =>
    hsafe.no_declaration (hdeclaration.trans hcomment)⟩

/-- Every body is transformed: no literal is missing when the literals are put back, and no placeholder is left. The
elements `pre` of the document are the literal regions of the body. -/
theorem transform_regions (db : Chord.Database) (body : String) :
    ∃ html, Raw.transform db body = .ok html ∧ (∃ rs, Regions (lines (unixLines body.toList)) rs) ∧
      (∀ rs, Regions (lines (unixLines body.toList)) rs → preElements html.toList = rs.map Region.markup) ∧
      ¬ "<!--".toList <:+: html.toList := by
  have hdeclaration : "<!".toList <:+: "<!--".toList := by decide
  exact ⟨_, transform_eq_render db body, exists_regions _, fun _ hrs => preElements_render db hrs, fun hcomment =>
    (safe_render db body).no_declaration (hdeclaration.trans hcomment)⟩

theorem transform_regions_tablature :
    ∃ html, Raw.transform .cMajor "```tab 1\n*e*|-0-\n\n ```" = .ok html ∧
      preElements html.toList = ["<pre><code class=\"language-tab\">*e*|-0-</code></pre>".toList] := by
  have hopening : OpensWith "tab 1".toList "```tab 1".toList := ⟨[], by simp [AllBlank], by decide⟩
  have hclosing : Closes " ```".toList := closesFence_iff.mp (by decide)
  have hinner : ∀ l ∈ ["*e*|-0-".toList, []], ¬ Closes l := by
    intro l hl hcloses
    exact absurd (closesFence_iff.mpr hcloses)
      ((by decide : ∀ l ∈ ["*e*|-0-".toList, []], ¬ closesFence l = true) l hl)
  have hregions : Regions ([] ++ "```tab 1".toList :: (["*e*|-0-".toList, []] ++ " ```".toList :: []))
      [⟨"tab 1".toList, ["*e*|-0-".toList, []]⟩] :=
    .region (by simp) hopening hinner hclosing (.none (by simp))
  have hlines : lines (unixLines "```tab 1\n*e*|-0-\n\n ```".toList) =
      [] ++ "```tab 1".toList :: (["*e*|-0-".toList, []] ++ " ```".toList :: []) := by decide
  obtain ⟨html, htransform, -, helements, -⟩ := transform_regions .cMajor "```tab 1\n*e*|-0-\n\n ```"
  exact ⟨html, htransform, (helements _ (hlines ▸ hregions)).trans (by decide)⟩

end LeadSheet.Markup
