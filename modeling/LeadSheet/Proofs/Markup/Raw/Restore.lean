import LeadSheet.Markup.Raw.Inline
import LeadSheet.Proofs.Markup.Safety
import LeadSheet.Proofs.Pattern
import Mathlib.Data.List.Basic

/-!
# Restoring literals

* `t ≤ t'` : the table `t'` holds the literals of `t` under the same numbers, and possibly more;
* `Stands t K s ts` : the text `s` stands for the tokens `ts`, some of which are literals of the kinds `K` in
  the table `t`;
* `swap_of_stands` : swapping the placeholders of one kind leaves a text that stands for the same tokens
  without literals of this kind, and looks up nothing that is missing;
* `restore_of_stands` : so restoring all literals gives the tokens as they are printed.
-/

namespace LeadSheet.Markup

open Text
open Raw (LiteralKind LiteralTable Placeholder)

namespace Raw.LiteralTable

instance : LE LiteralTable := ⟨fun t t' => t.blocks <+: t'.blocks ∧ t.inlines <+: t'.inlines⟩

theorem le_refl (t : LiteralTable) : t ≤ t := ⟨List.prefix_rfl, List.prefix_rfl⟩

theorem le_trans {t t' t'' : LiteralTable} (h : t ≤ t') (h' : t' ≤ t'') : t ≤ t'' :=
  ⟨h.1.trans h'.1, h.2.trans h'.2⟩

theorem getElem?_of_le {t t' : LiteralTable} (h : t ≤ t') (kind : LiteralKind) {n : Nat} {markup : List Char}
    (hn : (t.ofKind kind)[n]? = some markup) : (t'.ofKind kind)[n]? = some markup := by
  have hprefix : t.ofKind kind <+: t'.ofKind kind := by
    cases kind with
    | block => exact h.1
    | inline => exact h.2
  obtain ⟨more, hmore⟩ := hprefix
  obtain ⟨hlt, -⟩ := List.getElem?_eq_some_iff.mp hn
  rw [← hmore, List.getElem?_append_left hlt, hn]

end Raw.LiteralTable

/-! ## Texts that stand for tokens -/

/-- The text `s` stands for the tokens `ts`; the literals among them are of the kinds `K`. -/
inductive Stands (t : LiteralTable) (K : LiteralKind → Prop) : List Char → List Token → Prop
  | nil : Stands t K [] []
  | char (c : Char) {s : List Char} {ts : List Token} :
      Stands t K s ts → Stands t K (escapeChar c ++ s) (.char c :: ts)
  | tag (x : Tag) {s : List Char} {ts : List Token} : Stands t K s ts → Stands t K (x.text ++ s) (.tag x :: ts)
  | literal (kind : LiteralKind) {n : Nat} {content : List Token} {s : List Char} {ts : List Token} :
      K kind → (t.ofKind kind)[n]? = some (Token.print content) → Stands t K s ts →
      Stands t K (Placeholder.text ⟨kind, Nat.toDigits 10 n⟩ ++ s) (content ++ ts)

namespace Stands

variable {t t' : LiteralTable} {K : LiteralKind → Prop} {s s' : List Char} {ts ts' : List Token}

theorem append (h : Stands t K s ts) (h' : Stands t K s' ts') : Stands t K (s ++ s') (ts ++ ts') := by
  induction h with
  | nil => exact h'
  | char c _ ih =>
      rw [List.append_assoc, List.cons_append]
      exact .char c ih
  | tag x _ ih =>
      rw [List.append_assoc, List.cons_append]
      exact .tag x ih
  | literal kind hk hn _ ih =>
      rw [List.append_assoc, List.append_assoc]
      exact .literal kind hk hn ih

theorem mono (ht : t ≤ t') (h : Stands t K s ts) : Stands t' K s ts := by
  induction h with
  | nil => exact .nil
  | char c _ ih => exact .char c ih
  | tag x _ ih => exact .tag x ih
  | literal kind hk hn _ ih => exact .literal kind hk (LiteralTable.getElem?_of_le ht kind hn) ih

/-- Tokens as they are printed stand for themselves. -/
theorem print (t : LiteralTable) (K : LiteralKind → Prop) (ts : List Token) : Stands t K (Token.print ts) ts := by
  induction ts with
  | nil => exact .nil
  | cons token ts ih =>
      cases token with
      | char c => exact .char c ih
      | tag x => exact .tag x ih

theorem wrap (e : Element) (h : Stands t K s ts) : Stands t K (Raw.wrap e s) (Token.element e ts) := by
  have hclose : Stands t K (Tag.closing e).text [.tag (.closing e)] := by
    simpa using Stands.tag (K := K) (t := t) (.closing e) .nil
  exact .tag (.opening e) (h.append hclose)

end Stands

/-! ## Placeholders -/

theorem digitValue?_of_isDigit {c : Char} (h : c.isDigit = true) : digitValue? c = some (c.toNat - '0'.toNat) := by
  have hrange : 48 ≤ c.toNat ∧ c.toNat ≤ 57 := by simpa [Char.isDigit, UInt32.le_iff_toNat_le] using h
  have hinterval : digitRanges.interval? c = some (0x30, 0x39) := by
    simp [Ranges.interval?, digitRanges, hrange]
  have hzero : '0'.toNat = 48 := rfl
  rw [digitValue?, hinterval, Option.map_some, hzero]
  congr 1
  omega

theorem isDigit_of_mem_toDigits {n : Nat} {c : Char} (h : c ∈ Nat.toDigits 10 n) : Text.isDigit c = true := by
  rw [Text.isDigit, digitValue?_of_isDigit (Nat.isDigit_of_mem_toDigits (by decide) (by decide) h)]
  rfl

theorem number_toDigits (kind : LiteralKind) (n : Nat) : (Placeholder.mk kind (Nat.toDigits 10 n)).number = n := by
  have hfold : ∀ m, ∀ c ∈ Nat.toDigits 10 n,
      10 * m + (digitValue? c).getD 0 = 10 * m + (c.toNat - '0'.toNat) := by
    intro m c hc
    rw [digitValue?_of_isDigit (Nat.isDigit_of_mem_toDigits (by decide) (by decide) hc), Option.getD_some]
  rw [Placeholder.number, List.foldl_ext _ _ 0 hfold, ← Nat.ofDigitChars_eq_foldl, Nat.ofDigitChars_ten_toDigits]

theorem ofKind?_text (kind : LiteralKind) (n : Nat) (s : List Char) :
    Placeholder.ofKind? kind ((Placeholder.mk kind (Nat.toDigits 10 n)).text ++ s) =
      some (⟨kind, Nat.toDigits 10 n⟩, s) := by
  have hdigits : ∀ c ∈ Nat.toDigits 10 n, Text.isDigit c = true := fun c hc => isDigit_of_mem_toDigits hc
  have hend : ("-->".toList ++ s).head?.any Text.isDigit = false := by simp; decide
  have htext : (Placeholder.mk kind (Nat.toDigits 10 n)).text ++ s =
      ("<!--".toList ++ (kind.name ++ [':'])) ++ (Nat.toDigits 10 n ++ ("-->".toList ++ s)) := by
    simp [Placeholder.text]
  rw [htext, Placeholder.ofKind?, dropMark?_append, Option.bind_some, List.takeWhile_append_of_pos hdigits,
    List.dropWhile_append_of_pos hdigits, takeWhile_of_head hend, dropWhile_of_head hend, List.append_nil,
    if_neg Nat.toDigits_ne_nil, dropMark?_append]
  rfl

/-- A text is not taken for the placeholder of another kind. -/
theorem ofKind?_inline (n : Nat) (s : List Char) :
    Placeholder.ofKind? .block ((Placeholder.mk .inline (Nat.toDigits 10 n)).text ++ s) = none := by
  have hmark : dropMark? ("<!--".toList ++ (LiteralKind.block.name ++ [':']))
      ((Placeholder.mk .inline (Nat.toDigits 10 n)).text ++ s) = none := by
    simp [Placeholder.text, LiteralKind.name, dropMark?]
  rw [Placeholder.ofKind?, hmark]
  rfl

theorem find?_placeholder (kind : LiteralKind) (n : Nat) (before : Option Char) (s : List Char) :
    Placeholder.pattern.find? before ((Placeholder.mk kind (Nat.toDigits 10 n)).text ++ s) =
      some (⟨kind, Nat.toDigits 10 n⟩, s) := by
  have hfind : ∀ s, Placeholder.pattern.find? before s =
      (Placeholder.ofKind? .block s).or (Placeholder.ofKind? .inline s) := fun _ => rfl
  rw [hfind]
  cases kind with
  | block => rw [ofKind?_text, Option.some_or]
  | inline => rw [ofKind?_inline, ofKind?_text, Option.none_or]

/-- No placeholder begins where no `<!` does. -/
theorem find?_placeholder_eq_none {s : List Char} (h : ∀ rest, s ≠ '<' :: '!' :: rest) (before : Option Char) :
    Placeholder.pattern.find? before s = none := by
  have hnone : ∀ kind, Placeholder.ofKind? kind s = none := by
    intro kind
    have hmark : ∀ mark, dropMark? ('<' :: '!' :: mark) s = none := by
      intro mark
      cases s with
      | nil => rfl
      | cons c s =>
          rw [dropMark?]
          split
          · rename_i hc
            refine dropMark?_of_head fun hs => ?_
            obtain ⟨rest, hrest⟩ := List.head?_eq_some_iff.mp hs
            exact h rest (by rw [← hc, hrest])
          · rfl
    have hopen : "<!--".toList ++ (kind.name ++ [':']) = '<' :: '!' :: '-' :: '-' :: (kind.name ++ [':']) := by simp
    rw [Placeholder.ofKind?, hopen, hmark]
    rfl
  have hfind : Placeholder.pattern.find? before s =
      (Placeholder.ofKind? .block s).or (Placeholder.ofKind? .inline s) := rfl
  rw [hfind, hnone, hnone]
  rfl

/-! ## Tags -/

/-- A name holds no angle bracket and begins like no comment. -/
theorem Element.name_shape (e : Element) :
    (e.name.all (· != '<') && e.name.head?.any (· != '!')) = true := by
  cases e with
  | heading level =>
      have hname : (Element.heading level).name = 'h' :: Nat.toDigits 10 level := rfl
      have hdigits : ∀ c ∈ Nat.toDigits 10 level, (c != '<') = true := by
        intro c hc
        rw [bne_iff_ne]
        rintro rfl
        exact absurd (isDigit_of_mem_toDigits hc) (by decide)
      rw [hname, List.all_cons, List.all_eq_true.mpr hdigits]
      rfl
  | code language => exact (by decide : ("code".toList.all (· != '<') && "code".toList.head?.any (· != '!')) = true)
  | anchor address => exact (by decide : ("a".toList.all (· != '<') && "a".toList.head?.any (· != '!')) = true)
  | _ => decide

theorem Tag.name_shape (x : Tag) : '<' ∉ x.name ∧ x.name.head?.any (· != '!') = true := by
  have helement : ∀ e : Element, '<' ∉ e.name ∧ e.name.head?.any (· != '!') = true := by
    intro e
    obtain ⟨hall, hhead⟩ := Bool.and_eq_true_iff.mp e.name_shape
    exact ⟨fun hmem => absurd (List.all_eq_true.mp hall _ hmem) (by decide), hhead⟩
  cases x with
  | opening e => exact helement e
  | closing e =>
      have hname : (Tag.closing e).name = '/' :: e.name := rfl
      rw [hname]
      exact ⟨by simpa using (helement e).1, rfl⟩
  | lineBreak => decide
  | rule => decide
  | image address description =>
      exact (by decide : '<' ∉ "img".toList ∧ "img".toList.head?.any (· != '!') = true)

theorem Tag.attribute_name {x : Tag} {a : String × List Char} (ha : a ∈ x.attributes) :
    a.1 ∈ ["href", "class", "src", "alt"] := by
  unfold attributes at ha
  split at ha
  · rw [List.mem_singleton.mp ha]
    simp
  · obtain ⟨role, -, rfl⟩ := Option.map_eq_some_iff.mp (Option.mem_toList.mp ha)
    simp
  · rcases List.mem_pair.mp ha with rfl | rfl <;> simp
  · exact absurd ha List.not_mem_nil

/-- A tag has one `<`, and no `!` after it. -/
theorem Tag.text_shape (x : Tag) : ∃ c u, x.text = '<' :: c :: u ∧ c ≠ '!' ∧ '<' ∉ c :: u := by
  obtain ⟨hname, hhead⟩ := x.name_shape
  have hattributes : '<' ∉ x.attributes.flatMap fun a => attributeText a.1 a.2 := by
    intro hmem
    obtain ⟨a, ha, hmem⟩ := List.mem_flatMap.mp hmem
    have hname : '<' ∉ a.1.toList :=
      (by decide : ∀ name ∈ ["href", "class", "src", "alt"], '<' ∉ name.toList) _ (attribute_name ha)
    simp [attributeText, hname, (attributeValue_escapeAttribute a.2).no_open] at hmem
  cases heq : x.name with
  | nil => simp [heq] at hhead
  | cons c rest =>
      refine ⟨c, rest ++ (x.attributes.flatMap fun a => attributeText a.1 a.2) ++ ['>'], ?_, ?_, ?_⟩
      · rw [text, heq]
        simp
      · simpa [heq] using hhead
      · rw [heq, List.mem_cons, not_or] at hname
        simp [hname, hattributes]

/-! ## Restoring -/

/-- What holds no `<!` is passed over. -/
theorem swap_append {t : LiteralTable} {kind : LiteralKind} {x s s' : List Char}
    (hx : ∀ u v, x = u ++ v → v ≠ [] → ∀ rest, v ++ s ≠ '<' :: '!' :: rest)
    (hs : ∀ before, Placeholder.pattern.sub (t.look kind) before s = .ok s') (before : Option Char) :
    Placeholder.pattern.sub (t.look kind) before (x ++ s) = .ok (x ++ s') := by
  rw [Pattern.sub_append fun u v huv hv => find?_placeholder_eq_none (hx u v huv hv) _, hs]
  rfl

theorem swap_text {t : LiteralTable} {kind kind' : LiteralKind} {n : Nat} {markup s s' : List Char}
    (hlook : t.look kind ⟨kind', Nat.toDigits 10 n⟩ = .ok markup)
    (hs : ∀ before, Placeholder.pattern.sub (t.look kind) before s = .ok s') (before : Option Char) :
    Placeholder.pattern.sub (t.look kind) before ((Placeholder.mk kind' (Nat.toDigits 10 n)).text ++ s) =
      .ok (markup ++ s') := by
  rw [Pattern.sub_of_some (find?_placeholder kind' n before s), hlook, hs]
  rfl

/-- Swapping the placeholders of one kind leaves a text without literals of this kind. -/
theorem swap_of_stands {t : LiteralTable} {K : LiteralKind → Prop} {s : List Char} {ts : List Token}
    (h : Stands t K s ts) (kind : LiteralKind) :
    ∃ s', (∀ before, Placeholder.pattern.sub (t.look kind) before s = .ok s') ∧
      Stands t (fun k => K k ∧ k ≠ kind) s' ts := by
  induction h with
  | nil => exact ⟨[], fun before => Pattern.sub_nil before, .nil⟩
  | char c _ ih =>
      obtain ⟨s', hs', hstands⟩ := ih
      refine ⟨_, swap_append (fun u v huv hv rest heq => ?_) hs', .char c hstands⟩
      obtain ⟨d, v, rfl⟩ := List.exists_cons_of_ne_nil hv
      have hopen : '<' ∈ escapeChar c := by simp [huv, (List.cons.inj heq).1]
      exact (markless_escapeChar c).no_open hopen
  | @tag x s ts _ ih =>
      obtain ⟨s', hs', hstands⟩ := ih
      refine ⟨_, swap_append (fun u v huv hv rest heq => ?_) hs', .tag x hstands⟩
      obtain ⟨c, inner, htext, hc, hopen⟩ := x.text_shape
      rw [htext] at huv
      cases u with
      | nil =>
          rw [List.nil_append] at huv
          rw [← huv, List.cons_append, List.cons_append] at heq
          exact hc (List.cons.inj (List.cons.inj heq).2).1
      | cons d u =>
          obtain ⟨e, v, rfl⟩ := List.exists_cons_of_ne_nil hv
          rw [List.cons_append, List.cons.injEq] at huv
          exact hopen (by simp [huv.2, (List.cons.inj heq).1])
  | @literal kind' n content s ts hk hn _ ih =>
      obtain ⟨s', hs', hstands⟩ := ih
      by_cases hkind : kind' = kind
      · have hlook : t.look kind ⟨kind', Nat.toDigits 10 n⟩ = .ok (Token.print content) := by
          rw [LiteralTable.look, if_neg (not_not_intro hkind), number_toDigits, ← hkind, hn]
        exact ⟨_, swap_text hlook hs', (Stands.print t _ content).append hstands⟩
      · have hlook : t.look kind ⟨kind', Nat.toDigits 10 n⟩ =
            .ok (Placeholder.mk kind' (Nat.toDigits 10 n)).text := by
          rw [LiteralTable.look, if_pos hkind]
        exact ⟨_, swap_text hlook hs', .literal kind' ⟨hk, hkind⟩ hn hstands⟩

/-- A text without literals is the tokens as they are printed. -/
theorem Stands.eq_print {t : LiteralTable} {K : LiteralKind → Prop} {s : List Char} {ts : List Token} (h : Stands t K s ts)
    (hK : ∀ kind, ¬ K kind) : s = Token.print ts := by
  induction h with
  | nil => rfl
  | char c _ ih =>
      rw [ih]
      rfl
  | tag x _ ih =>
      rw [ih]
      rfl
  | literal kind hk _ _ _ => exact absurd hk (hK _)

/-- Restoring all literals looks up nothing that is missing, and gives the tokens as they are printed. -/
theorem restore_of_stands {t : LiteralTable} {s : List Char} {ts : List Token}
    (h : Stands t (fun _ => True) s ts) : t.restore s = .ok (Token.print ts) := by
  obtain ⟨inner, hinline, hinner⟩ := swap_of_stands h .inline
  obtain ⟨whole, hblock, hwhole⟩ := swap_of_stands hinner .block
  have hprint : whole = Token.print ts := by
    refine hwhole.eq_print ?_
    rintro kind ⟨⟨-, hne⟩, hne'⟩
    cases kind with
    | block => exact hne' rfl
    | inline => exact hne rfl
  rw [LiteralTable.restore, LiteralTable.swap, hinline]
  exact hprint ▸ hblock none

end LeadSheet.Markup
