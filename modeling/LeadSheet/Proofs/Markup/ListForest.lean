import LeadSheet.Markup.Body
import LeadSheet.Proofs.Scan

/-!
# Where the items of a list belong

The items of a list come one after another, each with its indentation and its kind. What they are nested to is a
forest: lists side by side, whose items hold further lists.

* `ListForest`, `ListItems` : such a forest; no list of it is without an item;
* `ListForest.tokens`, `ListForest.places` : what it reads like in a document, and where each of its items stands, in
  the order of the document;
* `place` : where an item belongs, told by the items before it alone;
* `Nests earlier stack` : the open lists hold all that the items before have to say about places (`Nests.place_eq`);
* `Pending` : what is still to come of a forest while some of its lists are open;
* `exists_pending` : what an item and the items after it add is pending, each item in its place;
* `renderList_places` : so a list is rendered to a forest that has each item in its place.
-/

namespace LeadSheet.Markup

open Token (element)

/-! ## Forests -/

mutual

/-- Lists side by side. A list has a first item, lists inside this item, and further items. -/
inductive ListForest
  | nil
  | list (ordered : Bool) (first : Nat) (inner : ListForest) (others : ListItems) (rest : ListForest)

/-- Items of a list that follow another one, each with lists inside it. Items are known by their numbers. -/
inductive ListItems
  | nil
  | item (number : Nat) (inner : ListForest) (rest : ListItems)

end

def listElement (ordered : Bool) : Element := if ordered then .orderedList else .bulletList

mutual

/-- What the lists read like in a document: an item shows its content, and after it the lists inside it. -/
def ListForest.tokens (content : Nat → List Token) : ListForest → List Token
  | .nil => []
  | .list ordered first inner others rest =>
    element (listElement ordered)
      (element .item (content first ++ inner.tokens content) ++ others.tokens content) ++ rest.tokens content

def ListItems.tokens (content : Nat → List Token) : ListItems → List Token
  | .nil => []
  | .item number inner rest => element .item (content number ++ inner.tokens content) ++ rest.tokens content

end

/-- Where an item stands: next to another one in the same list, or first in a list of its own, which stands inside
another item or inside none. -/
inductive Place
  | next (previous : Nat)
  | first (ordered : Bool) (parent : Option Nat)
  deriving DecidableEq

mutual

/-- The items of the lists in the order of the document, each with its place. -/
def ListForest.places (parent : Option Nat) : ListForest → List (Nat × Place)
  | .nil => []
  | .list ordered first inner others rest =>
    (first, .first ordered parent) :: inner.places (some first) ++ others.places first ++ rest.places parent

/-- The items in order, the first of which follows the item `previous`. -/
def ListItems.places (previous : Nat) : ListItems → List (Nat × Place)
  | .nil => []
  | .item number inner rest => (number, .next previous) :: inner.places (some number) ++ rest.places number

end

/-! ## Places -/

/-- An item by its indentation and its kind, with its number. -/
abbrev NumberedItem := OpenList × Nat

/-- Where an item belongs, given the items before it, the latest one first. If the latest of them that is not indented
more has the same indentation and the same kind, the item comes next to it. Any other item opens a list, inside the
latest item that is indented less. -/
def place (earlier : List NumberedItem) (item : OpenList) : Place :=
  match (earlier.find? fun e => e.1.indent ≤ item.indent).filter fun e => e.1 = item with
  | some e => .next e.2
  | none => .first item.ordered ((earlier.find? fun e => e.1.indent < item.indent).map Prod.snd)

/-- Items in order, each with the place where it belongs. -/
def placed (earlier : List NumberedItem) : List NumberedItem → List (Nat × Place)
  | [] => []
  | item :: rest => (item.2, place earlier item.1) :: placed (item :: earlier) rest

/-! ## Open lists -/

/-- The list is not indented less than the item. -/
def endsBefore (item : OpenList) (l : NumberedItem) : Bool := item.indent ≤ l.1.indent

/-- The open lists that the list of an item stands in. -/
def below (item : OpenList) (stack : List NumberedItem) : List NumberedItem := stack.dropWhile (endsBefore item)

/-- The open lists are indented less and less. -/
def IsDecreasing (stack : List NumberedItem) : Prop := stack.Pairwise fun inner outer => outer.1.indent < inner.1.indent

theorem lt_of_mem_below {stack : List NumberedItem} (h : IsDecreasing stack) {item : OpenList} {l : NumberedItem}
    (hl : l ∈ below item stack) : l.1.indent < item.indent := by
  unfold below at hl
  cases hbelow : stack.dropWhile (endsBefore item) with
  | nil =>
      rw [hbelow] at hl
      exact absurd hl List.not_mem_nil
  | cons top rest =>
      have htop : top.1.indent < item.indent := by
        simpa [endsBefore] using (Text.eq_takeWhile_append hbelow).1
      have hrest := List.pairwise_cons.mp (hbelow ▸ h.sublist (List.dropWhile_sublist _))
      rw [hbelow] at hl
      rcases List.mem_cons.mp hl with rfl | hl
      · exact htop
      · exact Nat.lt_trans (hrest.1 l hl) htop

theorem below_append {item : OpenList} {ended outer : List NumberedItem}
    (hended : ∀ l ∈ ended, item.indent ≤ l.1.indent) (houter : ∀ l ∈ outer.head?, l.1.indent < item.indent) : below item (ended ++ outer) = outer := by
  have hdrop : ∀ l ∈ ended, endsBefore item l = true := fun l hl => decide_eq_true (hended l hl)
  rw [below, List.dropWhile_append_of_pos hdrop]
  cases outer with
  | nil => rfl
  | cons top outer => exact List.dropWhile_cons_of_neg (by simpa [endsBefore] using houter top rfl)

theorem find?_below {item : OpenList} {bound : Nat} (hbound : bound ≤ item.indent) (stack : List NumberedItem) :
    stack.find? (fun e => e.1.indent < bound) = (below item stack).find? fun e => e.1.indent < bound := by
  have hended : (stack.takeWhile (endsBefore item)).find? (fun e => e.1.indent < bound) = none := by
    rw [List.find?_eq_none]
    intro l hl
    have hle : endsBefore item l = true := List.mem_takeWhile_imp hl
    simp only [endsBefore, decide_eq_true_eq] at hle ⊢
    omega
  have hsplit := congrArg (List.find? fun e => decide (e.1.indent < bound))
    (List.takeWhile_append_dropWhile (p := endsBefore item) (l := stack))
  rw [List.find?_append, hended] at hsplit
  exact hsplit.symm

/-- The items before, the latest one first, and the open lists, each with the number of its last item. Whatever the
bound, the latest item that is indented less is the last one of the innermost open list that is. -/
structure Nests (earlier stack : List NumberedItem) : Prop where
  isDecreasing : IsDecreasing stack
  latest : ∀ bound, earlier.find? (fun e => e.1.indent < bound) = stack.find? (fun e => e.1.indent < bound)

namespace Nests

variable {earlier stack : List NumberedItem}

theorem nil : Nests [] [] := ⟨.nil, fun _ => rfl⟩

/-- An item ends the lists that are not indented less, and its own list comes to be open. -/
theorem enter (h : Nests earlier stack) (item : NumberedItem) :
    Nests (item :: earlier) (item :: below item.1 stack) := by
  refine ⟨List.pairwise_cons.mpr ⟨fun l hl => lt_of_mem_below h.isDecreasing hl,
    h.isDecreasing.sublist (List.dropWhile_sublist _)⟩, fun bound => ?_⟩
  by_cases hbound : item.1.indent < bound
  · rw [List.find?_cons_of_pos (by simpa using hbound), List.find?_cons_of_pos (by simpa using hbound)]
  · rw [List.find?_cons_of_neg (by simpa using hbound), List.find?_cons_of_neg (by simpa using hbound), h.latest,
      find?_below (Nat.not_lt.mp hbound) stack]

/-- The open lists tell where an item belongs. -/
theorem place_eq (h : Nests earlier stack) (item : OpenList) : place earlier item = place stack item := by
  have hle := h.latest (item.indent + 1)
  simp only [Nat.lt_succ_iff] at hle
  rw [place, place, hle, h.latest]

end Nests

/-! ## One item -/

/-- What comes before an item, given the open lists and those of them that the list of the item stands in, and its
place: it is the next one of an open list, or it opens a list. -/
inductive Enters (item : OpenList) (outer : List NumberedItem) : List NumberedItem → List Token → Place → Prop
  | next {inner : List NumberedItem} {number : Nat} : Enters item outer (inner ++ (item, number) :: outer)
      (OpenList.closeAll (inner.map Prod.fst) ++ [.tag (.closing .item)]) (.next number)
  | first {inner : List NumberedItem} : Enters item outer (inner ++ outer)
      (OpenList.closeAll (inner.map Prod.fst) ++ [.tag (.opening item.element)])
      (.first item.ordered (outer.head?.map Prod.snd))

theorem nestItems_cons (item : OpenList) (content : List Token) (rest : List (OpenList × List Token))
    {inner outer : List OpenList} (hinner : ∀ l ∈ inner, item.indent < l.indent)
    (houter : ∀ l ∈ outer.head?, l.indent ≤ item.indent) :
    nestItems (inner ++ outer) ((item, content) :: rest) =
      OpenList.closeAll inner ++ (enterList item outer).1 ++ .tag (.opening .item) :: content ++
        nestItems (enterList item outer).2 rest := by
  have hdrop : outer.dropWhile (fun l => decide (item.indent < l.indent)) = outer := by
    cases outer with
    | nil => rfl
    | cons top outer => exact List.dropWhile_cons_of_neg (by simpa using houter top rfl)
  have htake : outer.takeWhile (fun l => decide (item.indent < l.indent)) = [] := by
    cases outer with
    | nil => rfl
    | cons top outer => exact List.takeWhile_cons_of_neg (by simpa using houter top rfl)
  have hall : ∀ l ∈ inner, decide (item.indent < l.indent) = true := by simpa using hinner
  simp only [nestItems]
  rw [List.takeWhile_append_of_pos hall, List.dropWhile_append_of_pos hall, hdrop, htake, List.append_nil]

/-- Where an item belongs, told by the open lists that are not indented more. -/
theorem place_append {item : OpenList} {inner outer : List NumberedItem} (h : IsDecreasing (inner ++ outer))
    (hinner : ∀ l ∈ inner, item.indent < l.1.indent) (houter : ∀ l ∈ outer.head?, l.1.indent ≤ item.indent) :
    place (inner ++ outer) item = match outer.head?.filter fun e => e.1 = item with
      | some e => .next e.2
      | none => .first item.ordered ((below item (inner ++ outer)).head?.map Prod.snd) := by
  have hle : (inner ++ outer).find? (fun e => e.1.indent ≤ item.indent) = outer.head? := by
    have hnone : inner.find? (fun e => e.1.indent ≤ item.indent) = none := by
      rw [List.find?_eq_none]
      intro l hl
      simpa using hinner l hl
    rw [List.find?_append, hnone, Option.none_or]
    cases outer with
    | nil => rfl
    | cons top outer => exact List.find?_cons_of_pos (by simpa using houter top rfl)
  have hlt : (inner ++ outer).find? (fun e => e.1.indent < item.indent) = (below item (inner ++ outer)).head? := by
    have hbelow : ∀ l ∈ below item (inner ++ outer), l.1.indent < item.indent := fun l hl => lt_of_mem_below h hl
    rw [find?_below (Nat.le_refl _)]
    cases hb : below item (inner ++ outer) with
    | nil => rfl
    | cons top rest => exact List.find?_cons_of_pos (by simpa using hbelow top (hb ▸ List.mem_cons_self))
  rw [place, hle, hlt]

/-- The lists that are indented more than an item are the innermost ones. -/
theorem exists_inner (item : OpenList) (stack : List NumberedItem) :
    ∃ inner outer, stack = inner ++ outer ∧ (∀ l ∈ inner, item.indent < l.1.indent) ∧
      ∀ l ∈ outer.head?, l.1.indent ≤ item.indent := by
  refine ⟨_, _, (List.takeWhile_append_dropWhile (p := fun l => decide (item.indent < l.1.indent))).symm, ?_, ?_⟩
  · intro l hl
    simpa using List.mem_takeWhile_imp hl
  · intro l hl
    obtain ⟨rest, hrest⟩ := List.head?_eq_some_iff.mp hl
    simpa using (Text.eq_takeWhile_append hrest).1

/-- An item is entered at its place, and its list is the innermost one then. -/
theorem enters {stack : List NumberedItem} (h : IsDecreasing stack) (item : OpenList) :
    ∃ tokens, Enters item (below item stack) stack tokens (place stack item) ∧
      ∀ content rest, nestItems (stack.map Prod.fst) ((item, content) :: rest) =
        tokens ++ .tag (.opening .item) :: content ++ nestItems (item :: (below item stack).map Prod.fst) rest := by
  obtain ⟨inner, outer, rfl, hinner, houter⟩ := exists_inner item stack
  have hplace := place_append h hinner houter
  have hnest : ∀ content rest, nestItems ((inner ++ outer).map Prod.fst) ((item, content) :: rest) =
      OpenList.closeAll (inner.map Prod.fst) ++ (enterList item (outer.map Prod.fst)).1 ++
        .tag (.opening .item) :: content ++ nestItems (enterList item (outer.map Prod.fst)).2 rest := by
    intro content rest
    rw [List.map_append]
    refine nestItems_cons item content rest (by simpa using hinner) ?_
    rw [List.head?_map]
    simpa using houter
  have hended : ∀ l ∈ inner, item.indent ≤ l.1.indent := fun l hl => Nat.le_of_lt (hinner l hl)
  cases outer with
  | nil =>
      rw [below_append hended (by simp)] at hplace ⊢
      rw [hplace]
      exact ⟨_, .first, hnest⟩
  | cons top outer =>
      have htop : top.1.indent ≤ item.indent := houter top rfl
      have hdecreasing : ∀ l ∈ outer, l.1.indent < top.1.indent :=
        (List.pairwise_cons.mp (h.sublist (List.sublist_append_right inner _))).1
      simp only [List.map_cons, enterList] at hnest
      rw [List.head?_cons, Option.filter_some] at hplace
      by_cases hindent : top.1.indent = item.indent
      · have hbelow : below item (inner ++ top :: outer) = outer := by
          rw [List.append_cons]
          refine below_append (List.forall_mem_append.mpr ⟨hended, by simp [hindent]⟩) fun l hl => ?_
          exact hindent ▸ hdecreasing l (List.mem_of_mem_head? hl)
        rw [hbelow] at hplace ⊢
        rw [if_pos hindent] at hnest
        by_cases hkind : top.1.ordered = item.ordered
        · -- the item is the next one of the list
          obtain ⟨list, number⟩ := top
          obtain rfl : list = item := by
            cases list
            cases item
            simp_all
          rw [hplace, if_pos (by simp)]
          simp only [if_true] at hnest
          exact ⟨_, .next, hnest⟩
        · -- the list ends as well
          have hne : top.1 ≠ item := fun heq => hkind (heq ▸ rfl)
          rw [hplace, if_neg (by simpa using hne), List.append_cons]
          refine ⟨_, .first, ?_⟩
          simp only [hkind, if_false] at hnest
          simpa [OpenList.closeAll] using hnest
      · -- the item opens a list inside the last item of this one
        have hne : top.1 ≠ item := fun heq => hindent (heq ▸ rfl)
        have hbelow : below item (inner ++ top :: outer) = top :: outer := by
          refine below_append hended fun l hl => ?_
          obtain rfl := Option.some.inj hl
          omega
        rw [hbelow] at hplace ⊢
        rw [hplace, if_neg (by simpa using hne)]
        simp only [hindent, if_false] at hnest
        exact ⟨_, .first, hnest⟩

/-! ## All items -/

/-- What is still to come of an open list: the lists inside its last item, and the items after it. -/
structure Remainder where
  last : NumberedItem
  inner : ListForest
  others : ListItems

/-- What is still to come of a forest: of its open lists, the innermost first, and the lists after them. -/
structure Pending where
  remainders : List Remainder
  rest : ListForest

namespace Remainder

def tokens (content : Nat → List Token) (r : Remainder) : List Token :=
  r.inner.tokens content ++ .tag (.closing .item) :: r.others.tokens content ++ [.tag (.closing r.last.1.element)]

/-- The items that are still to come. -/
def places (r : Remainder) : List (Nat × Place) := r.inner.places (some r.last.2) ++ r.others.places r.last.2

end Remainder

namespace Pending

def stack (p : Pending) : List NumberedItem := p.remainders.map Remainder.last

/-- The tokens up to the end of the document. -/
def tokens (content : Nat → List Token) (p : Pending) : List Token :=
  p.remainders.flatMap (Remainder.tokens content) ++ p.rest.tokens content

def places (p : Pending) : List (Nat × Place) := p.remainders.flatMap Remainder.places ++ p.rest.places none

/-- Some more lists are open, of which nothing is to come. -/
def ending (ended : List NumberedItem) (p : Pending) : Pending :=
  ⟨ended.map (⟨·, .nil, .nil⟩) ++ p.remainders, p.rest⟩

def addList (ordered : Bool) (first : Nat) (inner : ListForest) (others : ListItems) : Pending → Pending
  | ⟨[], rest⟩ => ⟨[], .list ordered first inner others rest⟩
  | ⟨r :: remainders, rest⟩ => ⟨{ r with inner := .list ordered first inner others r.inner } :: remainders, rest⟩

section Ending

variable (ended : List NumberedItem) (p : Pending)

theorem stack_ending : (p.ending ended).stack = ended ++ p.stack := by
  simp [ending, stack, Function.comp_def]

theorem tokens_ending (content : Nat → List Token) :
    (p.ending ended).tokens content = OpenList.closeAll (ended.map Prod.fst) ++ p.tokens content := by
  simp [ending, tokens, Remainder.tokens, OpenList.closeAll, OpenList.close, ListForest.tokens, ListItems.tokens,
    List.flatMap_map]

theorem places_ending : (p.ending ended).places = p.places := by
  simp [ending, places, Remainder.places, ListForest.places, ListItems.places, List.flatMap_map]

end Ending

section AddList

variable (ordered : Bool) (first : Nat) (inner : ListForest) (others : ListItems) (p : Pending)

theorem stack_addList : (p.addList ordered first inner others).stack = p.stack := by
  obtain ⟨_ | ⟨r, remainders⟩, rest⟩ := p
  · rfl
  · rfl

theorem tokens_addList (content : Nat → List Token) :
    (p.addList ordered first inner others).tokens content =
      .tag (.opening (listElement ordered)) :: .tag (.opening .item) :: content first ++ inner.tokens content ++
        .tag (.closing .item) :: others.tokens content ++
          .tag (.closing (listElement ordered)) :: p.tokens content := by
  obtain ⟨_ | ⟨r, remainders⟩, rest⟩ := p
  · simp [addList, tokens, ListForest.tokens, element]
  · simp [addList, tokens, Remainder.tokens, ListForest.tokens, element]

theorem places_addList :
    (p.addList ordered first inner others).places =
      (first, .first ordered (p.stack.head?.map Prod.snd)) :: inner.places (some first) ++ others.places first ++
        p.places := by
  obtain ⟨_ | ⟨r, remainders⟩, rest⟩ := p
  · simp [addList, places, stack, ListForest.places]
  · simp [addList, places, stack, Remainder.places, ListForest.places]

end AddList

end Pending

/-- An item is put in front of what is pending after it. -/
theorem Enters.exists_pending {item : OpenList} {outer stack : List NumberedItem} {tokens : List Token} {place : Place}
    (h : Enters item outer stack tokens place) (content : Nat → List Token) (number : Nat) {p : Pending}
    (hp : p.stack = (item, number) :: outer) :
    ∃ p' : Pending, p'.stack = stack ∧
      p'.tokens content = tokens ++ .tag (.opening .item) :: content number ++ p.tokens content ∧
      p'.places = (number, place) :: p.places := by
  obtain ⟨_ | ⟨r, remainders⟩, rest⟩ := p
  · simp [Pending.stack] at hp
  obtain ⟨hlast, rfl⟩ : r.last = (item, number) ∧ remainders.map Remainder.last = outer := by
    simpa [Pending.stack] using hp
  cases h with
  | @next inner previous =>
      refine ⟨.ending inner ⟨⟨(item, previous), .nil, .item number r.inner r.others⟩ :: remainders, rest⟩, ?_, ?_, ?_⟩
      · rw [Pending.stack_ending]
        rfl
      · rw [Pending.tokens_ending]
        simp [Pending.tokens, Remainder.tokens, ListForest.tokens, ListItems.tokens, element, hlast]
      · rw [Pending.places_ending]
        simp [Pending.places, Remainder.places, ListForest.places, ListItems.places, hlast]
  | @first inner =>
      refine ⟨.ending inner (.addList item.ordered number r.inner r.others ⟨remainders, rest⟩), ?_, ?_, ?_⟩
      · rw [Pending.stack_ending, Pending.stack_addList]
        rfl
      · rw [Pending.tokens_ending, Pending.tokens_addList]
        simp [Pending.tokens, Remainder.tokens, hlast, OpenList.element, listElement]
      · rw [Pending.places_ending, Pending.places_addList]
        simp [Pending.places, Pending.stack, Remainder.places, hlast]

/-- What the items add to the open lists is pending, and puts each of them in its place. -/
theorem exists_pending (content : Nat → List Token) (items : List NumberedItem) {earlier stack : List NumberedItem}
    (h : Nests earlier stack) :
    ∃ p : Pending, p.stack = stack ∧
      p.tokens content = nestItems (stack.map Prod.fst) (items.map fun i => (i.1, content i.2)) ∧
      p.places = placed earlier items := by
  induction items generalizing earlier stack with
  | nil =>
      refine ⟨.ending stack ⟨[], .nil⟩, ?_, ?_, ?_⟩
      · rw [Pending.stack_ending]
        exact List.append_nil stack
      · rw [Pending.tokens_ending]
        exact List.append_nil _
      · rw [Pending.places_ending]
        rfl
  | cons item items ih =>
      obtain ⟨p, hstack, htokens, hplaces⟩ := ih (h.enter item)
      obtain ⟨tokens, henters, hnest⟩ := enters h.isDecreasing item.1
      obtain ⟨p', hstack', htokens', hplaces'⟩ := henters.exists_pending content item.2 hstack
      refine ⟨p', hstack', ?_, ?_⟩
      · rw [List.map_cons] at htokens
        rw [htokens', htokens, List.map_cons, hnest]
      · rw [hplaces', hplaces, placed, h.place_eq]

/-! ## Lists -/

def Item.list (item : Item) : OpenList := ⟨item.indent, item.ordered⟩

/-- What the items show, one after another. -/
def itemContents (db : Chord.Database) (n : Nat) (items : List Item) : List (List Token) :=
  (renderLines db n (items.map Item.text)).1

theorem length_renderLines (db : Chord.Database) (n : Nat) (ls : List Line) :
    (renderLines db n ls).1.length = ls.length := by
  induction ls generalizing n with
  | nil => rfl
  | cons l ls ih => simp only [renderLines, List.length_cons, ih]

theorem zip_eq_map_zipIdx {lists : List OpenList} {contents : List (List Token)} (h : contents.length = lists.length) :
    lists.zip contents = lists.zipIdx.map fun i => (i.1, contents.getD i.2 []) := by
  refine List.ext_getElem (by simp [h]) fun j hj hj' => ?_
  have hcontents : j < contents.length := by simpa [h] using hj
  simp [hcontents]

/-- A list is rendered to a forest with an item for each of its own, in order, in the place where it belongs. Each item
shows its text, as it is marked up, and after it the lists inside it. -/
theorem renderList_places (db : Chord.Database) (n : Nat) (items : List Item) :
    (itemContents db n items).length = items.length ∧
      ∃ forest : ListForest,
        (renderList db n items).1 = forest.tokens (fun j => (itemContents db n items).getD j []) ∧
        forest.places none = placed [] (items.map Item.list).zipIdx := by
  have hlength : (itemContents db n items).length = items.length := by
    rw [itemContents, length_renderLines, List.length_map]
  obtain ⟨⟨remainders, forest⟩, hstack, htokens, hplaces⟩ :=
    exists_pending (fun j => (itemContents db n items).getD j []) (items.map Item.list).zipIdx Nests.nil
  obtain rfl : remainders = [] := List.map_eq_nil_iff.mp hstack
  refine ⟨hlength, forest, ?_, hplaces⟩
  rw [List.map_nil, ← zip_eq_map_zipIdx (by rw [hlength, List.length_map])] at htokens
  exact htokens.symm

/-- A list that begins with its deepest item, and in it the next item of an outer list after an inner one. -/
example :
    placed [] [(⟨4, false⟩, 0), (⟨0, false⟩, 1), (⟨4, true⟩, 2), (⟨2, false⟩, 3), (⟨0, false⟩, 4), (⟨0, true⟩, 5)] =
    [(0, .first false none), (1, .first false none), (2, .first true (some 1)), (3, .first false (some 1)),
      (4, .next 1), (5, .first true none)] := by
  decide

end LeadSheet.Markup
