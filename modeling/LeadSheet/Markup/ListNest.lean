import LeadSheet.Markup.Html

/-!
# Nested lists

The items of a list are nested by their indentation. An item joins the list of the latest earlier item
of the same indentation and kind, provided that no item in between is indented less; any other item
opens a list of its own, inside the latest item that is indented less.

The lists that are open form a stack, the innermost first, with strictly decreasing indentation. Each of
them has its last item open.
-/

namespace LeadSheet.Markup

/-- A list that is open: its indentation and its kind. -/
structure OpenList where
  indent : Nat
  ordered : Bool
  deriving DecidableEq

namespace OpenList

def element (l : OpenList) : Element := if l.ordered then .orderedList else .bulletList

/-- The tags that end the list and its last item. -/
def close (l : OpenList) : List Token := [.tag (.closing .item), .tag (.closing l.element)]

/-- The tags that end several lists. -/
def closeAll (stack : List OpenList) : List Token := stack.flatMap close

end OpenList

/-- What comes before an item, given the open lists that are not indented more than it, and the lists
that are open then. The item's own list is the innermost. -/
def enterList (item : OpenList) : List OpenList → List Token × List OpenList
  | [] => ([.tag (.opening item.element)], [item])
  | top :: below =>
    if top.indent = item.indent then
      if top.ordered = item.ordered then ([.tag (.closing .item)], top :: below)
      else (top.close ++ [.tag (.opening item.element)], item :: below)
    else ([.tag (.opening item.element)], item :: top :: below)

/-- The tokens of items with their content, within the lists of the stack, up to the end of the
outermost list. -/
def nestItems (stack : List OpenList) : List (OpenList × List Token) → List Token
  | [] => OpenList.closeAll stack
  | (item, content) :: rest =>
    let isDeeper := fun l : OpenList => decide (item.indent < l.indent)
    let (enter, stack') := enterList item (stack.dropWhile isDeeper)
    OpenList.closeAll (stack.takeWhile isDeeper) ++ enter ++
      .tag (.opening .item) :: content ++ nestItems stack' rest

end LeadSheet.Markup
