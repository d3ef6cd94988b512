/-!
# Pages

A page is a window of a list: the items in it, where it begins, and how many
items it could have held. A full page may be followed by another one, which
begins right after it; a page that is not full is the last. The last page of a
list whose length is a multiple of the limit is therefore empty.
-/

namespace RecordStore

/-- A window of a list of items. -/
structure Page (α : Type) where
  items : List α
  /-- How many items of the list come before the page. -/
  offset : Nat
  /-- How many items the page holds at most. -/
  limit : Nat
  deriving DecidableEq

namespace Page

variable {α β : Type}

/-- Where the page after a full one begins. A page that can hold nothing has no
successor. -/
def nextOffset? (page : Page α) : Option Nat :=
  if 0 < page.limit ∧ page.limit ≤ page.items.length then
    some (page.offset + page.items.length)
  else none

/-- The number of items. -/
def size (page : Page α) : Nat := page.items.length

/-- Whether there are no items. -/
def isEmpty (page : Page α) : Bool := page.items.isEmpty

/-- Applies a function to every item. -/
def map (f : α → β) (page : Page α) : Page β :=
  ⟨page.items.map f, page.offset, page.limit⟩

end Page

end RecordStore
