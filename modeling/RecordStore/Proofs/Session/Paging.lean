import RecordStore.Proofs.Session.Reading

/-!
# Reading page after page

A caller that wants everything reads the page at offset zero, and then the page
at the offset that the last one gives, until there is none
(`RecordStore.Repository.Pages`). Nothing is changed on the way, so every page is
cut out of the same list, each one begins where the one before it ended, and
together they are the list (`RecordStore.Repository.pages_exhaustive`). If the
list ends with a full page, one more page is read, and it is empty.
-/

namespace RecordStore

/-- The query for the window of a sorted list that begins at an offset and has a
limit. -/
def Query.window (filter : Option Filter) (sort : Sorting) (offset limit : Nat) : Query :=
  ⟨filter, some { sort with offset := some offset, limit := some limit }⟩

namespace Repository

variable {type : EntityType} (repository : Repository type) (session : Session MemoryStore)

/-- **Reading on** from an offset: the pages that are read, one after the other,
up to one that has no successor. The session stays as it is. -/
inductive Pages (query : Nat → Query) : Nat → List (Page type.Entity) → Prop where
  | last {offset : Nat} {page : Page type.Entity}
    (read : (repository.getByQuery (query offset)).exec session = (.ok page, session))
    (ends : page.nextOffset? = none) : Pages query offset [page]
  | next {offset following : Nat} {page : Page type.Entity} {pages : List (Page type.Entity)}
    (read : (repository.getByQuery (query offset)).exec session = (.ok page, session))
    (continues : page.nextOffset? = some following) (rest : Pages query following pages) :
    Pages query offset (page :: pages)

variable {repository session} {query : Nat → Query} {offset : Nat}
  {pages : List (Page type.Entity)}

/-- What is read on from an offset is settled. -/
theorem Pages.unique (h : repository.Pages session query offset pages)
    {others : List (Page type.Entity)} (hothers : repository.Pages session query offset others) :
    others = pages := by
  -- a read has one outcome, so both readings stop or go on at the same page
  induction h generalizing others with
  | last read ends =>
    cases hothers with
    | last read' _ =>
      rw [read] at read'
      cases read'
      rfl
    | next read' continues' _ =>
      rw [read] at read'
      cases read'
      rw [ends] at continues'
      cases continues'
  | next read continues _ ih =>
    cases hothers with
    | last read' ends' =>
      rw [read] at read'
      cases read'
      rw [continues] at ends'
      cases ends'
    | next read' continues' rest' =>
      rw [read] at read'
      cases read'
      rw [continues] at continues'
      cases continues'
      rw [ih rest']

/-- **A page begins after the items of the pages before it.** -/
theorem Pages.offset_eq (h : repository.Pages session query offset pages)
    (hoffset : ∀ offset page,
      (repository.getByQuery (query offset)).exec session = (.ok page, session) →
        page.offset = offset)
    {before : List (Page type.Entity)} {page : Page type.Entity}
    {after : List (Page type.Entity)} (hpages : pages = before ++ page :: after) :
    page.offset = offset + (before.flatMap Page.items).length := by
  induction h generalizing before with
  | last read _ =>
    cases before with
    | nil =>
      obtain ⟨rfl, -⟩ := List.cons.inj hpages
      exact hoffset _ _ read
    | cons _ before => simp at hpages
  | next read continues _ ih =>
    cases before with
    | nil =>
      obtain ⟨rfl, -⟩ := List.cons.inj hpages
      exact hoffset _ _ read
    | cons first before =>
      -- the second page begins after the items of the first one, and the others after it
      obtain ⟨rfl, hrest⟩ := List.cons.inj hpages
      rw [Page.nextOffset?] at continues
      split at continues
      · obtain rfl := Option.some.inj continues
        rw [ih hrest, hoffset _ _ read, List.flatMap_cons, List.length_append, Nat.add_assoc]
      · cases continues

/-! ### Windows of a list

From here on, the page at an offset is a window of a list of items, of a positive
length. -/

/-- The page at an offset of a list has a successor if it is full. -/
theorem nextOffset?_window {α : Type} (items : List α) (offset : Nat) {limit : Nat}
    (positive : 0 < limit) :
    (⟨(items.drop offset).take limit, offset, limit⟩ : Page α).nextOffset?
      = if offset + limit ≤ items.length then some (offset + limit) else none := by
  have hlength : ((items.drop offset).take limit).length = min limit (items.length - offset) := by
    rw [List.length_take, List.length_drop]
  rw [Page.nextOffset?]
  dsimp only
  rw [hlength]
  by_cases hfull : offset + limit ≤ items.length
  · have hall : min limit (items.length - offset) = limit := by omega
    rw [if_pos hfull, hall, if_pos ⟨positive, Nat.le_refl limit⟩]
  · rw [if_neg hfull, if_neg fun h => hfull (by omega)]

section Items

variable {items : List type.Entity} {limit : Nat} (positive : 0 < limit)
  (read : ∀ offset, (repository.getByQuery (query offset)).exec session
    = (.ok ⟨(items.drop offset).take limit, offset, limit⟩, session))
include read

/-- A page that was read is the window that was asked for. -/
theorem eq_window_of_read {page : Page type.Entity}
    (hpage : (repository.getByQuery (query offset)).exec session = (.ok page, session)) :
    page = ⟨(items.drop offset).take limit, offset, limit⟩ := by
  rw [read] at hpage
  exact (Except.ok.inj (Prod.mk.inj hpage).1).symm

include positive

/-- The last page has what is left of the list, which is less than a window. -/
theorem window_of_ends {page : Page type.Entity}
    (hpage : (repository.getByQuery (query offset)).exec session = (.ok page, session))
    (ends : page.nextOffset? = none) :
    page.items = items.drop offset ∧ items.length < offset + limit := by
  obtain rfl := eq_window_of_read read hpage
  rw [nextOffset?_window items offset positive] at ends
  split at ends
  · cases ends
  · have hshort : (items.drop offset).length ≤ limit := by
      rw [List.length_drop]
      omega
    exact ⟨List.take_of_length_le hshort, by omega⟩

/-- Any other page has a full window, and the next one begins after it. -/
theorem window_of_continues {page : Page type.Entity} {following : Nat}
    (hpage : (repository.getByQuery (query offset)).exec session = (.ok page, session))
    (continues : page.nextOffset? = some following) :
    page.items = (items.drop offset).take limit ∧ following = offset + limit ∧
      offset + limit ≤ items.length := by
  obtain rfl := eq_window_of_read read hpage
  rw [nextOffset?_window items offset positive] at continues
  split at continues
  · rename_i hfull
    exact ⟨rfl, (Option.some.inj continues).symm, hfull⟩
  · cases continues

/-- **The pages make up the rest of the list.** -/
theorem Pages.flatMap_items (h : repository.Pages session query offset pages) :
    pages.flatMap Page.items = items.drop offset := by
  induction h with
  | last hpage ends =>
    obtain ⟨hitems, -⟩ := window_of_ends positive read hpage ends
    rw [List.flatMap_singleton, hitems]
  | next hpage continues _ ih =>
    obtain ⟨hitems, rfl, -⟩ := window_of_continues positive read hpage continues
    rw [List.flatMap_cons, ih, hitems, ← List.drop_drop, List.take_append_drop]

/-- There is a page for each full window of the rest of the list, and one more. -/
theorem Pages.length_eq (h : repository.Pages session query offset pages) :
    pages.length = (items.length - offset) / limit + 1 := by
  induction h with
  | last hpage ends =>
    obtain ⟨-, hshort⟩ := window_of_ends positive read hpage ends
    rw [Nat.div_eq_of_lt (by omega), List.length_singleton]
  | @next offset _ _ _ hpage continues _ ih =>
    obtain ⟨-, rfl, hlong⟩ := window_of_continues positive read hpage continues
    have hfull : limit ≤ items.length - offset := by omega
    rw [List.length_cons, ih, Nat.div_eq_sub_div positive hfull, Nat.sub_sub]

/-- **Reading on comes to an end**: each page but the last leaves less of the
list. -/
theorem exists_pages (offset : Nat) : ∃ pages, repository.Pages session query offset pages := by
  by_cases hfull : offset + limit ≤ items.length
  · obtain ⟨pages, hpages⟩ := exists_pages (offset + limit)
    refine ⟨_, .next (read offset) ?_ hpages⟩
    rw [nextOffset?_window items offset positive, if_pos hfull]
  · refine ⟨_, .last (read offset) ?_⟩
    rw [nextOffset?_window items offset positive, if_neg hfull]
termination_by items.length - offset

end Items

/-! ### The pages of a query -/

/-- The keys that a sort lists entities by, each with its direction. -/
def sortKeys (repository : Repository type) (sort : Sorting) : List (String × SortOrder) :=
  (repository.defaults.fill sort).findOptions.sort

/-- The records of a collection that meet a predicate, as a sort lists them. -/
def listing (repository : Repository type) (sort : Sorting) (collection : Collection)
    (predicate : Predicate) : List Document :=
  FindOptions.arrange ⟨repository.sortKeys sort, none, none⟩ (collection.matching predicate)

/-- The page of a window is cut out of the listing, whatever the window. -/
theorem pageOf_window (filter : Option Filter) (sort : Sorting) (collection : Collection)
    (offset limit : Nat) :
    repository.pageOf collection (.window filter sort offset limit) = (do
      let predicate ← predicateOf filter (repository.defaults.fill sort)
      let items ← type.ofRecords
        (((repository.listing sort collection predicate).drop offset).take limit)
      return ⟨items, offset, limit⟩) :=
  rfl

section Query

variable {collection : Collection} (isOpen : session.isOpen = true)
  (found : session.store.bound? repository.collection = some collection)
include isOpen found

/-- A filter or sort that is refused is refused for every window. -/
theorem exec_getByQuery_of_refused {filter : Option Filter} {sort : Sorting} {failure : Failure}
    (refused : predicateOf filter (repository.defaults.fill sort) = .error failure)
    (offset limit : Nat) :
    (repository.getByQuery (.window filter sort offset limit)).exec session
      = (.error failure, session) := by
  rw [exec_getByQuery isOpen found, pageOf_window, refused, Outcome.error_bind]

/-- **A page is a window of the entities that match**, in the order asked for, whatever the
window. -/
theorem exec_getByQuery_of_accepted {filter : Option Filter} {sort : Sorting}
    {predicate : Predicate} {entities : List type.Entity}
    (accepted : predicateOf filter (repository.defaults.fill sort) = .ok predicate)
    (hentities : type.ofRecords (repository.listing sort collection predicate) = .ok entities)
    (offset limit : Nat) :
    (repository.getByQuery (.window filter sort offset limit)).exec session
      = (.ok ⟨(entities.drop offset).take limit, offset, limit⟩, session) := by
  have hitems : type.ofRecords
      (((repository.listing sort collection predicate).drop offset).take limit)
        = .ok ((entities.drop offset).take limit) :=
    Outcome.mapM_eq_ok_iff.2
      (List.forall₂_take limit (List.forall₂_drop offset (Outcome.mapM_eq_ok_iff.1 hentities)))
  rw [exec_getByQuery isOpen found, pageOf_window, accepted, Outcome.ok_bind, hitems,
    Outcome.ok_bind, Outcome.pure_eq_ok]

/-- **Paging is exhaustive.** A query that is refused is refused for every page.
One that is accepted is read in finitely many pages, each of which begins after
the items of those before it, and together they hold what the query gives at once
when its limit allows: the entity of every matching record, in the one order that
the sort asks for. -/
theorem pages_exhaustive
    (readable : ∀ record ∈ collection.records, ∃ entity, type.ofRecord record = .ok entity)
    (filter : Option Filter) (sort : Sorting) {limit : Nat} (positive : 0 < limit) :
    (∀ failure, predicateOf filter (repository.defaults.fill sort) = .error failure →
      ∀ offset size, (repository.getByQuery (.window filter sort offset size)).exec session
        = (.error failure, session)) ∧
    ∀ predicate, predicateOf filter (repository.defaults.fill sort) = .ok predicate →
      FindOptions.Preordered (repository.sortKeys sort) (collection.matching predicate) →
      ∃ pages listed,
        (∀ other, repository.Pages session (.window filter sort · limit) 0 other ↔
          other = pages) ∧
        pages.length = (collection.matching predicate).length / limit + 1 ∧
        (∀ before page after, pages = before ++ page :: after →
          page.offset = (before.flatMap Page.items).length) ∧
        (∀ other,
          FindOptions.Arranged (repository.sortKeys sort) (collection.matching predicate) other ↔
            other = listed) ∧
        type.ofRecords listed = .ok (pages.flatMap Page.items) ∧
        ∀ whole, (collection.matching predicate).length ≤ whole →
          (repository.getByQuery (.window filter sort 0 whole)).exec session
            = (.ok ⟨pages.flatMap Page.items, 0, whole⟩, session) := by
  refine ⟨fun failure refused => exec_getByQuery_of_refused isOpen found refused,
    fun predicate accepted preordered => ?_⟩
  have hperm : (repository.listing sort collection predicate).Perm
      (collection.matching predicate) :=
    (FindOptions.arranged_arrange preordered).perm
  obtain ⟨entities, hentities⟩ :
      ∃ entities, type.ofRecords (repository.listing sort collection predicate) = .ok entities :=
    Outcome.exists_mapM_eq_ok fun record hrecord =>
      readable record (List.mem_filter.1 (hperm.subset hrecord)).1
  -- every page is a window of these entities, whatever its offset and its limit
  have hread := exec_getByQuery_of_accepted isOpen found accepted hentities
  obtain ⟨pages, hpages⟩ := exists_pages positive (fun offset => hread offset limit) 0
  have hitems : pages.flatMap Page.items = entities :=
    hpages.flatMap_items positive fun offset => hread offset limit
  have hlength : entities.length = (collection.matching predicate).length := by
    rw [← (Outcome.mapM_eq_ok_iff.1 hentities).length_eq, hperm.length_eq]
  refine ⟨pages, repository.listing sort collection predicate, fun other => ?_, ?_, ?_,
    fun other => FindOptions.arranged_iff_eq_arrange preordered, ?_, fun whole hwhole => ?_⟩
  · exact ⟨fun hother => hpages.unique hother, fun hother => hother ▸ hpages⟩
  · rw [hpages.length_eq positive fun offset => hread offset limit, Nat.sub_zero, hlength]
  · intro before page after hsplit
    rw [hpages.offset_eq (fun offset page hpage => ?_) hsplit, Nat.zero_add]
    exact congrArg Page.offset (eq_window_of_read (fun offset => hread offset limit) hpage)
  · rw [hitems, hentities]
  · rw [hread, List.drop_zero, List.take_of_length_le (hlength ▸ hwhole), hitems]

end Query

/-- A repository of tasks. -/
def tasks : Repository (.dynamic String) :=
  ⟨"tasks", ⟨[⟨"priority", .number, true⟩]⟩, .standard⟩

/-- Tasks of the highest priority first. -/
def byPriority : Sorting := ⟨["priority"], some .descending, none, none⟩

/-- A session over a store with three tasks. -/
def threeTasks : Session MemoryStore :=
  .start (MemoryStore.empty.afterAll MemoryStore.threeTasks)

/-- Three tasks are read three at a time in two pages, the second of which is
empty. No page is read of a sort by a nested property. -/
theorem pages_threeTasks :
    ∃ pages, tasks.Pages threeTasks (.window none byPriority · 3) 0 pages ∧
      pages.length = 2 ∧ (pages.flatMap Page.items).length = 3 ∧
      (tasks.getByQuery (.window none byPriority 0 100)).exec threeTasks
        = (.ok ⟨pages.flatMap Page.items, 0, 100⟩, threeTasks) ∧
      (tasks.getByQuery (.window none ⟨["due.day"], none, none, none⟩ 0 3)).exec threeTasks
        = (.error (.invalidQuery (.notTopLevel "due.day")), threeTasks) := by
  have stored : ∃ collection,
      threeTasks.store.bound? tasks.collection = some collection ∧
      (∀ record ∈ collection.records,
        ∃ entity, (EntityType.dynamic String).ofRecord record = .ok entity) ∧
      FindOptions.Preordered (tasks.sortKeys byPriority) (collection.matching .empty) ∧
      (collection.matching .empty).length = 3 := by
    refine ⟨_, rfl, ?_, ?_, rfl⟩
    · exact List.forall_mem_cons.2 ⟨⟨_, rfl⟩, List.forall_mem_cons.2 ⟨⟨_, rfl⟩,
        List.forall_mem_singleton.2 ⟨_, rfl⟩⟩⟩
    · exact List.forall_mem_singleton.2 (.of_trans (by decide))
  obtain ⟨collection, found, readable, preordered, three⟩ := stored
  have isOpen : threeTasks.isOpen = true := rfl
  have positive : 0 < 3 := by decide
  obtain ⟨pages, listed, hpages, hcount, -, harranged, hitems, hwhole⟩ :=
    (pages_exhaustive isOpen found readable none byPriority positive).2 .empty rfl preordered
  have refused := (pages_exhaustive isOpen found readable none ⟨["due.day"], none, none, none⟩
    positive).1 _ rfl
  refine ⟨pages, (hpages pages).2 rfl, ?_, ?_, hwhole 100 (by omega), refused 0 3⟩
  · rw [hcount, three]
  · rw [← (Outcome.mapM_eq_ok_iff.1 hitems).length_eq, ((harranged listed).2 rfl).perm.length_eq,
      three]

end Repository

end RecordStore
