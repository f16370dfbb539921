/-
Pages tile a collection.

A client that cannot take a collection at once asks for it page by page, each time with the same
query behind the window of the page.  What it gets are the records of the collection in their order,
each of them once, with the same expansions and fields as without pages: the last page may be short,
and behind the end there is nothing.

That holds for every collection that can be counted by 64-bit words.  A window that starts behind
all such words is not read as one, though, and shows the first page again.

* `flatMap_window_range` — windows of one size, one behind the other, make up the front of a list;
* `Service.value_collection` — the records of a set in the window of a query;
* `Service.collection_pages` — **the pages of a collection make it up**.
-/

import OData.Proofs.Query.Page
import OData.Proofs.Service.Outcome

set_option relaxedAutoImplicit false
set_option autoImplicit false

namespace OData

open Query

/-! ### Windows -/

/-- Windows of one size, one behind the other, make up the front of a list. -/
theorem flatMap_window_range {α : Type} (items : List α) (size count : Nat) :
    (List.range count).flatMap (fun i => window items (i * size) (some size))
      = items.take (count * size) := by
  induction count with
  | zero => simp
  | succ count ih =>
      rw [List.range_succ, List.flatMap_append, ih, List.flatMap_singleton, window_some,
        Nat.succ_mul, List.take_add]

/-- The number of windows of one size that it takes to see a whole list. -/
theorem exists_pageCount {size : Nat} (hpos : 0 < size) (length : Nat) :
    ∃ count, (∀ i, i < count ↔ i * size < length) ∧ length ≤ count * size := by
  refine ⟨(length + size - 1) / size, fun i => ?_, ?_⟩
  · rw [Nat.lt_iff_add_one_le, Nat.le_div_iff_mul_le hpos, Nat.succ_mul]
    omega
  · have hdivision := Nat.div_add_mod (length + size - 1) size
    have hrest := Nat.mod_lt (length + size - 1) hpos
    rw [Nat.mul_comm]
    omega

/-! ### Collections -/

/-- The expansions and fields of a record do not depend on the window. -/
theorem Record.answer_window (registry : Registry) (record : Record) (options : Options)
    (skip : Nat) (top : Option Nat) :
    record.answer registry { options with skip, top } = record.answer registry options := rfl

namespace Service

variable {service : Service} {set : String} {entitySet : EntitySet} {records : List Record}

/-- The records of a set in the window of a query. -/
theorem value_collection (hset : service.registry.set? set = some entitySet)
    (hrecords : entitySet.handler.collection = some records) (query : String) :
    (service.collection set query).value
      = .ok (.ofSet set ((window records (Options.parse query).skip
          (Options.parse query).top).map fun record =>
            (record.answer service.registry (Options.parse query)).value)) := by
  simp only [collection, Registry.handler, hset, hrecords, Journal.value_bind, Journal.value_pure,
    readOptions, answerAll, Journal.value_traverse]

/-- **The pages of a collection make it up.**  Each query for a page succeeds.  The pages that begin
before the end of the collection, one behind the other, are what the query gives without pages: an
answer for every record, in their order.  A page that begins behind the end is empty, as long as its
start can be read as a count. -/
theorem collection_pages (hset : service.registry.set? set = some entitySet)
    (hrecords : entitySet.handler.collection = some records) (hlength : records.length < countLimit)
    {size : Nat} (hpos : 0 < size) (hsize : size < countLimit) {query : String}
    (hunpaged : IsUnpaged query) (hunmarked : IsUnmarked query.toList) :
    ∃ (page : Nat → List FieldList) (all : List FieldList) (count : Nat),
      (∀ start, (service.collection set (pageQuery start size query)).value
        = .ok (.ofSet set (page start))) ∧
      (service.collection set query).value = .ok (.ofSet set all) ∧
      (∀ i, i < count ↔ i * size < records.length) ∧
      (List.range count).flatMap (fun i => page (i * size)) = all ∧
      all = records.map (fun record =>
        (record.answer service.registry (Options.parse query)).value) ∧
      ∀ start, records.length ≤ start → (page start = [] ↔ start < countLimit ∨ records = []) := by
  obtain ⟨count, hcount, hcovered⟩ := exists_pageCount hpos records.length
  let answer := fun record : Record =>
    (record.answer service.registry (Options.parse query)).value
  let page := fun start =>
    (window records (if start < countLimit then start else 0) (some size)).map answer
  refine ⟨page, records.map answer, count, fun start => ?_, ?_, hcount, ?_, rfl,
    fun start hstart => ?_⟩
  · rw [value_collection hset hrecords, parse_pageQuery start hpos hsize hunmarked]
    simp only [Record.answer_window]
    rfl
  · rw [value_collection hset hrecords, hunpaged.skip_eq, hunpaged.top_eq, window_none,
      List.drop_zero]
  · -- the starts of these pages are less than the length, and so they can be read
    have hpage : ∀ i ∈ List.range count,
        page (i * size) = (window records (i * size) (some size)).map answer := by
      intro i hi
      have hbefore := (hcount i).1 (List.mem_range.1 hi)
      simp only [page, if_pos (hbefore.trans hlength)]
    rw [List.flatMap_congr hpage, ← List.map_flatMap, flatMap_window_range,
      List.take_of_length_le hcovered]
  · simp only [page, List.map_eq_nil_iff]
    by_cases hread : start < countLimit
    · simp only [hread, if_true, true_or, iff_true]
      exact window_eq_nil_of_length_le _ hstart
    · have hne : size ≠ 0 := Nat.pos_iff_ne_zero.1 hpos
      simp [hread, hne]

/-! ### A shelf -/

/-- A book of some title. -/
def titled (title : String) : Record :=
  { book with value? := fun name => if name = "Title" then some (.scalar (.string title)) else none }

/-- The books of a shelf. -/
def shelved : List Record := [titled "Notes", titled "Sketches", titled "Letters"]

/-- A shelf, the books of which are only offered all together. -/
def shelf : Service :=
  (ofRegistry (.ofRegistrations "Library" [.set book.type { collection := some shelved }])).value

theorem collection_pages_shelf :
    let query := " $select=Title,Author & $expand=Author($skip=1) "
    (shelf.registry.set? "Books" = some ⟨book.type, { collection := some shelved }⟩ ∧
      IsUnpaged query ∧ IsUnmarked query.toList) ∧
    ∃ (page : Nat → List FieldList) (all : List FieldList) (count : Nat),
      (∀ start, (shelf.collection "Books" (pageQuery start 2 query)).value
        = .ok (.ofSet "Books" (page start))) ∧
      (shelf.collection "Books" query).value = .ok (.ofSet "Books" all) ∧
      (∀ i, i < count ↔ i * 2 < 3) ∧
      (List.range count).flatMap (fun i => page (i * 2)) = all ∧
      all = shelved.map (fun record =>
        (record.answer shelf.registry (Options.parse query)).value) ∧
      ∀ start, 3 ≤ start → (page start = [] ↔ start < countLimit ∨ shelved = []) :=
  have hset : shelf.registry.set? "Books" = some ⟨book.type, { collection := some shelved }⟩ := rfl
  have hunpaged : IsUnpaged " $select=Title,Author & $expand=Author($skip=1) " := by decide
  have hunmarked : IsUnmarked " $select=Title,Author & $expand=Author($skip=1) ".toList := by decide
  ⟨⟨hset, hunpaged, hunmarked⟩,
    collection_pages hset rfl (by decide) (by decide) (by decide) hunpaged hunmarked⟩

/-- A page of one book that begins behind all counts shows the first book of the shelf. -/
theorem page_behind_counts_shelf :
    (IsUnpaged "" ∧ IsUnmarked "".toList) ∧ shelved.length ≤ countLimit * 1 ∧
      (shelf.collection "Books" (pageQuery (countLimit * 1) 1 "")).value
        = .ok (.ofSet "Books" [.mk (some "Books") [("Title", .scalar (.string "Notes"))]]) := by
  have hset : shelf.registry.set? "Books" = some ⟨book.type, { collection := some shelved }⟩ := rfl
  have hunmarked : IsUnmarked "".toList := by decide
  refine ⟨⟨by decide, hunmarked⟩, by decide, ?_⟩
  rw [Nat.mul_one, value_collection hset rfl,
    parse_pageQuery countLimit (by decide) (by decide) hunmarked, if_neg (Nat.lt_irrefl _)]
  rfl

end Service

end OData
