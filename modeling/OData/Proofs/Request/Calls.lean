/-
The calls of a request.

Paging, expanding and recursion go hand in hand when a request is answered, and a capability may be
slow, or cost something.  So it matters which calls a request makes: one for each item on each record
that is shown, on the field list that the items before have left, and below it those for the records
that it leads to, as far as they lie in the window of the item.  A call has an address, which leads
from the request down to it through the places of records and items.

Main definitions:

* `Call` — a relationship that is asked for on a record;
* `Related.ownCalls`, `Call.followUps` — the calls on some records themselves, and those on what a
  call leads to;
* `Call.walk`, `Related.calls` — a call with everything below it, and all calls of a request;
* `Related.IsDue` — the calls that have to be made, told by the places of records and items.

Main results:

* `mem_window_zipIdx_iff` — what a window shows, told by places;
* `Call.mem_followUps_iff`, `Call.mem_walk_iff` — what is one level below a call, and all below it;
* `Related.mem_calls_iff` — **the calls of a request are those that are due**.
-/

import OData.Proofs.Request.Expansion

set_option relaxedAutoImplicit false
set_option autoImplicit false

namespace OData

open Query

/-! ### Windows by place -/

/-- Whether a place lies in the window of some options. -/
def Query.Options.Shows (options : Options) (place : Nat) : Prop :=
  options.skip ≤ place ∧ ∀ limit ∈ options.top, place < options.skip + limit

theorem map_fst_window_zipIdx {α : Type} (items : List α) (skip : Nat) (top : Option Nat) :
    (window items.zipIdx skip top).map Prod.fst = window items skip top := by
  cases top with
  | none => rw [window_none, window_none, List.map_drop, List.zipIdx_map_fst]
  | some limit =>
      rw [window_some, window_some, List.map_take, List.map_drop, List.zipIdx_map_fst]

/-- A window shows what stands at the places in it. -/
theorem mem_window_zipIdx_iff {α : Type} {items : List α} {options : Options} {a : α} {place : Nat} :
    (a, place) ∈ window items.zipIdx options.skip options.top ↔
      items[place]? = some a ∧ options.Shows place := by
  have hget : ∀ n, (items.zipIdx.drop options.skip)[n]? = some (a, place) ↔
      items[place]? = some a ∧ options.skip + n = place := by
    intro n
    rw [List.getElem?_drop, List.getElem?_zipIdx, Option.map_eq_some_iff]
    constructor
    · rintro ⟨b, hb, heq⟩
      obtain ⟨rfl, hplace⟩ := Prod.mk.inj heq
      have hplace : options.skip + n = place := by omega
      exact ⟨hplace ▸ hb, hplace⟩
    · rintro ⟨hb, rfl⟩
      exact ⟨a, hb, by simp⟩
  rw [List.mem_iff_getElem?, Options.Shows]
  cases htop : options.top with
  | none =>
      constructor
      · rintro ⟨n, hn⟩
        obtain ⟨hitem, rfl⟩ := (hget n).1 hn
        exact ⟨hitem, by omega, by simp⟩
      · rintro ⟨hitem, hskip, -⟩
        exact ⟨place - options.skip, (hget _).2 ⟨hitem, by omega⟩⟩
  | some limit =>
      rw [window_some]
      constructor
      · rintro ⟨n, hn⟩
        have hlt : n < limit := by
          by_contra hle
          rw [List.getElem?_take_eq_none (by omega)] at hn
          cases hn
        rw [List.getElem?_take_of_lt hlt] at hn
        obtain ⟨hitem, rfl⟩ := (hget n).1 hn
        refine ⟨hitem, by omega, fun other hother => ?_⟩
        obtain rfl := Option.some.inj hother
        omega
      · rintro ⟨hitem, hskip, hlimit⟩
        have hlt := hlimit limit rfl
        refine ⟨place - options.skip, ?_⟩
        rw [List.getElem?_take_of_lt (by omega)]
        exact (hget _).2 ⟨hitem, by omega⟩

/-! ### Calls -/

/-- A relationship that is asked for on a record. -/
structure Call where
  /-- The way down to the call: the place of a record among those it was found with, the place of an
  item among those that are expanded on it, and so on. -/
  address : List Nat
  record : Record
  /-- The field list of the record, as the items before have left it. -/
  fields : FieldList
  item : ExpandItem

namespace Call

/-- The way down to the record. -/
def place (call : Call) : List Nat := call.address.dropLast

/-- What the capability of the record's own set answers. -/
def answer (registry : Registry) (call : Call) : Option Related :=
  registry.capability call.record.type.name call.fields call.item.name call.item.nestedOption

/-- The event of asking. -/
def event (call : Call) : Event :=
  .asked call.record.type.name call.item.name call.item.nestedOption

/-- The event of asking, and that of not getting an answer. -/
def events (registry : Registry) (call : Call) : List Event :=
  call.event ::
    if (call.answer registry).isSome then []
    else [.unresolved call.item.name call.fields.entitySet]

end Call

/-- The field list of a record after the first of some items. -/
def Record.fieldsAfter (registry : Registry) (record : Record) (items : List ExpandItem)
    (count : Nat) : FieldList :=
  (items.take count).foldl (FieldList.expandItem registry (registry.capability record.type.name))
    (record.introspect (items.map (·.name)))

/-- The calls on a record itself, from an item at some place on. -/
def Record.ownCallsFrom (registry : Registry) (record : Record) (address : List Nat) :
    Nat → FieldList → List ExpandItem → List Call
  | _, _, [] => []
  | place, fields, item :: items =>
    ⟨address ++ [place], record, fields, item⟩ ::
      record.ownCallsFrom registry address (place + 1)
        (fields.expandItem registry (registry.capability record.type.name) item) items

/-- The calls on a record itself: one for each item, in order. -/
def Record.ownCalls (registry : Registry) (record : Record) (address : List Nat)
    (items : List ExpandItem) : List Call :=
  record.ownCallsFrom registry address 0 (record.introspect (items.map (·.name))) items

namespace Related

/-- The related records in the window of some options, with their places.  A single record is always
in it. -/
def inWindow (options : Options) : Related → List (Record × Nat)
  | one record => [(record, 0)]
  | many records => window records.zipIdx options.skip options.top

/-- The calls on the related records themselves. -/
def ownCalls (registry : Registry) (address : List Nat) (options : Options) (related : Related) :
    List Call :=
  (related.inWindow options).flatMap fun found =>
    found.1.ownCalls registry (address ++ [found.2]) options.expand

end Related

theorem Record.mem_ownCallsFrom_iff {registry : Registry} {record : Record} {address : List Nat}
    {start : Nat} {fields : FieldList} {items : List ExpandItem} {call : Call} :
    call ∈ record.ownCallsFrom registry address start fields items ↔
      ∃ n item, items[n]? = some item ∧
        call = ⟨address ++ [start + n], record,
          (items.take n).foldl
            (FieldList.expandItem registry (registry.capability record.type.name)) fields, item⟩ := by
  induction items generalizing start fields with
  | nil => simp [ownCallsFrom]
  | cons first items ih =>
      rw [ownCallsFrom, List.mem_cons, ih]
      constructor
      · rintro (rfl | ⟨n, item, hitem, rfl⟩)
        · exact ⟨0, first, rfl, rfl⟩
        · have hplace : start + 1 + n = start + (n + 1) := by omega
          exact ⟨n + 1, item, hitem, by rw [hplace]; rfl⟩
      · rintro ⟨n, item, hitem, rfl⟩
        cases n with
        | zero =>
            obtain rfl := Option.some.inj hitem
            exact .inl rfl
        | succ n =>
            have hplace : start + (n + 1) = start + 1 + n := by omega
            exact .inr ⟨n, item, hitem, by rw [hplace]; rfl⟩

theorem Record.mem_ownCalls_iff {registry : Registry} {record : Record} {address : List Nat}
    {items : List ExpandItem} {call : Call} :
    call ∈ record.ownCalls registry address items ↔
      ∃ n item, items[n]? = some item ∧
        call = ⟨address ++ [n], record, record.fieldsAfter registry items n, item⟩ := by
  rw [ownCalls, mem_ownCallsFrom_iff]
  simp only [Nat.zero_add, fieldsAfter]

/-- The related record that is shown at some place; a single record is at the first. -/
def Related.ShownAt (options : Options) (place : Nat) (record : Record) : Related → Prop
  | .one single => place = 0 ∧ record = single
  | .many records => records[place]? = some record ∧ options.Shows place

theorem Related.mem_inWindow_iff {options : Options} {related : Related} {record : Record}
    {place : Nat} :
    (record, place) ∈ related.inWindow options ↔ related.ShownAt options place record := by
  cases related with
  | one single => simp [inWindow, ShownAt, and_comm]
  | many records => exact mem_window_zipIdx_iff

theorem Related.mem_ownCalls_iff {registry : Registry} {address : List Nat} {options : Options}
    {related : Related} {call : Call} :
    call ∈ related.ownCalls registry address options ↔
      ∃ k n record item, related.ShownAt options k record ∧ options.expand[n]? = some item ∧
        call = ⟨address ++ [k, n], record, record.fieldsAfter registry options.expand n, item⟩ := by
  simp only [ownCalls, List.mem_flatMap, Record.mem_ownCalls_iff, List.append_assoc]
  constructor
  · rintro ⟨⟨record, k⟩, hfound, n, item, hitem, rfl⟩
    exact ⟨k, n, record, item, mem_inWindow_iff.1 hfound, hitem, rfl⟩
  · rintro ⟨k, n, record, item, hfound, hitem, rfl⟩
    exact ⟨(record, k), mem_inWindow_iff.2 hfound, n, item, hitem, rfl⟩

/-! ### A call and what is below it -/

namespace Call

variable (registry : Registry)

/-- The calls on what a call leads to. -/
def followUps (call : Call) : List Call :=
  match call.answer registry with
  | none => []
  | some related => related.ownCalls registry call.address call.item.nested

variable {registry}

theorem mem_followUps_iff {call next : Call} :
    next ∈ call.followUps registry ↔
      ∃ related k n record item, call.answer registry = some related ∧
        related.ShownAt call.item.nested k record ∧ call.item.nested.expand[n]? = some item ∧
          next = ⟨call.address ++ [k, n], record,
            record.fieldsAfter registry call.item.nested.expand n, item⟩ := by
  rw [followUps]
  cases call.answer registry with
  | none => simp
  | some related => simp [Related.mem_ownCalls_iff]

theorem length_subQuery_lt_of_mem_followUps {call next : Call}
    (h : next ∈ call.followUps registry) :
    next.item.subQuery.length < call.item.subQuery.length := by
  obtain ⟨related, k, n, record, item, -, -, hitem, rfl⟩ := mem_followUps_iff.1 h
  exact length_subQuery_lt_of_mem_parseNested (List.mem_of_getElem? hitem)

variable (registry)

/-- A call, and everything below it: call after call, each with what is below it. -/
def walk (call : Call) : List Call :=
  call :: (call.followUps registry).attach.flatMap fun next => walk next.1
termination_by call.item.subQuery.length
decreasing_by exact length_subQuery_lt_of_mem_followUps next.2

theorem walk_eq (call : Call) :
    call.walk registry = call :: (call.followUps registry).flatMap (walk registry) := by
  rw [walk]
  refine congrArg (call :: ·) ?_
  conv_rhs => rw [← List.attach_map_subtype_val (call.followUps registry), List.flatMap_map]

/-- Induction on the calls below a call. -/
@[elab_as_elim]
theorem walk_induction {motive : Call → Prop}
    (step : ∀ call, (∀ next ∈ call.followUps registry, motive next) → motive call) (call : Call) :
    motive call := by
  induction call using walk.induct registry with
  | case1 call ih => exact step call fun next hnext => ih ⟨next, hnext⟩

variable {registry}

theorem mem_walk_iff {call other : Call} :
    other ∈ call.walk registry ↔
      other = call ∨ ∃ next ∈ call.followUps registry, other ∈ next.walk registry := by
  rw [walk_eq, List.mem_cons, List.mem_flatMap]

/-- What a call below leads to is below as well. -/
theorem mem_walk_of_mem_followUps {call other next : Call} (h : other ∈ call.walk registry)
    (hnext : next ∈ other.followUps registry) : next ∈ call.walk registry := by
  induction call using walk_induction registry with
  | step call ih =>
      rcases mem_walk_iff.1 h with rfl | ⟨first, hfirst, hother⟩
      · exact mem_walk_iff.2 (.inr ⟨next, hnext, mem_walk_iff.2 (.inl rfl)⟩)
      · exact mem_walk_iff.2 (.inr ⟨first, hfirst, ih first hfirst hother⟩)

end Call

namespace Related

variable (registry : Registry)

/-- All calls of a request for some records. -/
def calls (options : Options) (related : Related) : List Call :=
  (related.ownCalls registry [] options).flatMap (Call.walk registry)

/-- The calls that have to be made: for each item on each record that is shown, and for each item in
the parentheses of an item on each record that it leads to and that its window shows. -/
inductive IsDue (options : Options) (related : Related) : Call → Prop where
  | here {k n : Nat} {record : Record} {item : ExpandItem} :
      related.ShownAt options k record → options.expand[n]? = some item →
        IsDue options related
          ⟨[k, n], record, record.fieldsAfter registry options.expand n, item⟩
  | inside {call : Call} {found : Related} {k n : Nat} {record : Record} {item : ExpandItem} :
      IsDue options related call → call.answer registry = some found →
        found.ShownAt call.item.nested k record → call.item.nested.expand[n]? = some item →
          IsDue options related ⟨call.address ++ [k, n], record,
            record.fieldsAfter registry call.item.nested.expand n, item⟩

variable {registry}

/-- The calls of a request are those that are due. -/
theorem mem_calls_iff {options : Options} {related : Related} {call : Call} :
    call ∈ related.calls registry options ↔ related.IsDue registry options call := by
  rw [calls, List.mem_flatMap]
  constructor
  · rintro ⟨root, hroot, hcall⟩
    have hdue : related.IsDue registry options root := by
      obtain ⟨k, n, record, item, hshown, hitem, rfl⟩ := mem_ownCalls_iff.1 hroot
      exact .here hshown hitem
    clear hroot
    induction root using Call.walk_induction registry with
    | step root ih =>
        rcases Call.mem_walk_iff.1 hcall with rfl | ⟨next, hnext, hbelow⟩
        · exact hdue
        · refine ih next hnext hbelow ?_
          obtain ⟨found, k, n, record, item, hfound, hshown, hitem, rfl⟩ :=
            Call.mem_followUps_iff.1 hnext
          exact .inside hdue hfound hshown hitem
  · intro hdue
    induction hdue with
    | here hshown hitem =>
        exact ⟨_, mem_ownCalls_iff.2 ⟨_, _, _, _, hshown, hitem, rfl⟩,
          Call.mem_walk_iff.2 (.inl rfl)⟩
    | inside _ hfound hshown hitem ih =>
        obtain ⟨root, hroot, hcall⟩ := ih
        refine ⟨root, hroot, Call.mem_walk_of_mem_followUps hcall ?_⟩
        exact Call.mem_followUps_iff.2 ⟨_, _, _, _, _, hfound, hshown, hitem, rfl⟩

end Related

end OData
