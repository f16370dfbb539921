/-
Which capabilities are asked, and in which order.

Answering a request asks one capability after the other.  What is asked are the calls of the request
in order, each with everything below it before the next one, which is the order of their addresses.
Since nothing is named twice among the items that are read of a query, nothing is asked for twice on
a record either.

Main definitions:

* `Call.eventsOf` — what happens when some calls are made;
* `Call.Precedes` — one call before another on a level.

Main results:

* `events_expandTerm`, `events_answerAll` — **what happens in a request are its calls in order**;
* `Call.pairwise_walk`, `Related.pairwise_calls` — calls are made in the order of their addresses;
* `Related.IsDue.unique` — an address leads to one call;
* `asked_answerAll` — **a request asks for what it needs, and for nothing twice**.
-/

import OData.Proofs.Query.Normal
import OData.Proofs.Request.Calls

set_option relaxedAutoImplicit false
set_option autoImplicit false

namespace OData

open Query

/-! ### What happens in a request -/

section

variable (registry : Registry)

/-- The events of some calls, in order. -/
def Call.eventsOf (calls : List Call) : List Event := calls.flatMap (events registry)

variable {registry}

/-- Items that are expanded one after the other make their calls one after the other. -/
theorem events_expandTerms {record : Record} {items : List ExpandItem}
    (h : ∀ item ∈ items, ∀ address fields,
      (expandTerm registry (registry.capability record.type.name) record.type.name fields
          (Term.ofItem item)).events
        = Call.eventsOf registry (Call.walk registry ⟨address, record, fields, item⟩))
    (address : List Nat) (place : Nat) (fields : FieldList) :
    (expandTerms registry (registry.capability record.type.name) record.type.name fields
        (items.map Term.ofItem)).events
      = Call.eventsOf registry ((record.ownCallsFrom registry address place fields items).flatMap
          (Call.walk registry)) := by
  induction items generalizing place fields with
  | nil => rfl
  | cons item items ih =>
      have hrest := ih fun other hother => h other (List.mem_cons_of_mem _ hother)
      rw [List.map_cons, expandTerms, Journal.events_bind, value_expandTerm, hrest (place + 1),
        h item List.mem_cons_self (address ++ [place]), Record.ownCallsFrom, List.flatMap_cons,
        Call.eventsOf, Call.eventsOf, Call.eventsOf, List.flatMap_append]

/-- If records that are expanded make their calls, the related records in a window do so one after
the other. -/
theorem eventsOf_ownCalls {options : Options}
    (h : ∀ (record : Record) (address : List Nat), (record.expanded registry options.expand).events
      = Call.eventsOf registry ((record.ownCalls registry address options.expand).flatMap
          (Call.walk registry)))
    (address : List Nat) (related : Related) :
    Call.eventsOf registry ((related.ownCalls registry address options).flatMap (Call.walk registry))
      = ((related.inWindow options).map Prod.fst).flatMap fun record =>
          (record.expanded registry options.expand).events := by
  simp only [Call.eventsOf, Related.ownCalls, List.flatMap_assoc, List.flatMap_map]
  refine congrArg (related.inWindow options).flatMap (funext fun found => ?_)
  rw [h found.1 (address ++ [found.2]), Call.eventsOf, List.flatMap_assoc]

/-- **An item makes its call and those below it.** -/
theorem events_expandTerm (item : ExpandItem) (record : Record) (address : List Nat)
    (fields : FieldList) :
    (expandTerm registry (registry.capability record.type.name) record.type.name fields
        (Term.ofItem item)).events
      = Call.eventsOf registry (Call.walk registry ⟨address, record, fields, item⟩) := by
  -- the records that a call leads to come from any set, but the items below are smaller
  induction item using Term.ofItem.induct generalizing record address fields with
  | case1 item ih =>
      have hbelow := @eventsOf_ownCalls registry item.nested fun related address =>
        events_expandTerms
          (fun nested hnested address fields => ih ⟨nested, hnested⟩ related address fields) address 0 _
      have hwalk : Call.eventsOf registry (Call.walk registry ⟨address, record, fields, item⟩)
          = Call.events registry ⟨address, record, fields, item⟩ ++ Call.eventsOf registry
              ((Call.followUps registry ⟨address, record, fields, item⟩).flatMap
                (Call.walk registry)) := by
        rw [Call.walk_eq]
        rfl
      rw [hwalk, Term.ofItem_eq, expandTerm, Call.events, Call.followUps, Call.answer]
      cases hanswer : registry.capability record.type.name fields item.name item.nestedOption with
      | none => rfl
      | some related =>
          dsimp only
          rw [hbelow address related, Journal.events_bind]
          cases related with
          | one single =>
              rw [Related.inWindow, List.map_singleton, List.flatMap_singleton, Journal.events_bind,
                Journal.events_pure, List.append_nil]
              rfl
          | many records =>
              rw [Related.inWindow, map_fst_window_zipIdx, Journal.events_bind, Journal.events_pure,
                List.append_nil, Journal.events_traverse]
              rfl

/-- What happens when a record is expanded are its own calls in order, and those below them. -/
theorem events_expanded (record : Record) (items : List ExpandItem) (address : List Nat) :
    (record.expanded registry items).events
      = Call.eventsOf registry ((record.ownCalls registry address items).flatMap
          (Call.walk registry)) :=
  events_expandTerms (fun item _ address fields => events_expandTerm item record address fields)
    address 0 _

/-- **What happens in a request are its calls in order.** -/
theorem events_answerAll (records : List Record) (options : Options) :
    (answerAll registry records options).events
      = Call.eventsOf registry ((Related.many records).calls registry options) := by
  have hanswer : ∀ record : Record, (record.answer registry options).events
      = (record.expanded registry options.expand).events := by
    intro record
    rw [Record.answer, Journal.events_bind, Journal.events_pure, List.append_nil]
  rw [Related.calls, eventsOf_ownCalls fun record => events_expanded record options.expand,
    Related.inWindow, map_fst_window_zipIdx, answerAll, Journal.events_traverse, funext hanswer]

end

/-! ### The order of calls -/

/-- Addresses of one length are in the order of places, and so is what is below them. -/
theorem append_lt_append {a b : List Nat} (hlength : a.length = b.length) (h : a < b)
    (c d : List Nat) : a ++ c < b ++ d := by
  induction a generalizing b with
  | nil =>
      obtain rfl := List.eq_nil_of_length_eq_zero hlength.symm
      exact absurd h (List.lt_irrefl [])
  | cons x a ih =>
      cases b with
      | nil => cases hlength
      | cons y b =>
          rw [List.cons_append, List.cons_append, List.cons_lt_cons_iff]
          rcases List.cons_lt_cons_iff.1 h with hlt | ⟨rfl, hlt⟩
          · exact .inl hlt
          · exact .inr ⟨rfl, ih (Nat.succ.inj hlength) hlt⟩

/-- Calls on one level come one before the other. -/
def Call.Precedes (call other : Call) : Prop :=
  call.address.length = other.address.length ∧ call.address < other.address

theorem Record.pairwise_ownCallsFrom (registry : Registry) (record : Record) (address : List Nat)
    (start : Nat) (fields : FieldList) (items : List ExpandItem) :
    (record.ownCallsFrom registry address start fields items).Pairwise Call.Precedes := by
  induction items generalizing start fields with
  | nil => exact .nil
  | cons item items ih =>
      refine List.pairwise_cons.2 ⟨fun call hcall => ?_, ih _ _⟩
      obtain ⟨n, other, -, rfl⟩ := mem_ownCallsFrom_iff.1 hcall
      refine ⟨by simp, List.append_left_lt (List.cons_lt_cons_iff.2 (.inl ?_))⟩
      omega

namespace Related

theorem pairwise_inWindow (options : Options) (related : Related) :
    (related.inWindow options).Pairwise fun found other => found.2 < other.2 := by
  cases related with
  | one single => exact List.pairwise_singleton ..
  | many records =>
      have hall : records.zipIdx.Pairwise fun found other => found.2 < other.2 := by
        rw [← List.pairwise_map (f := Prod.snd), List.zipIdx_map_snd]
        exact List.pairwise_lt_range' ..
      rw [inWindow]
      cases options.top with
      | none => exact hall.sublist (List.drop_sublist ..)
      | some limit => exact hall.sublist ((List.take_sublist ..).trans (List.drop_sublist ..))

theorem pairwise_ownCalls (registry : Registry) (address : List Nat) (options : Options)
    (related : Related) :
    (related.ownCalls registry address options).Pairwise Call.Precedes := by
  refine List.pairwise_flatMap.2 ⟨fun found _ => Record.pairwise_ownCallsFrom .., ?_⟩
  refine (related.pairwise_inWindow options).imp fun hlt call hcall other hother => ?_
  obtain ⟨n, item, -, rfl⟩ := Record.mem_ownCalls_iff.1 hcall
  obtain ⟨m, item, -, rfl⟩ := Record.mem_ownCalls_iff.1 hother
  refine ⟨by simp, ?_⟩
  rw [List.append_assoc, List.append_assoc]
  exact List.append_left_lt (List.cons_lt_cons_iff.2 (.inl hlt))

end Related

namespace Call

variable {registry : Registry}

theorem prefix_of_mem_followUps {call next : Call} (h : next ∈ call.followUps registry) :
    ∃ k n, next.address = call.address ++ [k, n] := by
  obtain ⟨_, k, n, _, _, -, -, -, rfl⟩ := mem_followUps_iff.1 h
  exact ⟨k, n, rfl⟩

/-- What is below a call has its address as a prefix. -/
theorem prefix_of_mem_walk {call other : Call} (h : other ∈ call.walk registry) :
    call.address <+: other.address := by
  induction call using walk_induction registry with
  | step call ih =>
      rcases mem_walk_iff.1 h with rfl | ⟨next, hnext, hother⟩
      · exact List.prefix_refl _
      · obtain ⟨k, n, hprefix⟩ := prefix_of_mem_followUps hnext
        exact List.IsPrefix.trans ⟨[k, n], hprefix.symm⟩ (ih next hnext hother)

/-- Calls on one level, each with what is below it, are in the order of addresses. -/
theorem pairwise_flatMap_walk {calls : List Call} (h : calls.Pairwise Precedes)
    (hwalk : ∀ call ∈ calls, (call.walk registry).Pairwise fun a b => a.address < b.address) :
    (calls.flatMap (walk registry)).Pairwise fun a b => a.address < b.address := by
  refine List.pairwise_flatMap.2 ⟨hwalk, h.imp fun hlt a ha b hb => ?_⟩
  obtain ⟨c, hc⟩ := prefix_of_mem_walk ha
  obtain ⟨d, hd⟩ := prefix_of_mem_walk hb
  rw [← hc, ← hd]
  exact append_lt_append hlt.1 hlt.2 c d

theorem pairwise_followUps (call : Call) : (call.followUps registry).Pairwise Precedes := by
  rw [followUps]
  cases call.answer registry with
  | none => exact .nil
  | some related => exact related.pairwise_ownCalls ..

/-- A call comes before everything below it, and that is in the order of addresses. -/
theorem pairwise_walk (call : Call) :
    (call.walk registry).Pairwise fun a b => a.address < b.address := by
  induction call using walk_induction registry with
  | step call ih =>
      rw [walk_eq]
      refine List.pairwise_cons.2 ⟨fun other hother => ?_,
        pairwise_flatMap_walk call.pairwise_followUps ih⟩
      obtain ⟨next, hnext, hother⟩ := List.mem_flatMap.1 hother
      obtain ⟨k, n, hnext⟩ := prefix_of_mem_followUps hnext
      obtain ⟨c, hc⟩ := prefix_of_mem_walk hother
      have hlt : call.address ++ [] < call.address ++ k :: n :: c :=
        List.append_left_lt (List.nil_lt_cons ..)
      rw [← hc, hnext, List.append_assoc]
      rwa [List.append_nil] at hlt

end Call

namespace Related

variable {registry : Registry} {options : Options} {related : Related}

/-- Calls are made in the order of their addresses. -/
theorem pairwise_calls :
    (related.calls registry options).Pairwise fun a b => a.address < b.address :=
  Call.pairwise_flatMap_walk (related.pairwise_ownCalls ..) fun call _ => call.pairwise_walk

/-! ### Nothing twice -/

theorem dropLast_append_pair {α : Type} (items : List α) (a b : α) :
    (items ++ [a, b]).dropLast = items ++ [a] := by
  rw [List.dropLast_append_of_ne_nil (by simp)]
  rfl

/-- Items that are named once each are told by their names. -/
theorem place_eq_of_name_eq {items : List ExpandItem} (h : (items.map (·.name)).Nodup) {n m : Nat}
    {item other : ExpandItem} (hitem : items[n]? = some item) (hother : items[m]? = some other)
    (hname : item.name = other.name) : n = m := by
  obtain ⟨hn, -⟩ := List.getElem?_eq_some_iff.1 hitem
  refine (List.getElem?_inj (by simpa using hn) h).1 ?_
  rw [List.getElem?_map, List.getElem?_map, hitem, hother, Option.map_some, Option.map_some, hname]

theorem ShownAt.unique {place : Nat} {record other : Record}
    (h : related.ShownAt options place record) (hother : related.ShownAt options place other) :
    record = other := by
  cases related with
  | one single => exact h.2.trans hother.2.symm
  | many records => exact Option.some.inj (h.1.symm.trans hother.1)

theorem IsDue.address_ne_nil {call : Call} (h : related.IsDue registry options call) :
    call.address ≠ [] := by
  cases h with
  | here => simp
  | inside => simp

/-- An address leads to one call. -/
theorem IsDue.unique {call other : Call} (h : related.IsDue registry options call)
    (hother : related.IsDue registry options other) (haddress : call.address = other.address) :
    call = other := by
  induction h generalizing other with
  | @here k n record item hshown hitem =>
      cases hother with
      | @here l m _ _ hshown' hitem' =>
          obtain ⟨rfl, rfl⟩ : k = l ∧ n = m := by simpa using haddress
          obtain rfl := hshown.unique hshown'
          obtain rfl := Option.some.inj (hitem.symm.trans hitem')
          rfl
      | @inside call' _ l m _ _ hdue' =>
          have haddress : [] ++ [k, n] = call'.address ++ [l, m] := haddress
          exact absurd (List.append_inj_left' haddress rfl).symm hdue'.address_ne_nil
  | @inside call found k n record item hdue hfound hshown hitem ih =>
      cases hother with
      | @here l m =>
          have haddress : call.address ++ [k, n] = [] ++ [l, m] := haddress
          exact absurd (List.append_inj_left' haddress rfl) hdue.address_ne_nil
      | @inside call' found' l m record' item' hdue' hfound' hshown' hitem' =>
          obtain ⟨hcall, hplaces⟩ := List.append_inj' haddress rfl
          obtain ⟨rfl, rfl⟩ : k = l ∧ n = m := by simpa using hplaces
          obtain rfl := ih hdue' hcall
          obtain rfl := Option.some.inj (hfound.symm.trans hfound')
          obtain rfl := hshown.unique hshown'
          obtain rfl := Option.some.inj (hitem.symm.trans hitem')
          rfl

/-- No item is asked for twice on a record, if no relationship is named twice among the items. -/
theorem IsDue.eq_of_name_eq (hnames : (options.expand.map (·.name)).Nodup) {call other : Call}
    (h : related.IsDue registry options call) (hother : related.IsDue registry options other)
    (hplace : call.place = other.place) (hname : call.item.name = other.item.name) :
    call = other := by
  refine h.unique hother ?_
  cases h with
  | @here k n record item hshown hitem =>
      cases hother with
      | @here l m _ _ hshown' hitem' =>
          obtain rfl : k = l := by simpa [Call.place] using hplace
          rw [place_eq_of_name_eq hnames hitem hitem' hname]
      | @inside call' _ l _ _ _ hdue' =>
          have hplace : [] ++ [k] = call'.address ++ [l] := hplace.trans (dropLast_append_pair ..)
          exact absurd (List.append_inj_left' hplace rfl).symm hdue'.address_ne_nil
  | @inside call found k n record item hdue hfound hshown hitem =>
      have hplace := (dropLast_append_pair call.address k n).symm.trans hplace
      cases hother with
      | @here l m =>
          have hplace : call.address ++ [k] = [] ++ [l] := hplace
          exact absurd (List.append_inj_left' hplace rfl) hdue.address_ne_nil
      | @inside call' found' l m _ _ hdue' hfound' hshown' hitem' =>
          -- both are below the same call, and no relationship is named twice inside parentheses
          obtain ⟨hcall, hlast⟩ := List.append_inj' (hplace.trans (dropLast_append_pair ..)) rfl
          obtain rfl : k = l := by simpa using hlast
          obtain rfl := hdue.unique hdue' hcall
          rw [place_eq_of_name_eq (nodup_name_readTerms _) hitem hitem' hname]

/-- No relationship is asked for twice on a record, if none is named twice. -/
theorem nodup_calls (hnames : (options.expand.map (·.name)).Nodup) :
    ((related.calls registry options).map fun call => (call.place, call.item.name)).Nodup := by
  refine List.pairwise_map.2 (pairwise_calls.imp_of_mem fun ha hb hlt heq => ?_)
  obtain ⟨hplace, hname⟩ := Prod.mk.inj heq
  obtain rfl := (mem_calls_iff.1 ha).eq_of_name_eq hnames (mem_calls_iff.1 hb) hplace hname
  exact List.lt_irrefl _ hlt

end Related

/-! ### Questions -/

/-- Whether an event is the asking of a capability. -/
def Event.isAsked : Event → Bool
  | .asked .. => true
  | _ => false

theorem filter_isAsked_eventsOf (registry : Registry) (calls : List Call) :
    (Call.eventsOf registry calls).filter Event.isAsked = calls.map Call.event := by
  induction calls with
  | nil => rfl
  | cons call calls ih =>
      have hcall : (call.events registry).filter Event.isAsked = [call.event] := by
        rw [Call.events]
        split <;> rfl
      rw [Call.eventsOf, List.flatMap_cons, List.filter_append, hcall]
      exact congrArg (call.event :: ·) ih

/-- **A request asks for what it needs, and for nothing twice.**  What happens are the calls of the
request in their order, call after call on the records in the window, each with everything below it,
and the capabilities are asked just so.  These are exactly the calls that are due, they are made in
the order of their addresses, and no relationship is asked for twice on a record. -/
theorem asked_answerAll (registry : Registry) (records : List Record) (raw : String) :
    let options := Options.parse raw
    let calls := (Related.many records).calls registry options
    (answerAll registry records options).events = Call.eventsOf registry calls ∧
      (answerAll registry records options).events.filter Event.isAsked = calls.map Call.event ∧
      (∀ call, call ∈ calls ↔ (Related.many records).IsDue registry options call) ∧
      (calls.Pairwise fun call later => call.address < later.address) ∧
      (calls.map fun call => (call.place, call.item.name)).Nodup := by
  intro options calls
  have hnames : (options.expand.map (·.name)).Nodup := (Options.isNormal_parse raw).distinct
  have hevents : (answerAll registry records options).events = Call.eventsOf registry calls :=
    events_answerAll records options
  refine ⟨hevents, ?_, fun call => Related.mem_calls_iff, Related.pairwise_calls,
    Related.nodup_calls hnames⟩
  rw [hevents, filter_isAsked_eventsOf]

end OData
