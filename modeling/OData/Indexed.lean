/-
Items in a row, found by name.

An entity set is registered under a name and listed where its name first came.  `Indexed` holds the
items of a row together with an index of their places: an item of a known name replaces the one at
its place, and an item of a new name comes last.  The index tells a place for a name exactly if the
item at that place has the name.  This is part of the type, so that no run of operations leads a name
to the item of another.

* `Indexed.get?`, `Indexed.contains` — looking up a name through the index;
* `Indexed.put` — an item under its own name;
* `Indexed.toOrdered` — the same items as named entries;
* `Indexed.get?_eq`, `Indexed.toOrdered_put` — both views of the items agree.
-/

import OData.Ordered

set_option relaxedAutoImplicit false
set_option autoImplicit false

namespace OData

universe u

/-- Items in a row, with the place of each name. -/
structure Indexed {α : Type u} (nameOf : α → String) where
  /-- The items in the order in which their names came. -/
  items : List α
  /-- The place of each name. -/
  index : Ordered Nat
  /-- A place is told for a name exactly if the item there has the name. -/
  inStep : ∀ name place,
    Ordered.get? name index = some place ↔ items[place]?.map nameOf = some name

namespace Indexed

variable {α : Type u} {nameOf : α → String}

/-- No items. -/
def empty : Indexed nameOf := ⟨[], [], by simp⟩

/-- Whether a name has an item. -/
def contains (indexed : Indexed nameOf) (name : String) : Bool :=
  Ordered.contains indexed.index name

/-- The item of a name, at the place that the index tells. -/
def get? (indexed : Indexed nameOf) (name : String) : Option α :=
  (Ordered.get? name indexed.index).bind fun place => indexed.items[place]?

/-- The items as named entries. -/
def toOrdered (indexed : Indexed nameOf) : Ordered α :=
  indexed.items.map fun item => (nameOf item, item)

/-! ### Putting items -/

theorem inStep_set (indexed : Indexed nameOf) {item : α} {place : Nat}
    (h : Ordered.get? (nameOf item) indexed.index = some place) (name : String) (other : Nat) :
    Ordered.get? name indexed.index = some other ↔
      (indexed.items.set place item)[other]?.map nameOf = some name := by
  -- the item that is replaced has the same name
  have hname : indexed.items[place]?.map nameOf = some (nameOf item) := (indexed.inStep _ _).1 h
  rw [indexed.inStep, List.getElem?_set]
  split
  · rename_i heq
    subst heq
    have hlt : place < indexed.items.length := by
      obtain ⟨old, hold, -⟩ := Option.map_eq_some_iff.1 hname
      exact (List.getElem?_eq_some_iff.1 hold).1
    rw [hname, if_pos hlt, Option.map_some]
  · rfl

theorem inStep_concat (indexed : Indexed nameOf) {item : α}
    (h : Ordered.get? (nameOf item) indexed.index = none) (name : String) (place : Nat) :
    Ordered.get? name (indexed.index.insert (nameOf item) indexed.items.length) = some place ↔
      (indexed.items ++ [item])[place]?.map nameOf = some name := by
  rw [Ordered.get?_insert]
  rcases Nat.lt_trichotomy place indexed.items.length with hlt | rfl | hgt
  · -- the name of the item is not found at any place before
    rw [List.getElem?_append_left hlt, ← indexed.inStep]
    split
    · rename_i hname
      rw [hname, h]
      simp [Nat.ne_of_gt hlt]
    · rfl
  · rw [List.getElem?_concat_length, Option.map_some]
    split
    · rename_i hname
      simp [hname]
    · rename_i hname
      rw [indexed.inStep, List.getElem?_eq_none (Nat.le_refl _)]
      simp [Ne.symm hname]
  · have hnone : (indexed.items ++ [item])[place]? = none :=
      List.getElem?_eq_none (by simpa using Nat.succ_le_of_lt hgt)
    rw [hnone]
    split
    · simp [Nat.ne_of_lt hgt]
    · rw [indexed.inStep, List.getElem?_eq_none (Nat.le_of_lt hgt)]

/-- Puts an item in the place of its name, or at the end if the name is new. -/
def put (indexed : Indexed nameOf) (item : α) : Indexed nameOf :=
  match h : Ordered.get? (nameOf item) indexed.index with
  | some place => ⟨indexed.items.set place item, indexed.index, indexed.inStep_set h⟩
  | none => ⟨indexed.items ++ [item],
      indexed.index.insert (nameOf item) indexed.items.length, indexed.inStep_concat h⟩

/-! ### Both views -/

@[simp] theorem toOrdered_empty : (empty : Indexed nameOf).toOrdered = [] := rfl

theorem keys_toOrdered (indexed : Indexed nameOf) :
    indexed.toOrdered.keys = indexed.items.map nameOf := by
  rw [toOrdered, Ordered.keys, List.map_map]
  rfl

/-- No name has two items: the index would tell two places for it. -/
theorem distinct_toOrdered (indexed : Indexed nameOf) : indexed.toOrdered.Distinct := by
  rw [Ordered.Distinct, keys_toOrdered, List.Nodup, List.pairwise_iff_getElem]
  intro i j hi hj hlt heq
  rw [List.length_map] at hi hj
  rw [List.getElem_map, List.getElem_map] at heq
  have hfirst := (indexed.inStep (nameOf indexed.items[i]) i).2 (by simp [hi])
  have hsecond := (indexed.inStep (nameOf indexed.items[i]) j).2 (by simp [hj, heq])
  exact Nat.ne_of_lt hlt (Option.some.inj (hfirst.symm.trans hsecond))

theorem mem_keys_toOrdered_iff {indexed : Indexed nameOf} {name : String} :
    name ∈ indexed.toOrdered.keys ↔ ∃ place, Ordered.get? name indexed.index = some place := by
  simp only [keys_toOrdered, List.mem_iff_getElem?, List.getElem?_map, indexed.inStep]

/-- A name leads to its own item. -/
theorem get?_eq (indexed : Indexed nameOf) (name : String) :
    indexed.get? name = Ordered.get? name indexed.toOrdered := by
  cases hplace : Ordered.get? name indexed.index with
  | none =>
      have hnone : name ∉ indexed.toOrdered.keys := by
        rw [mem_keys_toOrdered_iff, hplace]
        simp
      rw [get?, hplace, Option.bind_none, Ordered.get?_eq_none_iff.2 hnone]
  | some place =>
      obtain ⟨item, hitem, rfl⟩ := Option.map_eq_some_iff.1 ((indexed.inStep _ _).1 hplace)
      rw [get?, hplace, Option.bind_some, hitem]
      exact (Ordered.get?_of_mem indexed.distinct_toOrdered
        (List.mem_map_of_mem (List.mem_of_getElem? hitem))).symm

theorem get?_of_mem (indexed : Indexed nameOf) {item : α} (h : item ∈ indexed.items) :
    indexed.get? (nameOf item) = some item := by
  rw [get?_eq]
  exact Ordered.get?_of_mem indexed.distinct_toOrdered (List.mem_map_of_mem h)

theorem contains_eq (indexed : Indexed nameOf) (name : String) :
    indexed.contains name = indexed.toOrdered.contains name := by
  rw [Bool.eq_iff_iff, Ordered.contains_iff, mem_keys_toOrdered_iff, contains, Ordered.contains,
    Option.isSome_iff_exists]

/-- An item that replaces the one of its name is inserted where that stands. -/
theorem map_set_eq_insert {items : List α} (hd : (items.map nameOf).Nodup) {item : α} {place : Nat}
    (h : items[place]?.map nameOf = some (nameOf item)) :
    (items.set place item).map (fun a => (nameOf a, a))
      = Ordered.insert (nameOf item) item (items.map fun a => (nameOf a, a)) := by
  induction items generalizing place with
  | nil => simp at h
  | cons first items ih =>
      rw [List.map_cons, List.nodup_cons] at hd
      cases place with
      | zero =>
          have hname : nameOf first = nameOf item := by simpa using h
          simp [Ordered.insert, hname]
      | succ place =>
          rw [List.getElem?_cons_succ] at h
          have hname : nameOf first ≠ nameOf item := by
            obtain ⟨old, hold, hsame⟩ := Option.map_eq_some_iff.1 h
            rw [← hsame]
            exact fun heq => hd.1 (heq ▸ List.mem_map_of_mem (List.mem_of_getElem? hold))
          simp [Ordered.insert, hname, ih hd.2 h]

/-- **Putting an item is inserting its entry**, whether its name is known or new. -/
theorem toOrdered_put (indexed : Indexed nameOf) (item : α) :
    (indexed.put item).toOrdered = indexed.toOrdered.insert (nameOf item) item := by
  rw [put]
  split
  · rename_i place hplace
    have hd : (indexed.items.map nameOf).Nodup := indexed.keys_toOrdered ▸ indexed.distinct_toOrdered
    exact map_set_eq_insert hd ((indexed.inStep _ _).1 hplace)
  · rename_i hplace
    have hnew : nameOf item ∉ indexed.toOrdered.keys := by
      rw [mem_keys_toOrdered_iff, hplace]
      simp
    rw [Ordered.insert_of_not_mem hnew, toOrdered, List.map_append]
    rfl

end Indexed

end OData
