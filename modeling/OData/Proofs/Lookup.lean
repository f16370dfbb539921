/-
Items that are found by a name of theirs.

Clauses are found by their options, fields and relationships by their names.  As long as no two
items share a name, what is found is the item of that name, wherever it stands.

* `find?_eq_some_iff` — the item of a name is found;
* `find?_eq_some_of_first` — the first item of some kind is found;
* `find?_eq_of_perm` — the order of the items does not matter;
* `find?_append_cons` — nothing is found behind another item of its kind;
* `map_eq_map_cases` — what is found in two places looks alike.
-/

set_option relaxedAutoImplicit false
set_option autoImplicit false

namespace OData

variable {α κ : Type} [DecidableEq κ] (name : α → κ)

/-- The item of a name is found if no other has that name. -/
theorem find?_eq_some_iff {items : List α} (h : (items.map name).Nodup) {k : κ} {item : α} :
    (items.find? fun a => name a = k) = some item ↔ item ∈ items ∧ name item = k := by
  induction items with
  | nil => simp
  | cons a items ih =>
      rw [List.map_cons, List.nodup_cons] at h
      rw [List.find?_cons]
      by_cases ha : name a = k
      · have hother : ∀ b ∈ items, name b ≠ k := by
          rintro b hb rfl
          exact h.1 (ha ▸ List.mem_map_of_mem hb)
        simp only [ha, decide_true, Option.some.injEq, List.mem_cons]
        constructor
        · rintro rfl
          exact ⟨.inl rfl, ha⟩
        · rintro ⟨rfl | hmem, hname⟩
          · rfl
          · exact absurd hname (hother _ hmem)
      · simp only [ha, decide_false, ih h.2, List.mem_cons]
        constructor
        · exact fun ⟨hmem, hname⟩ => ⟨.inr hmem, hname⟩
        · rintro ⟨rfl | hmem, hname⟩
          · exact absurd hname ha
          · exact ⟨hmem, hname⟩

/-- What stands at a place is found if nothing before it is. -/
theorem find?_eq_some_of_first {items : List α} {p : α → Bool} {place : Nat} {item : α}
    (hplace : items[place]? = some item) (hitem : p item = true)
    (hfirst : ∀ earlier ∈ items.take place, p earlier = false) : items.find? p = some item := by
  obtain ⟨hlt, hget⟩ := List.getElem?_eq_some_iff.1 hplace
  refine List.find?_eq_some_iff_getElem.2 ⟨hitem, place, hlt, hget, fun earlier hearlier => ?_⟩
  have hmem : items[earlier] ∈ items.take place :=
    List.mem_take_iff_getElem.2 ⟨earlier, by omega, rfl⟩
  simpa using hfirst _ hmem

theorem find?_eq_some_of_mem {items : List α} (h : (items.map name).Nodup) {item : α}
    (hitem : item ∈ items) : (items.find? fun a => name a = name item) = some item :=
  (find?_eq_some_iff name h).2 ⟨hitem, rfl⟩

theorem find?_eq_of_perm {items items' : List α} (hperm : items.Perm items')
    (h : (items'.map name).Nodup) (k : κ) :
    (items.find? fun a => name a = k) = items'.find? fun a => name a = k := by
  have h' : (items.map name).Nodup := (hperm.map _).nodup_iff.2 h
  refine Option.ext fun item => ?_
  rw [find?_eq_some_iff name h, find?_eq_some_iff name h', hperm.mem_iff]

theorem find?_eq_none_of_notMem {items : List α} {k : κ} (h : k ∉ items.map name) :
    (items.find? fun a => name a = k) = none := by
  rw [List.find?_eq_none]
  intro a ha hname
  exact h (of_decide_eq_true hname ▸ List.mem_map_of_mem ha)

/-- What stands behind another item of its kind is never found. -/
theorem find?_append_cons {p : α → Bool} {before : List α} {item : α}
    (h : p item = true → ∃ first ∈ before, p first = true) (after : List α) :
    (before ++ item :: after).find? p = (before ++ after).find? p := by
  rw [List.find?_append, List.find?_append]
  cases hitem : p item with
  | false => rw [List.find?_cons_of_neg (by simp [hitem])]
  | true =>
      have hbefore : (before.find? p).isSome := List.find?_isSome.2 (h hitem)
      rw [Option.or_of_isSome hbefore, Option.or_of_isSome hbefore]

/-- What looks alike is found in both places or in neither. -/
theorem map_eq_map_cases {α β γ : Type} {f : α → γ} {g : β → γ} {a : Option α} {b : Option β}
    (h : a.map f = b.map g) :
    (a = none ∧ b = none) ∨ ∃ x y, a = some x ∧ b = some y ∧ f x = g y := by
  cases a with
  | none => exact .inl ⟨rfl, Option.map_eq_none_iff.1 h.symm⟩
  | some x =>
      obtain ⟨y, hy, hsame⟩ := Option.map_eq_some_iff.1 h.symm
      exact .inr ⟨x, y, rfl, hy, hsame.symm⟩

end OData
