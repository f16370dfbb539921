/-
Entries in insertion order.

Field lists, entity sets, relationships and the members of an object are all looked up by name and
written in the order in which their names first appeared.  `Ordered β` holds them as a list of
pairs; no operation reorders it, and none introduces a second entry for a name.

* `Ordered.get?`, `Ordered.contains`, `Ordered.keys` — reading;
* `Ordered.insert` — an entry for a known name is replaced where it stands, a new one comes last;
* `Ordered.erase`, `Ordered.moveToEnd` — removal, and insertion at the end wherever the name stood;
* `Ordered.ofList` — entries inserted one after the other;
* `Ordered.Distinct` — no name occurs twice; kept by every operation.

Each operation comes with the names that it leaves (`keys_insert`, `keys_moveToEnd`, `keys_ofList`,
`keys_filter`) and with the entries that are found afterwards (`get?_insert`, `get?_moveToEnd`,
`get?_ofList`, `get?_filter`, `get?_map`, `get?_filterMap`).
-/

set_option relaxedAutoImplicit false
set_option autoImplicit false

namespace OData

universe u

/-- Named entries in the order in which the names came. -/
abbrev Ordered (β : Type u) : Type u := List (String × β)

namespace Ordered

variable {β : Type u}

/-- The names, in order. -/
def keys (es : Ordered β) : List String := es.map Prod.fst

/-- The entry of a name. -/
def get? (key : String) : Ordered β → Option β
  | [] => none
  | (k, v) :: es => if k = key then some v else get? key es

/-- Whether a name has an entry. -/
def contains (es : Ordered β) (key : String) : Bool := (get? key es).isSome

/-- Gives a name a new entry: in place if it has one, at the end otherwise. -/
def insert (key : String) (value : β) : Ordered β → Ordered β
  | [] => [(key, value)]
  | (k, v) :: es => if k = key then (key, value) :: es else (k, v) :: insert key value es

/-- Removes the entry of a name and keeps the order of the rest. -/
def erase (key : String) : Ordered β → Ordered β
  | [] => []
  | (k, v) :: es => if k = key then es else (k, v) :: erase key es

/-- Gives a name a new entry at the end, wherever it stood before. -/
def moveToEnd (key : String) (value : β) (es : Ordered β) : Ordered β :=
  insert key value (erase key es)

/-- The entries of a list, inserted in order. -/
def ofList (pairs : List (String × β)) : Ordered β :=
  pairs.foldl (fun es p => insert p.1 p.2 es) []

/-- No name occurs twice. -/
def Distinct (es : Ordered β) : Prop := es.keys.Nodup

instance (es : Ordered β) : Decidable es.Distinct := inferInstanceAs (Decidable es.keys.Nodup)

/-! ### Keys -/

@[simp] theorem keys_nil : keys ([] : Ordered β) = [] := rfl

@[simp] theorem keys_cons (p : String × β) (es : Ordered β) :
    keys (p :: es) = p.1 :: keys es := rfl

@[simp] theorem get?_nil (key : String) : get? key ([] : Ordered β) = none := rfl

@[simp] theorem insert_nil (key : String) (value : β) : insert key value [] = [(key, value)] := rfl

@[simp] theorem erase_nil (key : String) : erase key ([] : Ordered β) = [] := rfl

theorem mem_keys_insert {key k : String} {value : β} {es : Ordered β} :
    k ∈ keys (insert key value es) ↔ k = key ∨ k ∈ keys es := by
  induction es with
  | nil => simp
  | cons p es ih =>
    by_cases h : p.1 = key
    · simp [insert, h]
    · simp [insert, h, ih, or_left_comm]

theorem erase_sublist (key : String) (es : Ordered β) : List.Sublist (erase key es) es := by
  induction es with
  | nil => simp
  | cons p es ih =>
    by_cases h : p.1 = key
    · simp [erase, h]
    · simpa [erase, h] using ih

theorem Distinct.insert {es : Ordered β} (h : Distinct es) (key : String) (value : β) :
    Distinct (insert key value es) := by
  induction es with
  | nil => simp [Distinct]
  | cons p es ih =>
    rw [Distinct, keys_cons, List.nodup_cons] at h
    by_cases hp : p.1 = key
    · simpa [Distinct, Ordered.insert, hp] using ⟨hp ▸ h.1, h.2⟩
    · simp only [Distinct, Ordered.insert, hp, if_false, keys_cons, List.nodup_cons]
      refine ⟨fun hmem => ?_, ih h.2⟩
      rcases mem_keys_insert.1 hmem with heq | hmem
      · exact hp heq
      · exact h.1 hmem

theorem Distinct.erase {es : Ordered β} (h : Distinct es) (key : String) :
    Distinct (erase key es) :=
  h.sublist ((erase_sublist key es).map Prod.fst)

theorem Distinct.moveToEnd {es : Ordered β} (h : Distinct es) (key : String) (value : β) :
    Distinct (moveToEnd key value es) :=
  (h.erase key).insert key value

theorem distinct_ofList (pairs : List (String × β)) : Distinct (ofList pairs) := by
  have step : ∀ (ps : List (String × β)) (es : Ordered β), Distinct es →
      Distinct (ps.foldl (fun es p => Ordered.insert p.1 p.2 es) es) := by
    intro ps
    induction ps with
    | nil => exact fun _ h => h
    | cons p ps ih => exact fun es h => ih _ (h.insert p.1 p.2)
  exact step pairs [] List.nodup_nil

theorem keys_insert (key : String) (value : β) (es : Ordered β) :
    keys (insert key value es) = if key ∈ keys es then keys es else keys es ++ [key] := by
  induction es with
  | nil => simp
  | cons p es ih =>
      by_cases hp : p.1 = key
      · simp [insert, hp]
      · have hp' : ¬ key = p.1 := Ne.symm hp
        by_cases hmem : key ∈ keys es <;> simp [insert, hp, hp', ih, hmem]

theorem keys_erase (key : String) (es : Ordered β) : keys (erase key es) = (keys es).erase key := by
  induction es with
  | nil => rfl
  | cons p es ih =>
      by_cases hp : p.1 = key
      · simp [erase, hp]
      · simp [erase, hp, ih]

/-- What is moved to the end leaves the order of the others alone. -/
theorem keys_moveToEnd {es : Ordered β} (h : Distinct es) (key : String) (value : β) :
    keys (moveToEnd key value es) = (keys es).filter (· ≠ key) ++ [key] := by
  have herase : keys (erase key es) = (keys es).filter (· ≠ key) := by
    rw [keys_erase, List.Nodup.erase_eq_filter h]
    exact List.filter_congr fun k _ => by by_cases hk : k = key <;> simp [hk]
  rw [moveToEnd, keys_insert, herase, if_neg (by simp)]

theorem ofList_append_singleton (pairs : List (String × β)) (p : String × β) :
    ofList (pairs ++ [p]) = insert p.1 p.2 (ofList pairs) := by
  rw [ofList, List.foldl_append]
  rfl

/-- Inserted one after the other, names stand where they first occur. -/
theorem keys_ofList (pairs : List (String × β)) :
    keys (ofList pairs) = (pairs.map Prod.fst).eraseDups := by
  obtain ⟨ps, rfl⟩ : ∃ ps, pairs = List.reverse ps := ⟨pairs.reverse, by simp⟩
  induction ps with
  | nil => rfl
  | cons p ps ih =>
      rw [List.reverse_cons, ofList_append_singleton, keys_insert, ih, List.map_append,
        List.eraseDups_append]
      generalize ps.reverse.map Prod.fst = ks
      by_cases h : p.1 ∈ ks
      · simp [List.removeAll, h]
      · simp [List.removeAll, h, List.eraseDups_cons]

/-! ### Look-up -/

theorem get?_insert (key k : String) (value : β) (es : Ordered β) :
    get? k (insert key value es) = if k = key then some value else get? k es := by
  induction es with
  | nil => by_cases h : key = k <;> simp [get?, h, eq_comm]
  | cons p es ih =>
    by_cases hp : p.1 = key
    · by_cases h : key = k
      · simp [insert, get?, hp, h]
      · simp [insert, get?, hp, h, Ne.symm h]
    · by_cases h : p.1 = k
      · have : ¬ k = key := fun e => hp (h.trans e)
        simp [insert, get?, h, this]
      · simp [insert, get?, hp, h, ih]

@[simp] theorem get?_eq_none_iff {key : String} {es : Ordered β} :
    get? key es = none ↔ key ∉ keys es := by
  induction es with
  | nil => simp
  | cons p es ih =>
      by_cases hp : p.1 = key
      · simp [get?, hp]
      · simp [get?, hp, ih, Ne.symm hp]

theorem mem_keys_iff {key : String} {es : Ordered β} :
    key ∈ keys es ↔ ∃ value, get? key es = some value := by
  rw [← Option.ne_none_iff_exists', Ne, get?_eq_none_iff, Decidable.not_not]

theorem mem_of_mem_insert {p : String × β} {key : String} {value : β} {es : Ordered β}
    (h : p ∈ insert key value es) : p = (key, value) ∨ p ∈ es := by
  induction es with
  | nil => exact .inl (List.mem_singleton.1 h)
  | cons e es ih =>
      by_cases he : e.1 = key
      · rw [insert, if_pos he] at h
        exact (List.mem_cons.1 h).imp_right (List.mem_cons_of_mem _)
      · rw [insert, if_neg he] at h
        rcases List.mem_cons.1 h with rfl | h
        · exact .inr List.mem_cons_self
        · exact (ih h).imp_right (List.mem_cons_of_mem _)

theorem mem_of_mem_ofList {p : String × β} {pairs : List (String × β)} (h : p ∈ ofList pairs) :
    p ∈ pairs := by
  obtain ⟨ps, rfl⟩ : ∃ ps, pairs = List.reverse ps := ⟨pairs.reverse, by simp⟩
  induction ps with
  | nil => exact h
  | cons q ps ih =>
      rw [List.reverse_cons, ofList_append_singleton] at h
      rw [List.reverse_cons, List.mem_append, List.mem_singleton]
      rcases mem_of_mem_insert h with rfl | h
      · exact .inr rfl
      · exact .inl (ih h)

theorem mem_of_get? {key : String} {value : β} {es : Ordered β} (h : get? key es = some value) :
    (key, value) ∈ es := by
  induction es with
  | nil => simp at h
  | cons p es ih =>
      by_cases hp : p.1 = key
      · simp only [get?, hp, if_true, Option.some.injEq] at h
        rw [← hp, ← h]
        exact List.mem_cons_self
      · simp only [get?, hp, if_false] at h
        exact List.mem_cons_of_mem _ (ih h)

theorem get?_of_mem {key : String} {value : β} {es : Ordered β} (hd : Distinct es)
    (h : (key, value) ∈ es) : get? key es = some value := by
  induction es with
  | nil => simp at h
  | cons p es ih =>
      rw [Distinct, keys_cons, List.nodup_cons] at hd
      rcases List.mem_cons.1 h with rfl | h
      · simp [get?]
      · have hp : p.1 ≠ key := fun hp => hd.1 (hp ▸ List.mem_map_of_mem h)
        simp only [get?, hp, if_false]
        exact ih hd.2 h

/-- Names that occur once are removed altogether. -/
theorem erase_eq_filter {es : Ordered β} (hd : Distinct es) (key : String) :
    erase key es = es.filter fun e => e.1 != key := by
  induction es with
  | nil => rfl
  | cons p es ih =>
      rw [Distinct, keys_cons, List.nodup_cons] at hd
      by_cases hp : p.1 = key
      · have hrest : ∀ e ∈ es, (e.1 != key) = true := by
          intro e he
          rw [bne_iff_ne]
          rintro rfl
          exact hd.1 (hp ▸ List.mem_map_of_mem he)
        rw [erase, if_pos hp, List.filter_cons_of_neg (by simp [hp]), List.filter_eq_self.2 hrest]
      · rw [erase, if_neg hp, List.filter_cons_of_pos (by simp [hp]), ih hd.2]

theorem get?_erase {es : Ordered β} (hd : Distinct es) (key k : String) :
    get? k (erase key es) = if k = key then none else get? k es := by
  induction es with
  | nil => simp
  | cons p es ih =>
      rw [Distinct, keys_cons, List.nodup_cons] at hd
      by_cases hp : p.1 = key
      · by_cases hk : k = key
        · rw [if_pos hk, erase, if_pos hp, hk, ← hp]
          exact get?_eq_none_iff.2 hd.1
        · have : ¬ key = k := Ne.symm hk
          simp [erase, get?, hp, hk, this]
      · by_cases hk : p.1 = k
        · have : ¬ k = key := fun e => hp (hk.trans e)
          simp [erase, get?, hk, this]
        · simp [erase, get?, hp, hk, ih hd.2]

theorem get?_moveToEnd {es : Ordered β} (hd : Distinct es) (key k : String) (value : β) :
    get? k (moveToEnd key value es) = if k = key then some value else get? k es := by
  rw [moveToEnd, get?_insert, get?_erase hd]
  by_cases hk : k = key <;> simp [hk]

/-- Inserted one after the other, a name has the entry that comes last. -/
theorem get?_ofList (pairs : List (String × β)) (key : String) :
    get? key (ofList pairs) = get? key pairs.reverse := by
  obtain ⟨ps, rfl⟩ : ∃ ps, pairs = List.reverse ps := ⟨pairs.reverse, by simp⟩
  rw [List.reverse_reverse]
  induction ps with
  | nil => rfl
  | cons p ps ih =>
      rw [List.reverse_cons, ofList_append_singleton, get?_insert, ih]
      by_cases h : p.1 = key
      · simp [get?, h]
      · simp [get?, h, Ne.symm h]

theorem insert_of_not_mem {key : String} {es : Ordered β} (h : key ∉ keys es) (value : β) :
    insert key value es = es ++ [(key, value)] := by
  induction es with
  | nil => rfl
  | cons p es ih =>
      rw [keys_cons, List.mem_cons, not_or] at h
      rw [insert, if_neg (Ne.symm h.1), ih h.2, List.cons_append]

/-- Entries of different names stay as they are when they are inserted in order. -/
theorem ofList_eq_self {pairs : List (String × β)} (h : Distinct pairs) : ofList pairs = pairs := by
  obtain ⟨ps, rfl⟩ : ∃ ps, pairs = List.reverse ps := ⟨pairs.reverse, by simp⟩
  induction ps with
  | nil => rfl
  | cons p ps ih =>
      rw [List.reverse_cons, Distinct, keys, List.map_append, List.nodup_append] at h
      have hmem : p.1 ∉ keys ps.reverse := fun hp => h.2.2 _ hp _ (by simp) rfl
      rw [List.reverse_cons, ofList_append_singleton, ih h.1, insert_of_not_mem hmem]

/-- Entries of different names that are kept by name and value. -/
theorem get?_filter {es : Ordered β} (hd : Distinct es) (p : String → β → Bool) (key : String) :
    get? key (es.filter fun e => p e.1 e.2) = (get? key es).filter (p key) := by
  induction es with
  | nil => rfl
  | cons e es ih =>
      rw [Distinct, keys_cons, List.nodup_cons] at hd
      by_cases he : e.1 = key
      · subst he
        have hnone : get? e.1 es = none := get?_eq_none_iff.2 hd.1
        cases hp : p e.1 e.2 with
        | true => simp [get?, Option.filter, hp]
        | false =>
            rw [List.filter_cons_of_neg (by simp [hp]), ih hd.2, hnone]
            simp [get?, Option.filter, hp]
      · cases hp : p e.1 e.2 <;> simp [get?, he, hp, ih hd.2]

theorem keys_filter {es : Ordered β} (hd : Distinct es) (p : String → β → Bool) :
    keys (es.filter fun e => p e.1 e.2) = (keys es).filter fun k => (get? k es).any (p k) := by
  rw [keys, keys, List.filter_map]
  refine congrArg _ (List.filter_congr fun e he => ?_)
  simp [get?_of_mem hd he]

/-- Entries that are given other values keep their names. -/
theorem get?_map {γ : Type u} (f : String → β → γ) (key : String) (es : Ordered β) :
    get? key (es.map fun e => (e.1, f e.1 e.2)) = (get? key es).map (f key) := by
  induction es with
  | nil => rfl
  | cons e es ih =>
      by_cases he : e.1 = key
      · simp [get?, he]
      · simp [get?, he, ih]

theorem keys_filterMap_sublist {γ : Type u} (f : String → β → Option γ) (es : Ordered β) :
    (keys (es.filterMap fun e => (f e.1 e.2).map fun c => (e.1, c))).Sublist (keys es) := by
  induction es with
  | nil => exact .slnil
  | cons e es ih =>
      cases h : f e.1 e.2 with
      | none => simpa [h] using ih.cons e.1
      | some c => simpa [h] using ih

/-- Entries that are given other values, or none. -/
theorem get?_filterMap {γ : Type u} {es : Ordered β} (hd : Distinct es)
    (f : String → β → Option γ) (key : String) :
    get? key (es.filterMap fun e => (f e.1 e.2).map fun c => (e.1, c))
      = (get? key es).bind (f key) := by
  induction es with
  | nil => rfl
  | cons e es ih =>
      rw [Distinct, keys_cons, List.nodup_cons] at hd
      by_cases he : e.1 = key
      · subst he
        cases h : f e.1 e.2 with
        | some c => simp [get?, h]
        | none =>
            have hnone : get? e.1 es = none := get?_eq_none_iff.2 hd.1
            rw [List.filterMap_cons_none (by simp [h]), ih hd.2, hnone]
            simp [get?, h]
      · cases h : f e.1 e.2 <;> simp [get?, he, h, ih hd.2]

theorem contains_iff {key : String} {es : Ordered β} : contains es key = true ↔ key ∈ keys es := by
  induction es with
  | nil => simp [contains]
  | cons p es ih =>
    by_cases h : p.1 = key
    · simp [contains, get?, h]
    · have := ih
      simp only [contains] at this ⊢
      simp [get?, h, this, Ne.symm h]

end Ordered

end OData
