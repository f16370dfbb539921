/-
Values together with a record of what was done to obtain them.

Answering a request asks capabilities, skips what it cannot resolve and reads options on the way.
A `Journal` carries these happenings along in order, so that a program can print them and a theorem
can speak of them, and nothing that is answered depends on them.

* `Journal` — a value and the events on the way to it;
* `Journal.note` — one event;
* `Journal.traverse` — a journal for each item of a list, one after the other.
-/

set_option relaxedAutoImplicit false
set_option autoImplicit false

namespace OData

/-- A value, and the events on the way to it, in order. -/
structure Journal (ε α : Type) where
  value : α
  events : List ε

namespace Journal

variable {ε α β : Type}

instance : Monad (Journal ε) where
  pure a := ⟨a, []⟩
  bind j f := ⟨(f j.value).value, j.events ++ (f j.value).events⟩

/-- One event. -/
def note (event : ε) : Journal ε Unit := ⟨(), [event]⟩

@[simp] theorem value_pure (a : α) : (pure a : Journal ε α).value = a := rfl

@[simp] theorem events_pure (a : α) : (pure a : Journal ε α).events = [] := rfl

@[simp] theorem value_bind (j : Journal ε α) (f : α → Journal ε β) :
    (j >>= f).value = (f j.value).value := rfl

@[simp] theorem events_bind (j : Journal ε α) (f : α → Journal ε β) :
    (j >>= f).events = j.events ++ (f j.value).events := rfl

@[simp] theorem events_note (event : ε) : (note event).events = [event] := rfl

/-- What follows a value depends on nothing but the value. -/
theorem bind_congr {j : Journal ε α} {f g : α → Journal ε β} (h : f j.value = g j.value) :
    j >>= f = j >>= g := by
  change Journal.mk (f j.value).value _ = Journal.mk (g j.value).value _
  rw [h]

/-- The journals of the items of a list, one after the other. -/
def traverse (f : α → Journal ε β) : List α → Journal ε (List β)
  | [] => pure []
  | a :: rest => do
    let b ← f a
    let bs ← traverse f rest
    pure (b :: bs)

@[simp] theorem value_traverse (f : α → Journal ε β) (items : List α) :
    (traverse f items).value = items.map fun a => (f a).value := by
  induction items with
  | nil => rfl
  | cons a rest ih => simp [traverse, ih]

@[simp] theorem events_traverse (f : α → Journal ε β) (items : List α) :
    (traverse f items).events = items.flatMap fun a => (f a).events := by
  induction items with
  | nil => rfl
  | cons a rest ih => simp [traverse, ih]

end Journal

end OData
