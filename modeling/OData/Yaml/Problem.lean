/-
What can be wrong with a YAML text.

* `Yaml.Problem` — the reasons for which a text is no document, or cannot be loaded;
* `Yaml.attach` — a result that carries the fact that it is one, for recursion that needs it.
-/

set_option relaxedAutoImplicit false
set_option autoImplicit false

namespace OData.Yaml

/-- A reason why a text is no YAML document. -/
inductive Problem where
  /-- A control character. -/
  | forbiddenCharacter
  /-- A character that starts no token. -/
  | unexpectedCharacter
  /-- A tab where only spaces may indent. -/
  | tabIndentation
  /-- A key that is not followed by a colon. -/
  | missingColon
  /-- A key or a list item in a place where none may start. -/
  | misplacedEntry
  /-- A malformed `%` line. -/
  | badDirective
  /-- A malformed anchor or alias. -/
  | badAnchor
  /-- A malformed or undeclared tag. -/
  | badTag
  /-- A malformed header of a block scalar. -/
  | badBlockHeader
  /-- An escape sequence without a meaning. -/
  | badEscape
  /-- A quoted scalar without an end. -/
  | unclosedQuote
  /-- A colon in a place where a plain scalar cannot have one. -/
  | strayColon
  /-- A token that does not fit the structure. -/
  | unexpectedToken
  /-- An alias without an anchor. -/
  | unknownAlias
  /-- More than one document. -/
  | severalDocuments
deriving DecidableEq, Repr

variable {α β : Type}

/-- A result together with the fact that it is one. -/
def attach (x : Except Problem α) : Except Problem { a : α // x = .ok a } :=
  match x with
  | .ok a => .ok ⟨a, rfl⟩
  | .error problem => .error problem

theorem bind_eq_ok {ε : Type} {x : Except ε α} {f : α → Except ε β} {b : β} :
    x >>= f = .ok b ↔ ∃ a, x = .ok a ∧ f a = .ok b := by
  cases x <;> simp [bind, Except.bind]

theorem pure_eq_ok {ε : Type} {a b : α} : (pure a : Except ε α) = .ok b ↔ a = b := by
  simp [pure, Except.pure]

end OData.Yaml
