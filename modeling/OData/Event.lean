/-
What the library reports while it works.

Every event has a level and a line of text, except the asking of a capability, which is not
reported: it is there for those who count such calls.

* `Event` — the happenings;
* `Event.level?`, `Event.text` — how they are reported;
* `Event.line?` — the line of an event.
-/

import OData.Model.EntityType
import OData.Query.Options
import OData.Service.Route

set_option relaxedAutoImplicit false
set_option autoImplicit false

namespace OData

/-- A happening. -/
inductive Event where
  /-- An entity set was registered. -/
  | registered (set : String)
  /-- An entity set was registered again. -/
  | replaced (set : String)
  /-- A relationship was registered. -/
  | related (set name : String) (relationship : Relationship)
  /-- Relationships were registered for a set that was not. -/
  | unknownSource (set : String)
  /-- A relationship leads to a set that was not registered. -/
  | unknownTarget (set name target : String)
  /-- A relationship is resolved by comparing fields. -/
  | linked (set name target : String) (cardinality : Cardinality) (localName remoteName : String)
  /-- A field of the metadata has a kind without a meaning. -/
  | unknownKind (set field declared : String)
  /-- A navigation field of the metadata has no registered relationship. -/
  | unboundNavigation (set field relationship : String)
  /-- A path was resolved. -/
  | routed (path : String) (route : Route)
  /-- Query options were read. -/
  | parsed (options : Query.Options)
  /-- The records of a set were fetched. -/
  | fetched (set : String) (count : Nat)
  /-- The capability of a set was asked for a relationship. -/
  | asked (set relationship subQuery : String)
  /-- A relationship could not be expanded. -/
  | unresolved (relationship : String) (set : Option String)
deriving DecidableEq

/-- How much an event matters. -/
inductive Level where
  | warn
  | info
  | debug
deriving DecidableEq

/-- The name of a level. -/
def Level.label : Level → String
  | warn => "WARN"
  | info => "INFO"
  | debug => "DEBUG"

/-- The name of a cardinality among the parts of a link. -/
def Cardinality.linkLabel : Cardinality → String
  | oneToOne => "OneToOne"
  | oneToMany => "OneToMany"

namespace Event

/-- The level of an event, unless it is not reported. -/
def level? : Event → Option Level
  | registered _ => some .info
  | replaced _ => some .warn
  | related _ _ _ => some .info
  | unknownSource _ => some .warn
  | unknownTarget _ _ _ => some .warn
  | linked _ _ _ _ _ _ => some .debug
  | unknownKind _ _ _ => some .warn
  | unboundNavigation _ _ _ => some .debug
  | routed _ _ => some .debug
  | parsed _ => some .debug
  | fetched _ _ => some .debug
  | asked _ _ _ => none
  | unresolved _ _ => some .debug

/-- An optional number in a message. -/
def optionalText : Option Nat → String
  | none => "None"
  | some n => "Some(" ++ toString n ++ ")"

/-- The text of an event. -/
def text : Event → String
  | registered set => "Registered entity set: " ++ set
  | replaced set => "Entity set " ++ set ++ " registered twice; replacing handler"
  | related set name relationship =>
    "Registered relationship: " ++ set ++ "." ++ name ++ " -> " ++ relationship.target ++ " (" ++
      relationship.cardinality.label ++ ")"
  | unknownSource set => "Relationships declared for unregistered entity set " ++ set
  | unknownTarget set name target =>
    "Relationship " ++ set ++ "." ++ name ++ " targets unregistered entity set " ++ target
  | linked set name target cardinality localName remoteName =>
    set ++ "." ++ name ++ " resolves through Link \x7b target: " ++ Text.quoted target ++
      ", cardinality: " ++ cardinality.linkLabel ++ ", local: " ++ Text.quoted localName ++
      ", remote: " ++ Text.quoted remoteName ++ " \x7d"
  | unknownKind set field declared =>
    set ++ "." ++ field ++ ": unknown scalar kind " ++ Text.quoted declared ++
      ", emitting Edm.String"
  | unboundNavigation set field relationship =>
    set ++ "." ++ field ++ ": no registered relationship " ++ relationship ++
      ", skipping navigation property"
  | routed path route => path ++ " -> " ++ route.display
  | parsed options =>
    "parsed query options: skip=" ++ toString options.skip ++ " top=" ++ optionalText options.top ++
      " expand=" ++ Text.quotedList (options.expand.map (·.name)) ++ " select=" ++
      Text.quotedList options.select
  | fetched set count => set ++ ": " ++ toString count ++ " records before paging"
  | asked set relationship subQuery => set ++ "." ++ relationship ++ "(" ++ subQuery ++ ")"
  | unresolved relationship set =>
    "no expansion for " ++ relationship ++ " on " ++ set.getD "<anonymous>"

/-- The line that reports an event, unless it is not reported. -/
def line? (event : Event) : Option String :=
  event.level?.map fun level => level.label ++ " " ++ event.text

end Event

end OData
