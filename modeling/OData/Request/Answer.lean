/-
Answers to requests for records.

A request for a collection is cut to its window, and each record left is expanded and projected.  A
request for one record has no window.

* `Record.answer` — one record expanded and projected;
* `answerAll` — the window of several records, each answered alike.
-/

import OData.Request.Expansion

set_option relaxedAutoImplicit false
set_option autoImplicit false

namespace OData

/-- A record with the expansions and the fields that a query asks for. -/
def Record.answer (registry : Registry) (record : Record) (options : Query.Options) :
    Journal Event FieldList := do
  let expanded ← record.expanded registry options.expand
  pure (expanded.select options.select)

/-- The records in a query's window, each with the expansions and the fields that it asks for. -/
def answerAll (registry : Registry) (records : List Record) (options : Query.Options) :
    Journal Event (List FieldList) :=
  Journal.traverse (fun record => record.answer registry options)
    (window records options.skip options.top)

end OData
