/-
The service: answers to requests by path and query.

A service is a registry with its metadata document, which is generated once.  A request is resolved
to a route and answered with a status, a content type and a body; a fault becomes a response with
its own status and its message as the body.  The query has no part in that decision.

* `Response` — an answered request, and `Response.header?`;
* `Service`, `Service.ofRegistry` — a service;
* `Service.collection`, `Service.entity` — the records of a set, and one of them;
* `Service.handle` — the answer to a request.
-/

import OData.Envelope
import OData.Metadata.Document
import OData.Query.Assignment
import OData.Request.Answer

set_option relaxedAutoImplicit false
set_option autoImplicit false

namespace OData

/-! ### Responses -/

/-- What a body holds. -/
inductive ContentType where
  | json
  | xml
  | text
deriving DecidableEq

/-- The name of a content type in a header. -/
def ContentType.label : ContentType → String
  | json => "application/json"
  | xml => "application/xml"
  | text => "text/plain; charset=utf-8"

/-- An answered request. -/
structure Response where
  status : Nat
  contentType : ContentType
  body : String
  /-- The headers besides the content type. -/
  headers : List (String × String)
deriving DecidableEq

namespace Response

/-- A response with the header that every response has. -/
def of (status : Nat) (contentType : ContentType) (body : String) : Response :=
  ⟨status, contentType, body, [("OData-Version", "4.0")]⟩

/-- The response to a fault. -/
def ofFault (fault : Fault) : Response := of fault.status .text fault.message

/-- The response to a path without a route. -/
def noResource (path : String) : Response := of 404 .text ("no resource at " ++ path)

/-- The response that sends a value. -/
def ofJson (value : Json) : Response := of 200 .json value.pretty

/-- The response that sends a metadata document. -/
def ofMetadata (metadata : Metadata) : Response :=
  let response := of 200 .xml metadata.xml
  { response with headers := response.headers ++ [("ETag", metadata.etag)] }

/-- The value of the first header of a name, in whatever case it is written. -/
def header? (response : Response) (name : String) : Option String :=
  (response.headers.find? fun h => Text.sameLetters h.1.toList name.toList).map (·.2)

end Response

/-! ### Services -/

/-- A registry and its metadata document. -/
structure Service where
  registry : Registry
  metadata : Metadata

namespace Service

/-- The service over a registry. -/
def ofRegistry (registry : Registry) : Journal Event Service := do
  let metadata ← Metadata.document registry
  pure ⟨registry, metadata⟩

/-- The options of a query, with the event of reading them. -/
def readOptions (query : String) : Journal Event Query.Options := do
  let options := Query.Options.parse query
  Journal.note (.parsed options)
  pure options

/-- The records of a set in the window of a query. -/
def collection (service : Service) (set query : String) :
    Journal Event (Except Fault CollectionEnvelope) :=
  match service.registry.handler set with
  | .error fault => pure (.error fault)
  | .ok handler =>
    match handler.collection with
    | none => pure (.error (.notOffered set .collection))
    | some records => do
      let options ← readOptions query
      Journal.note (.fetched set records.length)
      let answers ← answerAll service.registry records options
      pure (.ok (.ofSet set answers))

/-- The record of a set with some key. -/
def entity (service : Service) (set id query : String) :
    Journal Event (Except Fault EntityEnvelope) :=
  match service.registry.handler set with
  | .error fault => pure (.error fault)
  | .ok handler =>
    match handler.byId with
    | none => pure (.error (.notOffered set .byId))
    | some find =>
      match find id with
      | none => pure (.error (.unknownRecord set id))
      | some record => do
        let options ← readOptions query
        let answer ← record.answer service.registry options
        pure (.ok (.ofSet set answer))

/-- The answer to a request along a route. -/
def follow (service : Service) (query : String) : Route → Journal Event Response
  | .metadata => pure (.ofMetadata service.metadata)
  | .collection set => do
    match ← service.collection set query with
    | .ok envelope => pure (.ofJson envelope.toJson)
    | .error fault => pure (.ofFault fault)
  | .entity set id => do
    match ← service.entity set id query with
    | .ok envelope => pure (.ofJson envelope.toJson)
    | .error fault => pure (.ofFault fault)

/-- The answer to a request for a path with a query. -/
def handle (service : Service) (path query : String) : Journal Event Response :=
  match Route.ofPath? path with
  | none => pure (.noResource path)
  | some route => do
    Journal.note (.routed path route)
    service.follow query route

end Service

end OData
