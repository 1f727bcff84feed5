import AlertFlow.Error
import AlertFlow.Json.Basic

/-!
Responses, and the failures that the interface answers with. A failure of what the service stands on
is reported without its detail, except that something was not found.
-/
namespace AlertFlow

/-- An answer: its status, and its body if that is JSON. -/
structure Response where
  status : Nat
  body : Option Json := none

/-- A failure that a client is told about. -/
inductive ApiError where
  | badRequest (message : String)
  | notFound (message : String)
  | internal (detail : String)
deriving DecidableEq, Repr

namespace ApiError

/-- The failure of a store, as a client is told. -/
def ofStore : StoreError → ApiError
  | .notFound => .notFound "resource not found"
  | e => .internal e.message

/-- The failure of a service, as a client is told: a broken rule is the client's fault. -/
def ofService : ServiceError → ApiError
  | .domain e => .badRequest e.message
  | .store e => ofStore e

def status : ApiError → Nat
  | badRequest _ => 400
  | notFound _ => 404
  | internal _ => 500

/-- The text for the client; the detail of an internal failure is kept from it. -/
def text : ApiError → String
  | badRequest message => message
  | notFound message => message
  | internal _ => "an internal server error occurred"

def toResponse (e : ApiError) : Response :=
  { status := e.status, body := some (.record [("error", .string e.text)]) }

end ApiError

namespace Response

def ok (body : Json) : Response := { status := 200, body := some body }

/-- An answer without a body that could be read. -/
def bare (status : Nat) : Response := { status }

def withoutBody (r : Response) : Response := { r with body := none }

end Response

end AlertFlow
