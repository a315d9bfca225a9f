import Signet.Http.MediaType
import Signet.Http.Message
import Signet.Json.Reading

/-!
# Bodies

A body is read as JSON if its media type says so and it is not too long. What is wrong with it is
told with the path that leads to the faulty value.
-/

namespace Signet.Http.Body

/-- How many octets a body may have. -/
def limit : Nat :=
  2097152

inductive Refusal
  | mediaType
  | tooLong
  | unreadable (fault : Json.Fault)

def Refusal.reason : Refusal → String
  | mediaType => "Expected request with `Content-Type: application/json`"
  | tooLong => "Failed to buffer the request body: length limit exceeded"
  | unreadable fault =>
    match fault.cause.category with
    | .meaning =>
      s!"Failed to deserialize the JSON body into the target type: {fault.messageWithPath}"
    | .form | .ending =>
      s!"Failed to parse the request body as JSON: {fault.messageWithPath}"

def read {α : Type} (reader : Json.Reader α) (request : Request) : Except Refusal α :=
  if !(request.header? "content-type").any MediaType.isJson then .error .mediaType
  else if limit < request.body.length then .error .tooLong
  else (Json.readWhole reader request.body).mapError .unreadable

end Signet.Http.Body
