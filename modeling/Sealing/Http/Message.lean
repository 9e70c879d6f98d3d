import Sealing.Bytes.Basic
import Sealing.Text.Blank

/-!
# Requests and responses

What a connection delivers to the service and takes back from it. Names of header fields are
compared without regard to letter case.
-/

namespace Sealing.Http

/-- Header fields, in order. A name may stand several times. -/
abbrev Headers := List (String × String)

/-- The values of all fields of a name, which is given in lower case. -/
def Headers.values (headers : Headers) (name : String) : List String :=
  (headers.filter fun field => Text.lowerAsciiText field.1 == name).map (·.2)

/-- A request whose body has arrived, whole and in time. -/
structure Request where
  method : String
  target : String
  headers : Headers := []
  body : Bytes := []
deriving DecidableEq, Repr

/-- A response. The body is held as it is before any content coding; which coding it is sent in is
said by the field `content-encoding`. -/
structure Response where
  status : Nat
  headers : Headers := []
  body : Bytes := []
deriving DecidableEq, Repr

/-- Whether the body is sent in a content coding. -/
def Response.isCoded (r : Response) : Bool := r.headers.any (·.1 == "content-encoding")

end Sealing.Http
