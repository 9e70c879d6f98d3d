import Sealing.Json.Printer

/-!
# Bodies of the service

What the service says in JSON besides envelopes: why a request failed, and how the service is.
Failures of a message are all reported alike, so that an answer does not tell which check failed.
-/

namespace Sealing.Service

/-- Why a request failed, as far as a client may know. -/
inductive Failure where
  /-- The message was not accepted. -/
  | rejected
  /-- The service itself failed. -/
  | internal (text : String)
deriving DecidableEq, Repr

namespace Failure

/-- The status of the answer. -/
def status : Failure → Nat
  | rejected => 400
  | internal _ => 500

/-- The code for machines. -/
def code : Failure → String
  | rejected => "rejected"
  | internal _ => "internal_error"

/-- The text for people. -/
def message : Failure → String
  | rejected => "message could not be authenticated"
  | internal text => s!"internal error: {text}"

end Failure

/-- The body of an answer that reports a failure. -/
structure ErrorBody where
  code : String
  message : String
deriving DecidableEq, Repr

namespace ErrorBody

/-- The members of the written form. -/
def members : Json.Members := [("code", .text), ("message", .text)]

/-- The record of a body. -/
def toRecord (e : ErrorBody) : Json.Record members := (e.code, e.message, ())

/-- The body of a record. -/
def ofRecord (r : Json.Record members) : ErrorBody := ⟨r.1, r.2.1⟩

/-- Reads a body. -/
def parse (text : Bytes) : Except Json.Error ErrorBody :=
  (Json.parseRecord "ErrorResponse" members text).map ofRecord

/-- The written form. -/
def render (e : ErrorBody) : String := Json.Record.render members e.toRecord

/-- The body that reports a failure. -/
def ofFailure (f : Failure) : ErrorBody := ⟨f.code, f.message⟩

end ErrorBody

/-- The body of a health check. -/
structure Health where
  status : String
  suite : String
  tagLength : UInt64
deriving DecidableEq, Repr

namespace Health

/-- The members of the written form. -/
def members : Json.Members := [("status", .text), ("suite", .text), ("tag_len", .count)]

/-- The record of a body. -/
def toRecord (h : Health) : Json.Record members := (h.status, h.suite, h.tagLength, ())

/-- The body of a record. -/
def ofRecord (r : Json.Record members) : Health := ⟨r.1, r.2.1, r.2.2.1⟩

/-- Reads a body. -/
def parse (text : Bytes) : Except Json.Error Health :=
  (Json.parseRecord "HealthResponse" members text).map ofRecord

/-- The written form. -/
def render (h : Health) : String := Json.Record.render members h.toRecord

end Health

end Sealing.Service
