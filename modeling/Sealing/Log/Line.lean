import Sealing.Json.Printer
import Sealing.Log.Event

/-!
# Log lines

An event is written as a JSON object on one line: the time, the level, the message with the named
values in the order given, and the target.
-/

namespace Sealing.Log

/-- The written form of a value. -/
def Value.render : Value → List Char
  | text s => Json.literal s
  | number n => Nat.toDigits 10 n
  | flag b => if b then "true".toList else "false".toList

namespace Event

/-- One member of an object. -/
def member (name : String) (value : List Char) : List Char := Json.literal name ++ ':' :: value

/-- An object with some members. -/
def object (members : List (List Char)) : List Char :=
  '\x7b' :: [','].intercalate members ++ ['\x7d']

/-- The line of an event. -/
def line (time : String) (e : Event) : String :=
  let fields := member "message" (Json.literal e.message) ::
    e.fields.map fun field => member field.1 field.2.render
  String.ofList (object [
    member "timestamp" (Json.literal time), member "level" (Json.literal e.level.name),
    member "fields" (object fields), member "target" (Json.literal e.target)])

end Event

end Sealing.Log
