import Sealing.Decimal.Digits
import Sealing.Log.Event
import Sealing.Text.Alphanumeric
import Sealing.Text.Blank

/-!
# Log filters

A filter is a list of directives, separated by commas. A directive sets the most detailed level that
is shown, for all events or for those of the targets that start with a given text; a part in square
brackets narrows it to what happens in a span, or to events that have a field. Of the directives
that cover an event the most specific one decides, and what none covers is hidden.
-/

namespace Sealing.Log

/-- The most detailed level that is shown, or nothing at all. -/
abbrev Limit := Option Level

namespace Limit

/-- Whether events of a level are shown under a limit. -/
def shows (limit : Limit) (level : Level) : Bool := limit.any (level.rank ≤ ·.rank)

/-- The limit of a number. -/
def ofNumber? : Nat → Option Limit
  | 0 => some none
  | 1 => some (some .error)
  | 2 => some (some .warn)
  | 3 => some (some .info)
  | 4 => some (some .debug)
  | 5 => some (some .trace)
  | _ => none

/-- The limit of a word, in any letter case. -/
def ofWord? (word : List Char) : Option Limit :=
  match String.ofList (word.map Text.lowerAscii) with
  | "off" => some none
  | "error" => some (some .error)
  | "warn" => some (some .warn)
  | "info" => some (some .info)
  | "debug" => some (some .debug)
  | "trace" => some (some .trace)
  | _ => none

/-- Reads a limit: a number or a word. -/
def parse? (text : List Char) : Option Limit :=
  match (Decimal.natural? text).bind ofNumber? with
  | some limit => some limit
  | none => ofWord? text

end Limit

/-- Why a text is not a filter. -/
inductive FilterError where
  /-- What follows an equals sign is not a limit. -/
  | level
  /-- A directive is put together wrongly. -/
  | directive
deriving DecidableEq, Repr

namespace FilterError

/-- The text of an error. -/
def message : FilterError → String
  | level =>
    "error parsing level filter: expected one of \"off\", \"error\", \"warn\", \"info\", " ++
      "\"debug\", \"trace\", or a number 0-5"
  | directive => "invalid filter directive"

/-- The texts of the causes behind an error. -/
def causes : FilterError → List String
  | level => [level.message]
  | directive => []

end FilterError

/-- A field that an event or span must have, and whether a value is asked for. -/
structure FieldPattern where
  name : List Char
  valued : Bool
deriving DecidableEq, Repr

/-- One part of a filter. -/
structure Directive where
  limit : Limit
  /-- What the targets start with. -/
  target : Option (List Char) := none
  /-- The span that the directive is about. -/
  span : Option (List Char) := none
  field : Option FieldPattern := none
deriving DecidableEq, Repr

namespace Directive

/-- A place in the text of a directive. White space around a directive is passed over when it is
cut into parts, yet the parts are then taken from the text as it was written: the first is the
character that decides where a part ends, the second the one that is taken there. -/
abbrev Place := Char × Char

/-- The text taken at some places. -/
def taken (places : List Place) : List Char := places.map (·.2)

/-- Cuts places before the first at which one of some characters decides. -/
def cutAt (stops : List Char) (places : List Place) : List Place × List Place :=
  places.span fun place => place.1 ∉ stops

/-- Whether a directive may start with a character: a letter, a digit or one of three marks. -/
def canStart (c : Char) : Bool := c ∈ ['-', ':', '_'] || Text.isAlphanumeric c

/-- Reads the limit that ends a directive. An empty text stands for all levels. -/
def readLimit (text : List Char) : Except FilterError Limit :=
  if text = [] then .ok (some .trace)
  else
    match Limit.parse? text with
    | some limit => .ok limit
    | none => .error .level

/-- Reads what follows the square brackets. -/
def readTail (excess : List Char) : List Place → Except FilterError Limit
  | [] => .ok (some .trace)
  | ('=', _) :: places => readLimit (taken places ++ excess)
  | _ => .error .directive

/-- Reads a field pattern. -/
def readField (text : List Char) : Except FilterError FieldPattern :=
  if text = [] then .error .directive
  else .ok ⟨text.takeWhile (· ≠ '='), '=' ∈ text⟩

/-- Reads from after the opening square bracket. -/
def readSpan (excess : List Char) (target : Option (List Char)) (places : List Place) :
    Except FilterError Directive :=
  match cutAt [']', '\x7b'] places with
  | (name, (']', _) :: rest) => do
    pure ⟨← readTail excess rest, target, some (taken name), none⟩
  | (name, ('\x7b', _) :: inside) =>
    match cutAt ['\x7d'] inside with
    | (text, _ :: (']', _) :: rest) => do
      let field ← readField (taken text)
      let span := if name = [] then none else some (taken name)
      pure ⟨← readTail excess rest, target, span, some field⟩
    | (text, _ :: _) => do
      discard (readField (taken text))
      throw .directive
    | (_, []) => throw .directive
  | _ => throw .directive

/-- Reads a directive that starts with a target or consists of a limit. A text that could be either
is a limit if it is one, and otherwise a target of which all levels are shown. -/
def readTarget (excess : List Char) (places : List Place) : Except FilterError Directive :=
  match cutAt ['=', '['] places with
  | (target, ('=', _) :: rest) => do
    pure ⟨← readLimit (taken rest ++ excess), some (taken target), none, none⟩
  | (target, _ :: rest) => readSpan excess (some (taken target)) rest
  | (word, []) =>
    let text := taken word ++ excess
    match Limit.parse? text with
    | some limit => .ok ⟨limit, none, none, none⟩
    | none => .ok ⟨some .trace, some text, none, none⟩

/-- Reads a directive. -/
def parse (text : List Char) : Except FilterError Directive :=
  let inner := Text.trimList text
  let places := inner.zip text
  let excess := text.drop inner.length
  match places with
  | [] => .error .directive
  | ('[', _) :: rest => readSpan excess none rest
  | first :: _ => if canStart first.1 then readTarget excess places else .error .directive

/-- Whether a directive has a say about events outside of spans. -/
def isStatic (d : Directive) : Bool := d.span.isNone && d.field.all (!·.valued)

/-- Whether an event has a field of a name. -/
def hasField (e : Event) (name : List Char) : Bool :=
  name == "message".toList || e.fields.any (·.1.toList == name)

/-- Whether a directive covers an event. -/
def covers (d : Directive) (e : Event) : Bool :=
  d.isStatic && d.target.all (·.isPrefixOf e.target.toList) && d.field.all (hasField e ·.name)

/-- How specific a directive is: a longer target first, then whether a field is asked for, then the
name of the field. -/
def specificity (d : Directive) : List (List Nat) :=
  [match d.target with | none => [] | some target => [target.length],
    match d.field with | none => [] | some field => 0 :: field.name.map Char.toNat]

/-- Whether `a` is at most as specific as `b`. -/
def isBelow (a b : Directive) : Bool := !decide (b.specificity < a.specificity)

end Directive

/-- A filter. -/
structure Filter where
  directives : List Directive
deriving DecidableEq, Repr

namespace Filter

/-- Only errors are shown. -/
def errorsOnly : Filter := ⟨[⟨some .error, none, none, none⟩]⟩

/-- Reads a filter. Empty directives are passed over, and a filter without directives shows errors
only. -/
def parse (text : String) : Except FilterError Filter := do
  let pieces := (text.toList.splitOn ',').filter (· ≠ [])
  let directives ← pieces.mapM Directive.parse
  pure (if directives = [] then errorsOnly else ⟨directives⟩)

/-- The directive that decides about an event: the most specific one that covers it, and among
equals the last. -/
def deciding? (f : Filter) (e : Event) : Option Directive :=
  (f.directives.filter (·.covers e)).foldl
    (fun best? d =>
      match best? with
      | none => some d
      | some best => if best.isBelow d then some d else some best) none

/-- Whether an event is shown. -/
def shows (f : Filter) (e : Event) : Bool := (f.deciding? e).any (·.limit.shows e.level)

end Filter

end Sealing.Log
