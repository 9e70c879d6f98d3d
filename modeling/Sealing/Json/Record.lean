import Sealing.Json.Ignored

/-!
# Records

A record has a fixed list of named members, each of one kind. Its JSON form is an object that has
every member once, in any order and among others that are ignored, or a list of the values in
order. The values read so far stand in a draft, which becomes a record when it is complete.
-/

namespace Sealing.Json

/-- The kind of a member's value. -/
inductive Kind where
  | text
  | count
deriving DecidableEq, Repr

/-- The values of a kind. Counts have 64 bits. -/
abbrev Kind.Carrier : Kind → Type
  | text => String
  | count => UInt64

/-- The members of a record: their names and kinds, in order. -/
abbrev Members := List (String × Kind)

/-- A record has a value for every member. -/
def Record : Members → Type
  | [] => Unit
  | m :: ms => m.2.Carrier × Record ms

/-- A draft may have a value for every member. -/
def Draft : Members → Type
  | [] => Unit
  | m :: ms => Option m.2.Carrier × Draft ms

/-- What kind of value was expected, in the words of a message. -/
def Kind.expected : Kind → String
  | text => "a string"
  | count => "usize"

/-- The fault of a value of the wrong kind. Scalars are read first and may have faults of their
own; a container is named without being read. -/
def wrongKind (expected : String) (b : UInt8) (rest : Bytes) : Fault :=
  let fault (found : Found) (result : Except Fault Bytes) : Fault :=
    match result with
    | .error f => f
    | .ok after => .before (.invalidType found expected) after
  let number (result : Except Fault (Numeral × Bytes)) : Fault :=
    match result with
    | .error f => f
    | .ok (n, after) => .before (.invalidType n.found expected) after
  if b = 0x6E then fault .null (readWord nullTail rest)
  else if b = 0x74 then fault (.boolean true) (readWord trueTail rest)
  else if b = 0x66 then fault (.boolean false) (readWord falseTail rest)
  else if b = Ascii.minus then number (readNumber true rest)
  else if Ascii.isDigit b then number (readNumber false (b :: rest))
  else if b = Ascii.quotation then
    match readText rest with
    | .error f => f
    | .ok (t, after) => .before (.invalidType (.text t) expected) after
  else if b = Ascii.openBracket then .before (.invalidType .sequence expected) (b :: rest)
  else if b = Ascii.openBrace then .before (.invalidType .map expected) (b :: rest)
  else .at .expectedValue (b :: rest)

/-- Reads a text whose first byte is `b`. -/
def readQuoted (b : UInt8) (rest : Bytes) : Except Fault (String × Bytes) :=
  if b = Ascii.quotation then readText rest else .error (wrongKind Kind.text.expected b rest)

/-- The count that a number stands for. -/
def countOf (n : Numeral) (rest : Bytes) : Except Fault (UInt64 × Bytes) :=
  match n with
  | .unsigned n => .ok (UInt64.ofNat n, rest)
  | .signed n => .error (.before (.invalidValue (.signed n) Kind.count.expected) rest)
  | .fraction x => .error (.before (.invalidType (.fraction x) Kind.count.expected) rest)

/-- Reads a count whose first byte is `b`. -/
def readCount (b : UInt8) (rest : Bytes) : Except Fault (UInt64 × Bytes) :=
  if b = Ascii.minus then
    match readNumber true rest with
    | .error f => .error f
    | .ok (n, rest) => countOf n rest
  else if Ascii.isDigit b then
    match readNumber false (b :: rest) with
    | .error f => .error f
    | .ok (n, rest) => countOf n rest
  else .error (wrongKind Kind.count.expected b rest)

/-- Reads a value of a kind. -/
def readValue (kind : Kind) (s : Bytes) : Except Fault (kind.Carrier × Bytes) :=
  match skipBlanks s with
  | [] => .error (.at .eofValue [])
  | b :: rest =>
    match kind with
    | .text => readQuoted b rest
    | .count => readCount b rest

/-- What is left after the blanks and the end of a container, if that stands next. A fault that
concerns the container as a whole is placed here. -/
def beyond (frame : Frame) (s : Bytes) : Bytes :=
  match skipBlanks s with
  | [] => []
  | b :: rest => if b = frame.close then rest else b :: rest

namespace Draft

/-- A draft without values. -/
def empty : (ms : Members) → Draft ms
  | [] => ()
  | _ :: ms => (none, empty ms)

/-- The record of a draft, or the name of the first member that it lacks. -/
def complete : (ms : Members) → Draft ms → Except String (Record ms)
  | [], _ => .ok ()
  | _ :: ms, (some v, d) =>
    match complete ms d with
    | .ok r => .ok (v, r)
    | .error name => .error name
  | m :: _, (none, _) => .error m.1

/-- Reads the rest of a member whose name has been read. A name that no member has is followed by
any value. -/
def readMember : (ms : Members) → Draft ms → (name : String) → Bytes →
    Except Fault (Draft ms × Bytes)
  | [], d, _, s =>
    match readColon s with
    | .error f => .error f
    | .ok s =>
      match skipValue s with
      | .error f => .error f
      | .ok rest => .ok (d, rest)
  | m :: ms, (v, d), name, s =>
    if name = m.1 then
      match v with
      | some _ => .error (.before (.duplicateField name) (beyond .object s))
      | none =>
        match readColon s with
        | .error f => .error f
        | .ok s =>
          match readValue m.2 s with
          | .error f => .error f
          | .ok (v, rest) => .ok ((some v, d), rest)
    else
      match readMember ms d name s with
      | .error f => .error f
      | .ok (d, rest) => .ok ((v, d), rest)

end Draft

/-- Reads a name whose opening mark stands next. -/
def openName (b : UInt8) (rest : Bytes) : Except Fault (Option (String × Bytes)) :=
  if b = Ascii.quotation then
    match readText rest with
    | .error f => .error f
    | .ok (name, rest) => .ok (some (name, rest))
  else .error (.at .keyMustBeString (b :: rest))

/-- Reads the name of the next member, or finds the end of the object. -/
def readName (isFirst : Bool) (s : Bytes) : Except Fault (Option (String × Bytes)) :=
  match skipBlanks s with
  | [] => .error (.at .eofObject [])
  | b :: rest =>
    if b = Ascii.closeBrace then .ok none
    else if isFirst then openName b rest
    else if b = Ascii.comma then
      match skipBlanks rest with
      | [] => .error (.at .eofValue [])
      | c :: rest =>
        if c = Ascii.closeBrace then .error (.at .trailingComma (c :: rest)) else openName c rest
    else .error (.at .expectedObjectCommaOrEnd (b :: rest))

/-- Making a count of a number takes no bytes. -/
theorem length_countOf {n : Numeral} {s rest : Bytes} {v : UInt64}
    (h : countOf n s = .ok (v, rest)) : rest = s := by
  unfold countOf at h
  split at h
  · exact (Prod.mk.inj (Except.ok.inj h)).2.symm
  · simp at h
  · simp at h

/-- Reading a count leaves no more than it was given. -/
theorem length_readCount {b : UInt8} {s rest : Bytes} {v : UInt64}
    (h : readCount b s = .ok (v, rest)) : rest.length ≤ s.length := by
  unfold readCount at h
  split at h
  · split at h
    · simp at h
    · next h₁ =>
      have := length_readNumber h₁
      rw [length_countOf h]
      omega
  · split at h
    · split at h
      · simp at h
      · next h₁ =>
        have := length_readNumber h₁
        rw [length_countOf h]
        rw [List.length_cons] at this
        omega
    · simp at h

/-- A quoted string ends with a quote, which is taken. -/
theorem length_readQuoted {b : UInt8} {s rest : Bytes} {t : String}
    (h : readQuoted b s = .ok (t, rest)) : rest.length < s.length := by
  unfold readQuoted at h
  split at h
  · exact length_readText h
  · simp at h

/-- Reading a value leaves no more than it was given. -/
theorem length_readValue {kind : Kind} {s rest : Bytes} {v : kind.Carrier}
    (h : readValue kind s = .ok (v, rest)) : rest.length ≤ s.length := by
  have hs := length_skipBlanks_le s
  unfold readValue at h
  split at h
  · simp at h
  · next b r hr =>
    rw [hr, List.length_cons] at hs
    cases kind with
    | text =>
      have := length_readQuoted h
      omega
    | count =>
      have := length_readCount h
      omega

/-- Reading a member leaves no more than it was given. -/
theorem length_readMember {ms : Members} {d e : Draft ms} {name : String} {s rest : Bytes}
    (h : d.readMember ms name s = .ok (e, rest)) : rest.length ≤ s.length := by
  induction ms generalizing s rest with
  | nil =>
    simp only [Draft.readMember] at h
    split at h
    · simp at h
    · next h₁ =>
      split at h
      · simp at h
      · next h₂ =>
        rw [← (Prod.mk.inj (Except.ok.inj h)).2]
        have := length_readColon h₁
        have := length_skipValue h₂
        omega
  | cons m ms ih =>
    obtain ⟨v, d⟩ := d
    simp only [Draft.readMember] at h
    split at h
    · split at h
      · simp at h
      · split at h
        · simp at h
        · next h₁ =>
          split at h
          · simp at h
          · next h₂ =>
            rw [← (Prod.mk.inj (Except.ok.inj h)).2]
            have := length_readColon h₁
            have := length_readValue h₂
            omega
    · split at h
      · simp at h
      · next h₁ =>
        rw [← (Prod.mk.inj (Except.ok.inj h)).2]
        exact ih h₁

/-- A name that has begun ends with a quote, which is taken. -/
theorem length_openName {b : UInt8} {s rest : Bytes} {name : String}
    (h : openName b s = .ok (some (name, rest))) : rest.length < s.length := by
  unfold openName at h
  split at h
  · split at h
    · simp at h
    · next h₁ =>
      obtain ⟨-, rfl⟩ := Prod.mk.inj (Option.some.inj (Except.ok.inj h))
      exact length_readText h₁
  · simp at h

/-- A name ends with a quote, which is taken. -/
theorem length_readName {isFirst : Bool} {s rest : Bytes} {name : String}
    (h : readName isFirst s = .ok (some (name, rest))) : rest.length < s.length := by
  have hs := length_skipBlanks_le s
  unfold readName at h
  split at h
  · simp at h
  · next b r hr =>
    rw [hr, List.length_cons] at hs
    split at h
    · simp at h
    · split at h
      · have := length_openName h
        omega
      · split at h
        · have hs' := length_skipBlanks_le r
          split at h
          · simp at h
          · next hr' =>
            rw [hr', List.length_cons] at hs'
            split at h
            · simp at h
            · have := length_openName h
              omega
        · simp at h

/-- Reads the members of an object up to its end. -/
def readMembers (ms : Members) (d : Draft ms) (isFirst : Bool) (s : Bytes) :
    Except Fault (Record ms × Bytes) :=
  match hn : readName isFirst s with
  | .error f => .error f
  | .ok none =>
    match d.complete ms with
    | .ok r => .ok (r, beyond .object s)
    | .error name => .error (.before (.missingField name) (beyond .object s))
  | .ok (some (name, rest)) =>
    match hm : d.readMember ms name rest with
    | .error f => .error f
    | .ok (d, rest) =>
      have := length_readName hn
      have := length_readMember hm
      readMembers ms d false rest
termination_by s.length

/-- Finds the next item of a list, or nothing at its end. -/
def readSeparator (isFirst : Bool) (s : Bytes) : Except Fault (Option Bytes) :=
  match skipBlanks s with
  | [] => .error (.at .eofList [])
  | b :: rest =>
    if b = Ascii.closeBracket then .ok none
    else if isFirst then .ok (some (b :: rest))
    else if b = Ascii.comma then
      match skipBlanks rest with
      | [] => .error (.at .eofValue [])
      | c :: rest =>
        if c = Ascii.closeBracket then .error (.at .trailingComma (c :: rest))
        else .ok (some (c :: rest))
    else .error (.at .expectedListCommaOrEnd (b :: rest))

/-- Reads the values of a list, of which `done` have been read. -/
def readItems (expected : String) : (ms : Members) → (done : Nat) → Bytes →
    Except Fault (Record ms × Bytes)
  | [], _, s => .ok ((), s)
  | m :: ms, done, s =>
    match readSeparator (done == 0) s with
    | .error f => .error f
    | .ok none => .error (.before (.invalidLength done expected) (beyond .list s))
    | .ok (some s) =>
      match readValue m.2 s with
      | .error f => .error f
      | .ok (v, s) =>
        match readItems expected ms (done + 1) s with
        | .error f => .error f
        | .ok (r, rest) => .ok ((v, r), rest)

/-- Reads the end of a list, after its last expected item. -/
def readListEnd (s : Bytes) : Except Fault Bytes :=
  match skipBlanks s with
  | [] => .error (.at .eofList [])
  | b :: rest =>
    if b = Ascii.closeBracket then .ok rest
    else if b = Ascii.comma then
      match skipBlanks rest with
      | [] => .error (.at .trailingCharacters [])
      | c :: rest =>
        .error (.at (if c = Ascii.closeBracket then .trailingComma else .trailingCharacters)
          (c :: rest))
    else .error (.at .trailingCharacters (b :: rest))

/-- Reads a record from an object or a list. -/
def readRecord (title : String) (ms : Members) (s : Bytes) : Except Fault (Record ms × Bytes) :=
  match skipBlanks s with
  | [] => .error (.at .eofValue [])
  | b :: rest =>
    if b = Ascii.openBracket then
      match readItems s!"struct {title} with {ms.length} elements" ms 0 rest with
      | .error f => .error f
      | .ok (r, s) =>
        match readListEnd s with
        | .error f => .error f
        | .ok rest => .ok (r, rest)
    else if b = Ascii.openBrace then readMembers ms (Draft.empty ms) true rest
    else .error (wrongKind s!"struct {title}" b rest)

/-- Reads a whole text as a record. Only blanks may follow it. -/
def readWhole (title : String) (ms : Members) (s : Bytes) : Except Fault (Record ms) :=
  match readRecord title ms s with
  | .error f => .error f
  | .ok (r, rest) =>
    match skipBlanks rest with
    | [] => .ok r
    | b :: rest => .error (.at .trailingCharacters (b :: rest))

/-- Parses a text as a record. -/
def parseRecord (title : String) (ms : Members) (text : Bytes) : Except Error (Record ms) :=
  match readWhole title ms text with
  | .error f => .error (f.locate text)
  | .ok r => .ok r

end Sealing.Json
