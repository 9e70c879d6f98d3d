import Sealing.Json.Literal
import Sealing.Json.Number

/-!
# Ignored values

The value of a member that nobody asked for is skipped. It has to be well formed, but its depth is
not limited: the containers that are still open stand on a stack of frames. Every step takes at
least one byte of the text.
-/

namespace Sealing.Json

/-- A container that is still open. -/
inductive Frame where
  | list
  | object
deriving DecidableEq, Repr

namespace Frame

/-- The byte that closes a container. -/
def close : Frame → UInt8
  | list => Ascii.closeBracket
  | object => Ascii.closeBrace

/-- The fault of a text that ends inside a container. -/
def unfinished : Frame → Cause
  | list => .eofList
  | object => .eofObject

/-- The fault of an item that neither a comma nor the end follows. -/
def commaOrEnd : Frame → Cause
  | list => .expectedListCommaOrEnd
  | object => .expectedObjectCommaOrEnd

end Frame

/-- What is expected next. -/
inductive Awaited where
  /-- A value. -/
  | value
  /-- The first item of the innermost container, or its end. -/
  | first
  /-- A comma, or the end of the innermost container. -/
  | next
deriving DecidableEq, Repr

/-- A place in a skipped value: what is expected, and the containers around it. -/
structure Place where
  awaited : Awaited
  stack : List Frame

/-- Skips the blanks and the colon after a name. -/
def readColon (s : Bytes) : Except Fault Bytes :=
  match skipBlanks s with
  | [] => .error (.at .eofObject [])
  | b :: rest => if b = Ascii.colon then .ok rest else .error (.at .expectedColon (b :: rest))

/-- Skips the name of a member and its colon. -/
def skipName (s : Bytes) : Except Fault Bytes :=
  match skipBlanks s with
  | [] => .error (.at .eofObject [])
  | b :: rest =>
    if b = Ascii.quotation then
      match skipText rest with
      | .error f => .error f
      | .ok rest => readColon rest
    else .error (.at .keyMustBeString (b :: rest))

/-- The place after a value inside the given containers. -/
def afterValue (stack : List Frame) (result : Except Fault Bytes) : Except Fault (Place × Bytes) :=
  match result with
  | .error f => .error f
  | .ok rest => .ok (⟨.next, stack⟩, rest)

/-- Skips a value, or only the opening of a container. -/
def stepValue (stack : List Frame) (s : Bytes) : Except Fault (Place × Bytes) :=
  match skipBlanks s with
  | [] => .error (.at .eofValue [])
  | b :: rest =>
    if b = 0x6E then afterValue stack (readWord nullTail rest)
    else if b = 0x74 then afterValue stack (readWord trueTail rest)
    else if b = 0x66 then afterValue stack (readWord falseTail rest)
    else if b = Ascii.minus then afterValue stack (skipNumber rest)
    else if Ascii.isDigit b then afterValue stack (skipNumber (b :: rest))
    else if b = Ascii.quotation then afterValue stack (skipText rest)
    else if b = Ascii.openBracket then .ok (⟨.first, .list :: stack⟩, rest)
    else if b = Ascii.openBrace then .ok (⟨.first, .object :: stack⟩, rest)
    else .error (.at .expectedValue (b :: rest))

/-- The start of an item: the name in front of it is skipped, if its container has names. -/
def stepItem (frame : Frame) (stack : List Frame) (s : Bytes) : Except Fault (Place × Bytes) :=
  match frame with
  | .list => stepValue (frame :: stack) s
  | .object =>
    match skipName s with
    | .error f => .error f
    | .ok rest => .ok (⟨.value, frame :: stack⟩, rest)

/-- Skips the opening, the value or the separator that comes next. -/
def Place.step (p : Place) (s : Bytes) : Except Fault (Place × Bytes) :=
  match p.awaited, p.stack with
  | .value, stack => stepValue stack s
  | _, [] => .ok (⟨.next, []⟩, s)
  | .first, frame :: stack =>
    match skipBlanks s with
    | [] => .error (.at frame.unfinished [])
    | b :: rest =>
      if b = frame.close then .ok (⟨.next, stack⟩, rest) else stepItem frame stack (b :: rest)
  | .next, frame :: stack =>
    match skipBlanks s with
    | [] => .error (.at frame.unfinished [])
    | b :: rest =>
      if b = Ascii.comma then
        match frame with
        | .list => .ok (⟨.value, frame :: stack⟩, rest)
        | .object => stepItem frame stack rest
      else if b = frame.close then .ok (⟨.next, stack⟩, rest)
      else .error (.at frame.commaOrEnd (b :: rest))

/-- Whether nothing is left to skip. -/
def Place.isDone (p : Place) : Bool := p.awaited != .value && p.stack.isEmpty

/-- A colon is at least one byte. -/
theorem length_readColon {s rest : Bytes} (h : readColon s = .ok rest) :
    rest.length < s.length := by
  have hs := length_skipBlanks_le s
  unfold readColon at h
  split at h
  · simp at h
  · next b r hr =>
    rw [hr, List.length_cons] at hs
    split at h
    · rw [← Except.ok.inj h]
      omega
    · simp at h

/-- A name and its colon are at least one byte. -/
theorem length_skipName {s rest : Bytes} (h : skipName s = .ok rest) :
    rest.length < s.length := by
  have hs := length_skipBlanks_le s
  unfold skipName at h
  split at h
  · simp at h
  · next b r hr =>
    rw [hr, List.length_cons] at hs
    split at h
    · split at h
      · simp at h
      · next h₁ =>
        have := length_skipText h₁
        have := length_readColon h
        omega
    · simp at h

/-- Behind a value nothing is taken but what the value has left. -/
theorem length_afterValue {stack : List Frame} {result : Except Fault Bytes} {p : Place}
    {rest : Bytes} (h : afterValue stack result = .ok (p, rest)) : result = .ok rest := by
  unfold afterValue at h
  split at h
  · simp at h
  · rw [(Prod.mk.inj (Except.ok.inj h)).2]

/-- Every step into a value takes at least one byte. -/
theorem length_stepValue {stack : List Frame} {s rest : Bytes} {p : Place}
    (h : stepValue stack s = .ok (p, rest)) : rest.length < s.length := by
  have hs := length_skipBlanks_le s
  unfold stepValue at h
  split at h
  · simp at h
  · next b r hr =>
    rw [hr, List.length_cons] at hs
    have hword {word : Bytes} (hw : afterValue stack (readWord word r) = .ok (p, rest)) :
        rest.length < s.length := by
      have := length_readWord (length_afterValue hw)
      omega
    split at h
    · exact hword h
    · split at h
      · exact hword h
      · split at h
        · exact hword h
        · split at h
          · have := length_skipNumber (length_afterValue h)
            omega
          · split at h
            · have := length_skipNumber (length_afterValue h)
              rw [List.length_cons] at this
              omega
            · split at h
              · have := length_skipText (length_afterValue h)
                omega
              · split at h
                · rw [← (Prod.mk.inj (Except.ok.inj h)).2]
                  omega
                · split at h
                  · rw [← (Prod.mk.inj (Except.ok.inj h)).2]
                    omega
                  · simp at h

/-- Every step between values takes at least one byte. -/
theorem length_stepItem {frame : Frame} {stack : List Frame} {s rest : Bytes} {p : Place}
    (h : stepItem frame stack s = .ok (p, rest)) : rest.length < s.length := by
  unfold stepItem at h
  split at h
  · exact length_stepValue h
  · split at h
    · simp at h
    · next h₁ =>
      rw [← (Prod.mk.inj (Except.ok.inj h)).2]
      exact length_skipName h₁

/-- A step that is not the last takes at least one byte. -/
theorem length_step {p q : Place} {s rest : Bytes} (hp : p.isDone = false)
    (h : p.step s = .ok (q, rest)) : rest.length < s.length := by
  have hs := length_skipBlanks_le s
  unfold Place.step at h
  split at h
  · exact length_stepValue h
  · simp_all [Place.isDone]
  · split at h
    · simp at h
    · next hr =>
      rw [hr, List.length_cons] at hs
      split at h
      · rw [← (Prod.mk.inj (Except.ok.inj h)).2]
        omega
      · have := length_stepItem h
        rw [List.length_cons] at this
        omega
  · split at h
    · simp at h
    · next hr =>
      rw [hr, List.length_cons] at hs
      split at h
      · split at h
        · rw [← (Prod.mk.inj (Except.ok.inj h)).2]
          omega
        · have := length_stepItem h
          omega
      · split at h
        · rw [← (Prod.mk.inj (Except.ok.inj h)).2]
          omega
        · simp at h

/-- Skips everything from a place to the end of the value. -/
def skipFrom (p : Place) (s : Bytes) : Except Fault Bytes :=
  if hp : p.isDone then .ok s
  else
    match h : p.step s with
    | .error f => .error f
    | .ok (q, rest) =>
      have := length_step (by simpa using hp) h
      skipFrom q rest
termination_by s.length

/-- Skips one value. -/
def skipValue (s : Bytes) : Except Fault Bytes := skipFrom ⟨.value, []⟩ s

/-- Skipping leaves no more than it was given. -/
theorem length_skipFrom_le {p : Place} {s rest : Bytes} (h : skipFrom p s = .ok rest) :
    rest.length ≤ s.length := by
  fun_induction skipFrom p s with
  | case1 => exact Nat.le_of_eq (by rw [← Except.ok.inj h])
  | case2 => simp at h
  | case3 p s hp q r hstep hlt ih =>
    have := ih h
    omega

/-- A value has at least one byte. -/
theorem length_skipValue {s rest : Bytes} (h : skipValue s = .ok rest) :
    rest.length < s.length := by
  rw [skipValue, skipFrom] at h
  simp only [Place.isDone, bne_self_eq_false, Bool.false_and, Bool.false_eq_true, dite_false] at h
  split at h
  · simp at h
  · next hstep =>
    have := length_step (by rfl) hstep
    have := length_skipFrom_le h
    omega

end Sealing.Json
