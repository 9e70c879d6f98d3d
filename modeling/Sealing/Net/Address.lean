/-!
# Network addresses

An address is four bytes or eight groups of sixteen bits. It is read from its usual texts: decimal
bytes without needless zeros, hexadecimal groups with at most one gap of zeros, the last two groups
possibly as four bytes. It is written in one canonical way, with the gap at the first longest run of
zeros.
-/

namespace Sealing.Net

/-- An address of four bytes. -/
abbrev Ipv4 := Vector UInt8 4

/-- An address of eight groups. -/
abbrev Ipv6 := Vector UInt16 8

/-- An address of either kind. -/
inductive Address where
  | v4 (a : Ipv4)
  | v6 (a : Ipv6)
deriving DecidableEq, Repr

/-- An address and a port. -/
structure Socket where
  address : Address
  port : UInt16
deriving DecidableEq, Repr

/-- The value of a digit in either letter case. -/
def digit? (radix : Nat) (c : Char) : Option Nat :=
  let value :=
    if '0' ≤ c ∧ c ≤ '9' then some (c.toNat - '0'.toNat)
    else if 'a' ≤ c ∧ c ≤ 'z' then some (c.toNat - 'a'.toNat + 10)
    else if 'A' ≤ c ∧ c ≤ 'Z' then some (c.toNat - 'A'.toNat + 10)
    else none
  value.filter (· < radix)

/-- The shape of a number in an address. -/
structure NumberShape where
  radix : Nat
  maxDigits : Nat
  /-- Whether a number of several digits may start with a zero. -/
  leadingZeros : Bool

/-- A byte of an address. -/
def byteShape : NumberShape := ⟨10, 3, false⟩

/-- A group of an address. -/
def groupShape : NumberShape := ⟨16, 4, true⟩

/-- Reads all digits at the front, which must make up a number of the shape. -/
def readNumber (shape : NumberShape) (s : List Char) : Option (Nat × List Char) :=
  let run := s.takeWhile fun c => (digit? shape.radix c).isSome
  let overlong := !shape.leadingZeros && run.head? == some '0' && run.length > 1
  if run = [] ∨ shape.maxDigits < run.length ∨ overlong then none
  else
    some (run.foldl (fun n c => n * shape.radix + (digit? shape.radix c).getD 0) 0,
      s.drop run.length)

/-- Reads a byte. -/
def readByte (s : List Char) : Option (UInt8 × List Char) := do
  let (n, rest) ← readNumber byteShape s
  if n < 256 then some (UInt8.ofNat n, rest) else none

/-- Reads one given character. -/
def readChar (expected : Char) : List Char → Option (List Char)
  | c :: s => if c = expected then some s else none
  | [] => none

/-- Reads four bytes with points between them. -/
def readIpv4 (s : List Char) : Option (Ipv4 × List Char) := do
  let (a, s) ← readByte s
  let (b, s) ← readByte (← readChar '.' s)
  let (c, s) ← readByte (← readChar '.' s)
  let (d, s) ← readByte (← readChar '.' s)
  some (#v[a, b, c, d], s)

/-- Two bytes as a group. -/
def groupOf (high low : UInt8) : UInt16 := UInt16.ofNat (high.toNat * 256 + low.toNat)

/-- Skips the colon in front of every group but the first. -/
def beforeGroup (isFirst : Bool) (s : List Char) : Option (List Char) :=
  if isFirst then some s else readChar ':' s

/-- Some groups, whether four bytes stand at their end, and what is left. -/
structure Groups where
  groups : List UInt16
  endsInBytes : Bool
  rest : List Char

/-- Reads as many groups as there are, up to a limit. -/
def readGroups : (limit : Nat) → (isFirst : Bool) → List Char → Groups
  | 0, _, s => ⟨[], false, s⟩
  | limit + 1, isFirst, s =>
    match if limit = 0 then none else (beforeGroup isFirst s).bind readIpv4 with
    | some (v, rest) => ⟨[groupOf v[0] v[1], groupOf v[2] v[3]], true, rest⟩
    | none =>
      match (beforeGroup isFirst s).bind (readNumber groupShape) with
      | some (n, rest) =>
        let more := readGroups limit false rest
        { more with groups := UInt16.ofNat n :: more.groups }
      | none => ⟨[], false, s⟩

/-- Eight groups, with a gap of zeros between a front and a back. -/
def spread (front back : List UInt16) : Ipv6 :=
  Vector.ofFn fun i =>
    if i.val < 8 - back.length then front.getD i.val 0
    else back.getD (i.val - (8 - back.length)) 0

/-- Reads eight groups, or fewer around a gap. -/
def readIpv6 (s : List Char) : Option (Ipv6 × List Char) :=
  let front := readGroups 8 true s
  if front.groups.length = 8 then some (spread front.groups [], front.rest)
  else if front.endsInBytes then none
  else do
    let s ← readChar ':' front.rest
    let s ← readChar ':' s
    let back := readGroups (7 - front.groups.length) true s
    some (spread front.groups back.groups, back.rest)

namespace Address

/-- Reads an address. Four bytes are tried first, and nothing may follow. -/
def parse? (text : String) : Option Address :=
  let found := (readIpv4 text.toList).map (fun (a, rest) => (v4 a, rest)) |>.or
    ((readIpv6 text.toList).map fun (a, rest) => (v6 a, rest))
  match found with
  | some (a, []) => some a
  | _ => none

end Address

/-- The text of some bytes. -/
def bytesText (bytes : List UInt8) : String :=
  String.intercalate "." (bytes.map fun b => toString b.toNat)

/-- The text of four bytes. -/
def Ipv4.render (a : Ipv4) : String := bytesText a.toList

/-- The text of a group. -/
def groupText (g : UInt16) : String := String.ofList (Nat.toDigits 16 g.toNat)

/-- The length of the run of zeros at the front. -/
def zeroRun (groups : List UInt16) : Nat := (groups.takeWhile (· == 0)).length

/-- Where the first longest run of zeros starts, and its length. -/
def longestZeroRun (groups : List UInt16) : Nat × Nat :=
  (List.range groups.length).foldl
    (fun best i => let run := zeroRun (groups.drop i); if best.2 < run then (i, run) else best)
    (0, 0)

/-- The text of a list of groups. -/
def groupsText (groups : List UInt16) : String := String.intercalate ":" (groups.map groupText)

/-- The text of eight groups. An address that stands for four bytes shows them. -/
def Ipv6.render (a : Ipv6) : String :=
  let groups := a.toList
  if groups.take 6 = [0, 0, 0, 0, 0, 0xFFFF] then
    let bytes (g : UInt16) : List UInt8 := [(g >>> 8).toUInt8, g.toUInt8]
    "::ffff:" ++ bytesText ((groups.drop 6).flatMap bytes)
  else
    let (start, length) := longestZeroRun groups
    if length ≤ 1 then groupsText groups
    else groupsText (groups.take start) ++ "::" ++ groupsText (groups.drop (start + length))

/-- The text of an address and a port. Groups stand in brackets. -/
def Socket.render (s : Socket) : String :=
  match s.address with
  | .v4 a => s!"{Ipv4.render a}:{s.port.toNat}"
  | .v6 a => s!"[{Ipv6.render a}]:{s.port.toNat}"

end Sealing.Net
