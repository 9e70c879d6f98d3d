import Sealing.Aes.Field
import Sealing.Bytes.Basic

/-!
# The AES block function

A block is sixteen bytes, column by column. A key of 16, 24 or 32 bytes is expanded into one block
per round; encryption adds the first of them and then runs one round for each of the others, the
last round without mixing columns. The width of a block is part of its type, so every round keeps
it.
-/

namespace Sealing

/-- Sixteen bytes: the unit of AES, its initial vector and its feedback register. -/
abbrev Block := Vector UInt8 16

namespace Block

/-- The number of bytes of a block. -/
def size : Nat := 16

/-- The sixteen bytes of `b` from position `start`, with zeros past its end. -/
def window (b : Bytes) (start : Nat) : Block := Vector.ofFn fun i => b.getD (start + i) 0

/-- The first sixteen bytes of a byte string, with zeros past its end. -/
def ofBytes (b : Bytes) : Block := window b 0

/-- The bytes of a block. -/
def bytes (b : Block) : Bytes := b.toList

@[simp] theorem length_bytes (b : Block) : b.bytes.length = 16 := by
  simp [bytes]

/-- The bytes of a window are those from its start on. -/
theorem getElem_window (b : Bytes) (start i : Nat) (hi : i < 16) :
    (window b start)[i] = b.getD (start + i) 0 := by
  simp [window]

/-- A block survives being written out and read back. -/
@[simp] theorem ofBytes_bytes (b : Block) : ofBytes b.bytes = b := by
  ext i hi
  simp [ofBytes, window, bytes]

end Block

namespace Aes

/-- Key lengths in bytes, in increasing order. -/
def keyLengths : List Nat := [16, 24, 32]

/-- Four bytes of a key schedule. -/
abbrev Word := Vector UInt8 4

/-- Bytewise exclusive or of two words. -/
def Word.add (a b : Word) : Word := Vector.zipWith (· ^^^ ·) a b

/-- The word at position `i` of a byte string, with zeros past its end. -/
def Word.ofBytes (b : Bytes) (i : Nat) : Word := Vector.ofFn fun j => b.getD (4 * i + j) 0

/-- The round constant of the `n`th pass over the key, counted from one. -/
def roundConstant : Nat → UInt8
  | 0 => 0x8D
  | n + 1 => double (roundConstant n)

/-- What is added to the word one key length back: the previous word, transformed at the start of
each pass and, for the longest keys, substituted in the middle of it. -/
def scheduleTerm (keyWords i : Nat) (previous : Word) : Word :=
  if i % keyWords = 0 then
    let rotated : Word := #v[previous[1], previous[2], previous[3], previous[0]]
    Word.add (rotated.map substituted) #v[roundConstant (i / keyWords), 0, 0, 0]
  else if keyWords > 6 ∧ i % keyWords = 4 then previous.map substituted
  else previous

/-- The expanded key: the words of the key, extended to four for each round key. -/
def schedule (key : Bytes) : Array Word :=
  let keyWords := key.length / 4
  let start := ((List.range keyWords).map (Word.ofBytes key)).toArray
  (List.range' keyWords (3 * keyWords + 28)).foldl
    (fun ws i => ws.push (Word.add (ws.getD (i - keyWords) default)
      (scheduleTerm keyWords i (ws.getD (i - 1) default)))) start

/-- The blocks added before the first round and at the end of each round. -/
def roundKeys (key : Bytes) : List Block :=
  let words := schedule key
  (List.range (key.length / 4 + 7)).map fun r =>
    Vector.ofFn fun i => (words.getD (4 * r + i / 4) default).toArray.getD (i % 4) 0

/-- Adds a round key. -/
def addKey (key state : Block) : Block := Vector.zipWith (· ^^^ ·) state key

/-- Substitutes every byte and rotates row `r` by `r` columns. -/
def substituteShift (s : Block) : Block :=
  Vector.ofFn fun i =>
    substituted (s.get ⟨(i.val + 4 * (i.val % 4)) % 16, Nat.mod_lt _ (by decide)⟩)

/-- Multiplies each column by the fixed polynomial 3x³ + x² + x + 2. -/
def mixColumns (s : Block) : Block :=
  Vector.ofFn fun i =>
    let entry (k : Nat) : UInt8 := s.toArray.getD (4 * (i.val / 4) + (i.val + k) % 4) 0
    double (entry 0) ^^^ (double (entry 1) ^^^ entry 1) ^^^ entry 2 ^^^ entry 3

/-- The rounds, one for each key; the last does not mix columns. -/
def rounds : List Block → Block → Block
  | [], s => s
  | [k], s => addKey k (substituteShift s)
  | k :: ks, s => rounds ks (addKey k (mixColumns (substituteShift s)))

/-- Encryption of one block under expanded keys. -/
def encryptWith : List Block → Block → Block
  | [], s => s
  | k :: ks, s => rounds ks (addKey k s)

/-- Encryption of one block under a key of 16, 24 or 32 bytes. -/
def encryptBlock (key : Bytes) : Block → Block := encryptWith (roundKeys key)

end Aes

end Sealing
