import Sealing.Json.Ignored
import Sealing.Proofs.Literal

/-!
# The grammar of JSON

Which byte strings are the written form of a value, and of which. The definitions follow the
grammar of the format and mention no reader. Names and values that are looked at stand for texts:
their escapes are resolved, and every surrogate belongs to a pair. Everything else only has a form,
so any four hexadecimal digits make a unit there.

The repertoire says what a literal may consist of besides its escapes. In a JSON text these are
characters. A reader that only looks for the end of a literal takes any bytes in their place.
-/

namespace Sealing.Json

/-- Bytes that may stand between tokens. -/
def IsBlanks (s : Bytes) : Prop :=
  ∀ b ∈ s, b ∈ [Ascii.space, Ascii.tab, Ascii.lineFeed, Ascii.carriageReturn]

/-! ## Numbers -/

/-- One digit or more. -/
structure IsDigitRun (s : Bytes) : Prop where
  ne_nil : s ≠ []
  isDigit : ∀ b ∈ s, Ascii.isDigit b = true

/-- The integer part of a number has no needless zero in front. -/
def IsWhole (s : Bytes) : Prop :=
  s = [Ascii.zero] ∨ IsDigitRun s ∧ s.head? ≠ some Ascii.zero

/-- The fraction of a number, if it has one. -/
def IsFraction (s : Bytes) : Prop := s = [] ∨ ∃ ds, IsDigitRun ds ∧ s = Ascii.point :: ds

/-- The exponent of a number, if it has one. -/
def IsExponent (s : Bytes) : Prop :=
  s = [] ∨ ∃ letter sign ds, letter ∈ [0x65, 0x45] ∧ sign ∈ [[], [Ascii.plus], [Ascii.minus]] ∧
    IsDigitRun ds ∧ s = letter :: (sign ++ ds)

/-- A number without its sign. -/
def IsUnsigned (s : Bytes) : Prop :=
  ∃ whole fraction exponent, IsWhole whole ∧ IsFraction fraction ∧ IsExponent exponent ∧
    s = whole ++ (fraction ++ exponent)

/-- A number. Neither its length nor its magnitude is limited. -/
def IsNumber (s : Bytes) : Prop := IsUnsigned s ∨ ∃ t, IsUnsigned t ∧ s = Ascii.minus :: t

/-! ## Literals -/

/-- The letters of the short escapes, and the characters they stand for. -/
def shortEscapes : List (UInt8 × Char) :=
  [(0x22, '"'), (0x5C, '\\'), (0x2F, '/'), (0x62, '\x08'), (0x66, '\x0C'), (0x6E, '\n'),
    (0x72, '\r'), (0x74, '\t')]

/-- The hexadecimal digits of a value, in either case of letters. -/
def IsHexDigit (v : Nat) (b : UInt8) : Prop :=
  (Ascii.bytes "0123456789abcdef")[v]? = some b ∨ (Ascii.bytes "0123456789ABCDEF")[v]? = some b

/-- Four hexadecimal digits write a unit. -/
inductive WritesUnit : Nat → Bytes → Prop
  | digits {v w x y : Nat} {a b c d : UInt8} :
      IsHexDigit v a → IsHexDigit w b → IsHexDigit x c → IsHexDigit y d →
      WritesUnit (((v * 16 + w) * 16 + x) * 16 + y) [a, b, c, d]

/-- The form of an escape, after its backslash. -/
inductive IsEscape : Bytes → Prop
  | letter {l : UInt8} {c : Char} : (l, c) ∈ shortEscapes → IsEscape [l]
  | unit {n : Nat} {ds : Bytes} : WritesUnit n ds → IsEscape (unitLetter :: ds)

/-- The escapes of a character, after the backslash. A character past the first `0x10000` is
written as the pair of its surrogates. -/
inductive Escapes : Char → Bytes → Prop
  | letter {l : UInt8} {c : Char} : (l, c) ∈ shortEscapes → Escapes c [l]
  | unit {c : Char} {ds : Bytes} : WritesUnit c.toNat ds → Escapes c (unitLetter :: ds)
  | pair {c : Char} {ds ds' : Bytes} : 0x10000 ≤ c.toNat →
      WritesUnit (0xD800 + (c.toNat - 0x10000) / 0x400) ds →
      WritesUnit (0xDC00 + (c.toNat - 0x10000) % 0x400) ds' →
      Escapes c (unitLetter :: (ds ++ Ascii.reverseSolidus :: unitLetter :: ds'))

/-- A character that may stand for itself. -/
structure IsUnescaped (c : Char) : Prop where
  ne_quotation : c ≠ '"'
  ne_reverseSolidus : c ≠ '\\'
  not_isControl : ¬c.toNat < 0x20

/-- What stands for itself in a literal: the characters of a text, or any bytes. -/
inductive Repertoire where
  | characters
  | bytes

/-- The pieces that stand for themselves. -/
def Repertoire.Plain : Repertoire → Bytes → Prop
  | characters, s => ∃ c, IsUnescaped c ∧ s = String.utf8EncodeChar c
  | bytes, s => ∃ b, IsPlain b ∧ s = [b]

/-- What may stand between quotation marks. -/
inductive Content (α : Repertoire) : Bytes → Prop
  | nil : Content α []
  | plain {p s : Bytes} : α.Plain p → Content α s → Content α (p ++ s)
  | escape {e s : Bytes} : IsEscape e → Content α s →
      Content α (Ascii.reverseSolidus :: (e ++ s))

/-- What may stand between quotation marks for a text. -/
inductive Denotes : Bytes → List Char → Prop
  | nil : Denotes [] []
  | plain {c : Char} {s : Bytes} {cs : List Char} : IsUnescaped c → Denotes s cs →
      Denotes (String.utf8EncodeChar c ++ s) (c :: cs)
  | escape {c : Char} {e s : Bytes} {cs : List Char} : Escapes c e → Denotes s cs →
      Denotes (Ascii.reverseSolidus :: (e ++ s)) (c :: cs)

/-- The literals of a text. -/
def Quotes (s : Bytes) (t : String) : Prop :=
  ∃ content, Denotes content t.toList ∧
    s = Ascii.quotation :: (content ++ [Ascii.quotation])

/-! ## Values -/

/-- The constants. -/
def words : List Bytes := [Ascii.bytes "null", Ascii.bytes "true", Ascii.bytes "false"]

/-- The byte that opens a container. -/
def Frame.opening : Frame → UInt8
  | list => Ascii.openBracket
  | object => Ascii.openBrace

/-- A name of some form and the colon behind it, with blanks around both. -/
def IsLabel (Name : Bytes → Prop) (s : Bytes) : Prop :=
  ∃ before name between after, IsBlanks before ∧ Name name ∧ IsBlanks between ∧ IsBlanks after ∧
    s = before ++ Ascii.quotation :: (name ++ Ascii.quotation ::
      (between ++ Ascii.colon :: after))

/-- What stands in front of the value of an item. -/
def Frame.Introduces (α : Repertoire) : Frame → Bytes → Prop
  | list => IsBlanks
  | object => IsLabel (Content α)

/-- What the grammar derives: a value, or the items of a container that is not empty. -/
inductive Symbol where
  | value
  | items (frame : Frame)

/-- The written forms of values and items. Containers may be nested to any depth. -/
inductive Derives (α : Repertoire) : Symbol → Bytes → Prop
  | word {s : Bytes} : s ∈ words → Derives α .value s
  | number {s : Bytes} : IsNumber s → Derives α .value s
  | text {s : Bytes} : Content α s →
      Derives α .value (Ascii.quotation :: (s ++ [Ascii.quotation]))
  | empty {frame : Frame} {blanks : Bytes} : IsBlanks blanks →
      Derives α .value (frame.opening :: (blanks ++ [frame.close]))
  | container {frame : Frame} {s : Bytes} : Derives α (.items frame) s →
      Derives α .value (frame.opening :: (s ++ [frame.close]))
  | last {frame : Frame} {label v blanks : Bytes} : frame.Introduces α label →
      Derives α .value v → IsBlanks blanks → Derives α (.items frame) (label ++ (v ++ blanks))
  | more {frame : Frame} {label v blanks s : Bytes} : frame.Introduces α label →
      Derives α .value v → IsBlanks blanks → Derives α (.items frame) s →
      Derives α (.items frame) (label ++ (v ++ (blanks ++ Ascii.comma :: s)))

/-- The written forms of members with the given names and values. -/
inductive MembersOf (α : Repertoire) : List (String × Bytes) → Bytes → Prop
  | last {name : String} {label v blanks : Bytes} : IsLabel (Denotes · name.toList) label →
      Derives α .value v → IsBlanks blanks → MembersOf α [(name, v)] (label ++ (v ++ blanks))
  | more {name : String} {ms : List (String × Bytes)} {label v blanks s : Bytes} :
      IsLabel (Denotes · name.toList) label → Derives α .value v → IsBlanks blanks →
      MembersOf α ms s →
      MembersOf α ((name, v) :: ms) (label ++ (v ++ (blanks ++ Ascii.comma :: s)))

/-- The written forms of the object with the given members. -/
inductive IsObject (α : Repertoire) : List (String × Bytes) → Bytes → Prop
  | empty {blanks : Bytes} : IsBlanks blanks →
      IsObject α [] (Ascii.openBrace :: (blanks ++ [Ascii.closeBrace]))
  | members {ms : List (String × Bytes)} {s : Bytes} : MembersOf α ms s →
      IsObject α ms (Ascii.openBrace :: (s ++ [Ascii.closeBrace]))

/-- The texts that consist of one object with the given members, with blanks around it. -/
def IsObjectText (α : Repertoire) (ms : List (String × Bytes)) (text : Bytes) : Prop :=
  ∃ before s after, IsBlanks before ∧ IsObject α ms s ∧ IsBlanks after ∧
    text = before ++ (s ++ after)

end Sealing.Json
