import Sealing.Json.Printer
import Sealing.Proofs.Utf8
import Mathlib.Tactic.SplitIfs

/-!
# Text literals are read back

The writer escapes what may not stand in a literal, and leaves every other character as it is. The
reader takes the bytes of one character at a time back, whatever follows them, so it recovers every
text from its literal: quotation marks, backslashes, control characters and characters of several
bytes included.
-/

namespace Sealing.Json

/-- A byte that stands for itself in a literal. -/
structure IsPlain (b : UInt8) : Prop where
  ne_quotation : b ≠ Ascii.quotation
  ne_reverseSolidus : b ≠ Ascii.reverseSolidus
  not_isControl : isControl b = false

/-- The content of a literal that starts with the given bytes. -/
def startingWith (front : Bytes) (result : Except Fault (Bytes × Bytes)) :
    Except Fault (Bytes × Bytes) :=
  result.map fun (content, rest) => (front ++ content, rest)

/-- Two fronts are a longer one. -/
theorem startingWith_startingWith (front front' : Bytes)
    (result : Except Fault (Bytes × Bytes)) :
    startingWith front (startingWith front' result) = startingWith (front ++ front') result := by
  cases result with
  | error f => rfl
  | ok r => simp only [startingWith, Except.map, List.append_assoc]

/-- A plain byte stands for itself. -/
theorem readContent_cons {b : UInt8} (h : IsPlain b) (s : Bytes) :
    readContent (b :: s) = startingWith [b] (readContent s) := by
  rw [readContent, if_neg h.ne_quotation, if_neg h.ne_reverseSolidus,
    if_neg (Bool.eq_false_iff.mp h.not_isControl)]
  cases readContent s <;> rfl

/-- Bytes that stand for themselves are read as they are. -/
theorem readContent_append {front : Bytes} (h : ∀ b ∈ front, IsPlain b) (s : Bytes) :
    readContent (front ++ s) = startingWith front (readContent s) := by
  induction front with
  | nil => cases hs : readContent s <;> simp [startingWith, Except.map, hs]
  | cons b front ih =>
    have hb : IsPlain b := h b List.mem_cons_self
    have hfront : ∀ c ∈ front, IsPlain c := fun c hc => h c (List.mem_cons_of_mem b hc)
    rw [List.cons_append, readContent_cons hb, ih hfront, startingWith_startingWith,
      List.singleton_append]

/-- An escape is read as the bytes it stands for. -/
theorem readContent_escape {s rest front : Bytes} (h : readEscape s = .ok (front, rest)) :
    readContent (Ascii.reverseSolidus :: s) = startingWith front (readContent rest) := by
  rw [readContent, if_neg (by decide), if_pos rfl]
  split
  · next hf =>
    rw [h] at hf
    contradiction
  · next hok =>
    rw [h] at hok
    obtain ⟨rfl, rfl⟩ := Prod.mk.inj (Except.ok.inj hok)
    cases readContent rest <;> rfl

/-- A character and the letter of its escape. -/
theorem readContent_letter {c letter : Char} (hc : c.toNat < 0x80) (hletter : letter.toNat < 0x80)
    (h : simpleEscape? (UInt8.ofNat letter.toNat) = some (UInt8.ofNat c.toNat)) (rest : Bytes) :
    readContent (Utf8.encodeChars ['\\', letter] ++ rest) =
      startingWith (String.utf8EncodeChar c) (readContent rest) := by
  have hescape : readEscape (UInt8.ofNat letter.toNat :: rest) =
      .ok (String.utf8EncodeChar c, rest) := by
    rw [readEscape, h, Utf8.utf8EncodeChar_of_lt hc]
  rw [← readContent_escape hescape, Utf8.encodeChars_cons, Utf8.encodeChars_cons,
    Utf8.utf8EncodeChar_of_lt hletter]
  rfl

private theorem toNat_hexDigit_lt {n : Nat} (h : n < 16) : (hexDigit n).toNat < 0x80 := by
  have hall : ∀ n < 16, (hexDigit n).toNat < 0x80 := by decide
  exact hall n h

/-- Two hexadecimal digits write the number of a control character. -/
theorem unitValue?_hexDigit {n : Nat} (h : n < 0x20) :
    unitValue? Ascii.zero Ascii.zero (UInt8.ofNat (hexDigit (n / 16)).toNat)
      (UInt8.ofNat (hexDigit (n % 16)).toNat) = some n := by
  have hall : ∀ n < 0x20, unitValue? Ascii.zero Ascii.zero
      (UInt8.ofNat (hexDigit (n / 16)).toNat) (UInt8.ofNat (hexDigit (n % 16)).toNat) = some n := by
    decide
  exact hall n h

/-- A control character and its escape by code. -/
theorem readContent_code {c : Char} (hc : c.toNat < 0x20) (rest : Bytes) :
    readContent (Utf8.encodeChars
        ['\\', 'u', '0', '0', hexDigit (c.toNat / 16), hexDigit (c.toNat % 16)] ++ rest) =
      startingWith (String.utf8EncodeChar c) (readContent rest) := by
  have hescape : readEscape (unitLetter :: Ascii.zero :: Ascii.zero ::
      UInt8.ofNat (hexDigit (c.toNat / 16)).toNat ::
      UInt8.ofNat (hexDigit (c.toNat % 16)).toNat :: rest) =
      .ok (String.utf8EncodeChar c, rest) := by
    have htrailing : isTrailing c.toNat = false := by
      simp only [isTrailing, Bool.and_eq_false_iff, decide_eq_false_iff_not]
      omega
    have hleading : isLeading c.toNat = false := by
      simp only [isLeading, Bool.and_eq_false_iff, decide_eq_false_iff_not]
      omega
    have hcode : readCoded (Ascii.zero :: Ascii.zero ::
        UInt8.ofNat (hexDigit (c.toNat / 16)).toNat ::
        UInt8.ofNat (hexDigit (c.toNat % 16)).toNat :: rest) =
        .ok (String.utf8EncodeChar c, rest) := by
      simp only [readCoded, readUnit, unitValue?_hexDigit hc, htrailing, hleading,
        characterBytes, Char.ofNat_toNat, Bool.false_eq_true, ite_false]
    rw [← hcode]
    rfl
  rw [← readContent_escape hescape]
  simp only [Utf8.encodeChars_cons, Utf8.encodeChars_nil,
    Utf8.utf8EncodeChar_of_lt (toNat_hexDigit_lt (show c.toNat / 16 < 16 by omega)),
    Utf8.utf8EncodeChar_of_lt (toNat_hexDigit_lt (show c.toNat % 16 < 16 by omega))]
  rfl

private theorem isPlain_of_toNat {b : UInt8} (hquotation : b.toNat ≠ 0x22)
    (hsolidus : b.toNat ≠ 0x5C) (hcontrol : ¬b.toNat < 0x20) : IsPlain b := by
  refine ⟨?_, ?_, ?_⟩
  · rintro rfl
    exact hquotation rfl
  · rintro rfl
    exact hsolidus rfl
  · rw [isControl, decide_eq_false_iff_not, UInt8.lt_iff_toNat_lt]
    exact hcontrol

/-- The bytes of a character that is not escaped stand for themselves. -/
theorem isPlain_of_mem_utf8EncodeChar {c : Char} (hquotation : c ≠ '"') (hsolidus : c ≠ '\\')
    (hcontrol : ¬c.toNat < 0x20) : ∀ b ∈ String.utf8EncodeChar c, IsPlain b := by
  intro b hb
  by_cases hascii : c.toNat < 0x80
  · rw [Utf8.utf8EncodeChar_of_lt hascii, List.mem_singleton] at hb
    have hbyte : b.toNat = c.toNat := by
      rw [hb, UInt8.toNat_ofNat']
      omega
    refine isPlain_of_toNat ?_ ?_ (hbyte ▸ hcontrol)
    · exact fun h => hquotation (Char.toNat_inj.mp (hbyte.symm.trans h))
    · exact fun h => hsolidus (Char.toNat_inj.mp (hbyte.symm.trans h))
  · have hle := UInt8.le_iff_toNat_le.mp (Utf8.le_of_mem_utf8EncodeChar (Nat.not_lt.mp hascii) hb)
    have hbyte : 0x80 ≤ b.toNat := hle
    exact isPlain_of_toNat (by omega) (by omega) (by omega)

/-- The reader takes the written form of one character back, whatever follows it. -/
theorem readContent_escaped (c : Char) (rest : Bytes) :
    readContent (Utf8.encodeChars (escaped c) ++ rest) =
      startingWith (String.utf8EncodeChar c) (readContent rest) := by
  have hletter {letter : Char} {n : Nat} (hn : c.toNat = n) (hlt : n < 0x80)
      (hl : letter.toNat < 0x80)
      (h : simpleEscape? (UInt8.ofNat letter.toNat) = some (UInt8.ofNat n)) :
      readContent (Utf8.encodeChars ['\\', letter] ++ rest) =
        startingWith (String.utf8EncodeChar c) (readContent rest) :=
    readContent_letter (hn ▸ hlt) hl (hn ▸ h) rest
  have hself : Utf8.encodeChars [c] = String.utf8EncodeChar c := by
    rw [Utf8.encodeChars_cons, Utf8.encodeChars_nil, List.append_nil]
  unfold escaped
  split_ifs with hquotation hsolidus h h h h h hcontrol
  · exact hletter (congrArg Char.toNat hquotation) (by decide) (by decide) (by decide)
  · exact hletter (congrArg Char.toNat hsolidus) (by decide) (by decide) (by decide)
  · exact hletter h (by decide) (by decide) (by decide)
  · exact hletter h (by decide) (by decide) (by decide)
  · exact hletter (congrArg Char.toNat h) (by decide) (by decide) (by decide)
  · exact hletter (congrArg Char.toNat h) (by decide) (by decide) (by decide)
  · exact hletter (congrArg Char.toNat h) (by decide) (by decide) (by decide)
  · exact readContent_code hcontrol rest
  · rw [hself]
    exact readContent_append (isPlain_of_mem_utf8EncodeChar hquotation hsolidus hcontrol) rest

/-- The content of a written literal is read up to its closing mark. -/
theorem readContent_flatMap_escaped (cs : List Char) (rest : Bytes) :
    readContent (Utf8.encodeChars (cs.flatMap escaped) ++ Ascii.quotation :: rest) =
      .ok (Utf8.encodeChars cs, rest) := by
  induction cs with
  | nil => simp [readContent]
  | cons c cs ih =>
    rw [List.flatMap_cons, Utf8.encodeChars_append, List.append_assoc, readContent_escaped, ih]
    rfl

/-- Every text is read back from its literal, whatever follows that. -/
theorem readText_flatMap_escaped (s : String) (rest : Bytes) :
    readText (Utf8.encodeChars (s.toList.flatMap escaped) ++ Ascii.quotation :: rest) =
      .ok (s, rest) := by
  have hbytes : Utf8.decode? (Utf8.encodeChars s.toList) = some s := Utf8.decode?_encode s
  simp only [readText, readContent_flatMap_escaped, hbytes]

/-- The bytes of a literal. -/
theorem encodeChars_literal (s : String) :
    Utf8.encodeChars (literal s) = Ascii.quotation ::
      Utf8.encodeChars (s.toList.flatMap escaped) ++ [Ascii.quotation] := by
  rw [literal, List.cons_append, Utf8.encodeChars_cons, Utf8.encodeChars_append]
  rfl

/-- A text without characters to escape is written as it is. -/
theorem flatMap_escaped_eq_self {cs : List Char} (h : ∀ c ∈ cs, escaped c = [c]) :
    cs.flatMap escaped = cs := by
  induction cs with
  | nil => rfl
  | cons c cs ih =>
    rw [List.flatMap_cons, h c List.mem_cons_self,
      ih fun d hd => h d (List.mem_cons_of_mem c hd), List.singleton_append]

end Sealing.Json
