import Mathlib.Data.List.DropRight
import Mathlib.Data.List.TakeWhile
import Sealing.Key
import Sealing.Proofs.Canonical

/-!
# Configured keys

A configured text without the white space around it is either the base64 of some bytes, which it
then determines, or no base64 at all. Whether a key is loaded, and how it is refused otherwise, is
said in terms of those bytes. Trimming takes off white space and nothing else, so what is loaded is
exactly the base64 of a key with white space around it.
-/

namespace Sealing

namespace Text

variable {text inner before after : String}

/-- Trimming takes off what is blank at the left, and then what is blank at the right. -/
theorem trimList_eq (cs : List Char) :
    trimList cs = (cs.dropWhile isBlank).rdropWhile isBlank :=
  rfl

/-- Trimming leaves nothing exactly if there is nothing but white space. -/
theorem trim_eq_empty_iff {text : String} : trim text = "" ↔ isBlankText text = true := by
  rw [trim, trimList, isBlankText, List.all_eq_true, String.ofList_eq_empty_iff,
    List.reverse_eq_nil_iff, List.dropWhile_eq_nil_iff]
  constructor
  · intro h c hc
    rw [← List.takeWhile_append_dropWhile (p := isBlank) (l := text.toList), List.mem_append] at hc
    rcases hc with hc | hc
    · exact List.mem_takeWhile_imp hc
    · exact h c (List.mem_reverse.mpr hc)
  · intro h c hc
    exact h c ((List.dropWhile_sublist _).subset (List.mem_reverse.mp hc))

/-- Where there is no white space trimming changes nothing. -/
theorem trim_eq_self {text : String} (h : ∀ c ∈ text.toList, isBlank c = false) :
    trim text = text := by
  have hkeep (cs : List Char) (hcs : ∀ c ∈ cs, isBlank c = false) : cs.dropWhile isBlank = cs := by
    rw [List.dropWhile_eq_self_iff]
    intro hlength
    simp [hcs _ (List.getElem_mem hlength)]
  have hreverse : ∀ c ∈ text.toList.reverse, isBlank c = false := by
    intro c hc
    exact h c (List.mem_reverse.mp hc)
  rw [trim, trimList, hkeep _ h, hkeep _ hreverse, List.reverse_reverse, String.ofList_toList]

/-- Blanks in front are trimmed away. -/
theorem trimList_append_left {cs : List Char} (h : ∀ c ∈ cs, isBlank c = true) (ds : List Char) :
    trimList (cs ++ ds) = trimList ds := by
  rw [trimList_eq, List.dropWhile_append_of_pos h, ← trimList_eq]

/-- Blanks behind are trimmed away. -/
theorem trimList_append_right {ds : List Char} (h : ∀ c ∈ ds, isBlank c = true) (cs : List Char) :
    trimList (cs ++ ds) = trimList cs := by
  have hreverse : ∀ c ∈ ds.reverse, isBlank c = true := fun c hc => h c (List.mem_reverse.mp hc)
  rw [trimList_eq, trimList_eq, List.dropWhile_append]
  split
  · next hempty =>
    rw [List.isEmpty_iff.mp hempty, List.dropWhile_eq_nil_iff.mpr h]
  · rw [List.rdropWhile, List.reverse_append, List.dropWhile_append_of_pos hreverse,
      ← List.rdropWhile]

/-- White space around a text makes no difference. -/
theorem trim_append (hbefore : isBlankText before = true) (hafter : isBlankText after = true) :
    trim (before ++ text ++ after) = trim text := by
  rw [isBlankText, List.all_eq_true] at hbefore hafter
  rw [trim, trim, String.toList_append, String.toList_append, trimList_append_right hafter,
    trimList_append_left hbefore]

/-- Nothing but white space is taken off. -/
theorem exists_append_trim (text : String) : ∃ before after, isBlankText before = true ∧
    isBlankText after = true ∧ text = before ++ trim text ++ after := by
  refine ⟨String.ofList (text.toList.takeWhile isBlank),
    String.ofList ((text.toList.dropWhile isBlank).rtakeWhile isBlank), ?_, ?_, ?_⟩
  · rw [isBlankText, String.toList_ofList, List.all_eq_true]
    exact fun c hc => List.mem_takeWhile_imp hc
  · rw [isBlankText, String.toList_ofList, List.all_eq_true]
    exact fun c hc => List.mem_rtakeWhile_imp hc
  · rw [trim, trimList_eq, ← String.ofList_append, ← String.ofList_append, List.append_assoc,
      List.rdropWhile_append_rtakeWhile, List.takeWhile_append_dropWhile, String.ofList_toList]

/-- A text with no white space at its ends is what is left of the texts that have white space around
it, and of no others. -/
theorem trim_eq_iff (hinner : trim inner = inner) : trim text = inner ↔
    ∃ before after, isBlankText before = true ∧ isBlankText after = true ∧
      text = before ++ inner ++ after := by
  constructor
  · rintro rfl
    exact exists_append_trim text
  · rintro ⟨before, after, hbefore, hafter, rfl⟩
    rw [trim_append hbefore hafter, hinner]

end Text

namespace Base64

/-- No two byte strings have the same base64. -/
theorem encode_inj {b b' : Bytes} : encode b = encode b' ↔ b = b' := by
  constructor
  · intro h
    have hread := decode_encode b
    rw [h, decode_encode] at hread
    exact (Except.ok.inj hread).symm
  · rintro rfl
    rfl

/-- There is no white space in base64. -/
theorem trim_encode (b : Bytes) : Text.trim (encode b) = encode b := by
  have hblank : ∀ c ∈ encodeBytes b, Text.isBlank (Char.ofNat c.toNat) = false :=
    forall_mem_encodeBytes (by decide) (by decide) b
  apply Text.trim_eq_self
  intro c hc
  rw [encode, String.toList_ofList] at hc
  obtain ⟨d, hd, rfl⟩ := List.mem_map.mp hc
  exact hblank d hd

/-- What is the base64 of nothing has one of the flaws. -/
theorem forall_ne_encode_iff {text : String} : (∀ b, text ≠ encode b) ↔ Flawed text := by
  have hread : (∃ b, text = encode b) ↔ ¬Flawed text := by
    rw [← exists_decode_iff]
    exact exists_congr fun b => by rw [decode_eq_ok_iff, eq_comm]
  rw [← not_exists, hread, Classical.not_not]

end Base64

/-- What keeps a text from being a key, if it is none. -/
inductive KeyError.Applies (text : String) : KeyError → Prop
  /-- Nothing but white space. -/
  | empty : Text.trim text = "" → Applies text .empty
  /-- Base64, of some bytes but of the wrong number. -/
  | invalidLength {b : Bytes} : Base64.encode b = Text.trim text → b ≠ [] →
      b.length ∉ Aes.keyLengths → Applies text (.invalidLength b.length)
  /-- Not the base64 of anything. -/
  | invalidEncoding : (∀ b, Base64.encode b ≠ Text.trim text) → Applies text .invalidEncoding

namespace Key

variable {text : String} {b : Bytes} {e : KeyError}

/-- What is loaded from a text that is base64 depends on the bytes alone. -/
theorem ofBase64_of_encode (h : Base64.encode b = Text.trim text) :
    ofBase64 text =
      if hb : b.length ∈ Aes.keyLengths then .ok ⟨b, hb⟩
      else if b = [] then .error .empty
      else .error (.invalidLength b.length) := by
  rw [ofBase64, Base64.decode_eq_ok_iff.mpr h]

/-- What is no base64 is refused for that. -/
theorem ofBase64_of_forall (h : ∀ b, Base64.encode b ≠ Text.trim text) :
    ofBase64 text = .error .invalidEncoding := by
  cases hdecode : Base64.decode (Text.trim text) with
  | error f => rw [ofBase64, hdecode]
  | ok b => exact absurd (Base64.decode_eq_ok_iff.mp hdecode) (h b)

/-- A key is loaded exactly from its own base64 and white space around it. -/
theorem ofBase64_eq_ok_iff {k : Key} :
    ofBase64 text = .ok k ↔ Base64.encode k.bytes = Text.trim text := by
  constructor
  · intro h
    by_cases hbase : ∃ b, Base64.encode b = Text.trim text
    · obtain ⟨b, hb⟩ := hbase
      rw [ofBase64_of_encode hb] at h
      split at h
      · obtain rfl := Except.ok.inj h
        exact hb
      · split at h <;> contradiction
    · rw [ofBase64_of_forall (not_exists.mp hbase)] at h
      contradiction
  · intro h
    rw [ofBase64_of_encode h, dif_pos k.length_mem]

/-- A text is refused exactly for what keeps it from being a key. -/
theorem ofBase64_eq_error_iff : ofBase64 text = .error e ↔ e.Applies text := by
  constructor
  · intro h
    by_cases hbase : ∃ b, Base64.encode b = Text.trim text
    · obtain ⟨b, hb⟩ := hbase
      rw [ofBase64_of_encode hb] at h
      split at h
      · contradiction
      · next hlength =>
        split at h
        · next hempty =>
          obtain rfl := Except.error.inj h
          exact .empty (hb.symm.trans (hempty ▸ rfl))
        · next hempty =>
          obtain rfl := Except.error.inj h
          exact .invalidLength hb hempty hlength
    · have hnone := not_exists.mp hbase
      rw [ofBase64_of_forall hnone] at h
      obtain rfl := Except.error.inj h
      exact .invalidEncoding hnone
  · rintro (hempty | ⟨hb, hempty, hlength⟩ | hnone)
    · have hnil : Base64.encode [] = Text.trim text := hempty.symm
      rw [ofBase64_of_encode hnil]
      rfl
    · rw [ofBase64_of_encode hb, dif_neg hlength, if_neg hempty]
    · exact ofBase64_of_forall hnone

/-- The base64 of a byte string is a key exactly if the byte string has the length of one. -/
theorem exists_ofBase64_encode_iff :
    (∃ k, ofBase64 (Base64.encode b) = .ok k ∧ k.bytes = b) ↔ b.length ∈ Aes.keyLengths := by
  constructor
  · rintro ⟨k, -, rfl⟩
    exact k.length_mem
  · intro h
    exact ⟨⟨b, h⟩, ofBase64_eq_ok_iff.mpr (Base64.trim_encode b).symm, rfl⟩

/-- The base64 of a key, with any white space around it, is all that the key is loaded from. -/
theorem exists_ofBase64_iff : (∃ k, ofBase64 text = .ok k ∧ k.bytes = b) ↔
    b.length ∈ Aes.keyLengths ∧ ∃ before after, Text.isBlankText before = true ∧
      Text.isBlankText after = true ∧ text = before ++ Base64.encode b ++ after := by
  rw [← Text.trim_eq_iff (Base64.trim_encode b)]
  constructor
  · rintro ⟨k, hk, rfl⟩
    exact ⟨k.length_mem, (ofBase64_eq_ok_iff.mp hk).symm⟩
  · rintro ⟨hlength, htrim⟩
    exact ⟨⟨b, hlength⟩, ofBase64_eq_ok_iff.mpr htrim.symm, rfl⟩

/-- A text is refused as empty exactly if there is nothing but white space in it. -/
theorem ofBase64_eq_empty_iff : ofBase64 text = .error .empty ↔ Text.trim text = "" := by
  rw [ofBase64_eq_error_iff]
  constructor
  · rintro ⟨hempty⟩
    exact hempty
  · exact .empty

/-- A text is refused for a length exactly if it is the base64 of so many bytes, and keys are not
that long. -/
theorem ofBase64_eq_invalidLength_iff {n : Nat} : ofBase64 text = .error (.invalidLength n) ↔
    n ∉ [0, 16, 24, 32] ∧ ∃ b : Bytes, b.length = n ∧ Text.trim text = Base64.encode b := by
  rw [ofBase64_eq_error_iff, List.mem_cons, not_or]
  constructor
  · rintro (_ | ⟨hb, hne, hlength⟩ | _)
    exact ⟨⟨mt List.eq_nil_of_length_eq_zero hne, hlength⟩, _, rfl, hb.symm⟩
  · rintro ⟨⟨hne, hlength⟩, b, rfl, hb⟩
    exact .invalidLength hb.symm (mt List.length_eq_zero_iff.mpr hne) hlength

/-- A text is refused for its encoding exactly if it is the base64 of nothing. -/
theorem ofBase64_eq_invalidEncoding_iff : ofBase64 text = .error .invalidEncoding ↔
    ∀ b, Text.trim text ≠ Base64.encode b := by
  rw [ofBase64_eq_error_iff]
  constructor
  · rintro (_ | _ | hnone)
    exact fun b hb => hnone b hb.symm
  · exact fun h => .invalidEncoding fun b hb => h b hb.symm

/-- A key is loaded exactly from its base64 with any white space around it. Every other text is
refused: as empty if there is nothing but white space, for its length if it is the base64 of a wrong
number of bytes, and for its encoding if it is the base64 of nothing, because of one of the flaws.
So texts of one key differ in the white space around them only. -/
theorem loads_exactly_its_base64 (text : String) :
    (∀ b : Bytes, (∃ k, ofBase64 text = .ok k ∧ k.bytes = b) ↔
      b.length ∈ [16, 24, 32] ∧ ∃ before after, Text.isBlankText before = true ∧
        Text.isBlankText after = true ∧ text = before ++ Base64.encode b ++ after) ∧
    (∀ k, ofBase64 text = .ok k →
      k.bytes.length ∈ [16, 24, 32] ∧ Text.trim text = Base64.encode k.bytes) ∧
    (ofBase64 text = .error .empty ↔ Text.trim text = "") ∧
    (∀ n, ofBase64 text = .error (.invalidLength n) ↔
      n ∉ [0, 16, 24, 32] ∧ ∃ b : Bytes, b.length = n ∧ Text.trim text = Base64.encode b) ∧
    (ofBase64 text = .error .invalidEncoding ↔ ∀ b, Text.trim text ≠ Base64.encode b) ∧
    ((∀ b, Text.trim text ≠ Base64.encode b) ↔ Base64.Flawed (Text.trim text)) ∧
    ∀ k, ofBase64 text = .ok k →
      ∀ text', ofBase64 text' = .ok k ↔ Text.trim text' = Text.trim text := by
  refine ⟨fun b => exists_ofBase64_iff, fun k hk => ?_, ofBase64_eq_empty_iff,
    fun n => ofBase64_eq_invalidLength_iff, ofBase64_eq_invalidEncoding_iff,
    Base64.forall_ne_encode_iff, fun k hk text' => ?_⟩
  · exact ⟨k.length_mem, (ofBase64_eq_ok_iff.mp hk).symm⟩
  · rw [ofBase64_eq_ok_iff, ofBase64_eq_ok_iff.mp hk, eq_comm]

/-- Twenty-four bytes between two sorts of white space are a key, and so they are without it. One
byte is too short for a key. With other bits in its last symbol, or a space inside, its base64 is
none. -/
theorem loads_exactly_its_base64_spaced :
    (∃ k, ofBase64 ("\u3000" ++ Base64.encode (List.replicate 24 7) ++ "\r\n") = .ok k ∧
      k.bytes = List.replicate 24 7 ∧ ofBase64 (Base64.encode (List.replicate 24 7)) = .ok k) ∧
    ofBase64 " AQ==\t" = .error (.invalidLength 1) ∧
    ofBase64 "AR==" = .error .invalidEncoding ∧ ofBase64 "A Q=" = .error .invalidEncoding := by
  refine ⟨?_, ?_, ?_, ?_⟩
  · obtain ⟨hloads, -, -, -, -, -, hsame⟩ := loads_exactly_its_base64
      ("\u3000" ++ Base64.encode (List.replicate 24 7) ++ "\r\n")
    obtain ⟨k, hk, hbytes⟩ := (hloads (List.replicate 24 7)).mpr
      ⟨by decide, "\u3000", "\r\n", by decide, by decide, rfl⟩
    refine ⟨k, hk, hbytes, (hsame k hk _).mpr ?_⟩
    exact (Text.trim_append (by decide) (by decide)).symm
  · exact ((loads_exactly_its_base64 " AQ==\t").2.2.2.1 1).mpr
      ⟨by decide, [1], rfl, by decide⟩
  · obtain ⟨-, -, -, -, hencoding, hflawed, -⟩ := loads_exactly_its_base64 "AR=="
    have htrim : Text.trim "AR==" = "AR==" := by decide
    rw [hencoding, hflawed, htrim]
    exact @Base64.Flawed.spare _ ['A'] 'R' 17 2 (by decide) (by decide) (by decide)
  · obtain ⟨-, -, -, -, hencoding, hflawed, -⟩ := loads_exactly_its_base64 "A Q="
    have htrim : Text.trim "A Q=" = "A Q=" := by decide
    rw [hencoding, hflawed, htrim]
    exact @Base64.Flawed.foreign _ ' ' (by decide) (by decide) (by decide)

end Key

end Sealing
