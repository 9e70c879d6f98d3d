import Sealing.Proofs.Tokens

/-!
# Literals are read as the texts they denote

A literal is read exactly if it denotes a text, and as that text. An escape gives the bytes of one
character, surrogates only in pairs; all other bytes are kept. The reader works on bytes and checks
at the end that they are those of a text. A character that continues past its first byte is not
interrupted by an escape, since the bytes of an escape always start a character of their own.
-/

namespace Sealing.Json

variable {s rest out : Bytes}

/-! ## Escapes -/

section Escapes

variable {n lead trail : Nat} {c : Char} {ds e : Bytes}

private theorem toNat_ofNat_of_isValidChar (h : n.isValidChar) : (Char.ofNat n).toNat = n := by
  rw [Char.ofNat, dif_pos h]
  rfl

/-- A code unit has sixteen bits. -/
theorem WritesUnit.lt (h : WritesUnit n ds) : n < 0x10000 := by
  have hdigit {v : Nat} {b : UInt8} (hv : IsHexDigit v b) : v < 16 := by
    rcases hv with hv | hv <;> exact (List.getElem?_eq_some_iff.mp hv).1
  obtain ⟨hv, hw, hx, hy⟩ := h
  have := hdigit hv
  have := hdigit hw
  have := hdigit hx
  have := hdigit hy
  omega

private theorem isTrailing_iff : isTrailing n = true ↔ 0xDC00 ≤ n ∧ n ≤ 0xDFFF := by
  rw [isTrailing, Bool.and_eq_true, decide_eq_true_iff, decide_eq_true_iff]

private theorem isLeading_iff : isLeading n = true ↔ 0xD800 ≤ n ∧ n ≤ 0xDBFF := by
  rw [isLeading, Bool.and_eq_true, decide_eq_true_iff, decide_eq_true_iff]

private theorem expectInPair_eq_ok_iff {b : UInt8} : expectInPair b s = .ok rest ↔ s = b :: rest := by
  cases s with
  | nil => simp [expectInPair]
  | cons a s =>
    by_cases h : a = b
    · simp [expectInPair, h]
    · simp [expectInPair, h]

/-- The second half of a pair is read as an escape of a trailing unit. -/
theorem readTrailing_eq_ok_iff : readTrailing lead s = .ok (out, rest) ↔
    ∃ trail ds, WritesUnit trail ds ∧ isTrailing trail = true ∧
      s = Ascii.reverseSolidus :: unitLetter :: (ds ++ rest) ∧
      out = characterBytes (pairValue lead trail) := by
  constructor
  · intro h
    unfold readTrailing at h
    split at h
    · contradiction
    · next hsolidus =>
      obtain rfl := expectInPair_eq_ok_iff.mp hsolidus
      split at h
      · contradiction
      · next hletter =>
        obtain rfl := expectInPair_eq_ok_iff.mp hletter
        split at h
        · contradiction
        · next hunit =>
          obtain ⟨ds, hds, rfl⟩ := readUnit_eq_ok_iff.mp hunit
          split at h
          · next htrail =>
            obtain ⟨rfl, rfl⟩ := Prod.mk.inj (Except.ok.inj h)
            exact ⟨_, ds, hds, htrail, rfl, rfl⟩
          · contradiction
  · rintro ⟨trail, ds, hds, htrail, rfl, hout⟩
    have hunit : readUnit (ds ++ rest) = .ok (trail, rest) := readUnit_eq_ok_iff.mpr ⟨ds, hds, rfl⟩
    have hexpect (b : UInt8) (t : Bytes) : expectInPair b (b :: t) = .ok t :=
      expectInPair_eq_ok_iff.mpr rfl
    simp only [readTrailing, hexpect, hunit, htrail, if_true, hout]

/-- The number of a pair, with its numerals kept folded. -/
private theorem pairValue_def (lead trail : Nat) :
    pairValue lead trail = 0x10000 + (lead - 0xD800) * 0x400 + (trail - 0xDC00) := by
  delta pairValue
  with_reducible rfl

/-- Two surrogates are the pair of a character past the first `0x10000`. -/
theorem pairValue_spec (hlead : isLeading lead = true) (htrail : isTrailing trail = true) :
    (pairValue lead trail).isValidChar ∧ 0x10000 ≤ pairValue lead trail ∧
      lead = 0xD800 + (pairValue lead trail - 0x10000) / 0x400 ∧
      trail = 0xDC00 + (pairValue lead trail - 0x10000) % 0x400 := by
  rw [isLeading_iff] at hlead
  rw [isTrailing_iff] at htrail
  rw [pairValue_def]
  refine ⟨.inr ?_, ?_, ?_, ?_⟩ <;> omega

/-- Such a character has a pair. -/
theorem pairValue_of_le (h : 0x10000 ≤ c.toNat) :
    isLeading (0xD800 + (c.toNat - 0x10000) / 0x400) = true ∧
      isTrailing (0xDC00 + (c.toNat - 0x10000) % 0x400) = true ∧
      pairValue (0xD800 + (c.toNat - 0x10000) / 0x400)
        (0xDC00 + (c.toNat - 0x10000) % 0x400) = c.toNat := by
  have hvalid : c.toNat < 0xD800 ∨ 0xDFFF < c.toNat ∧ c.toNat < 0x110000 := c.valid
  rw [isLeading_iff, isTrailing_iff, pairValue_def]
  refine ⟨?_, ?_, ?_⟩ <;> omega

/-- A unit is a character or a surrogate. -/
theorem isValidChar_of_lt (h : n < 0x10000) (htrailing : ¬isTrailing n = true)
    (hleading : ¬isLeading n = true) : n.isValidChar := by
  rw [isTrailing_iff] at htrailing
  rw [isLeading_iff] at hleading
  simp only [Nat.isValidChar]
  omega

/-- No character is a surrogate. -/
theorem not_surrogate_toNat (c : Char) :
    isTrailing c.toNat = false ∧ isLeading c.toNat = false := by
  have hvalid : c.toNat < 0xD800 ∨ 0xDFFF < c.toNat ∧ c.toNat < 0x110000 := c.valid
  simp only [Bool.eq_false_iff, ne_eq, isTrailing_iff, isLeading_iff]
  omega

private theorem isTrailing_of_isLeading (h : isLeading n = true) : isTrailing n = false := by
  rw [isLeading_iff] at h
  rw [Bool.eq_false_iff, ne_eq, isTrailing_iff]
  omega

/-- Behind the letter of a unit the code of a character is read, and nothing else. -/
theorem readCoded_eq_ok_iff : readCoded s = .ok (out, rest) ↔
    ∃ c e, Escapes c (unitLetter :: e) ∧ s = e ++ rest ∧ out = String.utf8EncodeChar c := by
  constructor
  · intro h
    unfold readCoded at h
    split at h
    · contradiction
    · next n t hunit =>
      obtain ⟨ds, hds, rfl⟩ := readUnit_eq_ok_iff.mp hunit
      split_ifs at h with htrailing hleading
      · obtain ⟨trail, ds', hds', htrail, rfl, hout⟩ := readTrailing_eq_ok_iff.mp h
        obtain ⟨hvalid, hlarge, hlead, htrail⟩ := pairValue_spec hleading htrail
        have hc := toNat_ofNat_of_isValidChar hvalid
        rw [hlead, ← hc] at hds
        rw [htrail, ← hc] at hds'
        rw [← hc] at hlarge
        refine ⟨Char.ofNat (pairValue n trail), _, .pair hlarge hds hds', ?_, hout⟩
        simp only [List.cons_append, List.append_assoc]
      · obtain ⟨rfl, rfl⟩ := Prod.mk.inj (Except.ok.inj h)
        have hc := toNat_ofNat_of_isValidChar (isValidChar_of_lt hds.lt htrailing hleading)
        exact ⟨Char.ofNat n, _, .unit (hc.symm ▸ hds), rfl, rfl⟩
  · rintro ⟨c, e, he, rfl, rfl⟩
    cases he with
    | letter hc =>
      have hnot : ∀ p ∈ shortEscapes, p.1 ≠ unitLetter := by decide
      exact absurd rfl (hnot _ hc)
    | unit hds =>
      have hunit : readUnit (e ++ rest) = .ok (c.toNat, rest) :=
        readUnit_eq_ok_iff.mpr ⟨e, hds, rfl⟩
      obtain ⟨htrailing, hleading⟩ := not_surrogate_toNat c
      simp only [readCoded, hunit, htrailing, hleading, characterBytes, Char.ofNat_toNat,
        Bool.false_eq_true, if_false]
    | @pair _ ds ds' hlarge hds hds' =>
      obtain ⟨hleading, htrailing, hpair⟩ := pairValue_of_le hlarge
      have hunit : readUnit (ds ++ Ascii.reverseSolidus :: unitLetter :: (ds' ++ rest)) =
          .ok (_, Ascii.reverseSolidus :: unitLetter :: (ds' ++ rest)) :=
        readUnit_eq_ok_iff.mpr ⟨ds, hds, rfl⟩
      have htrail : readTrailing (0xD800 + (c.toNat - 0x10000) / 0x400)
          (Ascii.reverseSolidus :: unitLetter :: (ds' ++ rest)) =
            .ok (String.utf8EncodeChar c, rest) :=
        readTrailing_eq_ok_iff.mpr ⟨_, ds', hds', htrailing, rfl,
          by rw [hpair, characterBytes, Char.ofNat_toNat]⟩
      simp only [List.cons_append, List.append_assoc, readCoded, hunit,
        isTrailing_of_isLeading hleading, hleading, htrail, Bool.false_eq_true, if_false, if_true]

/-- An escape is read exactly if it is that of a character, and as its bytes. -/
theorem readEscape_eq_ok_iff : readEscape s = .ok (out, rest) ↔
    ∃ c e, Escapes c e ∧ s = e ++ rest ∧ out = String.utf8EncodeChar c := by
  have hcoded (e t : Bytes) : readEscape (unitLetter :: (e ++ t)) = readCoded (e ++ t) := by
    have hletter : simpleEscape? unitLetter = none := by decide
    simp only [readEscape, hletter, if_true]
  constructor
  · intro h
    unfold readEscape at h
    split at h
    · contradiction
    · next l t =>
      split at h
      · next b hb =>
        obtain ⟨rfl, rfl⟩ := Prod.mk.inj (Except.ok.inj h)
        obtain ⟨c, hc, hbytes⟩ := simpleEscape?_eq_some_iff.mp (congrArg (Option.map ([·])) hb)
        exact ⟨c, [l], .letter hc, rfl, hbytes⟩
      · split at h
        · next hl =>
          obtain rfl := hl
          obtain ⟨c, e, he, rfl, hout⟩ := readCoded_eq_ok_iff.mp h
          exact ⟨c, _, he, rfl, hout⟩
        · contradiction
  · rintro ⟨c, e, he, rfl, rfl⟩
    have hread {e : Bytes} (he : Escapes c (unitLetter :: e)) :
        readEscape (unitLetter :: (e ++ rest)) = .ok (String.utf8EncodeChar c, rest) := by
      rw [hcoded, readCoded_eq_ok_iff.mpr ⟨c, e, he, rfl, rfl⟩]
    cases he with
    | letter hc =>
      have hbytes := simpleEscape?_eq_some_iff.mpr ⟨c, hc, rfl⟩
      obtain ⟨b, hb, hout⟩ := Option.map_eq_some_iff.mp hbytes
      rw [List.singleton_append, readEscape, hb, ← hout]
    | unit hds => exact hread (.unit hds)
    | pair hlarge hds hds' => exact hread (.pair hlarge hds hds')

end Escapes

/-! ## Literals -/

section Literals

variable {content : Bytes} {c : Char} {cs : List Char}

/-- What may stand between quotation marks for the given bytes, whether or not they are those of a
text. -/
inductive Spells : Bytes → Bytes → Prop
  | nil : Spells [] []
  | plain {b : UInt8} {s out : Bytes} : IsPlain b → Spells s out → Spells (b :: s) (b :: out)
  | escape {c : Char} {e s out : Bytes} : Escapes c e → Spells s out →
      Spells (Ascii.reverseSolidus :: (e ++ s)) (String.utf8EncodeChar c ++ out)

/-- The content of a literal is read exactly if it stands in front of a closing mark. -/
theorem readContent_eq_ok_iff : readContent s = .ok (out, rest) ↔
    ∃ content, Spells content out ∧ s = content ++ Ascii.quotation :: rest := by
  constructor
  · intro h
    fun_induction readContent s generalizing out rest with
    | case1 => contradiction
    | case2 s =>
      obtain ⟨rfl, rfl⟩ := Prod.mk.inj (Except.ok.inj h)
      exact ⟨[], .nil, rfl⟩
    | case3 => contradiction
    | case4 => contradiction
    | case5 s bytes after hescape _ more after' hmore _ ih =>
      obtain ⟨rfl, rfl⟩ := Prod.mk.inj (Except.ok.inj h)
      obtain ⟨c, e, he, rfl, rfl⟩ := readEscape_eq_ok_iff.mp hescape
      obtain ⟨content, hcontent, rfl⟩ := ih hmore
      exact ⟨_, .escape he hcontent, by rw [List.cons_append, List.append_assoc]⟩
    | case6 => contradiction
    | case7 => contradiction
    | case8 b s hquotation hsolidus hcontrol more after hmore ih =>
      obtain ⟨rfl, rfl⟩ := Prod.mk.inj (Except.ok.inj h)
      obtain ⟨content, hcontent, rfl⟩ := ih hmore
      have hplain : IsPlain b := ⟨hquotation, hsolidus, Bool.eq_false_iff.mpr hcontrol⟩
      exact ⟨b :: content, .plain hplain hcontent, rfl⟩
  · rintro ⟨content, hcontent, rfl⟩
    induction hcontent with
    | nil => rw [List.nil_append, readContent, if_pos rfl]
    | plain hb _ ih =>
      rw [List.cons_append, readContent_cons hb, ih]
      rfl
    | @escape c e s out he _ ih =>
      have hescape : readEscape (e ++ (s ++ Ascii.quotation :: rest)) =
          .ok (String.utf8EncodeChar c, s ++ Ascii.quotation :: rest) :=
        readEscape_eq_ok_iff.mpr ⟨c, e, he, rfl, rfl⟩
      rw [List.cons_append, List.append_assoc, readContent_escape hescape, ih]
      rfl

/-- Plain bytes may be put in front of what is spelled. -/
theorem Spells.append {front : Bytes} (hfront : ∀ b ∈ front, IsPlain b)
    (h : Spells content out) : Spells (front ++ content) (front ++ out) := by
  induction front with
  | nil => exact h
  | cons b front ih =>
    obtain ⟨hb, hfront⟩ := List.forall_mem_cons.mp hfront
    exact .plain hb (ih hfront)

/-- Bytes that continue a character stand for themselves. -/
theorem Spells.exists_of_append {more : Bytes}
    (hmore : ∀ b ∈ more, Utf8.isContinuation b = true) (h : Spells content (more ++ out)) :
    ∃ content', content = more ++ content' ∧ Spells content' out := by
  induction more generalizing content with
  | nil => exact ⟨content, rfl, h⟩
  | cons b more ih =>
    obtain ⟨hb, hmore⟩ := List.forall_mem_cons.mp hmore
    rw [List.cons_append] at h
    generalize htail : b :: (more ++ out) = bytes at h
    cases h with
    | nil => contradiction
    | plain _ hs =>
      obtain ⟨rfl, rfl⟩ := List.cons.inj htail
      obtain ⟨content', rfl, hcontent⟩ := ih hmore hs
      exact ⟨content', rfl, hcontent⟩
    | @escape c _ _ _ _ _ =>
      obtain ⟨first, _, hc, hfirst, -⟩ := Utf8.exists_utf8EncodeChar_eq c
      rw [hc, List.cons_append] at htail
      obtain ⟨rfl, -⟩ := List.cons.inj htail
      rw [hb] at hfirst
      contradiction

/-- A character that is written in plain bytes needs no escape. -/
theorem isUnescaped_of_isPlain {b : UInt8} {more : Bytes} (hb : IsPlain b)
    (hc : String.utf8EncodeChar c = b :: more) : IsUnescaped c := by
  have hascii (hlt : c.toNat < 0x80) : b = UInt8.ofNat c.toNat := by
    rw [Utf8.utf8EncodeChar_of_lt hlt] at hc
    exact (List.cons.inj hc).1.symm
  refine ⟨?_, ?_, fun hlt => ?_⟩
  · rintro rfl
    exact hb.ne_quotation (hascii (by decide))
  · rintro rfl
    exact hb.ne_reverseSolidus (hascii (by decide))
  · have hall : ∀ n < 0x20, isControl (UInt8.ofNat n) = true := by decide
    have hcontrol := hb.not_isControl
    rw [hascii (by omega), hall _ hlt] at hcontrol
    contradiction

/-- What stands for the bytes of a text denotes it. -/
theorem spells_encodeChars_iff : Spells content (Utf8.encodeChars cs) ↔ Denotes content cs := by
  constructor
  · intro h
    induction cs generalizing content with
    | nil =>
      generalize hnil : Utf8.encodeChars [] = bytes at h
      cases h with
      | nil => exact .nil
      | plain => contradiction
      | @escape c _ _ _ _ _ =>
        obtain ⟨first, _, hc, -⟩ := Utf8.exists_utf8EncodeChar_eq c
        rw [hc] at hnil
        contradiction
    | cons c cs ih =>
      rw [Utf8.encodeChars_cons] at h
      generalize hcons : String.utf8EncodeChar c ++ Utf8.encodeChars cs = bytes at h
      cases h with
      | nil =>
        obtain ⟨first, _, hc, -⟩ := Utf8.exists_utf8EncodeChar_eq c
        rw [hc] at hcons
        contradiction
      | plain hb hs =>
        obtain ⟨first, more, hc, -, hmore⟩ := Utf8.exists_utf8EncodeChar_eq c
        rw [hc, List.cons_append] at hcons
        obtain ⟨rfl, rfl⟩ := List.cons.inj hcons
        obtain ⟨content', rfl, hcontent⟩ := hs.exists_of_append hmore
        rw [← List.cons_append, ← hc]
        exact .plain (isUnescaped_of_isPlain hb hc) (ih hcontent)
      | escape he hs =>
        obtain ⟨rfl, rfl⟩ := Utf8.utf8EncodeChar_append_inj hcons
        exact .escape he (ih hs)
  · intro h
    induction h with
    | nil => exact .nil
    | plain hc _ ih =>
      rw [Utf8.encodeChars_cons]
      exact ih.append (isPlain_of_mem_utf8EncodeChar hc.ne_quotation hc.ne_reverseSolidus
        hc.not_isControl)
    | escape he _ ih =>
      rw [Utf8.encodeChars_cons]
      exact .escape he ih

/-- A literal is read exactly if it denotes a text, and as that text. -/
theorem readText_eq_ok_iff {t : String} : readText s = .ok (t, rest) ↔
    ∃ content, Denotes content t.toList ∧ s = content ++ Ascii.quotation :: rest := by
  have hbytes : readText s = .ok (t, rest) ↔
      readContent s = .ok (Utf8.encodeChars t.toList, rest) := by
    constructor
    · intro h
      unfold readText at h
      split at h
      · contradiction
      · next hcontent =>
        split at h
        · next hdecode =>
          obtain ⟨rfl, rfl⟩ := Prod.mk.inj (Except.ok.inj h)
          obtain rfl := Utf8.decode?_eq_some_iff.mp hdecode
          exact hcontent
        · contradiction
    · intro h
      have hdecode : Utf8.decode? (Utf8.encodeChars t.toList) = some t := Utf8.decode?_encode t
      simp only [readText, h, hdecode]
  rw [hbytes, readContent_eq_ok_iff]
  simp only [spells_encodeChars_iff]

/-- The written form of a text is a literal of it. -/
theorem quotes_literal (t : String) : Quotes (Utf8.encodeChars (literal t)) t := by
  obtain ⟨content, hcontent, h⟩ := readText_eq_ok_iff.mp (readText_flatMap_escaped t [])
  obtain rfl := List.append_cancel_right h
  exact ⟨_, hcontent, encodeChars_literal t⟩

end Literals

end Sealing.Json
