import Sealing.Proofs.Unescaping

/-!
# Characters and bytes

A JSON text is also derived if its literals may consist of any bytes. The converse holds for texts:
every token but a literal is ASCII, so a derivation can be cut at its tokens, and the bytes between
two quotation marks are those of characters if the whole is. What is not a text can only be derived
with bytes, and then what belongs to no character stands inside a literal. If it is an object whose
names denote texts, the literal is in one of its values.
-/

namespace Sealing.Json

open Utf8 (Valid)

variable {s t : Bytes} {symbol : Symbol} {ms : List (String × Bytes)}

/-! ## From characters to bytes -/

/-- Plain bytes may be put in front of content. -/
theorem Content.append {front : Bytes} (hfront : ∀ b ∈ front, IsPlain b)
    (h : Content .bytes s) : Content .bytes (front ++ s) := by
  induction front with
  | nil => exact h
  | cons b front ih =>
    obtain ⟨hb, hfront⟩ := List.forall_mem_cons.mp hfront
    change Content .bytes ([b] ++ (front ++ s))
    exact .plain ⟨b, hb, rfl⟩ (ih hfront)

/-- Content of characters is content of bytes. -/
theorem Content.bytes (h : Content .characters s) : Content .bytes s := by
  induction h with
  | nil => exact .nil
  | plain hp _ ih =>
    obtain ⟨c, hc, rfl⟩ := hp
    exact ih.append (isPlain_of_mem_utf8EncodeChar hc.ne_quotation hc.ne_reverseSolidus
      hc.not_isControl)
  | escape he _ ih => exact .escape he ih

/-- What introduces an item in characters does so in bytes. -/
theorem Frame.Introduces.bytes {frame : Frame} (h : frame.Introduces .characters s) :
    frame.Introduces .bytes s := by
  cases frame with
  | list => exact h
  | object =>
    obtain ⟨before, name, between, after, hbefore, hname, hrest⟩ := h
    exact ⟨before, name, between, after, hbefore, hname.bytes, hrest⟩

/-- What is derived in characters is derived in bytes. -/
theorem Derives.bytes (h : Derives .characters symbol s) : Derives .bytes symbol s := by
  induction h with
  | word hw => exact .word hw
  | number hn => exact .number hn
  | text hs => exact .text hs.bytes
  | empty hblanks => exact .empty hblanks
  | container _ ih => exact .container ih
  | last hlabel _ hblanks ih => exact .last hlabel.bytes ih hblanks
  | more hlabel _ hblanks _ ih ihs => exact .more hlabel.bytes ih hblanks ihs

/-- Members in characters are members in bytes. -/
theorem MembersOf.bytes (h : MembersOf .characters ms s) : MembersOf .bytes ms s := by
  induction h with
  | last hlabel hv hblanks => exact .last hlabel hv.bytes hblanks
  | more hlabel hv hblanks _ ih => exact .more hlabel hv.bytes hblanks ih

/-- An object in characters is one in bytes. -/
theorem IsObject.bytes (h : IsObject .characters ms s) : IsObject .bytes ms s := by
  cases h with
  | empty hblanks => exact .empty hblanks
  | members hms => exact .members hms.bytes

/-- What denotes a text may stand in a literal. -/
theorem Denotes.content {cs : List Char} (h : Denotes s cs) : Content .characters s := by
  induction h with
  | nil => exact .nil
  | plain hc _ ih => exact .plain ⟨_, hc, rfl⟩ ih
  | escape he _ ih =>
    cases he with
    | letter hl => exact .escape (.letter hl) ih
    | unit hds => exact .escape (.unit hds) ih
    | pair _ hds hds' =>
      have hpair := Content.escape (.unit hds) (.escape (.unit hds') ih)
      simpa only [List.cons_append, List.append_assoc] using hpair

/-- What quotes a text is a value. -/
theorem Quotes.derives {u : String} (h : Quotes s u) : Derives .bytes .value s := by
  obtain ⟨content, hcontent, rfl⟩ := h
  exact .text hcontent.content.bytes

/-! ## Tokens are ASCII -/

/-- Blanks are ASCII. -/
theorem IsBlanks.lt (h : IsBlanks s) : ∀ b ∈ s, b < 0x80 := by
  have hall : ∀ b ∈ [Ascii.space, Ascii.tab, Ascii.lineFeed, Ascii.carriageReturn], b < 0x80 := by
    decide +kernel
  exact fun b hb => hall b (h b hb)

/-- The digits of a code unit are ASCII. -/
theorem WritesUnit.lt_of_mem {n : Nat} (h : WritesUnit n s) : ∀ b ∈ s, b < 0x80 := by
  have hlower : ∀ b ∈ Ascii.bytes "0123456789abcdef", b < 0x80 := by decide +kernel
  have hupper : ∀ b ∈ Ascii.bytes "0123456789ABCDEF", b < 0x80 := by decide +kernel
  have hdigit {v : Nat} {b : UInt8} (hb : IsHexDigit v b) : b < 0x80 :=
    hb.elim (fun h => hlower b (List.mem_of_getElem? h)) fun h => hupper b (List.mem_of_getElem? h)
  obtain ⟨ha, hb, hc, hd⟩ := h
  simp only [List.forall_mem_cons]
  exact ⟨hdigit ha, hdigit hb, hdigit hc, hdigit hd, fun _ hb => absurd hb List.not_mem_nil⟩

/-- Escapes are ASCII. -/
theorem IsEscape.lt (h : IsEscape s) : ∀ b ∈ s, b < 0x80 := by
  have hall : ∀ p ∈ shortEscapes, p.1 < 0x80 := by decide
  cases h with
  | letter hl => exact fun b hb => List.mem_singleton.mp hb ▸ hall _ hl
  | unit hds => exact List.forall_mem_cons.mpr ⟨by decide, hds.lt_of_mem⟩

/-- What denotes a text is one. -/
theorem Denotes.valid {cs : List Char} (h : Denotes s cs) : Valid s := by
  have hletter : unitLetter < 0x80 := by decide
  have hsolidus : Ascii.reverseSolidus < 0x80 := by decide
  induction h with
  | nil => exact ⟨[], rfl⟩
  | @plain c s _ _ _ ih =>
    obtain ⟨ds, rfl⟩ := ih
    exact ⟨c :: ds, Utf8.encodeChars_cons c ds⟩
  | escape he _ ih =>
    rw [Utf8.valid_cons_iff hsolidus]
    cases he with
    | letter hl => exact (Utf8.valid_append_iff_right (IsEscape.letter hl).lt).mpr ih
    | unit hds => exact (Utf8.valid_append_iff_right (IsEscape.unit hds).lt).mpr ih
    | pair _ hds hds' =>
      rw [List.cons_append, List.append_assoc, Utf8.valid_cons_iff hletter,
        Utf8.valid_append_iff_right hds.lt_of_mem, List.cons_append, List.cons_append,
        Utf8.valid_cons_iff hsolidus, Utf8.valid_cons_iff hletter,
        Utf8.valid_append_iff_right hds'.lt_of_mem]
      exact ih

/-- A literal of a text is a text itself. -/
theorem Quotes.valid {u : String} (h : Quotes s u) : Valid s := by
  obtain ⟨content, hcontent, rfl⟩ := h
  rw [Utf8.valid_cons_iff (by decide), Utf8.valid_append_cons_iff (by decide)]
  exact ⟨hcontent.valid, [], rfl⟩

/-! ## From bytes to characters -/

/-- Bytes that continue a character are not those of an escape. -/
theorem Content.of_append {more : Bytes} (hmore : ∀ b ∈ more, Utf8.isContinuation b = true)
    (h : Content .bytes (more ++ s)) : Content .bytes s := by
  induction more with
  | nil => exact h
  | cons b more ih =>
    obtain ⟨hb, hmore⟩ := List.forall_mem_cons.mp hmore
    generalize hcons : b :: more ++ s = bytes at h
    cases h with
    | nil => contradiction
    | plain hp hs =>
      obtain ⟨d, -, rfl⟩ := hp
      obtain ⟨-, rfl⟩ := List.cons.inj hcons
      exact ih hmore hs
    | escape =>
      obtain ⟨rfl, -⟩ := List.cons.inj hcons
      contradiction

/-- The bytes between two quotation marks of a text are those of characters. -/
theorem Content.characters (h : Content .bytes s) (hs : Valid s) : Content .characters s := by
  have hsolidus : Ascii.reverseSolidus < 0x80 := by decide
  obtain ⟨n, hn⟩ : ∃ n, s.length ≤ n := ⟨_, Nat.le_refl _⟩
  induction n generalizing s with
  | zero =>
    obtain rfl := List.eq_nil_of_length_eq_zero (Nat.le_zero.mp hn)
    exact .nil
  | succ n ih =>
    cases h with
    | nil => exact .nil
    | plain hp ht =>
      obtain ⟨b, hb, rfl⟩ := hp
      obtain ⟨cs, hcs⟩ := hs
      obtain ⟨c, ds, more, rfl, hc, rfl, -, hmore⟩ := Utf8.exists_of_encodeChars_eq_cons hcs
      have hrest := ih (ht.of_append hmore) (Utf8.valid_encodeChars ds) (by
        simp only [List.length_append, List.length_cons] at hn
        omega)
      rw [← List.append_assoc, List.singleton_append, ← hc]
      exact .plain ⟨c, isUnescaped_of_isPlain hb hc, rfl⟩ hrest
    | escape he ht =>
      rw [Utf8.valid_cons_iff hsolidus, Utf8.valid_append_iff_right he.lt] at hs
      refine .escape he (ih ht hs ?_)
      simp only [List.length_append, List.length_cons] at hn
      omega

/-- Around a label a text can be cut, and its name is a text by itself. -/
theorem valid_label_append_iff {before name between after : Bytes} (hbefore : IsBlanks before)
    (hbetween : IsBlanks between) (hafter : IsBlanks after) (t : Bytes) :
    Valid (before ++ Ascii.quotation :: (name ++ Ascii.quotation ::
      (between ++ Ascii.colon :: after)) ++ t) ↔ Valid name ∧ Valid t := by
  have hquotation : Ascii.quotation < 0x80 := by decide
  have hcolon : Ascii.colon < 0x80 := by decide
  simp only [List.append_assoc, List.cons_append]
  rw [Utf8.valid_append_iff_right hbefore.lt, Utf8.valid_cons_iff hquotation,
    Utf8.valid_append_cons_iff hquotation, Utf8.valid_append_iff_right hbetween.lt,
    Utf8.valid_cons_iff hcolon, Utf8.valid_append_iff_right hafter.lt]

/-- What follows a label is a text, and the label keeps its form. -/
theorem Frame.Introduces.characters {frame : Frame} {label : Bytes}
    (h : frame.Introduces .bytes label) (hvalid : Valid (label ++ t)) :
    frame.Introduces .characters label ∧ Valid t := by
  cases frame with
  | list => exact ⟨h, (Utf8.valid_append_iff_right (IsBlanks.lt h)).mp hvalid⟩
  | object =>
    obtain ⟨before, name, between, after, hbefore, hname, hbetween, hafter, rfl⟩ := h
    obtain ⟨hn, ht⟩ := (valid_label_append_iff hbefore hbetween hafter t).mp hvalid
    exact ⟨⟨before, name, between, after, hbefore, hname.characters hn, hbetween, hafter, rfl⟩, ht⟩

/-- Around the comma after a value a text can be cut. -/
theorem valid_append_comma_iff {v blanks : Bytes} (hblanks : IsBlanks blanks) :
    Valid (v ++ (blanks ++ Ascii.comma :: t)) ↔ Valid v ∧ Valid t := by
  rw [← List.append_assoc, Utf8.valid_append_cons_iff (by decide),
    Utf8.valid_append_iff_left hblanks.lt]

/-- Around the marks of a literal or a container a text can be cut. -/
theorem valid_enclosed_iff {a b : UInt8} (ha : a < 0x80) (hb : b < 0x80) :
    Valid (a :: (s ++ [b])) ↔ Valid s := by
  have hall : ∀ c ∈ [b], c < 0x80 := fun c hc => List.mem_singleton.mp hc ▸ hb
  rw [Utf8.valid_cons_iff ha, Utf8.valid_append_iff_left hall]

/-- In a text, what is derived with bytes is derived with characters. -/
theorem Derives.characters (h : Derives .bytes symbol s) (hs : Valid s) :
    Derives .characters symbol s := by
  induction h with
  | word hw => exact .word hw
  | number hn => exact .number hn
  | text hcontent =>
    exact .text (hcontent.characters ((valid_enclosed_iff (by decide) (by decide)).mp hs))
  | empty hblanks => exact .empty hblanks
  | @container frame _ _ ih =>
    have hopening : frame.opening < 0x80 := by cases frame <;> decide
    have hclose : frame.close < 0x80 := by cases frame <;> decide
    exact .container (ih ((valid_enclosed_iff hopening hclose).mp hs))
  | last hlabel _ hblanks ih =>
    obtain ⟨hlabel, hs⟩ := hlabel.characters hs
    exact .last hlabel (ih ((Utf8.valid_append_iff_left hblanks.lt).mp hs)) hblanks
  | more hlabel _ hblanks _ ih ihs =>
    obtain ⟨hlabel, hs⟩ := hlabel.characters hs
    obtain ⟨hv, hs⟩ := (valid_append_comma_iff hblanks).mp hs
    exact .more hlabel (ih hv) hblanks (ihs hs)

/-! ## Objects -/

/-- The name of a member is a text. -/
theorem valid_named_append_iff {name : String} {label : Bytes}
    (h : IsLabel (Denotes · name.toList) label) : Valid (label ++ t) ↔ Valid t := by
  obtain ⟨before, content, between, after, hbefore, hname, hbetween, hafter, rfl⟩ := h
  rw [valid_label_append_iff hbefore hbetween hafter, and_iff_right hname.valid]

/-- Members are a text exactly if their values are. -/
theorem MembersOf.valid_iff (h : MembersOf .bytes ms s) : Valid s ↔ ∀ m ∈ ms, Valid m.2 := by
  induction h with
  | last hlabel _ hblanks =>
    rw [valid_named_append_iff hlabel, Utf8.valid_append_iff_left hblanks.lt,
      List.forall_mem_singleton]
  | more hlabel _ hblanks _ ih =>
    rw [valid_named_append_iff hlabel, valid_append_comma_iff hblanks, ih, List.forall_mem_cons]

/-- An object is a text exactly if the values of its members are. -/
theorem IsObject.valid_iff (h : IsObject .bytes ms s) : Valid s ↔ ∀ m ∈ ms, Valid m.2 := by
  cases h with
  | empty hblanks =>
    rw [valid_enclosed_iff (by decide) (by decide)]
    refine ⟨fun _ _ hm => absurd hm List.not_mem_nil, fun _ => ?_⟩
    exact ⟨_, Utf8.encodeChars_map_ofNat hblanks.lt⟩
  | members hms => rw [valid_enclosed_iff (by decide) (by decide), hms.valid_iff]

/-- Members whose values are texts are members in characters. -/
theorem MembersOf.characters (h : MembersOf .bytes ms s) (hms : ∀ m ∈ ms, Valid m.2) :
    MembersOf .characters ms s := by
  induction h with
  | last hlabel hv hblanks =>
    exact .last hlabel (hv.characters (hms _ List.mem_cons_self)) hblanks
  | more hlabel hv hblanks _ ih =>
    obtain ⟨hfirst, hms⟩ := List.forall_mem_cons.mp hms
    exact .more hlabel (hv.characters hfirst) hblanks (ih hms)

/-- In a text, an object of bytes is one of characters. -/
theorem IsObject.characters (h : IsObject .bytes ms s) (hs : Valid s) :
    IsObject .characters ms s := by
  have hms := h.valid_iff.mp hs
  cases h with
  | empty hblanks => exact .empty hblanks
  | members h => exact .members (h.characters hms)

/-- An object is a text exactly if its values are. -/
theorem IsObjectText.valid_iff (h : IsObjectText .bytes ms s) :
    Valid s ↔ ∀ m ∈ ms, Valid m.2 := by
  obtain ⟨before, t, after, hbefore, ht, hafter, rfl⟩ := h
  rw [Utf8.valid_append_iff_right hbefore.lt, Utf8.valid_append_iff_left hafter.lt, ht.valid_iff]

/-- In a text, bytes in literals are characters. -/
theorem isObjectText_bytes_iff (hs : Valid s) :
    IsObjectText .bytes ms s ↔ IsObjectText .characters ms s := by
  constructor
  · rintro ⟨before, t, after, hbefore, ht, hafter, rfl⟩
    rw [Utf8.valid_append_iff_right hbefore.lt, Utf8.valid_append_iff_left hafter.lt] at hs
    exact ⟨before, t, after, hbefore, ht.characters hs, hafter, rfl⟩
  · rintro ⟨before, t, after, hbefore, ht, hafter, rfl⟩
    exact ⟨before, t, after, hbefore, ht.bytes, hafter, rfl⟩

end Sealing.Json
