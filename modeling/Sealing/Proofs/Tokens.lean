import Sealing.Proofs.Grammar
import Sealing.Proofs.Record
import Mathlib.Data.List.TakeWhile

/-!
# Tokens stand at the front

What a reader takes from the front of a text is a token of the grammar, and a token at the front is
taken: blanks, numbers, units, and literals that are only skipped. A number needs to be followed by
something that could not be a part of it; every other token has an end of its own.
-/

namespace Sealing.Json

variable {s rest : Bytes}

/-! ## Blanks -/

/-- The four blanks. -/
theorem isBlank_iff {b : UInt8} : isBlank b = true ↔
    b ∈ [Ascii.space, Ascii.tab, Ascii.lineFeed, Ascii.carriageReturn] := by
  simp only [isBlank, Bool.or_eq_true, beq_iff_eq, List.mem_cons, List.not_mem_nil, or_false]
  constructor
  · rintro (((h | h) | h) | h) <;> simp only [h, true_or, or_true]
  · rintro (h | h | h | h) <;> simp only [h, true_or, or_true]

/-- No bytes are blanks. -/
theorem IsBlanks.nil : IsBlanks [] := fun _ hb => absurd hb List.not_mem_nil

/-- Blanks behind blanks are blanks. -/
theorem IsBlanks.append {s t : Bytes} (hs : IsBlanks s) (ht : IsBlanks t) : IsBlanks (s ++ t) :=
  fun b hb => (List.mem_append.mp hb).elim (hs b) (ht b)

/-- Blanks in front are skipped. -/
theorem skipBlanks_append {blanks : Bytes} (h : IsBlanks blanks) (s : Bytes) :
    skipBlanks (blanks ++ s) = skipBlanks s :=
  List.dropWhile_append_of_pos fun b hb => isBlank_iff.mpr (h b hb)

/-- The blanks at the front, and what is left after them. -/
theorem exists_skipBlanks (s : Bytes) : ∃ blanks, IsBlanks blanks ∧ s = blanks ++ skipBlanks s :=
  ⟨s.takeWhile isBlank, fun _ hb => isBlank_iff.mp (List.mem_takeWhile_imp hb),
    List.takeWhile_append_dropWhile.symm⟩

/-- What is skipped is blanks. -/
theorem exists_of_skipBlanks {b : UInt8} (h : skipBlanks s = b :: rest) :
    ∃ blanks, IsBlanks blanks ∧ s = blanks ++ b :: rest := by
  obtain ⟨blanks, hblanks, hs⟩ := exists_skipBlanks s
  exact ⟨blanks, hblanks, h ▸ hs⟩

/-! ## Numbers -/

section Numbers

variable {ds fraction exponent : Bytes}

/-- The digits at the front, and what is left after them. -/
theorem exists_afterDigits (s : Bytes) : ∃ ds, (∀ b ∈ ds, Ascii.isDigit b = true) ∧
    digitRun s = ds ∧ s = ds ++ afterDigits s :=
  ⟨digitRun s, fun _ hb => List.mem_takeWhile_imp hb, rfl, List.takeWhile_append_dropWhile.symm⟩

/-- The digits in front of something else are taken, and no more. -/
theorem digitRun_append_of_head (hds : ∀ b ∈ ds, Ascii.isDigit b = true)
    (hrest : ∀ b ∈ rest.head?, Ascii.isDigit b = false) :
    digitRun (ds ++ rest) = ds ∧ afterDigits (ds ++ rest) = rest := by
  rw [digitRun, afterDigits, List.takeWhile_append_of_pos hds, List.dropWhile_append_of_pos hds]
  cases rest with
  | nil => exact ⟨List.append_nil ds, rfl⟩
  | cons b rest =>
    have hb : ¬Ascii.isDigit b = true := Bool.eq_false_iff.mp (hrest b rfl)
    rw [List.takeWhile_cons_of_neg hb, List.dropWhile_cons_of_neg hb, List.append_nil]
    exact ⟨rfl, rfl⟩

private theorem isExponentLetter_iff {b : UInt8} : isExponentLetter b = true ↔ b ∈ [0x65, 0x45] := by
  simp [isExponentLetter]

private theorem exists_of_readSign {b : UInt8} (h : (readSign s).2 = b :: rest) :
    ∃ sign, sign ∈ [[], [Ascii.plus], [Ascii.minus]] ∧ s = sign ++ b :: rest := by
  unfold readSign at h
  split at h
  · split at h
    · next hplus => exact ⟨[Ascii.plus], by simp, by rw [hplus]; exact congrArg _ h⟩
    · split at h
      · next hminus => exact ⟨[Ascii.minus], by simp, by rw [hminus]; exact congrArg _ h⟩
      · exact ⟨[], by simp, h⟩
  · contradiction

private theorem readSign_append {sign : Bytes} {b : UInt8}
    (hsign : sign ∈ [[], [Ascii.plus], [Ascii.minus]]) (hb : Ascii.isDigit b = true) (s : Bytes) :
    (readSign (sign ++ b :: s)).2 = b :: s := by
  have hplus : b ≠ Ascii.plus := by rintro rfl; contradiction
  have hminus : b ≠ Ascii.minus := by rintro rfl; contradiction
  simp only [List.mem_cons, List.not_mem_nil, or_false] at hsign
  rcases hsign with rfl | rfl | rfl
  · rw [List.nil_append, readSign, if_neg hplus, if_neg hminus]
  · rfl
  · rfl

private theorem exists_of_skipScale (h : skipScale s = .ok rest) :
    ∃ exponent, IsExponent exponent ∧ s = exponent ++ rest := by
  unfold skipScale at h
  split at h
  · next letter t =>
    split at h
    · next hletter =>
      unfold skipExponent at h
      split at h
      · contradiction
      · next b u hsign =>
        split at h
        · next hb =>
          obtain rfl := Except.ok.inj h
          obtain ⟨sign, hmem, rfl⟩ := exists_of_readSign hsign
          obtain ⟨ds, hds, -, hu⟩ := exists_afterDigits u
          refine ⟨letter :: (sign ++ b :: ds), .inr ⟨letter, sign, b :: ds,
            isExponentLetter_iff.mp hletter, hmem, ⟨List.cons_ne_nil b ds, ?_⟩, rfl⟩, ?_⟩
          · exact List.forall_mem_cons.mpr ⟨hb, hds⟩
          · rw [List.cons_append, List.append_assoc, List.cons_append, ← hu]
        · contradiction
    · exact ⟨[], .inl rfl, (Except.ok.inj h)⟩
  · exact ⟨[], .inl rfl, (Except.ok.inj h)⟩

private theorem exists_of_skipTail (h : skipTail s = .ok rest) :
    ∃ fraction exponent, IsFraction fraction ∧ IsExponent exponent ∧
      s = fraction ++ (exponent ++ rest) := by
  unfold skipTail at h
  split at h
  · next b t =>
    split at h
    · next hpoint =>
      obtain rfl := hpoint
      unfold skipFraction at h
      split at h
      · contradiction
      · next hne =>
        obtain ⟨exponent, hexponent, hafter⟩ := exists_of_skipScale h
        obtain ⟨ds, hds, hrun, ht⟩ := exists_afterDigits t
        refine ⟨Ascii.point :: ds, exponent, .inr ⟨ds, ⟨hrun ▸ hne, hds⟩, rfl⟩, hexponent, ?_⟩
        rw [List.cons_append, ← hafter, ← ht]
    · obtain ⟨exponent, hexponent, ht⟩ := exists_of_skipScale h
      exact ⟨[], exponent, .inl rfl, hexponent, ht⟩
  · exact ⟨[], [], .inl rfl, .inl rfl, Except.ok.inj h⟩

/-- What is skipped as a number is one. -/
theorem exists_of_skipNumber (h : skipNumber s = .ok rest) :
    ∃ n, IsUnsigned n ∧ s = n ++ rest := by
  unfold skipNumber at h
  split at h
  · contradiction
  · next b t =>
    split at h
    · next hzero =>
      split at h
      · contradiction
      · obtain ⟨fraction, exponent, hfraction, hexponent, rfl⟩ := exists_of_skipTail h
        refine ⟨_, ⟨[Ascii.zero], fraction, exponent, .inl rfl, hfraction, hexponent, rfl⟩, ?_⟩
        rw [hzero, List.append_assoc, List.append_assoc, List.singleton_append]
    · next hzero =>
      split at h
      · next hb =>
        obtain ⟨fraction, exponent, hfraction, hexponent, hafter⟩ := exists_of_skipTail h
        obtain ⟨ds, hds, -, ht⟩ := exists_afterDigits t
        refine ⟨_, ⟨b :: ds, fraction, exponent, .inr ⟨⟨List.cons_ne_nil b ds, ?_⟩, ?_⟩,
          hfraction, hexponent, rfl⟩, ?_⟩
        · exact List.forall_mem_cons.mpr ⟨hb, hds⟩
        · exact fun heq => hzero (Option.some.inj heq)
        · rw [List.append_assoc, List.append_assoc, ← hafter, List.cons_append, ← ht]
      · contradiction

/-- An exponent, and what ends a number, begin with neither a digit nor a point. -/
theorem IsExponent.head (h : IsExponent exponent) (hrest : EndsNumber rest) :
    ∀ b ∈ (exponent ++ rest).head?, Ascii.isDigit b = false ∧ b ≠ Ascii.point := by
  rcases h with rfl | ⟨letter, sign, ds, hletter, -, -, rfl⟩
  · exact fun b hb => ⟨(hrest b hb).1, (hrest b hb).2.1⟩
  · rintro b ⟨⟩
    simp only [List.mem_cons, List.not_mem_nil, or_false] at hletter
    rcases hletter with rfl | rfl <;> decide

/-- A fraction, an exponent, and what ends a number, do not begin with a digit. -/
theorem IsFraction.head (h : IsFraction fraction) (he : IsExponent exponent)
    (hrest : EndsNumber rest) :
    ∀ b ∈ (fraction ++ (exponent ++ rest)).head?, Ascii.isDigit b = false := by
  rcases h with rfl | ⟨ds, -, rfl⟩
  · exact fun b hb => (he.head hrest b hb).1
  · rintro b ⟨⟩
    decide

private theorem skipScale_append (h : IsExponent exponent) (hrest : EndsNumber rest) :
    skipScale (exponent ++ rest) = .ok rest := by
  rcases h with rfl | ⟨letter, sign, ds, hletter, hsign, ⟨hne, hds⟩, rfl⟩
  · cases rest with
    | nil => rfl
    | cons b rest =>
      have hb := (hrest b rfl).2.2
      rw [List.nil_append, skipScale, if_neg (Bool.eq_false_iff.mp hb)]
  · obtain ⟨d, ds, rfl⟩ := List.exists_cons_of_ne_nil hne
    obtain ⟨hd, hds⟩ := List.forall_mem_cons.mp hds
    have hafter := (digitRun_append_of_head hds fun b hb => (hrest b hb).1).2
    rw [List.cons_append, List.append_assoc, List.cons_append, skipScale,
      if_pos (isExponentLetter_iff.mpr hletter), skipExponent, readSign_append hsign hd]
    simp only [hd, if_true, hafter]

private theorem skipTail_append (hf : IsFraction fraction) (he : IsExponent exponent)
    (hrest : EndsNumber rest) : skipTail (fraction ++ (exponent ++ rest)) = .ok rest := by
  rcases hf with rfl | ⟨ds, ⟨hne, hds⟩, rfl⟩
  · rw [List.nil_append]
    have hscale := skipScale_append he hrest
    cases hs : exponent ++ rest with
    | nil =>
      rw [hs] at hscale
      exact hscale
    | cons b t =>
      have hpoint : b ≠ Ascii.point := (he.head hrest b (by rw [hs]; rfl)).2
      rw [hs] at hscale
      rw [skipTail, if_neg hpoint, hscale]
  · obtain ⟨hrun, hafter⟩ := digitRun_append_of_head hds fun b hb => (he.head hrest b hb).1
    rw [List.cons_append, skipTail, if_pos rfl, skipFraction, hrun, if_neg hne, hafter,
      skipScale_append he hrest]

/-- A number is skipped, if what follows could not be a part of it. -/
theorem skipNumber_append {n : Bytes} (h : IsUnsigned n) (hrest : EndsNumber rest) :
    skipNumber (n ++ rest) = .ok rest := by
  obtain ⟨whole, fraction, exponent, hwhole, hfraction, hexponent, rfl⟩ := h
  have hhead := hfraction.head hexponent hrest
  have htail := skipTail_append hfraction hexponent hrest
  rw [List.append_assoc, List.append_assoc]
  rcases hwhole with rfl | ⟨⟨hne, hds⟩, hzero⟩
  · have hoverlong : overlong (fraction ++ (exponent ++ rest)) = false := by
      cases hs : fraction ++ (exponent ++ rest) with
      | nil => rfl
      | cons b t => exact hhead b (by rw [hs]; rfl)
    rw [List.singleton_append, skipNumber, if_pos rfl, hoverlong, htail]
    rfl
  · obtain ⟨d, ds, rfl⟩ := List.exists_cons_of_ne_nil hne
    obtain ⟨hd, hds⟩ := List.forall_mem_cons.mp hds
    have hnonzero : d ≠ Ascii.zero := fun heq => hzero (congrArg some heq)
    rw [List.cons_append, skipNumber, if_neg hnonzero, if_pos hd,
      (digitRun_append_of_head hds hhead).2, htail]

end Numbers

/-! ## Literals -/

section Literals

/-- The value of a hexadecimal digit. -/
theorem isHexDigit_iff {b : UInt8} {v : Nat} : IsHexDigit v b ↔ Ascii.hexValue? b = some v := by
  have hlower : ∀ v < 16, ∀ b ∈ (Ascii.bytes "0123456789abcdef")[v]?,
      Ascii.hexValue? b = some v := by decide +kernel
  have hupper : ∀ v < 16, ∀ b ∈ (Ascii.bytes "0123456789ABCDEF")[v]?,
      Ascii.hexValue? b = some v := by decide +kernel
  have hall : ∀ n < 256, ∀ v ∈ Ascii.hexValue? (UInt8.ofNat n),
      IsHexDigit v (UInt8.ofNat n) := by
    unfold IsHexDigit
    decide +kernel
  constructor
  · rintro (h | h)
    · exact hlower v (List.getElem?_eq_some_iff.mp h).1 b h
    · exact hupper v (List.getElem?_eq_some_iff.mp h).1 b h
  · intro h
    rw [← UInt8.ofNat_toNat (x := b)] at h ⊢
    exact hall b.toNat b.toNat_lt v h

/-- The value of four hexadecimal digits. -/
theorem unitValue?_eq_some_iff {a b c d : UInt8} {n : Nat} :
    unitValue? a b c d = some n ↔ WritesUnit n [a, b, c, d] := by
  simp only [unitValue?, Option.bind_eq_bind, Option.bind_eq_some_iff, ← isHexDigit_iff]
  constructor
  · rintro ⟨v, hv, w, hw, x, hx, y, hy, h⟩
    obtain rfl := Option.some.inj h
    exact .digits hv hw hx hy
  · rintro ⟨hv, hw, hx, hy⟩
    exact ⟨_, hv, _, hw, _, hx, _, hy, rfl⟩

/-- A unit is read exactly if it stands at the front. -/
theorem readUnit_eq_ok_iff {n : Nat} :
    readUnit s = .ok (n, rest) ↔ ∃ ds, WritesUnit n ds ∧ s = ds ++ rest := by
  constructor
  · intro h
    unfold readUnit at h
    split at h
    · next a b c d t =>
      split at h
      · next hn =>
        obtain ⟨rfl, rfl⟩ := Prod.mk.inj (Except.ok.inj h)
        exact ⟨_, unitValue?_eq_some_iff.mp hn, rfl⟩
      · contradiction
    · contradiction
  · rintro ⟨ds, h, rfl⟩
    obtain ⟨hv, hw, hx, hy⟩ := h
    have hn := unitValue?_eq_some_iff.mpr (.digits hv hw hx hy)
    simp only [List.cons_append, List.nil_append, readUnit, hn]

/-- The bytes of the short escapes are those of their characters. -/
theorem simpleEscape?_eq_some_iff {l : UInt8} {b : Bytes} :
    (simpleEscape? l).map ([·]) = some b ↔
      ∃ c, (l, c) ∈ shortEscapes ∧ b = String.utf8EncodeChar c := by
  have hmem : ∀ p ∈ shortEscapes,
      (simpleEscape? p.1).map ([·]) = some (String.utf8EncodeChar p.2) := by decide
  have hall : ∀ n < 256, ∀ b ∈ (simpleEscape? (UInt8.ofNat n)).map ([·]),
      ∃ p ∈ shortEscapes, p.1 = UInt8.ofNat n ∧ b = String.utf8EncodeChar p.2 := by
    decide +kernel
  constructor
  · intro h
    rw [← UInt8.ofNat_toNat (x := l)] at h ⊢
    obtain ⟨⟨l', c⟩, hp, rfl, rfl⟩ := hall l.toNat l.toNat_lt b h
    exact ⟨c, hp, rfl⟩
  · rintro ⟨c, hp, rfl⟩
    exact hmem (l, c) hp

private theorem isSome_simpleEscape?_iff {l : UInt8} :
    (simpleEscape? l).isSome ↔ ∃ c, (l, c) ∈ shortEscapes := by
  constructor
  · intro h
    obtain ⟨b, hb⟩ := Option.isSome_iff_exists.mp h
    obtain ⟨c, hc, -⟩ := simpleEscape?_eq_some_iff.mp (congrArg (Option.map ([·])) hb)
    exact ⟨c, hc⟩
  · rintro ⟨c, hc⟩
    have h := simpleEscape?_eq_some_iff.mpr ⟨c, hc, rfl⟩
    cases hl : simpleEscape? l with
    | none =>
      rw [hl] at h
      contradiction
    | some b => rfl

/-- An escape is skipped exactly if it stands at the front. -/
theorem skipEscape_eq_ok_iff :
    skipEscape s = .ok rest ↔ ∃ e, IsEscape e ∧ s = e ++ rest := by
  constructor
  · intro h
    unfold skipEscape at h
    split at h
    · contradiction
    · next l t =>
      split at h
      · next hl =>
        obtain ⟨c, hc⟩ := isSome_simpleEscape?_iff.mp hl
        obtain rfl := Except.ok.inj h
        exact ⟨[l], .letter hc, rfl⟩
      · split at h
        · next hl =>
          obtain rfl := hl
          split at h
          · contradiction
          · next hn =>
            obtain rfl := Except.ok.inj h
            obtain ⟨ds, hds, rfl⟩ := readUnit_eq_ok_iff.mp hn
            exact ⟨unitLetter :: ds, .unit hds, rfl⟩
        · contradiction
  · rintro ⟨e, he, rfl⟩
    cases he with
    | letter hc => exact if_pos (isSome_simpleEscape?_iff.mpr ⟨_, hc⟩)
    | @unit n ds hds =>
      have hn : readUnit (ds ++ rest) = .ok (n, rest) := readUnit_eq_ok_iff.mpr ⟨ds, hds, rfl⟩
      have hletter : ¬(simpleEscape? unitLetter).isSome = true := by decide
      rw [List.cons_append, skipEscape, if_neg hletter, if_pos rfl, hn]

private theorem skipText_cons {b : UInt8} (h : IsPlain b) (s : Bytes) : skipText (b :: s) = skipText s := by
  rw [skipText, if_neg h.ne_quotation, if_neg h.ne_reverseSolidus,
    if_neg (Bool.eq_false_iff.mp h.not_isControl)]

private theorem skipText_escape {e : Bytes} (h : IsEscape e) (s : Bytes) :
    skipText (Ascii.reverseSolidus :: (e ++ s)) = skipText s := by
  have he : skipEscape (e ++ s) = .ok s := skipEscape_eq_ok_iff.mpr ⟨e, h, rfl⟩
  rw [skipText, if_neg (by decide), if_pos rfl]
  split
  · next hf =>
    rw [he] at hf
    contradiction
  · next hok =>
    rw [he] at hok
    obtain rfl := Except.ok.inj hok
    rfl

/-- A literal is skipped exactly up to its closing mark. -/
theorem skipText_eq_ok_iff : skipText s = .ok rest ↔
    ∃ content, Content .bytes content ∧ s = content ++ Ascii.quotation :: rest := by
  constructor
  · intro h
    fun_induction skipText s with
    | case1 => contradiction
    | case2 s =>
      obtain rfl := Except.ok.inj h
      exact ⟨[], .nil, rfl⟩
    | case3 => contradiction
    | case4 s after he _ _ ih =>
      obtain ⟨e, hescape, rfl⟩ := skipEscape_eq_ok_iff.mp he
      obtain ⟨content, hcontent, rfl⟩ := ih h
      exact ⟨_, .escape hescape hcontent, by rw [List.cons_append, List.append_assoc]⟩
    | case5 => contradiction
    | case6 b s hquotation hsolidus hcontrol ih =>
      obtain ⟨content, hcontent, rfl⟩ := ih h
      have hplain : IsPlain b := ⟨hquotation, hsolidus, Bool.eq_false_iff.mpr hcontrol⟩
      exact ⟨[b] ++ content, .plain ⟨b, hplain, rfl⟩ hcontent, rfl⟩
  · rintro ⟨content, hcontent, rfl⟩
    induction hcontent with
    | nil =>
      rw [List.nil_append, skipText, if_pos rfl]
    | plain hp _ ih =>
      obtain ⟨b, hb, rfl⟩ := hp
      rw [List.append_assoc, List.singleton_append, skipText_cons hb, ih]
    | escape he _ ih =>
      rw [List.cons_append, List.append_assoc, skipText_escape he, ih]

end Literals

end Sealing.Json
