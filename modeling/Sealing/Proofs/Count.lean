import Sealing.Proofs.Tokens

/-!
# Counts are read from whole numbers only

A count is read exactly from the decimal digits of a number of 64 bits, without needless zeros, a
sign, a fraction or an exponent. With a fraction or an exponent a number is a double, even if its
value is whole, and so is one that is too long; the digits that fit are the digits that are there.
-/

namespace Sealing.Json

variable {s rest ds : Bytes} {negative : Bool} {significand : Nat} {exponent : Int} {m : Numeral}
  {n limit : Nat}

/-- The value of decimal digits behind a number. -/
def decimalFrom (n : Nat) (ds : Bytes) : Nat := ds.foldl (fun n d => n * 10 + Ascii.digitValue d) n

/-- Further digits do not make a number smaller. -/
theorem le_decimalFrom (n : Nat) (ds : Bytes) : n ≤ decimalFrom n ds := by
  induction ds generalizing n with
  | nil => exact Nat.le_refl n
  | cons d ds ih => exact Nat.le_trans (by omega) (ih (n * 10 + Ascii.digitValue d))

/-- If all digits were taken, the number is their value. -/
theorem absorb_fst_of_length_le (h : ds.length ≤ (absorb limit n ds).2) :
    (absorb limit n ds).1 = decimalFrom n ds := by
  induction ds generalizing n with
  | nil => rfl
  | cons d ds ih =>
    simp only [absorb, List.length_cons] at h ⊢
    split at h
    · next hlt =>
      rw [if_pos hlt]
      exact ih (Nat.le_of_succ_le_succ h)
    · contradiction

/-- If their value is below the limit, all digits are taken. -/
theorem absorb_of_lt (h : decimalFrom n ds < limit) :
    absorb limit n ds = (decimalFrom n ds, ds.length) := by
  induction ds generalizing n with
  | nil => rfl
  | cons d ds ih =>
    have hlt : n * 10 + Ascii.digitValue d < limit := Nat.lt_of_le_of_lt (le_decimalFrom _ ds) h
    have hds : absorb limit (n * 10 + Ascii.digitValue d) ds =
        (decimalFrom (n * 10 + Ascii.digitValue d) ds, ds.length) := ih h
    rw [absorb]
    simp only [if_pos hlt, hds]
    rfl

/-! ## What becomes a double -/

private theorem eq_fraction_of_scaled (h : scaled negative significand exponent s = .ok (m, rest)) :
    ∃ x, m = .fraction x := by
  unfold scaled at h
  split at h
  · obtain ⟨rfl, -⟩ := Prod.mk.inj (Except.ok.inj h)
    exact ⟨_, rfl⟩
  · contradiction

private theorem eq_fraction_of_readExponent
    (h : readExponent negative significand exponent s = .ok (m, rest)) : ∃ x, m = .fraction x := by
  unfold readExponent at h
  dsimp only at h
  split at h
  · contradiction
  · split at h
    · split at h
      · exact eq_fraction_of_scaled h
      · split at h
        · contradiction
        · obtain ⟨rfl, -⟩ := Prod.mk.inj (Except.ok.inj h)
          exact ⟨_, rfl⟩
    · contradiction

private theorem eq_fraction_of_readScale
    (h : readScale negative significand exponent s = .ok (m, rest)) : ∃ x, m = .fraction x := by
  unfold readScale at h
  split at h
  · split at h
    · exact eq_fraction_of_readExponent h
    · exact eq_fraction_of_scaled h
  · exact eq_fraction_of_scaled h

private theorem eq_fraction_of_readFraction
    (h : readFraction negative significand exponent s = .ok (m, rest)) : ∃ x, m = .fraction x := by
  unfold readFraction at h
  split at h
  · contradiction
  · exact eq_fraction_of_readScale h

/-- Only the digits of an integer without a sign, if they all fit, are read as unsigned. -/
theorem of_readTail {excess : Nat}
    (h : readTail negative significand excess s = .ok (.unsigned n, rest)) :
    negative = false ∧ excess = 0 ∧ significand = n ∧ s = rest := by
  have hnot {x : Float} : Numeral.unsigned n ≠ .fraction x := Numeral.noConfusion
  have hfraction : ¬∃ x, Numeral.unsigned n = .fraction x := fun ⟨_, hx⟩ => hnot hx
  have hintegral {t : Bytes} (hexcess : excess = 0)
      (ht : Except.ok (ε := Fault) (integral negative significand, t) = .ok (.unsigned n, rest)) :
      negative = false ∧ excess = 0 ∧ significand = n ∧ t = rest := by
    obtain ⟨hvalue, rfl⟩ := Prod.mk.inj (Except.ok.inj ht)
    unfold integral at hvalue
    split_ifs at hvalue with hnegative
    exact ⟨Bool.eq_false_iff.mpr hnegative, hexcess, Numeral.unsigned.inj hvalue, rfl⟩
  unfold readTail at h
  split at h
  · split_ifs at h with hpoint hletter hexcess
    · exact absurd (eq_fraction_of_readFraction h) hfraction
    · exact absurd (eq_fraction_of_readExponent h) hfraction
    · exact hintegral hexcess h
    · exact absurd (eq_fraction_of_scaled h) hfraction
  · split_ifs at h with hexcess
    · exact hintegral hexcess h
    · exact absurd (eq_fraction_of_scaled h) hfraction

/-! ## Counts -/

/-- What is read as unsigned is the value of a whole number. -/
theorem of_readNumber (h : readNumber negative s = .ok (.unsigned n, rest)) :
    negative = false ∧ n < significandLimit ∧
      ∃ t, IsWhole t ∧ decimalFrom 0 t = n ∧ s = t ++ rest := by
  have hlimit : 0 < significandLimit := by decide
  unfold readNumber at h
  split at h
  · contradiction
  · next b t =>
    split_ifs at h with hzero hoverlong hdigit
    · obtain ⟨rfl, -, rfl, rfl⟩ := of_readTail h
      exact ⟨rfl, hlimit, [Ascii.zero], .inl rfl, rfl, by rw [hzero, List.singleton_append]⟩
    · obtain ⟨hnegative, hexcess, hvalue, hafter⟩ := of_readTail h
      obtain ⟨ds, hds, hrun, hs⟩ := exists_afterDigits (b :: t)
      rw [hrun] at hexcess hvalue
      rw [hafter] at hs
      have hfirst : ∃ ds', ds = b :: ds' := by
        rw [← hrun, digitRun, List.takeWhile_cons_of_pos hdigit]
        exact ⟨_, rfl⟩
      obtain ⟨ds', rfl⟩ := hfirst
      refine ⟨hnegative, hvalue ▸ absorb_fst_lt hlimit _, b :: ds',
        .inr ⟨⟨List.cons_ne_nil b ds', hds⟩, ?_⟩, ?_, hs⟩
      · exact fun heq => hzero (Option.some.inj heq)
      · rw [← hvalue, absorb_fst_of_length_le (Nat.le_of_sub_eq_zero hexcess)]

private theorem of_countOf {c : UInt64} (h : countOf m s = .ok (c, rest)) :
    ∃ n, m = .unsigned n ∧ UInt64.ofNat n = c ∧ s = rest := by
  cases m with
  | unsigned n =>
    obtain ⟨hc, hs⟩ := Prod.mk.inj (Except.ok.inj h)
    exact ⟨n, rfl, hc, hs⟩
  | signed => contradiction
  | fraction => contradiction

/-- What is read as a count is the value of a whole number. -/
theorem exists_of_readCount {b : UInt8} {c : UInt64} (h : readCount b s = .ok (c, rest)) :
    ∃ t, IsWhole t ∧ decimalFrom 0 t = c.toNat ∧ b :: s = t ++ rest := by
  unfold readCount at h
  split at h
  · split at h
    · contradiction
    · next hnumber =>
      obtain ⟨n, rfl, -, -⟩ := of_countOf h
      have hsign := (of_readNumber hnumber).1
      contradiction
  · split at h
    · split at h
      · contradiction
      · next hnumber =>
        obtain ⟨n, rfl, rfl, rfl⟩ := of_countOf h
        obtain ⟨-, hlt, t, ht, hvalue, hs⟩ := of_readNumber hnumber
        refine ⟨t, ht, ?_, hs⟩
        rw [hvalue, UInt64.toNat_ofNat']
        exact (Nat.mod_eq_of_lt hlt).symm
    · contradiction

/-- A whole number below the limit of a significand is read as its value. -/
theorem readNumber_append {t : Bytes} (ht : IsWhole t) (hlimit : decimalFrom 0 t < significandLimit)
    (hrest : EndsNumber rest) :
    readNumber false (t ++ rest) = .ok (.unsigned (decimalFrom 0 t), rest) := by
  rcases ht with rfl | ⟨⟨hne, hds⟩, hzero⟩
  · have hoverlong : overlong rest = false := by
      cases rest with
      | nil => rfl
      | cons b rest => exact (hrest b rfl).1
    rw [List.singleton_append, readNumber, if_pos rfl, hoverlong]
    exact readTail_of_endsNumber hrest 0
  · obtain ⟨d, ds, rfl⟩ := List.exists_cons_of_ne_nil hne
    have hnonzero : d ≠ Ascii.zero := fun heq => hzero (congrArg some heq)
    obtain ⟨hrun, hafter⟩ := digitRun_append_of_head hds fun b hb => (hrest b hb).1
    rw [List.cons_append] at hrun hafter ⊢
    rw [readNumber, if_neg hnonzero, if_pos (hds d List.mem_cons_self), hrun, hafter]
    simp only [absorb_of_lt hlimit, Nat.sub_self]
    exact readTail_of_endsNumber hrest _

/-- A whole number of 64 bits is read as a count. -/
theorem readCount_append {t : Bytes} {c : UInt64} (ht : IsWhole t)
    (hvalue : decimalFrom 0 t = c.toNat) (hrest : EndsNumber rest) :
    ∃ b s, t ++ rest = b :: s ∧ Ascii.isDigit b = true ∧ readCount b s = .ok (c, rest) := by
  have hnumber := readNumber_append ht (hvalue ▸ c.toNat_lt) hrest
  have hfirst : ∃ b s, t ++ rest = b :: s ∧ Ascii.isDigit b = true := by
    rcases ht with rfl | ⟨⟨hne, hds⟩, -⟩
    · exact ⟨Ascii.zero, rest, rfl, by decide⟩
    · obtain ⟨d, ds, rfl⟩ := List.exists_cons_of_ne_nil hne
      exact ⟨d, ds ++ rest, rfl, hds d List.mem_cons_self⟩
  obtain ⟨b, s, hs, hb⟩ := hfirst
  have hminus : b ≠ Ascii.minus := by
    rintro rfl
    contradiction
  refine ⟨b, s, hs, hb, ?_⟩
  rw [hs, hvalue] at hnumber
  rw [readCount, if_neg hminus, if_pos hb, hnumber]
  simp only [countOf, UInt64.ofNat_toNat]

end Sealing.Json
