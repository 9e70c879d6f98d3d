import Sealing.Json.Printer
import Sealing.Json.Record
import Sealing.Proofs.Utf8

/-!
# Counts are read back

A count is written with its decimal digits, and without a leading zero unless it is zero. What
follows it ends the number if it could not be a part of one. Then the reader takes exactly the
digits, and they stay below the limit of a significand, so the value is the count.
-/

namespace Sealing.Json

/-- What follows does not continue a number. -/
def EndsNumber (rest : Bytes) : Prop :=
  ∀ b ∈ rest.head?, Ascii.isDigit b = false ∧ b ≠ Ascii.point ∧ isExponentLetter b = false

/-- The written form of a number consists of digits. -/
def IsDigits (cs : List Char) : Prop := ∀ c ∈ cs, c.isDigit = true

variable {cs : List Char} {rest : Bytes} {n : Nat}

/-- The decimal digits of a number are digits. -/
theorem isDigits_toDigits (n : Nat) : IsDigits (Nat.toDigits 10 n) :=
  fun _ hc => Nat.isDigit_of_mem_toDigits (by decide) (by decide) hc

private theorem toNat_of_isDigit {c : Char} (h : c.isDigit = true) :
    0x30 ≤ c.toNat ∧ c.toNat ≤ 0x39 := by
  rw [Char.isDigit, Bool.and_eq_true, decide_eq_true_iff, decide_eq_true_iff] at h
  exact h

/-- A digit is written as one digit byte of the same value. -/
theorem utf8EncodeChar_of_isDigit {c : Char} (h : c.isDigit = true) :
    ∃ b, String.utf8EncodeChar c = [b] ∧ b.toNat = c.toNat ∧ Ascii.isDigit b = true := by
  obtain ⟨hlow, hhigh⟩ := toNat_of_isDigit h
  have hbyte : (UInt8.ofNat c.toNat).toNat = c.toNat := by
    rw [UInt8.toNat_ofNat']
    omega
  refine ⟨UInt8.ofNat c.toNat, Utf8.utf8EncodeChar_of_lt (by omega), hbyte, ?_⟩
  rw [Ascii.isDigit, Bool.and_eq_true, decide_eq_true_iff, decide_eq_true_iff,
    UInt8.le_iff_toNat_le, UInt8.le_iff_toNat_le, hbyte]
  exact ⟨hlow, hhigh⟩

private theorem encodeChars_cons_of_isDigit {c : Char} (h : c.isDigit = true) (cs : List Char) :
    ∃ b, Utf8.encodeChars (c :: cs) = b :: Utf8.encodeChars cs ∧ b.toNat = c.toNat ∧
      Ascii.isDigit b = true := by
  obtain ⟨b, hb, hvalue, hdigit⟩ := utf8EncodeChar_of_isDigit h
  exact ⟨b, by rw [Utf8.encodeChars_cons, hb, List.singleton_append], hvalue, hdigit⟩

/-- The digits at the front are the written ones. -/
theorem digitRun_append (hcs : IsDigits cs) (hrest : EndsNumber rest) :
    digitRun (Utf8.encodeChars cs ++ rest) = Utf8.encodeChars cs ∧
      afterDigits (Utf8.encodeChars cs ++ rest) = rest := by
  induction cs with
  | nil =>
    cases rest with
    | nil => exact ⟨rfl, rfl⟩
    | cons b rest =>
      have hb := (hrest b rfl).1
      simp [digitRun, afterDigits, hb]
  | cons c cs ih =>
    obtain ⟨b, hb, -, hdigit⟩ := encodeChars_cons_of_isDigit (hcs c List.mem_cons_self) cs
    obtain ⟨hrun, hafter⟩ := ih fun d hd => hcs d (List.mem_cons_of_mem c hd)
    rw [digitRun, afterDigits, hb, List.cons_append, List.takeWhile_cons_of_pos hdigit,
      List.dropWhile_cons_of_pos hdigit]
    exact ⟨congrArg (b :: ·) hrun, hafter⟩

private theorem le_ofDigitChars (cs : List Char) (n : Nat) : n ≤ Nat.ofDigitChars 10 cs n := by
  induction cs generalizing n with
  | nil => exact Nat.le_of_eq Nat.ofDigitChars_nil.symm
  | cons c cs ih =>
    rw [Nat.ofDigitChars_cons]
    exact Nat.le_trans (by omega) (ih _)

/-- All digits are taken as long as the number stays below the limit. -/
theorem absorb_encodeChars {limit : Nat} (hcs : IsDigits cs)
    (hlimit : Nat.ofDigitChars 10 cs n < limit) :
    absorb limit n (Utf8.encodeChars cs) =
      (Nat.ofDigitChars 10 cs n, (Utf8.encodeChars cs).length) := by
  induction cs generalizing n with
  | nil => rw [Nat.ofDigitChars_nil, Utf8.encodeChars_nil, absorb, List.length_nil]
  | cons c cs ih =>
    obtain ⟨b, hb, hvalue, -⟩ := encodeChars_cons_of_isDigit (hcs c List.mem_cons_self) cs
    have hlonger : n * 10 + Ascii.digitValue b = 10 * n + (c.toNat - '0'.toNat) := by
      rw [Ascii.digitValue, hvalue, Nat.mul_comm]
      rfl
    rw [Nat.ofDigitChars_cons] at hlimit ⊢
    have hlt := Nat.lt_of_le_of_lt (le_ofDigitChars cs _) hlimit
    rw [hb, absorb]
    simp only [hlonger, if_pos hlt, List.length_cons]
    rw [ih (fun d hd => hcs d (List.mem_cons_of_mem c hd)) hlimit]

/-- A positive number is written without a leading zero. -/
theorem toDigits_eq_cons (h : 0 < n) : ∃ c cs, Nat.toDigits 10 n = c :: cs ∧ c ≠ '0' := by
  induction n using Nat.strongRecOn with
  | ind n ih =>
    by_cases hlt : n < 10
    · have hall : ∀ d < 10, 0 < d → Nat.digitChar d ≠ '0' := by decide
      exact ⟨_, [], Nat.toDigits_of_lt_base hlt, hall n hlt h⟩
    · obtain ⟨c, cs, hcs, hc⟩ := ih (n / 10) (by omega) (by omega)
      refine ⟨c, cs ++ [Nat.digitChar (n % 10)], ?_, hc⟩
      rw [Nat.toDigits_of_base_le (by decide) (by omega), hcs, List.cons_append]

/-- What ends a number leaves its significand an integer. -/
theorem readTail_of_endsNumber (hrest : EndsNumber rest) (n : Nat) :
    readTail false n 0 rest = .ok (.unsigned n, rest) := by
  cases rest with
  | nil => rfl
  | cons b rest =>
    obtain ⟨-, hpoint, hletter⟩ := hrest b rfl
    rw [readTail, if_neg hpoint, if_neg (Bool.eq_false_iff.mp hletter), if_pos rfl]
    rfl

/-- A number below the limit is read back from its digits. -/
theorem readNumber_toDigits (hn : n < significandLimit) (hrest : EndsNumber rest) :
    readNumber false (Utf8.encodeChars (Nat.toDigits 10 n) ++ rest) =
      .ok (.unsigned n, rest) := by
  rcases Nat.eq_zero_or_pos n with rfl | hpos
  · have hoverlong : overlong rest = false := by
      cases rest with
      | nil => rfl
      | cons b rest => exact (hrest b rfl).1
    have hzero : Utf8.encodeChars (Nat.toDigits 10 0) = [Ascii.zero] := by decide
    rw [hzero, List.singleton_append, readNumber, if_pos rfl, hoverlong,
      if_neg Bool.false_ne_true, readTail_of_endsNumber hrest]
  · obtain ⟨c, cs, hcs, hc⟩ := toDigits_eq_cons hpos
    have hdigits := isDigits_toDigits n
    have hvalue : Nat.ofDigitChars 10 (Nat.toDigits 10 n) 0 < significandLimit := by
      rwa [Nat.ofDigitChars_ten_toDigits]
    have habsorb := absorb_encodeChars hdigits hvalue
    obtain ⟨hrun, hafter⟩ := digitRun_append hdigits hrest
    obtain ⟨b, hb, hbyte, hdigit⟩ :=
      encodeChars_cons_of_isDigit (hdigits c (hcs ▸ List.mem_cons_self)) cs
    have hzero : b ≠ Ascii.zero := by
      rintro rfl
      exact hc (Char.toNat_inj.mp hbyte.symm)
    rw [hcs] at habsorb hrun hafter ⊢
    rw [hb, List.cons_append] at hrun hafter ⊢
    rw [readNumber, if_neg hzero, if_pos hdigit]
    simp only [hrun, hafter]
    rw [← hb, habsorb, Nat.sub_self, ← hcs, Nat.ofDigitChars_ten_toDigits,
      readTail_of_endsNumber hrest]

/-- A count of 64 bits is read back from its digits. -/
theorem readCount_toDigits (n : UInt64) (hrest : EndsNumber rest) :
    ∃ b s, Utf8.encodeChars (Nat.toDigits 10 n.toNat) ++ rest = b :: s ∧
      Ascii.isDigit b = true ∧ readCount b s = .ok (n, rest) := by
  have hnumber := readNumber_toDigits n.toNat_lt hrest
  have hne : Nat.toDigits 10 n.toNat ≠ [] := Nat.toDigits_ne_nil
  obtain ⟨c, cs, hcs⟩ := List.exists_cons_of_ne_nil hne
  obtain ⟨b, hb, -, hdigit⟩ := encodeChars_cons_of_isDigit
    (isDigits_toDigits n.toNat c (hcs ▸ List.mem_cons_self)) cs
  rw [hcs, hb, List.cons_append] at hnumber
  have hminus : b ≠ Ascii.minus := by
    rintro rfl
    contradiction
  refine ⟨b, Utf8.encodeChars cs ++ rest, by rw [hcs, hb, List.cons_append], hdigit, ?_⟩
  rw [readCount, if_neg hminus, if_pos hdigit, hnumber]
  simp only [countOf, UInt64.ofNat_toNat]

end Sealing.Json
