import Mathlib.Data.Nat.Digits.Defs
import Sealing.Proofs.AcceptedTables

/-!
# Numeric settings

A string of decimal digits is read as the number it stands for, however long it is and with however
many zeros in front, as long as that number fits into 64 bits. The port has to fit into 16 of them,
and the body limit must not be zero. Settings hold the numbers that were written, or are refused for
a number out of range.
-/

namespace Sealing

namespace Decimal

variable {t : String}

/-- A text of decimal digits, with at least one of them. -/
def IsNumeral (t : String) : Prop := t ≠ "" ∧ ∀ c ∈ t.toList, c.isDigit = true

instance (t : String) : Decidable (IsNumeral t) :=
  decidable_of_iff (t ≠ "" ∧ t.toList.all Char.isDigit = true) (and_congr_right' List.all_eq_true)

/-- The number that decimal digits stand for: the last one counts once, the one before it ten times,
and so on. -/
def valueOf (t : String) : Nat :=
  Nat.ofDigits 10 (t.toList.reverse.map fun c => c.toNat - '0'.toNat)

private theorem foldl_digits (cs : List Char) (n : Nat) :
    cs.foldl (fun n c => n * 10 + (c.toNat - '0'.toNat)) n =
      Nat.ofDigits 10 (cs.reverse.map fun c => c.toNat - '0'.toNat) + n * Nat.pow 10 cs.length := by
  induction cs generalizing n with
  | nil => simp
  | cons c cs ih =>
    rw [List.foldl_cons, ih, List.reverse_cons, List.map_append, Nat.ofDigits_append,
      List.length_map, List.length_reverse, List.length_cons]
    simp only [List.map_cons, List.map_nil, Nat.ofDigits_singleton, Nat.pow_eq, pow_succ]
    ring

/-- A numeral is read as the number it stands for. -/
theorem IsNumeral.natural?_eq (h : IsNumeral t) : natural? t.toList = some (valueOf t) := by
  have hne : t.toList ≠ [] := by
    simpa using h.1
  have hplus : ∀ cs, t.toList = '+' :: cs → False := by
    intro cs hcs
    have hdigit := h.2 '+' (by simp [hcs])
    exact absurd hdigit (by decide)
  rw [natural?, ofDigits?, if_pos ⟨hne, List.all_eq_true.mpr h.2⟩, foldl_digits, Nat.zero_mul,
    Nat.add_zero]
  · rfl
  · exact hplus

/-- Digits have no letter case. -/
theorem lowerAscii_of_isDigit {c : Char} (h : c.isDigit = true) : Text.lowerAscii c = c := by
  apply if_neg
  rintro ⟨hupper, -⟩
  rw [Char.isDigit, Bool.and_eq_true, decide_eq_true_iff, decide_eq_true_iff] at h
  exact absurd (UInt32.le_trans hupper h.2) (by decide)

/-- A numeral has no letter case. -/
theorem IsNumeral.lowerAsciiText_eq (h : IsNumeral t) : Text.lowerAsciiText t = t := by
  have hmap : t.toList.map Text.lowerAscii = t.toList := by
    rw [List.map_congr_left fun c hc => lowerAscii_of_isDigit (h.2 c hc), List.map_id']
  rw [Text.lowerAsciiText, hmap, String.ofList_toList]

/-- None of the words for one and zero is a numeral. -/
theorem IsNumeral.notMem {words : List String} (h : IsNumeral t)
    (hwords : ∀ w ∈ words, ¬IsNumeral w) : t ∉ words :=
  fun ht => hwords t ht h

end Decimal

open Decimal in
/-- A numeral is an integer setting if its number fits into 64 bits, and none otherwise. -/
theorem integer?_of_isNumeral {t : String} (h : IsNumeral t) :
    integer? t = if valueOf t < UInt64.size then some (valueOf t) else none := by
  have hone : t ∉ ["true", "on", "yes"] := h.notMem (by decide)
  have hzero : t ∉ ["false", "off", "no"] := h.notMem (by decide)
  simp only [integer?, h.lowerAsciiText_eq, hone, hzero, ite_false, h.natural?_eq]
  rw [Option.filter_some]
  simp only [decide_eq_true_eq]

namespace Settings

open Environment (Table Value)
open Decimal

variable {t : Table} {name text : String} {n : Nat}

/-! ## Tables with a numeral -/

/-- A numeral of 64 bits is read as an integer. -/
theorem toInteger_of_isNumeral (ht : IsNumeral text) (hfits : valueOf text < UInt64.size) :
    (Value.text text).toInteger name = .ok (valueOf text) := by
  rw [toInteger_eq_ok_iff]
  exact ⟨text, rfl, by rw [integer?_of_isNumeral ht, if_pos hfits]⟩

/-- A numeral beyond 64 bits is no integer. -/
theorem toInteger_of_isNumeral_error (ht : IsNumeral text) (hfits : UInt64.size ≤ valueOf text) :
    (Value.text text).toInteger name = .error (.notInteger name (.text text)) := by
  rw [Value.toInteger, integer?_of_isNumeral ht, if_neg (Nat.not_lt.mpr hfits)]
  rfl

/-- What holds of the number that a numeral is read as. -/
theorem exists_toInteger_iff (ht : IsNumeral text) {p : Nat → Prop} :
    (∃ n, (Value.text text).toInteger name = .ok n ∧ p n) ↔
      valueOf text < UInt64.size ∧ p (valueOf text) := by
  by_cases hfits : valueOf text < UInt64.size
  · simp [toInteger_of_isNumeral ht hfits, hfits]
  · simp [toInteger_of_isNumeral_error ht (Nat.le_of_not_lt hfits), hfits]

/-- A numeral is valid as a port if it fits into 16 bits. -/
theorem validPort_iff (h : t.lookup "listen_port" = some (.text text)) (ht : IsNumeral text) :
    ValidPort t ↔ valueOf text < UInt16.size := by
  rw [ValidPort, h]
  simp only [Option.some.injEq, forall_eq', exists_toInteger_iff ht, UInt64.size, UInt16.size]
  omega

/-- A numeral is valid as a body limit if it is not zero and fits into 64 bits. -/
theorem validLimit_iff (h : t.lookup "max_body_bytes" = some (.text text)) (ht : IsNumeral text) :
    ValidLimit t ↔ 0 < valueOf text ∧ valueOf text < UInt64.size := by
  rw [ValidLimit, h]
  simp only [Option.some.injEq, forall_eq', exists_toInteger_iff ht]
  exact and_comm

/-- A number that is read from a numeral is the one it stands for. -/
theorem eq_valueOf_of_toInteger (ht : IsNumeral text)
    (hn : (Value.text text).toInteger name = .ok n) : n = valueOf text := by
  obtain ⟨_, heq, hvalue⟩ := toInteger_eq_ok_iff.mp hn
  obtain rfl := Value.text.inj heq
  rw [integer?_of_isNumeral ht] at hvalue
  split at hvalue
  · exact (Option.some.inj hvalue).symm
  · cases hvalue

/-- A numeral beyond 16 bits is no port, and one beyond 64 bits no integer. -/
theorem toPort_of_beyond (ht : IsNumeral text) (hbeyond : UInt16.size ≤ valueOf text) :
    (Value.text text).toPort name = .error (if valueOf text < UInt64.size
      then .notPort name (valueOf text) else .notInteger name (.text text)) := by
  by_cases hfits : valueOf text < UInt64.size
  · rw [if_pos hfits]
    exact toPort_eq_error_of_le (toInteger_of_isNumeral ht hfits) hbeyond
  · rw [if_neg hfits]
    exact toPort_eq_error_of_toInteger
      (toInteger_of_isNumeral_error ht (Nat.le_of_not_lt hfits))

/-- A limit of zero is refused as such. -/
theorem ofTable_of_limit_zero (hnodup : (t.map (·.1)).Nodup) (htexts : ValidTexts t)
    (hport : ValidPort t) (h : t.lookup "max_body_bytes" = some (.text text)) (ht : IsNumeral text)
    (hzero : valueOf text = 0) : ofTable t = .error .zeroBodyLimit := by
  have hinteger : (Value.text text).toInteger "max_body_bytes" = .ok 0 := by
    rw [toInteger_of_isNumeral ht (by rw [hzero]; decide), hzero]
  have hlimit (value : Value) (hvalue : t.lookup "max_body_bytes" = some value) :
      ∃ n, value.toInteger "max_body_bytes" = .ok n := by
    obtain rfl := Option.some.inj (h.symm.trans hvalue)
    exact ⟨0, hinteger⟩
  obtain ⟨s, hread⟩ := exists_read hnodup htexts hport hlimit
  have hs := (read_eq_ok_iff.mp hread).2
  have hmax : s.maxBodyBytes = 0 := by
    obtain ⟨found, hfound, heq⟩ := hs.limit
    rcases get?_eq_ok_iff.mp hfound with ⟨hnone, -⟩ | ⟨value, n, hvalue, hn, rfl⟩
    · rw [hnone] at h
      cases h
    · obtain rfl := Option.some.inj (h.symm.trans hvalue)
      obtain rfl := Except.ok.inj (hinteger.symm.trans hn)
      exact heq
  have hvalid := valid_of_validTexts hs htexts (by decide : (0 : UInt64) < 1)
  simp only [ofTable, hread, bind, Except.bind, validate_of_zero hvalid hmax]

end Settings

open Decimal Settings in
/-- If all other settings are valid, a port of decimal digits is accepted exactly up to 65535 and a
body limit of decimal digits exactly from 1 up to the largest number of 64 bits, and then the
settings, and the socket, have the number that the digits stand for. Any other number is reported as
an error of that setting. -/
theorem numerals_are_exact_or_refused {env : Environment} {walks : Walks} {t : String}
    (htexts : ValidTexts (env.settings walks)) (ht : IsNumeral t) :
    ((env.settings walks).lookup "listen_port" = some (.text t) → ValidLimit (env.settings walks) →
      ((∃ s, ofEnvironment env walks = .ok s) ↔ valueOf t ≤ 65535) ∧
      (∀ s, ofEnvironment env walks = .ok s → s.listenPort.toNat = valueOf t ∧
        ∃ socket, s.socket = .ok socket ∧ socket.port.toNat = valueOf t) ∧
      (65535 < valueOf t → ofEnvironment env walks = .error (if valueOf t ≤ 18446744073709551615
        then .notPort "listen_port" (valueOf t) else .notInteger "listen_port" (.text t)))) ∧
    ((env.settings walks).lookup "max_body_bytes" = some (.text t) →
      ValidPort (env.settings walks) →
      ((∃ s, ofEnvironment env walks = .ok s) ↔
        1 ≤ valueOf t ∧ valueOf t ≤ 18446744073709551615) ∧
      (∀ s, ofEnvironment env walks = .ok s → s.maxBodyBytes.toNat = valueOf t) ∧
      (valueOf t = 0 → ofEnvironment env walks = .error .zeroBodyLimit) ∧
      (18446744073709551615 < valueOf t →
        ofEnvironment env walks = .error (.notInteger "max_body_bytes" (.text t)))) := by
  have hnodup : ((env.settings walks).map (·.1)).Nodup := nodup_settings
  constructor
  · intro h hlimit
    refine ⟨?_, fun s hs => ?_, fun hbeyond => ?_⟩
    · rw [ofEnvironment, exists_ofTable_iff hnodup, validPort_iff h ht]
      exact ⟨fun hs => Nat.le_of_lt_succ hs.2.1,
        fun hle => ⟨htexts, Nat.lt_succ_of_le hle, hlimit⟩⟩
    · have hport : s.listenPort.toNat = valueOf t :=
        eq_valueOf_of_toInteger ht ((numbers_of_ofTable hs).1 _ h)
      obtain ⟨a, ha⟩ := (ofTable_eq_ok_iff.mp hs).2.exists_socket
      exact ⟨hport, _, ha, hport⟩
    · rw [ofEnvironment, ofTable_eq_error_of_port hnodup htexts hlimit h
        (toPort_of_beyond ht hbeyond)]
      simp only [UInt64.size, Nat.lt_succ_iff]
  · intro h hport
    refine ⟨?_, fun s hs => ?_, fun hzero => ?_, fun hbeyond => ?_⟩
    · rw [ofEnvironment, exists_ofTable_iff hnodup, validLimit_iff h ht]
      exact ⟨fun hs => ⟨hs.2.2.1, Nat.le_of_lt_succ hs.2.2.2⟩,
        fun hle => ⟨htexts, hport, hle.1, Nat.lt_succ_of_le hle.2⟩⟩
    · exact eq_valueOf_of_toInteger ht ((numbers_of_ofTable hs).2 _ h)
    · exact ofTable_of_limit_zero hnodup htexts hport h ht hzero
    · exact ofTable_eq_error_of_limit hnodup htexts hport h
        (toInteger_of_isNumeral_error ht hbeyond)

namespace Environment

variable {name value wanted : String}

/-- An environment with a valid key and one other variable. -/
def besidesKey (name value : String) : Environment :=
  [("AES_KEY", "AAAAAAAAAAAAAAAAAAAAAA=="), (name, value)]

/-- However its tables are walked, such an environment sets the key and the other variable. -/
theorem lookup_besidesKey {walks : Walks} (hname : lowerName name ∈ Settings.names)
    (hwanted : wanted ∈ Settings.names) :
    ((besidesKey name value).settings walks).lookup wanted =
      if lowerName name = wanted then some (.text value)
      else if "aes_key" = wanted then some (.text "AAAAAAAAAAAAAAAAAAAAAA==") else none := by
  have hletters : ∀ name ∈ Settings.names, name.toList.all isNameLetter = true := by decide
  have hkey : lowerName "AES_KEY" = "aes_key" := by decide
  have hplainly : (besidesKey name value).Plainly wanted := by
    intro entry hentry hfst
    have hmem : lowerName entry.1 ∈ Settings.names := by
      rcases List.mem_pair.mp hentry with rfl | rfl
      · decide
      · exact hname
    rwa [assign_of_letters (hletters _ hmem)] at hfst
  rw [lookup_settings_of_plainly (fun _ => assign_of_letters (hletters wanted hwanted)) hplainly]
  simp only [latest?, besidesKey, List.map_cons, List.map_nil, List.reverse_cons, List.reverse_nil,
    List.nil_append, List.cons_append, List.lookup_cons, List.lookup_nil, hkey]
  by_cases hfirst : lowerName name = wanted
  · simp [hfirst]
  · have hbeq : (wanted == lowerName name) = false := beq_false_of_ne (Ne.symm hfirst)
    by_cases hsecond : "aes_key" = wanted
    · subst hsecond
      simp [hfirst, hbeq]
    · have hbeq' : (wanted == "aes_key") = false := beq_false_of_ne (Ne.symm hsecond)
      simp [hfirst, hbeq, hsecond, hbeq']

/-- All texts of such an environment are valid if the other variable is a number. -/
theorem validTexts_besidesKey {walks : Walks}
    (hname : lowerName name ∈ ["listen_port", "max_body_bytes"]) :
    Settings.ValidTexts ((besidesKey name value).settings walks) := by
  have hnames : lowerName name ∈ Settings.names := List.mem_append_right _ hname
  have hlength : (List.replicate 16 0 : Bytes).length ∈ Aes.keyLengths := by decide
  have hnone {wanted : String} (hwanted : wanted ∈ Settings.names)
      (hother : wanted ∉ ["listen_port", "max_body_bytes", "aes_key"]) :
      ((besidesKey name value).settings walks).lookup wanted = none := by
    rw [lookup_besidesKey hnames hwanted, if_neg (by grind), if_neg (by grind)]
  refine ⟨⟨"AAAAAAAAAAAAAAAAAAAAAA==", ?_, List.replicate 16 0, hlength, by decide⟩,
    fun value h => ?_, fun value h => ?_, .inl ⟨hnone (by decide) (by decide),
      hnone (by decide) (by decide)⟩, fun value h => ?_⟩
  · rw [lookup_besidesKey hnames (by decide), if_neg (by grind), if_pos rfl]
  all_goals
    rw [hnone (by decide) (by decide)] at h
    cases h

end Environment

open Settings Environment in
/-- The largest port, with zeros in front, and the number after it; the largest limit, the number
after it, and three zeros, with the settings walked backwards. -/
theorem numerals_are_exact_or_refused_largest :
    (∃ s, ofEnvironment (besidesKey "LISTEN_PORT" "00065535") .backwards = .ok s ∧
      s.listenPort.toNat = 65535) ∧
    ofEnvironment (besidesKey "LISTEN_PORT" "65536") .backwards =
      .error (.notPort "listen_port" 65536) ∧
    (∃ s, ofEnvironment (besidesKey "MAX_BODY_BYTES" "18446744073709551615") .backwards = .ok s ∧
      s.maxBodyBytes.toNat = 18446744073709551615) ∧
    ofEnvironment (besidesKey "MAX_BODY_BYTES" "18446744073709551616") .backwards =
      .error (.notInteger "max_body_bytes" (.text "18446744073709551616")) ∧
    ofEnvironment (besidesKey "MAX_BODY_BYTES" "000") .backwards = .error .zeroBodyLimit := by
  have hport (value : String) :
      ((besidesKey "LISTEN_PORT" value).settings .backwards).lookup "listen_port" =
          some (.text value) ∧
        ValidTexts ((besidesKey "LISTEN_PORT" value).settings .backwards) ∧
        ValidLimit ((besidesKey "LISTEN_PORT" value).settings .backwards) := by
    refine ⟨?_, validTexts_besidesKey (by decide), fun text h => ?_⟩
    · rw [lookup_besidesKey (by decide) (by decide), if_pos (by decide)]
    · rw [lookup_besidesKey (by decide) (by decide), if_neg (by decide), if_neg (by decide)] at h
      cases h
  have hlimit (value : String) :
      ((besidesKey "MAX_BODY_BYTES" value).settings .backwards).lookup "max_body_bytes" =
          some (.text value) ∧
        ValidTexts ((besidesKey "MAX_BODY_BYTES" value).settings .backwards) ∧
        ValidPort ((besidesKey "MAX_BODY_BYTES" value).settings .backwards) := by
    refine ⟨?_, validTexts_besidesKey (by decide), fun text h => ?_⟩
    · rw [lookup_besidesKey (by decide) (by decide), if_pos (by decide)]
    · rw [lookup_besidesKey (by decide) (by decide), if_neg (by decide), if_neg (by decide)] at h
      cases h
  have h65535 := (numerals_are_exact_or_refused (hport "00065535").2.1
    (by decide)).1 (hport _).1 (hport _).2.2
  have h65536 := (numerals_are_exact_or_refused (hport "65536").2.1
    (by decide)).1 (hport _).1 (hport _).2.2
  have hlargest := (numerals_are_exact_or_refused (hlimit "18446744073709551615").2.1
    (by decide)).2 (hlimit _).1 (hlimit _).2.2
  have hbeyond := (numerals_are_exact_or_refused (hlimit "18446744073709551616").2.1
    (by decide)).2 (hlimit _).1 (hlimit _).2.2
  have hzero := (numerals_are_exact_or_refused (hlimit "000").2.1
    (by decide)).2 (hlimit _).1 (hlimit _).2.2
  obtain ⟨s, hs⟩ := h65535.1.mpr (by decide)
  obtain ⟨s', hs'⟩ := hlargest.1.mpr (by decide)
  exact ⟨⟨s, hs, (h65535.2.1 s hs).1⟩, h65536.2.2 (by decide), ⟨s', hs', hlargest.2.1 s' hs'⟩,
    hbeyond.2.2.2 (by decide), hzero.2.2.1 (by decide)⟩

end Sealing
