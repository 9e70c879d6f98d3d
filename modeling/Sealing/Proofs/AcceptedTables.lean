import Sealing.Proofs.SettingsTable

/-!
# Accepted tables

A table is accepted exactly if the texts in it are valid, the port fits into 16 bits, and the body
limit is an integer above zero; the settings then hold the numbers that the table has. If all else
is valid, a number that is none is what is reported.
-/

namespace Sealing

/-- An integer setting has no more than 64 bits. -/
theorem lt_of_integer? {text : String} {n : Nat} (h : integer? text = some n) :
    n < UInt64.size := by
  rw [integer?] at h
  split at h
  · obtain rfl := Option.some.inj h
    decide
  · split at h
    · obtain rfl := Option.some.inj h
      decide
    · exact of_decide_eq_true (Option.filter_eq_some_iff.mp h).2

namespace Settings

open Environment (Table Value)

variable {t : Table} {s : Settings} {e : SettingsError} {name : String} {value : Value} {n : Nat}

/-! ## Valid tables -/

/-- The settings of a table that are texts are valid, where they are set; the key is. -/
structure ValidTexts (t : Table) : Prop where
  key : ∃ text, t.lookup "aes_key" = some (.text text) ∧
    ∃ b : Bytes, b.length ∈ Aes.keyLengths ∧ Base64.encode b = Text.trim text
  suite : ∀ value, t.lookup "cipher_suite" = some value → ∃ text, value = .text text ∧
    ∃ suite : Suite, suite.name = Text.lowerAsciiText (Text.trim text)
  address : ∀ value, t.lookup "listen_addr" = some value → ∃ text, value = .text text ∧
    ∃ a, Net.Address.parse? text = some a
  paths : t.lookup "tls_cert_path" = none ∧ t.lookup "tls_key_path" = none ∨
    ∃ cert key, t.lookup "tls_cert_path" = some (.text cert) ∧
      t.lookup "tls_key_path" = some (.text key) ∧ Text.trim cert ≠ "" ∧ Text.trim key ≠ ""
  level : ∀ value, t.lookup "log_level" = some value → ∃ text, value = .text text

/-- The port, where it is set, is an integer of 16 bits. -/
def ValidPort (t : Table) : Prop :=
  ∀ value, t.lookup "listen_port" = some value →
    ∃ n, value.toInteger "listen_port" = .ok n ∧ n < UInt16.size

/-- The body limit, where it is set, is an integer and not zero. -/
def ValidLimit (t : Table) : Prop :=
  ∀ value, t.lookup "max_body_bytes" = some value →
    ∃ n, value.toInteger "max_body_bytes" = .ok n ∧ 0 < n

/-- An integer is read from the text of one. -/
theorem toInteger_eq_ok_iff : value.toInteger name = .ok n ↔
    ∃ text, value = .text text ∧ integer? text = some n := by
  cases value with
  | text text => cases htext : integer? text <;> simp [Value.toInteger, htext]
  | table => simp [Value.toInteger]
  | list => simp [Value.toInteger]

/-- A port is an integer that fits into 16 bits. -/
theorem toPort_eq_ok_iff {port : UInt16} :
    value.toPort name = .ok port ↔ value.toInteger name = .ok port.toNat := by
  rw [Value.toPort, Except.bind_eq_ok_iff]
  constructor
  · rintro ⟨n, hn, hport⟩
    split at hport
    · next hlt =>
      obtain rfl := Except.ok.inj hport
      rwa [UInt16.toNat_ofNat', Nat.mod_eq_of_lt hlt]
    · cases hport
  · intro h
    refine ⟨port.toNat, h, ?_⟩
    rw [if_pos (show port.toNat < Nat.pow 2 16 from port.toNat_lt), UInt16.ofNat_toNat]
    rfl

/-- An integer that fits into 16 bits is a port. -/
theorem toPort_of_toInteger (h : value.toInteger name = .ok n) (hlt : n < UInt16.size) :
    value.toPort name = .ok (UInt16.ofNat n) := by
  rw [toPort_eq_ok_iff, UInt16.toNat_ofNat', Nat.mod_eq_of_lt hlt]
  exact h

/-- A larger integer is refused as a port, and what is no integer as such. -/
theorem toPort_eq_error_of_le (h : value.toInteger name = .ok n) (hn : UInt16.size ≤ n) :
    value.toPort name = .error (.notPort name n) := by
  simp only [Value.toPort, h, bind, Except.bind]
  exact if_neg (Nat.not_lt.mpr hn)

/-- What is no integer is no port either. -/
theorem toPort_eq_error_of_toInteger (h : value.toInteger name = .error e) :
    value.toPort name = .error e := by
  simp only [Value.toPort, h, bind, Except.bind]

/-- No integer has more than 64 bits. -/
theorem lt_of_toInteger (h : value.toInteger name = .ok n) : n < UInt64.size := by
  obtain ⟨text, -, htext⟩ := toInteger_eq_ok_iff.mp h
  exact lt_of_integer? htext

/-- A setting that is not set is read as none, and one that is set as what its value is. -/
theorem get?_eq_ok_iff {α : Type} {convert : String → Value → Except SettingsError α}
    {found : Option α} : get? t name convert = .ok found ↔
      t.lookup name = none ∧ found = none ∨
        ∃ value a, t.lookup name = some value ∧ convert name value = .ok a ∧ found = some a := by
  unfold get?
  cases t.lookup name with
  | none => simp [eq_comm]
  | some value =>
    constructor
    · intro h
      obtain ⟨a, ha, hfound⟩ := Except.map_eq_ok_iff.mp h
      exact .inr ⟨value, a, rfl, ha, hfound.symm⟩
    · rintro (⟨h, -⟩ | ⟨_, a, heq, ha, rfl⟩)
      · cases h
      · obtain rfl := Option.some.inj heq
        exact Except.map_eq_ok_iff.mpr ⟨a, ha, rfl⟩

/-- A setting whose value is a text, if it is set, is read. -/
theorem exists_lookup_eq_map (t : Table) (name : String)
    (h : ∀ value, t.lookup name = some value → ∃ text, value = .text text) :
    ∃ text : Option String, t.lookup name = text.map .text := by
  cases hvalue : t.lookup name with
  | none => exact ⟨none, rfl⟩
  | some value =>
    obtain ⟨text, rfl⟩ := h value hvalue
    exact ⟨some text, rfl⟩

/-- A number is read if it is one wherever it is set. -/
theorem exists_get?_eq_ok {α : Type} (convert : String → Value → Except SettingsError α)
    (h : ∀ value, t.lookup name = some value → ∃ a, convert name value = .ok a) :
    ∃ found, get? t name convert = .ok found := by
  unfold get?
  cases hvalue : t.lookup name with
  | none => exact ⟨none, rfl⟩
  | some value =>
    obtain ⟨a, ha⟩ := h value hvalue
    exact ⟨some a, by simp only [ha, Except.map]⟩

/-- The default of the suite is one. -/
theorem exists_suite_default :
    ∃ suite : Suite, suite.name = Text.lowerAsciiText (Text.trim Suite.default.name) :=
  ⟨Suite.default, by decide⟩

/-- The default of the address is one. -/
theorem exists_address_default : ∃ a, Net.Address.parse? "0.0.0.0" = some a :=
  Option.isSome_iff_exists.mp (by decide)

/-- If what is read from a table is valid, the texts of the table are. -/
theorem validTexts_of_valid (h : Reads t s) {limit : UInt64}
    (hs : Valid { s with maxBodyBytes := limit }) : ValidTexts t where
  key := ⟨s.aesKey, h.key, hs.key⟩
  suite value hvalue := by
    obtain ⟨suite, hsuite, hsuite'⟩ := h.suite
    obtain ⟨text, rfl, rfl⟩ := Option.map_eq_some_iff.mp (hsuite.symm.trans hvalue)
    have hvalid := hs.suite
    simp only [hsuite', Option.getD_some] at hvalid
    exact ⟨text, rfl, hvalid⟩
  address value hvalue := by
    obtain ⟨address, haddress, haddress'⟩ := h.address
    obtain ⟨text, rfl, rfl⟩ := Option.map_eq_some_iff.mp (haddress.symm.trans hvalue)
    have hvalid := hs.address
    simp only [haddress', Option.getD_some] at hvalid
    exact ⟨text, rfl, hvalid⟩
  paths := by
    rw [h.cert, h.keyPath]
    rcases hs.paths with ⟨hcert, hkey⟩ | ⟨cert, key, hcert, hkey, htexts⟩
    · simp only at hcert hkey
      rw [hcert, hkey]
      exact .inl ⟨rfl, rfl⟩
    · simp only at hcert hkey
      rw [hcert, hkey]
      exact .inr ⟨cert, key, rfl, rfl, htexts⟩
  level value hvalue := by
    obtain ⟨level, hlevel, -⟩ := h.level
    obtain ⟨text, rfl, rfl⟩ := Option.map_eq_some_iff.mp (hlevel.symm.trans hvalue)
    exact ⟨text, rfl⟩

/-- If the texts of a table are valid, what is read from it is valid with any limit but zero. -/
theorem valid_of_validTexts (h : Reads t s) (htexts : ValidTexts t) {limit : UInt64}
    (hlimit : 0 < limit) : Valid { s with maxBodyBytes := limit } := by
  obtain ⟨suite, hsuite, hsuite'⟩ := h.suite
  obtain ⟨address, haddress, haddress'⟩ := h.address
  refine ⟨?_, ?_, ?_, ?_, hlimit⟩
  · obtain ⟨text, htext, hb⟩ := htexts.key
    obtain rfl := Value.text.inj (Option.some.inj (h.key.symm.trans htext))
    exact hb
  · simp only [hsuite']
    cases suite with
    | none => exact exists_suite_default
    | some text =>
      obtain ⟨_, htext, hname⟩ := htexts.suite _ hsuite
      obtain rfl := Value.text.inj htext
      exact hname
  · simp only [haddress']
    cases address with
    | none => exact exists_address_default
    | some text =>
      obtain ⟨_, htext, ha⟩ := htexts.address _ haddress
      obtain rfl := Value.text.inj htext
      exact ha
  · have hpaths := htexts.paths
    rw [h.cert, h.keyPath] at hpaths
    rcases hpaths with ⟨hcert, hkey⟩ | ⟨cert, key, hcert, hkey, htexts⟩
    · exact .inl ⟨Option.map_eq_none_iff.mp hcert, Option.map_eq_none_iff.mp hkey⟩
    · obtain ⟨_, hcert', heq⟩ := Option.map_eq_some_iff.mp hcert
      obtain rfl := Value.text.inj heq
      obtain ⟨_, hkey', heq'⟩ := Option.map_eq_some_iff.mp hkey
      obtain rfl := Value.text.inj heq'
      exact .inr ⟨_, _, hcert', hkey', htexts⟩

/-- Accepted settings hold the numbers that are set. -/
theorem numbers_of_ofTable (h : ofTable t = .ok s) :
    (∀ value, t.lookup "listen_port" = some value →
      value.toInteger "listen_port" = .ok s.listenPort.toNat) ∧
    ∀ value, t.lookup "max_body_bytes" = some value →
      value.toInteger "max_body_bytes" = .ok s.maxBodyBytes.toNat := by
  obtain ⟨hread, -⟩ := ofTable_eq_ok_iff.mp h
  obtain ⟨-, hs⟩ := read_eq_ok_iff.mp hread
  obtain ⟨port, hport, hport'⟩ := hs.port
  obtain ⟨n, hn, hn'⟩ := hs.limit
  constructor
  · intro value hvalue
    rcases get?_eq_ok_iff.mp hport with ⟨hnone, -⟩ | ⟨value', p, hvalue', hp, rfl⟩
    · rw [hnone] at hvalue
      cases hvalue
    · obtain rfl := Option.some.inj (hvalue'.symm.trans hvalue)
      rw [hport', Option.getD_some]
      exact toPort_eq_ok_iff.mp hp
  · intro value hvalue
    rcases get?_eq_ok_iff.mp hn with ⟨hnone, -⟩ | ⟨value', m, hvalue', hm, rfl⟩
    · rw [hnone] at hvalue
      cases hvalue
    · obtain rfl := Option.some.inj (hvalue'.symm.trans hvalue)
      rw [hn', Option.getD_some, UInt64.toNat_ofNat', Nat.mod_eq_of_lt (lt_of_toInteger hm)]
      exact hm

/-- A text that is valid is a text. -/
theorem ValidTexts.exists_text (h : ValidTexts t) (hname : name ∈ texts)
    (hvalue : t.lookup name = some value) : ∃ text, value = .text text := by
  have hpath {path : String} (hpath : path = "tls_cert_path" ∨ path = "tls_key_path")
      (hvalue : t.lookup path = some value) : ∃ text, value = .text text := by
    rcases h.paths with ⟨hcert, hkey⟩ | ⟨cert, key, hcert, hkey, -⟩
    · rcases hpath with rfl | rfl <;> simp_all only [reduceCtorEq]
    · rcases hpath with rfl | rfl
      · exact ⟨cert, Option.some.inj (hvalue.symm.trans hcert)⟩
      · exact ⟨key, Option.some.inj (hvalue.symm.trans hkey)⟩
  simp only [texts, List.mem_cons, List.not_mem_nil, or_false] at hname
  rcases hname with rfl | rfl | rfl | rfl | rfl | rfl
  · obtain ⟨text, htext, -⟩ := h.key
    exact ⟨text, Option.some.inj (hvalue.symm.trans htext)⟩
  · obtain ⟨text, htext, -⟩ := h.suite value hvalue
    exact ⟨text, htext⟩
  · obtain ⟨text, htext, -⟩ := h.address value hvalue
    exact ⟨text, htext⟩
  · exact hpath (.inl rfl) hvalue
  · exact hpath (.inr rfl) hvalue
  · exact h.level value hvalue

/-- In a table with valid texts a value suits if the numbers do. -/
theorem suits_of_validTexts (h : ValidTexts t) (hvalue : t.lookup name = some value)
    (hport : name = "listen_port" → ∃ n, value.toInteger name = .ok n ∧ n < UInt16.size)
    (hlimit : name = "max_body_bytes" → ∃ n, value.toInteger name = .ok n) :
    suits name value = .ok () := by
  refine suits_eq_ok_iff.mpr ⟨fun hname => h.exists_text hname hvalue, fun hname => ?_, hlimit⟩
  obtain ⟨n, hn, hlt⟩ := hport hname
  exact ⟨_, toPort_of_toInteger hn hlt⟩

/-- A table with valid texts and numbers sets settings. -/
theorem exists_reads (htexts : ValidTexts t) (hport : ValidPort t)
    (hlimit : ∀ value, t.lookup "max_body_bytes" = some value →
      ∃ n, value.toInteger "max_body_bytes" = .ok n) : ∃ s, Reads t s := by
  obtain ⟨key, hkey, -⟩ := htexts.key
  obtain ⟨suite, hsuite⟩ := exists_lookup_eq_map t "cipher_suite"
    fun value hvalue => htexts.exists_text (by decide) hvalue
  obtain ⟨address, haddress⟩ := exists_lookup_eq_map t "listen_addr"
    fun value hvalue => htexts.exists_text (by decide) hvalue
  obtain ⟨cert, hcert⟩ := exists_lookup_eq_map t "tls_cert_path"
    fun value hvalue => htexts.exists_text (by decide) hvalue
  obtain ⟨keyPath, hkeyPath⟩ := exists_lookup_eq_map t "tls_key_path"
    fun value hvalue => htexts.exists_text (by decide) hvalue
  obtain ⟨level, hlevel⟩ := exists_lookup_eq_map t "log_level"
    fun value hvalue => htexts.exists_text (by decide) hvalue
  obtain ⟨port, hport⟩ := exists_get?_eq_ok Value.toPort fun value hvalue => by
    obtain ⟨n, hn, hlt⟩ := hport value hvalue
    exact ⟨_, toPort_of_toInteger hn hlt⟩
  obtain ⟨n, hn⟩ := exists_get?_eq_ok Value.toInteger hlimit
  exact ⟨⟨key, _, _, _, cert, keyPath, _, _⟩, hkey, ⟨suite, hsuite, rfl⟩, ⟨address, haddress, rfl⟩,
    ⟨port, hport, rfl⟩, hcert, hkeyPath, ⟨n, hn, rfl⟩, ⟨level, hlevel, rfl⟩⟩

/-- A table with valid texts and numbers is read. -/
theorem exists_read (ht : (t.map (·.1)).Nodup) (htexts : ValidTexts t) (hport : ValidPort t)
    (hlimit : ∀ value, t.lookup "max_body_bytes" = some value →
      ∃ n, value.toInteger "max_body_bytes" = .ok n) : ∃ s, read t = .ok s := by
  obtain ⟨s, hs⟩ := exists_reads htexts hport hlimit
  have hsuits := (forM_suits_eq_ok_iff ht).mpr fun name value hvalue =>
    suits_of_validTexts htexts hvalue (by rintro rfl; exact hport value hvalue)
      (by rintro rfl; exact hlimit value hvalue)
  exact ⟨s, read_eq_ok_iff.mpr ⟨hsuits, hs⟩⟩

/-- A table is accepted exactly if its texts and both numbers are valid. -/
theorem exists_ofTable_iff (ht : (t.map (·.1)).Nodup) :
    (∃ s, ofTable t = .ok s) ↔ ValidTexts t ∧ ValidPort t ∧ ValidLimit t := by
  constructor
  · rintro ⟨s, h⟩
    obtain ⟨hread, hvalid⟩ := ofTable_eq_ok_iff.mp h
    obtain ⟨hport, hlimit⟩ := numbers_of_ofTable h
    refine ⟨validTexts_of_valid (read_eq_ok_iff.mp hread).2 hvalid,
      fun value hvalue => ⟨_, hport value hvalue, s.listenPort.toNat_lt⟩,
      fun value hvalue => ⟨_, hlimit value hvalue, UInt64.lt_iff_toNat_lt.mp hvalid.bodyLimit⟩⟩
  · rintro ⟨htexts, hport, hlimit⟩
    have hlimit' (value : Value) (hvalue : t.lookup "max_body_bytes" = some value) :
        ∃ n, value.toInteger "max_body_bytes" = .ok n := by
      obtain ⟨n, hn, -⟩ := hlimit value hvalue
      exact ⟨n, hn⟩
    obtain ⟨s, hread⟩ := exists_read ht htexts hport hlimit'
    have hs := (read_eq_ok_iff.mp hread).2
    refine ⟨s, ofTable_eq_ok_iff.mpr ⟨hread, valid_of_validTexts hs htexts ?_⟩⟩
    obtain ⟨found, hfound, heq⟩ := hs.limit
    rw [heq, UInt64.lt_iff_toNat_lt]
    rcases get?_eq_ok_iff.mp hfound with ⟨-, rfl⟩ | ⟨value, n, hvalue, hn, rfl⟩
    · decide
    · obtain ⟨n', hn', hpos⟩ := hlimit value hvalue
      obtain rfl := Except.ok.inj (hn.symm.trans hn')
      rw [Option.getD_some, UInt64.toNat_ofNat', Nat.mod_eq_of_lt (lt_of_toInteger hn)]
      exact hpos

/-! ## Which error a number out of range is -/

/-- If all values but one suit, the error is what is wrong with that one. -/
theorem ofTable_eq_error (ht : (t.map (·.1)).Nodup) (hvalue : t.lookup name = some value)
    (he : suits name value = .error e)
    (hothers : ∀ name' value', name' ≠ name → t.lookup name' = some value' →
      suits name' value' = .ok ()) : ofTable t = .error e := by
  have hread : read t = .error e := by
    refine read_eq_error_of_misfit ht ⟨name, value, hvalue, he⟩ ?_
    rintro f ⟨name', value', hvalue', hf⟩
    by_cases hname : name' = name
    · subst hname
      obtain rfl := Option.some.inj (hvalue'.symm.trans hvalue)
      exact Except.error.inj (hf.symm.trans he)
    · rw [hothers name' value' hname hvalue'] at hf
      cases hf
  simp only [ofTable, hread, bind, Except.bind]

/-- A port that is none is reported, if everything else is valid. -/
theorem ofTable_eq_error_of_port (ht : (t.map (·.1)).Nodup) (htexts : ValidTexts t)
    (hlimit : ValidLimit t) (hvalue : t.lookup "listen_port" = some value)
    (he : value.toPort "listen_port" = .error e) : ofTable t = .error e := by
  refine ofTable_eq_error ht hvalue (discard_eq_error_iff.mpr he) fun _ value' hname hvalue' => ?_
  refine suits_of_validTexts htexts hvalue' (fun h => absurd h hname) ?_
  rintro rfl
  obtain ⟨n, hn, -⟩ := hlimit value' hvalue'
  exact ⟨n, hn⟩

/-- A limit that is no integer is reported, if everything else is valid. -/
theorem ofTable_eq_error_of_limit (ht : (t.map (·.1)).Nodup) (htexts : ValidTexts t)
    (hport : ValidPort t) (hvalue : t.lookup "max_body_bytes" = some value)
    (he : value.toInteger "max_body_bytes" = .error e) : ofTable t = .error e := by
  refine ofTable_eq_error ht hvalue (discard_eq_error_iff.mpr he) fun _ value' hname hvalue' => ?_
  refine suits_of_validTexts htexts hvalue' ?_ fun h => absurd h hname
  rintro rfl
  exact hport value' hvalue'

/-- No check but the last looks at the limit. -/
theorem perform_with_limit {d : Check} (hd : d ≠ .bodyLimit) (limit : UInt64) :
    perform { s with maxBodyBytes := limit } d = s.perform d := by
  cases d with
  | keyText => rfl
  | key => simp only [perform, key]
  | suite => simp only [perform, suite]
  | address => simp only [perform, socket]
  | paths => simp only [perform, validatePaths]
  | bodyLimit => exact absurd rfl hd

/-- Settings that would be valid with a limit are refused for having none. -/
theorem validate_of_zero (hvalid : Valid { s with maxBodyBytes := 1 })
    (hzero : s.maxBodyBytes = 0) : s.validate = .error .zeroBodyLimit := by
  have hall := Except.forM_eq_ok_iff.mp
    ((validate_eq_forM _).symm.trans (validate_eq_ok_iff.mpr hvalid))
  refine validate_eq_error_iff.mpr ⟨[.keyText, .key, .suite, .address, .paths], .bodyLimit, [],
    rfl, .zeroBodyLimit hzero, fun d hd => ?_⟩
  have hne : d ≠ .bodyLimit := by
    rintro rfl
    exact absurd hd (by decide)
  have hmem : d ∈ Check.all := by cases d <;> decide
  exact perform_eq_ok_iff.mp ((perform_with_limit hne 1).symm.trans (hall d hmem))

end Settings

end Sealing
