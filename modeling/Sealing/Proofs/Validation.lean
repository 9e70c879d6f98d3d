import Sealing.Proofs.KeyText
import Sealing.Settings

/-!
# Validated settings

Validation is a sequence of checks. What each of them finds wrong is said without regard to the
others; the error of a validation is then that of the first check that finds something. Settings in
which no check finds anything are valid, and whoever reads the key, the suite or the address from
valid settings again, gets them.
-/

namespace Sealing

namespace Except

variable {ε α β : Type} {x y : Except ε Unit} {check : α → Except ε Unit} {checks : List α} {e : ε}

private theorem seq_eq_ok_iff : (x >>= fun _ => y) = .ok () ↔ x = .ok () ∧ y = .ok () := by
  cases x <;> simp [bind, Except.bind]

private theorem seq_eq_error_iff : (x >>= fun _ => y) = .error e ↔
    x = .error e ∨ x = .ok () ∧ y = .error e := by
  cases x <;> simp [bind, Except.bind]

/-- A step that depends on another succeeds on the value of that. -/
theorem bind_eq_ok_iff {x : Except ε α} {f : α → Except ε β} {b : β} :
    (x >>= f) = .ok b ↔ ∃ a, x = .ok a ∧ f a = .ok b := by
  cases x <;> simp [bind, Except.bind]

/-- A failure that is reported in other words is still one, and nothing else is. -/
theorem mapError_eq_ok_iff {x : Except ε α} {f : ε → β} {a : α} :
    x.mapError f = .ok a ↔ x = .ok a := by
  cases x <;> simp [Except.mapError]

/-- A renamed error is an error renamed. -/
theorem mapError_eq_error_iff {x : Except ε α} {f : ε → β} {b : β} :
    x.mapError f = .error b ↔ ∃ reason, x = .error reason ∧ f reason = b := by
  cases x <;> simp [Except.mapError]

/-- What is made of a result fails where there is none. -/
theorem map_eq_ok_iff {x : Except ε α} {f : α → β} {b : β} :
    x.map f = .ok b ↔ ∃ a, x = .ok a ∧ f a = b := by
  cases x <;> simp [Except.map]

/-- To change the value does not change the error. -/
theorem map_eq_error_iff {x : Except ε α} {f : α → β} : x.map f = .error e ↔ x = .error e := by
  cases x <;> simp [Except.map]

/-- Checks in a row pass exactly if each of them does. -/
theorem forM_eq_ok_iff : forM checks check = .ok () ↔ ∀ c ∈ checks, check c = .ok () := by
  induction checks with
  | nil => simp [pure, Except.pure]
  | cons c checks ih => rw [List.forM_cons, List.forall_mem_cons, ← ih, seq_eq_ok_iff]

/-- Checks in a row fail with the error of the first that fails. -/
theorem forM_eq_error_iff : forM checks check = .error e ↔
    ∃ before c after, checks = before ++ c :: after ∧ check c = .error e ∧
      ∀ d ∈ before, check d = .ok () := by
  induction checks with
  | nil => simp [pure, Except.pure]
  | cons c checks ih =>
    rw [List.forM_cons, seq_eq_error_iff, ih]
    constructor
    · rintro (hc | ⟨hc, before, d, after, rfl, hd, hbefore⟩)
      · exact ⟨[], c, checks, rfl, hc, by simp⟩
      · exact ⟨c :: before, d, after, rfl, hd, List.forall_mem_cons.mpr ⟨hc, hbefore⟩⟩
    · rintro ⟨before, d, after, hsplit, hd, hbefore⟩
      cases before with
      | nil =>
        obtain ⟨rfl, -⟩ := List.cons.inj hsplit
        exact .inl hd
      | cons b before =>
        obtain ⟨rfl, rfl⟩ := List.cons.inj hsplit
        obtain ⟨hc, hbefore⟩ := List.forall_mem_cons.mp hbefore
        exact .inr ⟨hc, before, d, after, rfl, hd, hbefore⟩

end Except

namespace Suite

variable {text : String} {suite : Suite}

/-- No two suites have the same name. -/
theorem name_inj {a b : Suite} : a.name = b.name ↔ a = b := by
  cases a <;> cases b <;> decide

private theorem find?_eq_some {wanted : String} {found : Suite}
    (h : all.find? (fun s => s.name == wanted) = some found) : found.name = wanted := by
  have hname := List.find?_some h
  exact eq_of_beq hname

private theorem find?_eq_none {wanted : String}
    (h : all.find? (fun s => s.name == wanted) = none) (suite : Suite) : suite.name ≠ wanted := by
  have hall : suite ∈ all := by
    cases suite <;> decide
  have hname := List.find?_eq_none.mp h suite hall
  simpa using hname

/-- A suite is found exactly by its name, in any letter case and with white space around it. -/
theorem parse_eq_ok_iff :
    parse text = .ok suite ↔ suite.name = Text.lowerAsciiText (Text.trim text) := by
  rw [parse]
  generalize Text.lowerAsciiText (Text.trim text) = wanted
  constructor
  · intro h
    split at h
    · next found hfind =>
      obtain rfl := Except.ok.inj h
      exact find?_eq_some hfind
    · cases h
  · intro h
    split
    · next found hfind =>
      rw [name_inj.mp ((find?_eq_some hfind).trans h.symm)]
    · next hfind => exact absurd h (find?_eq_none hfind suite)

example : parse " AES-CFB8-Hmac-Sha256\n" = .ok .aesCfb8HmacSha256 := by rfl

/-- A text that names no suite is reported as it stands. -/
theorem parse_eq_error_iff {e : SealError} : parse text = .error e ↔
    (∀ suite : Suite, suite.name ≠ Text.lowerAsciiText (Text.trim text)) ∧
      e = .unknownSuite text := by
  rw [parse]
  generalize Text.lowerAsciiText (Text.trim text) = wanted
  constructor
  · intro h
    split at h
    · cases h
    · next hfind => exact ⟨find?_eq_none hfind, (Except.error.inj h).symm⟩
  · rintro ⟨hnone, rfl⟩
    split
    · next found hfind => exact absurd (find?_eq_some hfind) (hnone found)
    · rfl

/-- A suite is found by the name that its sealer reports. -/
theorem parse_sealer (suite : Suite) : parse suite.sealer.suite = .ok suite := by
  have hreport : suite.sealer.suite = suite.name := suite.name_scheme
  rw [hreport, parse_eq_ok_iff]
  cases suite <;> decide

end Suite

namespace Settings

/-- The checks of a validation. -/
inductive Check where
  | keyText | key | suite | address | paths | bodyLimit
deriving DecidableEq, Repr

/-- The checks in their order. -/
def Check.all : List Check := [keyText, key, suite, address, paths, bodyLimit]

/-- What a check finds wrong, no matter what the others find. -/
inductive Fault (s : Settings) : Check → SettingsError → Prop
  | blankKey : Text.trim s.aesKey = "" → Fault s .keyText (.blank "AES_KEY")
  | invalidKey {e : KeyError} : e.Applies s.aesKey → Fault s .key (.invalidKey e)
  | unknownSuite :
      (∀ suite : Suite, suite.name ≠ Text.lowerAsciiText (Text.trim s.cipherSuite)) →
      Fault s .suite (.unknownSuite (.unknownSuite s.cipherSuite))
  | invalidAddress : Net.Address.parse? s.listenAddress = none →
      Fault s .address (.invalidAddress s.listenAddress)
  | lonelyCertificate {cert : String} : s.tlsCertPath = some cert → s.tlsKeyPath = none →
      Fault s .paths .unpairedPaths
  | lonelyKey {key : String} : s.tlsCertPath = none → s.tlsKeyPath = some key →
      Fault s .paths .unpairedPaths
  | blankCertificate {cert key : String} : s.tlsCertPath = some cert → s.tlsKeyPath = some key →
      Text.trim cert = "" → Fault s .paths (.blank "TLS_CERT_PATH")
  | blankKeyPath {cert key : String} : s.tlsCertPath = some cert → s.tlsKeyPath = some key →
      Text.trim cert ≠ "" → Text.trim key = "" → Fault s .paths (.blank "TLS_KEY_PATH")
  | zeroBodyLimit : s.maxBodyBytes = 0 → Fault s .bodyLimit .zeroBodyLimit

/-- What starting up relies on. -/
structure Valid (s : Settings) : Prop where
  /-- The key is the base64 of as many bytes as a key has, with white space around it. -/
  key : ∃ b : Bytes, b.length ∈ Aes.keyLengths ∧ Base64.encode b = Text.trim s.aesKey
  /-- The suite is called by its name, in any letter case and with white space around it. -/
  suite : ∃ suite : Suite, suite.name = Text.lowerAsciiText (Text.trim s.cipherSuite)
  address : ∃ a, Net.Address.parse? s.listenAddress = some a
  /-- Neither path is set, or both are and neither is blank. -/
  paths : s.tlsCertPath = none ∧ s.tlsKeyPath = none ∨ ∃ cert key, s.tlsCertPath = some cert ∧
    s.tlsKeyPath = some key ∧ Text.trim cert ≠ "" ∧ Text.trim key ≠ ""
  bodyLimit : 0 < s.maxBodyBytes

variable {s : Settings} {e : SettingsError}

/-- One check by itself. -/
def perform (s : Settings) : Check → Except SettingsError Unit
  | .keyText => requireText s.aesKey "AES_KEY"
  | .key => discard s.key
  | .suite => discard s.suite
  | .address => discard s.socket
  | .paths => s.validatePaths
  | .bodyLimit => if s.maxBodyBytes = 0 then .error .zeroBodyLimit else .ok ()

/-- Validation performs the checks in their order. -/
theorem validate_eq_forM (s : Settings) : s.validate = forM Check.all s.perform := by
  have hlast : (if s.maxBodyBytes = 0 then throw .zeroBodyLimit else pure () :
      Except SettingsError Unit) = s.perform .bodyLimit := rfl
  rw [validate, Check.all]
  simp only [List.forM_cons, List.forM_nil, bind_pure_unit, hlast]
  rfl

/-! ## Check by check -/

/-- Without its value a step succeeds as before. -/
theorem discard_eq_ok_iff {α : Type} {x : Except SettingsError α} :
    (discard x : Except SettingsError Unit) = .ok () ↔ ∃ a, x = .ok a := by
  cases x <;> simp [discard, Functor.mapConst, Except.map]

/-- Without its value a step fails as before. -/
theorem discard_eq_error_iff {α : Type} {x : Except SettingsError α} :
    (discard x : Except SettingsError Unit) = .error e ↔ x = .error e := by
  cases x <;> simp [discard, Functor.mapConst, Except.map]

/-- A required text is accepted exactly if it is not blank. -/
theorem requireText_eq_ok_iff {value name : String} :
    requireText value name = .ok () ↔ Text.trim value ≠ "" := by
  rw [requireText, ne_eq, Text.trim_eq_empty_iff]
  split <;> simp [*]

/-- A blank text is reported by the name of its setting. -/
theorem requireText_eq_error_iff {value name : String} :
    requireText value name = .error e ↔ Text.trim value = "" ∧ e = .blank name := by
  rw [requireText, Text.trim_eq_empty_iff]
  split <;> simp [*, eq_comm]

/-- The key is read exactly from a text that is one. -/
theorem key_eq_ok_iff {k : Key} : s.key = .ok k ↔ Base64.encode k.bytes = Text.trim s.aesKey := by
  rw [← Key.ofBase64_eq_ok_iff, key]
  cases Key.ofBase64 s.aesKey <;> simp

/-- The key is refused exactly if its text is at fault. -/
theorem key_eq_error_iff : s.key = .error e ↔
    ∃ f : KeyError, f.Applies s.aesKey ∧ e = .invalidKey f := by
  simp only [← Key.ofBase64_eq_error_iff]
  rw [key]
  cases Key.ofBase64 s.aesKey <;> simp [eq_comm]

/-- The suite is read exactly from its name. -/
theorem suite_eq_ok_iff {suite : Suite} : s.suite = .ok suite ↔
    suite.name = Text.lowerAsciiText (Text.trim s.cipherSuite) := by
  rw [← Suite.parse_eq_ok_iff, Settings.suite]
  cases Suite.parse s.cipherSuite <;> simp

/-- The suite is refused exactly if no suite has the name. -/
theorem suite_eq_error_iff : s.suite = .error e ↔
    (∀ suite : Suite, suite.name ≠ Text.lowerAsciiText (Text.trim s.cipherSuite)) ∧
      e = .unknownSuite (.unknownSuite s.cipherSuite) := by
  have hparse := @Suite.parse_eq_error_iff s.cipherSuite
  rw [Settings.suite]
  cases hsuite : Suite.parse s.cipherSuite with
  | ok suite =>
    have hname := Suite.parse_eq_ok_iff.mp hsuite
    simp only [reduceCtorEq, false_iff, not_and]
    intro hnone
    exact absurd hname (hnone suite)
  | error f =>
    obtain ⟨hnone, rfl⟩ := hparse.mp hsuite
    constructor
    · intro h
      exact ⟨hnone, (Except.error.inj h).symm⟩
    · rintro ⟨-, rfl⟩
      rfl

/-- The socket is the address that is set, and the port. -/
theorem socket_eq_ok_iff {socket : Net.Socket} : s.socket = .ok socket ↔
    Net.Address.parse? s.listenAddress = some socket.address ∧ socket.port = s.listenPort := by
  rw [Settings.socket]
  cases Net.Address.parse? s.listenAddress with
  | none => simp
  | some a =>
    constructor
    · intro h
      obtain rfl := Except.ok.inj h
      exact ⟨rfl, rfl⟩
    · rintro ⟨haddress, hport⟩
      obtain rfl := Option.some.inj haddress
      rw [← hport]

/-- The socket is refused exactly if the address does not parse. -/
theorem socket_eq_error_iff : s.socket = .error e ↔
    Net.Address.parse? s.listenAddress = none ∧ e = .invalidAddress s.listenAddress := by
  rw [Settings.socket]
  cases Net.Address.parse? s.listenAddress <;> simp [eq_comm]

private theorem validatePaths_of_some {cert key : String} (hcert : s.tlsCertPath = some cert)
    (hkey : s.tlsKeyPath = some key) : s.validatePaths =
      requireText cert "TLS_CERT_PATH" >>= fun _ => requireText key "TLS_KEY_PATH" := by
  rw [validatePaths, hcert, hkey]

/-- Paths pass if there are none, or two that are not blank. -/
theorem validatePaths_eq_ok_iff : s.validatePaths = .ok () ↔
    s.tlsCertPath = none ∧ s.tlsKeyPath = none ∨ ∃ cert key, s.tlsCertPath = some cert ∧
      s.tlsKeyPath = some key ∧ Text.trim cert ≠ "" ∧ Text.trim key ≠ "" := by
  cases hcert : s.tlsCertPath with
  | none => cases hkey : s.tlsKeyPath <;> simp [validatePaths, hcert, hkey]
  | some cert =>
    cases hkey : s.tlsKeyPath with
    | none => simp [validatePaths, hcert, hkey]
    | some key =>
      rw [validatePaths_of_some hcert hkey, Except.seq_eq_ok_iff, requireText_eq_ok_iff,
        requireText_eq_ok_iff]
      simp

/-- The paths are refused exactly if they are at fault. -/
theorem validatePaths_eq_error_iff : s.validatePaths = .error e ↔ s.Fault .paths e := by
  constructor
  · intro h
    cases hcert : s.tlsCertPath with
    | none =>
      cases hkey : s.tlsKeyPath with
      | none => simp [validatePaths, hcert, hkey] at h
      | some key =>
        rw [validatePaths, hcert, hkey] at h
        obtain rfl := Except.error.inj h
        exact .lonelyKey hcert hkey
    | some cert =>
      cases hkey : s.tlsKeyPath with
      | none =>
        rw [validatePaths, hcert, hkey] at h
        obtain rfl := Except.error.inj h
        exact .lonelyCertificate hcert hkey
      | some key =>
        rw [validatePaths_of_some hcert hkey, Except.seq_eq_error_iff, requireText_eq_error_iff,
          requireText_eq_ok_iff, requireText_eq_error_iff] at h
        rcases h with ⟨hblank, rfl⟩ | ⟨htext, hblank, rfl⟩
        · exact .blankCertificate hcert hkey hblank
        · exact .blankKeyPath hcert hkey htext hblank
  · intro h
    cases h with
    | lonelyCertificate hcert hkey => rw [validatePaths, hcert, hkey]
    | lonelyKey hcert hkey => rw [validatePaths, hcert, hkey]
    | blankCertificate hcert hkey hblank =>
      rw [validatePaths_of_some hcert hkey, Except.seq_eq_error_iff]
      exact .inl (requireText_eq_error_iff.mpr ⟨hblank, rfl⟩)
    | blankKeyPath hcert hkey htext hblank =>
      rw [validatePaths_of_some hcert hkey, Except.seq_eq_error_iff]
      exact .inr ⟨requireText_eq_ok_iff.mpr htext, requireText_eq_error_iff.mpr ⟨hblank, rfl⟩⟩

/-- A check fails exactly with what it finds wrong. -/
theorem perform_eq_error_iff {c : Check} : s.perform c = .error e ↔ s.Fault c e := by
  cases c with
  | keyText =>
    rw [perform, requireText_eq_error_iff]
    constructor
    · rintro ⟨hblank, rfl⟩
      exact .blankKey hblank
    · intro h
      cases h with
      | blankKey hblank => exact ⟨hblank, rfl⟩
  | key =>
    rw [perform, discard_eq_error_iff, key_eq_error_iff]
    constructor
    · rintro ⟨f, hf, rfl⟩
      exact .invalidKey hf
    · intro h
      cases h with
      | invalidKey hf => exact ⟨_, hf, rfl⟩
  | suite =>
    rw [perform, discard_eq_error_iff, suite_eq_error_iff]
    constructor
    · rintro ⟨hnone, rfl⟩
      exact .unknownSuite hnone
    · intro h
      cases h with
      | unknownSuite hnone => exact ⟨hnone, rfl⟩
  | address =>
    rw [perform, discard_eq_error_iff, socket_eq_error_iff]
    constructor
    · rintro ⟨hnone, rfl⟩
      exact .invalidAddress hnone
    · intro h
      cases h with
      | invalidAddress hnone => exact ⟨hnone, rfl⟩
  | paths => exact validatePaths_eq_error_iff
  | bodyLimit =>
    by_cases hzero : s.maxBodyBytes = 0
    · rw [perform, if_pos hzero]
      constructor
      · intro h
        obtain rfl := Except.error.inj h
        exact .zeroBodyLimit hzero
      · intro h
        cases h with
        | zeroBodyLimit => rfl
    · rw [perform, if_neg hzero]
      constructor
      · intro h
        cases h
      · intro h
        cases h with
        | zeroBodyLimit h => exact absurd h hzero

/-- A check passes exactly if nothing is at fault. -/
theorem perform_eq_ok_iff {c : Check} : s.perform c = .ok () ↔ ∀ e, ¬s.Fault c e := by
  simp only [← perform_eq_error_iff]
  cases s.perform c <;> simp

/-! ## All checks -/

/-- The error of a validation is what the first check finds that finds anything. -/
theorem validate_eq_error_iff : s.validate = .error e ↔
    ∃ before c after, Check.all = before ++ c :: after ∧ s.Fault c e ∧
      ∀ d ∈ before, ∀ f, ¬s.Fault d f := by
  rw [validate_eq_forM, Except.forM_eq_error_iff]
  simp only [perform_eq_error_iff, perform_eq_ok_iff]

/-- The key of valid settings is not blank either. -/
theorem trim_ne_empty_of_key {b : Bytes} (hlength : b.length ∈ Aes.keyLengths)
    (hb : Base64.encode b = Text.trim s.aesKey) : Text.trim s.aesKey ≠ "" := by
  rw [← hb]
  intro hempty
  have hnil : Base64.encode b = Base64.encode [] := hempty
  obtain rfl := Base64.encode_inj.mp hnil
  exact absurd hlength (by decide)

/-- The body limit passes exactly if it is not zero. -/
theorem perform_bodyLimit_eq_ok_iff : s.perform .bodyLimit = .ok () ↔ 0 < s.maxBodyBytes := by
  rw [perform, UInt64.pos_iff_ne_zero]
  split <;> simp [*]

/-- Settings pass validation exactly if they are valid. -/
theorem validate_eq_ok_iff : s.validate = .ok () ↔ s.Valid := by
  rw [validate_eq_forM, Except.forM_eq_ok_iff]
  simp only [Check.all, List.forall_mem_cons, List.not_mem_nil, false_implies, implies_true,
    and_true, perform_bodyLimit_eq_ok_iff]
  simp only [perform, discard_eq_ok_iff, requireText_eq_ok_iff, key_eq_ok_iff, suite_eq_ok_iff,
    socket_eq_ok_iff, validatePaths_eq_ok_iff]
  constructor
  · rintro ⟨-, ⟨k, hk⟩, hsuite, ⟨socket, haddress, -⟩, hpaths, hlimit⟩
    exact ⟨⟨k.bytes, k.length_mem, hk⟩, hsuite, ⟨_, haddress⟩, hpaths, hlimit⟩
  · rintro ⟨⟨b, hlength, hb⟩, hsuite, ⟨a, ha⟩, hpaths, hlimit⟩
    exact ⟨trim_ne_empty_of_key hlength hb, ⟨⟨b, hlength⟩, hb⟩, hsuite,
      ⟨⟨a, s.listenPort⟩, ha, rfl⟩, hpaths, hlimit⟩

/-! ## Reading valid settings again -/

namespace Valid

variable (h : s.Valid)
include h

/-- Valid settings have a key. -/
theorem exists_key : ∃ k, s.key = .ok k := by
  obtain ⟨b, hlength, hb⟩ := h.key
  exact ⟨⟨b, hlength⟩, key_eq_ok_iff.mpr hb⟩

/-- Valid settings have a suite. -/
theorem exists_suite : ∃ suite, s.suite = .ok suite := by
  obtain ⟨suite, hsuite⟩ := h.suite
  exact ⟨suite, suite_eq_ok_iff.mpr hsuite⟩

/-- Valid settings have a socket. -/
theorem exists_socket : ∃ a, s.socket = .ok ⟨a, s.listenPort⟩ := by
  obtain ⟨a, ha⟩ := h.address
  exact ⟨a, socket_eq_ok_iff.mpr ⟨ha, rfl⟩⟩

/-- One path is enough for TLS to be asked for: the other one is set as well. -/
theorem tlsPaths_eq_none_iff :
    s.tlsPaths = none ↔ s.tlsCertPath = none ∧ s.tlsKeyPath = none := by
  rw [tlsPaths]
  rcases h.paths with ⟨hcert, hkey⟩ | ⟨cert, key, hcert, hkey, -⟩
  · simp [hcert, hkey]
  · simp [hcert, hkey]

end Valid

end Settings

end Sealing
