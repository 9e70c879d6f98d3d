import Sealing.Proofs.Validation
import Sealing.Proofs.Walking

/-!
# Settings of a table

A table is read exactly if every value in it suits its setting and there is a key, and accepted if
what is read is valid. The order of the table plays a part only if there are several values that do
not suit: then it decides which of them is reported.
-/

namespace Sealing

namespace Settings

open Environment (Table Value)

variable {t t' : Table} {s : Settings} {e : SettingsError} {name : String} {value : Value}

/-! ## Values that suit -/

/-- What is wrong with a value is said of the setting that it is for. -/
theorem suits_eq_ok_iff : suits name value = .ok () ↔
    (name ∈ texts → ∃ text, value = .text text) ∧
    (name = "listen_port" → ∃ port, value.toPort name = .ok port) ∧
    (name = "max_body_bytes" → ∃ n, value.toInteger name = .ok n) := by
  have htext : (∃ text, value.toText name = .ok text) ↔ ∃ text, value = .text text := by
    cases value <;> simp [Value.toText]
  unfold suits
  by_cases htexts : name ∈ texts
  · have hport : name ≠ "listen_port" := by rintro rfl; exact absurd htexts (by decide)
    have hlimit : name ≠ "max_body_bytes" := by rintro rfl; exact absurd htexts (by decide)
    simp [htexts, hport, hlimit, discard_eq_ok_iff, htext]
  · by_cases hport : name = "listen_port"
    · subst hport
      simp [htexts, discard_eq_ok_iff]
    · by_cases hlimit : name = "max_body_bytes"
      · subst hlimit
        simp [htexts, discard_eq_ok_iff]
      · simp [htexts, hport, hlimit]

/-- A text suits every setting but a number that it is none of. -/
theorem of_suits_text_eq_error {text : String} (h : suits name (.text text) = .error e) :
    name = "listen_port" ∧ (∀ port, (Value.text text).toPort name ≠ .ok port) ∨
      name = "max_body_bytes" ∧ integer? text = none := by
  have hne : suits name (.text text) ≠ .ok () := by
    rw [h]
    exact nofun
  rw [ne_eq, suits_eq_ok_iff] at hne
  by_contra hnone
  rw [not_or] at hnone
  refine hne ⟨fun _ => ⟨text, rfl⟩, fun hname => ?_, fun hname => ?_⟩
  · by_contra hport
    exact hnone.1 ⟨hname, not_exists.mp hport⟩
  · cases hn : integer? text with
    | none => exact absurd ⟨hname, hn⟩ hnone.2
    | some n => exact ⟨n, by rw [Value.toInteger, hn]; rfl⟩

/-- All values of a table suit exactly if those suit that are found under some name. -/
theorem forM_suits_eq_ok_iff (h : (t.map (·.1)).Nodup) :
    (forM t fun entry => suits entry.1 entry.2) = .ok () ↔
      ∀ name value, t.lookup name = some value → suits name value = .ok () := by
  rw [Except.forM_eq_ok_iff]
  constructor
  · intro hall name value hvalue
    exact hall _ ((Walk.mem_iff_lookup h).mpr hvalue)
  · rintro hall ⟨name, value⟩ hmem
    exact hall _ _ ((Walk.mem_iff_lookup h).mp hmem)

/-! ## Reading -/

/-- A text is read exactly if it is what the setting is set to. -/
theorem get?_toText_eq_ok_iff {found : Option String} :
    get? t name Value.toText = .ok found ↔ t.lookup name = found.map .text := by
  unfold get?
  cases t.lookup name with
  | none => cases found <;> simp
  | some value => cases value <;> cases found <;> simp [Value.toText, Except.map]

/-- Settings that a table sets, with defaults for all but the key. -/
structure Reads (t : Table) (s : Settings) : Prop where
  key : t.lookup "aes_key" = some (.text s.aesKey)
  suite : ∃ text : Option String, t.lookup "cipher_suite" = text.map .text ∧
    s.cipherSuite = text.getD Suite.default.name
  address : ∃ text : Option String, t.lookup "listen_addr" = text.map .text ∧
    s.listenAddress = text.getD "0.0.0.0"
  port : ∃ port, get? t "listen_port" Value.toPort = .ok port ∧ s.listenPort = port.getD 8000
  cert : t.lookup "tls_cert_path" = s.tlsCertPath.map .text
  keyPath : t.lookup "tls_key_path" = s.tlsKeyPath.map .text
  limit : ∃ n, get? t "max_body_bytes" Value.toInteger = .ok n ∧
    s.maxBodyBytes = UInt64.ofNat (n.getD 1048576)
  level : ∃ text : Option String, t.lookup "log_level" = text.map .text ∧
    s.logLevel = text.getD "info"

/-- A table is read exactly if its values suit and it sets the settings that are read. -/
theorem read_eq_ok_iff : read t = .ok s ↔
    (forM t fun entry => suits entry.1 entry.2) = .ok () ∧ Reads t s := by
  simp only [read, Except.bind_eq_ok_iff]
  constructor
  · rintro ⟨u, hsuits, found, hkey, h⟩
    refine ⟨hsuits, ?_⟩
    cases found with
    | none => cases h
    | some key =>
      simp only [Except.bind_eq_ok_iff] at h
      obtain ⟨suite, hsuite, address, haddress, port, hport, cert, hcert, keyPath, hkeyPath, n, hn,
        level, hlevel, h⟩ := h
      obtain rfl := Except.ok.inj h
      rw [get?_toText_eq_ok_iff] at hkey hsuite haddress hcert hkeyPath hlevel
      exact ⟨hkey, ⟨suite, hsuite, rfl⟩, ⟨address, haddress, rfl⟩, ⟨port, hport, rfl⟩, hcert,
        hkeyPath, ⟨n, hn, rfl⟩, ⟨level, hlevel, rfl⟩⟩
  · rintro ⟨hsuits, h⟩
    obtain ⟨suite, hsuite, hsuite'⟩ := h.suite
    obtain ⟨address, haddress, haddress'⟩ := h.address
    obtain ⟨port, hport, hport'⟩ := h.port
    obtain ⟨n, hn, hn'⟩ := h.limit
    obtain ⟨level, hlevel, hlevel'⟩ := h.level
    refine ⟨(), hsuits, some s.aesKey, get?_toText_eq_ok_iff.mpr h.key, ?_⟩
    simp only [Except.bind_eq_ok_iff]
    refine ⟨suite, get?_toText_eq_ok_iff.mpr hsuite, address, get?_toText_eq_ok_iff.mpr haddress,
      port, hport, _, get?_toText_eq_ok_iff.mpr h.cert, _, get?_toText_eq_ok_iff.mpr h.keyPath,
      n, hn, level, get?_toText_eq_ok_iff.mpr hlevel, ?_⟩
    rw [← hsuite', ← haddress', ← hport', ← hn', ← hlevel']
    rfl

/-- Settings that are accepted were read and are valid. -/
theorem ofTable_eq_ok_iff : ofTable t = .ok s ↔ read t = .ok s ∧ s.Valid := by
  simp only [ofTable, Except.bind_eq_ok_iff, ← validate_eq_ok_iff]
  constructor
  · rintro ⟨s', hread, u, hvalid, hs⟩
    obtain rfl := Except.ok.inj hs
    exact ⟨hread, hvalid⟩
  · rintro ⟨hread, hvalid⟩
    exact ⟨s, hread, (), hvalid, rfl⟩

/-! ## Values that do not suit -/

/-- Some value in a table does not suit its setting, for this reason. -/
def Misfit (t : Table) (e : SettingsError) : Prop :=
  ∃ name value, t.lookup name = some value ∧ suits name value = .error e

/-- Only the value of a setting can be unsuitable. -/
theorem mem_names_of_suits (h : suits name value = .error e) : name ∈ names := by
  by_contra hname
  rw [names, List.mem_append, not_or] at hname
  obtain ⟨htexts, hnumbers⟩ := hname
  have hok : suits name value = .ok () := by
    refine suits_eq_ok_iff.mpr ⟨fun h => absurd h htexts, ?_, ?_⟩
    · rintro rfl
      exact absurd (by decide) hnumbers
    · rintro rfl
      exact absurd (by decide) hnumbers
  rw [hok] at h
  cases h

/-- If there is but one reason why values of a table do not suit, it is reported. -/
theorem read_eq_error_of_misfit (ht : (t.map (·.1)).Nodup) (h : Misfit t e)
    (hone : ∀ f, Misfit t f → f = e) : read t = .error e := by
  cases hall : (forM t fun entry => suits entry.1 entry.2) with
  | ok u =>
    obtain ⟨name, value, hvalue, hsuits⟩ := h
    have hok := (forM_suits_eq_ok_iff ht).mp hall name value hvalue
    rw [hsuits] at hok
    cases hok
  | error f =>
    obtain ⟨before, ⟨name, value⟩, after, hsplit, hsuits, -⟩ := Except.forM_eq_error_iff.mp hall
    have hmem : (name, value) ∈ t := by
      rw [hsplit]
      simp
    obtain rfl := hone f ⟨name, value, (Walk.mem_iff_lookup ht).mp hmem, hsuits⟩
    simp only [read, hall, bind, Except.bind]

/-- If no value is unsuitable, all suit. -/
theorem forM_suits_eq_ok (ht : (t.map (·.1)).Nodup) (hnone : ∀ e, ¬Misfit t e) :
    (forM t fun entry => suits entry.1 entry.2) = .ok () := by
  refine (forM_suits_eq_ok_iff ht).mpr fun name value hvalue => ?_
  cases hsuits : suits name value with
  | ok u => rfl
  | error e => exact absurd ⟨name, value, hvalue, hsuits⟩ (hnone e)

section

variable (hlookup : ∀ name ∈ names, t.lookup name = t'.lookup name)
include hlookup

/-- What is unsuitable depends on the settings alone. -/
theorem misfit_congr : Misfit t e ↔ Misfit t' e := by
  constructor
  · rintro ⟨name, value, hvalue, hsuits⟩
    exact ⟨name, value, hlookup name (mem_names_of_suits hsuits) ▸ hvalue, hsuits⟩
  · rintro ⟨name, value, hvalue, hsuits⟩
    exact ⟨name, value, (hlookup name (mem_names_of_suits hsuits)).symm ▸ hvalue, hsuits⟩

/-- The order of a table plays no part as long as there is at most one reason why its values do not
suit. Names that are none of settings play none at all. -/
theorem ofTable_congr (ht : (t.map (·.1)).Nodup) (ht' : (t'.map (·.1)).Nodup)
    (hone : ∀ e f, Misfit t e → Misfit t f → e = f) : ofTable t = ofTable t' := by
  have hread : read t = read t' := by
    by_cases hsome : ∃ e, Misfit t e
    · obtain ⟨e, he⟩ := hsome
      have he' : Misfit t' e := (misfit_congr hlookup).mp he
      have hone' (f : SettingsError) (hf : Misfit t' f) : f = e :=
        hone f e ((misfit_congr hlookup).mpr hf) he
      rw [read_eq_error_of_misfit ht he fun f hf => hone f e hf he,
        read_eq_error_of_misfit ht' he' hone']
    · have hnone (e : SettingsError) : ¬Misfit t e := fun he => hsome ⟨e, he⟩
      have hnone' (e : SettingsError) : ¬Misfit t' e :=
        fun he => hnone e ((misfit_congr hlookup).mpr he)
      have hget {α : Type} {name : String} (hname : name ∈ names)
          (convert : String → Value → Except SettingsError α) :
          get? t name convert = get? t' name convert := by
        rw [get?, get?, hlookup name hname]
      simp only [read, forM_suits_eq_ok ht hnone, forM_suits_eq_ok ht' hnone']
      rw [hget (by decide), hget (by decide), hget (by decide), hget (by decide),
        hget (by decide), hget (by decide), hget (by decide), hget (by decide)]
  rw [ofTable, ofTable, hread]

end

/-! ## Settings of an environment -/

variable {env : Environment} {walks : Walks}

/-- The settings of an environment are shown once each. -/
theorem nodup_settings : ((env.settings walks).map (·.1)).Nodup := walks.settings.nodup_through _

/-- Accepted settings have a path exactly where the environment sets one. -/
theorem isSome_paths_of_ofEnvironment (h : ofEnvironment env walks = .ok s) :
    (s.tlsCertPath.isSome ↔ env.Sets "tls_cert_path") ∧
      (s.tlsKeyPath.isSome ↔ env.Sets "tls_key_path") := by
  obtain ⟨hread, -⟩ := ofTable_eq_ok_iff.mp h
  obtain ⟨-, hs⟩ := read_eq_ok_iff.mp hread
  rw [← Environment.isSome_lookup_settings_iff, ← Environment.isSome_lookup_settings_iff, hs.cert,
    hs.keyPath, Option.isSome_map, Option.isSome_map]
  exact ⟨Iff.rfl, Iff.rfl⟩

end Settings

open Environment Settings in
/-- What an environment says does not depend on how its tables are walked: no path leads into a
setting, and of the two numbers at most one is none. -/
structure Environment.Definite (env : Environment) : Prop where
  plainly : ∀ name ∈ names, env.Plainly name
  number : (∀ text, env.latest? "listen_port" = some text →
      ∃ port, (Value.text text).toPort "listen_port" = .ok port) ∨
    ∀ text, env.latest? "max_body_bytes" = some text → ∃ n, integer? text = some n

namespace Environment.Definite

open Settings

variable {env : Environment} {e f : SettingsError} {name : String} (h : env.Definite)
include h

/-- In a definite environment a setting is what its variable says. -/
theorem lookup_settings (walks : Walks) (hname : name ∈ names) :
    (env.settings walks).lookup name = (env.latest? name).map .text := by
  have hletters : ∀ name ∈ names, name.toList.all isNameLetter = true := by decide
  exact lookup_settings_of_plainly (fun _ => assign_of_letters (hletters name hname))
    (h.plainly name hname)

/-- What does not suit is the text of a variable. -/
theorem exists_text_of_misfit {walks : Walks} (he : Misfit (env.settings walks) e) :
    ∃ name text, env.latest? name = some text ∧
      (env.settings walks).lookup name = some (.text text) ∧
      suits name (.text text) = .error e := by
  obtain ⟨name, value, hvalue, hsuits⟩ := he
  have hfound := h.lookup_settings walks (mem_names_of_suits hsuits)
  obtain ⟨text, htext, rfl⟩ := Option.map_eq_some_iff.mp (hfound.symm.trans hvalue)
  exact ⟨name, text, htext, hvalue, hsuits⟩

/-- There is one setting at most whose value does not suit. -/
theorem exists_misfit (walks : Walks) : ∃ name, ∀ e, Misfit (env.settings walks) e →
    ∃ value, (env.settings walks).lookup name = some value ∧ suits name value = .error e := by
  rcases h.number with hport | hlimit
  · refine ⟨"max_body_bytes", fun e he => ?_⟩
    obtain ⟨name, text, htext, hvalue, hsuits⟩ := h.exists_text_of_misfit he
    rcases of_suits_text_eq_error hsuits with ⟨rfl, hnone⟩ | ⟨rfl, -⟩
    · obtain ⟨port, hok⟩ := hport text htext
      exact absurd hok (hnone port)
    · exact ⟨_, hvalue, hsuits⟩
  · refine ⟨"listen_port", fun e he => ?_⟩
    obtain ⟨name, text, htext, hvalue, hsuits⟩ := h.exists_text_of_misfit he
    rcases of_suits_text_eq_error hsuits with ⟨rfl, -⟩ | ⟨rfl, hnone⟩
    · exact ⟨_, hvalue, hsuits⟩
    · obtain ⟨n, hn⟩ := hlimit text htext
      rw [hnone] at hn
      cases hn

/-- There is one reason at most why values do not suit. -/
theorem misfit_eq {walks : Walks} (he : Misfit (env.settings walks) e)
    (hf : Misfit (env.settings walks) f) : e = f := by
  obtain ⟨name, hname⟩ := h.exists_misfit walks
  obtain ⟨value, hvalue, hsuits⟩ := hname e he
  obtain ⟨value', hvalue', hsuits'⟩ := hname f hf
  obtain rfl := Option.some.inj (hvalue.symm.trans hvalue')
  exact Except.error.inj (hsuits.symm.trans hsuits')

/-- The settings of a definite environment do not depend on how tables are walked. -/
theorem ofEnvironment_eq (walks walks' : Walks) :
    ofEnvironment env walks = ofEnvironment env walks' := by
  refine ofTable_congr ?_ nodup_settings nodup_settings fun e f he hf => h.misfit_eq he hf
  intro name hname
  rw [h.lookup_settings walks hname, h.lookup_settings walks' hname]

end Environment.Definite

end Sealing
