import Mathlib.Data.List.Forall2
import Sealing.Proofs.StartingUp
import Sealing.Run

/-!
# The key at start-up

Two environments that differ in the value of the key alone are put side by side. As long as both
values are keys, or both are refused for the same reason, nothing that an operator sees of a start
tells the one from the other: every step either fails in both with the same error, or goes on in
both with settings that have all but the key in common. The one trace that a key leaves is its
length, in the event that opens the log.
-/

namespace Sealing

/-- Two outcomes side by side: the same error, or two values of a kind. -/
inductive Except.Agree {ε α : Type} (R : α → α → Prop) : Except ε α → Except ε α → Prop
  | error (e : ε) : Agree R (.error e) (.error e)
  | ok {a b : α} : R a b → Agree R (.ok a) (.ok b)

namespace Except.Agree

variable {ε α β : Type} {R : α → α → Prop} {S : β → β → Prop} {x y : Except ε α}

/-- Steps that agree, after steps that agree. -/
theorem bind {f g : α → Except ε β} (h : Agree R x y)
    (hstep : ∀ a b, R a b → Agree S (f a) (g b)) : Agree S (x >>= f) (y >>= g) := by
  cases h with
  | error e => exact .error e
  | ok hab => exact hstep _ _ hab

/-- Steps that agree, after the same step. -/
theorem after {f g : β → Except ε α} (x : Except ε β) (hstep : ∀ b, Agree R (f b) (g b)) :
    Agree R (x >>= f) (x >>= g) := by
  cases x with
  | error e => exact .error e
  | ok b => exact hstep b

/-- Either both fail with an error or neither does. -/
theorem eq_error_iff (h : Agree R x y) {e : ε} : x = .error e ↔ y = .error e := by
  cases h with
  | error f => rfl
  | ok hab => simp

/-- Either both succeed or neither does. -/
theorem exists_ok_iff (h : Agree R x y) : (∃ a, x = .ok a) ↔ ∃ b, y = .ok b := by
  cases h with
  | error e => simp
  | ok hab => simp

/-- Values of results that agree are related. -/
theorem of_ok {a b : α} (h : Agree R (.ok a : Except ε α) (.ok b)) : R a b := by
  cases h with
  | ok hab => exact hab

end Except.Agree

/-! ## Alike -/

/-- Two texts are alike as keys: both are one, or neither is and for the same reason. -/
def Key.Alike (text text' : String) : Prop :=
  Except.Agree (fun _ _ => True) (Key.ofBase64 text) (Key.ofBase64 text')

/-- Two environments are alike if they have the same variables with the same values, but for values
of the key that are alike. -/
def Environment.Alike (env env' : Environment) : Prop :=
  List.Forall₂ (fun entry entry' => entry.1 = entry'.1 ∧ (entry.2 = entry'.2 ∨
    Environment.lowerName entry.1 = "aes_key" ∧ Key.Alike entry.2 entry'.2)) env env'

/-- Two values of a setting are alike if they are the same, or texts of the key that are alike. -/
inductive Environment.Value.Alike : String → Value → Value → Prop
  | same {name : String} (value : Value) : Alike name value value
  | key {text text' : String} (h : Key.Alike text text') :
      Alike "aes_key" (.text text) (.text text')

/-- Two settings are alike if the texts of their keys are and the rest is the same. -/
structure Settings.Alike (s s' : Settings) : Prop where
  key : Key.Alike s.aesKey s'.aesKey
  rest : s' = { s with aesKey := s'.aesKey }

namespace Key.Alike

variable {text text' : String}

/-- A text is like itself. -/
protected theorem refl (text : String) : Alike text text := by
  unfold Alike
  cases Key.ofBase64 text with
  | error e => exact .error e
  | ok k => exact .ok trivial

/-- Texts that are alike are blank together: a blank text is refused as one. -/
theorem trim_eq_empty_iff (h : Alike text text') :
    Text.trim text = "" ↔ Text.trim text' = "" := by
  rw [← Key.ofBase64_eq_empty_iff, ← Key.ofBase64_eq_empty_iff, Except.Agree.eq_error_iff h]

end Key.Alike

namespace Environment

variable {env env' : Environment} {name value value' : String}

/-- One value of the key for another. -/
theorem alike_of_value (before after : Environment) (hname : lowerName name = "aes_key")
    (hvalue : Key.Alike value value') :
    Alike (before ++ (name, value) :: after) (before ++ (name, value') :: after) := by
  have hsame (env : Environment) : Alike env env := by
    apply List.forall₂_same.mpr
    intro entry _
    exact ⟨rfl, .inl rfl⟩
  have hvalues : Alike ((name, value) :: after) ((name, value') :: after) :=
    .cons ⟨rfl, .inr ⟨hname, hvalue⟩⟩ (hsame after)
  exact List.rel_append (hsame before) hvalues

namespace Alike

/-- A variable outside of the settings is the same under its exact name. -/
theorem exactly?_eq (h : env.Alike env') (hname : lowerName name ≠ "aes_key") :
    env.exactly? name = env'.exactly? name := by
  unfold exactly?
  induction h with
  | nil => rfl
  | @cons entry entry' _ _ hentry _ ih =>
    obtain ⟨hsame, hvalue⟩ := hentry
    rw [List.lookup_cons, List.lookup_cons, ih, ← hsame]
    rcases hvalue with hvalue | ⟨hkey, -⟩
    · rw [hvalue]
    · have hother : name ≠ entry.1 := by
        rintro rfl
        exact hname hkey
      rw [beq_false_of_ne hother]

/-- The variables of environments that are alike have the same names, and all but the key the same
texts. -/
theorem rows_entries (h : env.Alike env') (w : Walk) :
    Rows (fun name text text' => text = text' ∨ name = "aes_key" ∧ Key.Alike text text')
      (env.entries w) (env'.entries w) := by
  refine Rows.through ?_ w
  rw [Rows, List.forall₂_map_left_iff, List.forall₂_map_right_iff]
  refine List.Forall₂.imp ?_ h
  rintro entry entry' ⟨hsame, hvalue⟩
  exact ⟨congrArg lowerName hsame, hvalue⟩

/-- Environments that are alike come to settings that are, in the same order. -/
theorem rows_settings (h : env.Alike env') (walks : Walks) :
    Rows Value.Alike (env.settings walks) (env'.settings walks) := by
  refine Rows.through ?_ walks.settings
  rw [Rows, List.forall₂_map_left_iff, List.forall₂_map_right_iff]
  refine List.Forall₂.imp ?_ (h.rows_entries walks.entries)
  rintro ⟨name, text⟩ ⟨name', text'⟩ ⟨hsame, hvalue⟩
  obtain rfl : name = name' := hsame
  rcases hvalue with hvalue | ⟨hname, hkey⟩
  · obtain rfl : text = text' := hvalue
    exact ⟨rfl, .same _⟩
  · obtain rfl : name = "aes_key" := hname
    have hassign (text : String) : assign "aes_key" text = ("aes_key", .text text) :=
      assign_of_letters (by decide)
    dsimp only
    rw [hassign, hassign]
    exact ⟨rfl, .key hkey⟩

end Alike

end Environment

namespace Settings

open Environment (Table Value)

variable {env env' : Environment} {walks walks' : Walks} {t t' : Table} {s s' : Settings}

/-! ## Reading side by side -/

/-- Values that are alike suit a setting alike. Every text suits the key. -/
theorem suits_congr {name : String} {value value' : Value} (h : Value.Alike name value value') :
    suits name value = suits name value' := by
  cases h with
  | same value => rfl
  | key _ => rfl

/-- Which value is reported as unsuitable does not depend on the key. -/
theorem forM_suits_congr (h : Rows Value.Alike t t') :
    (forM t fun entry => suits entry.1 entry.2) = forM t' fun entry => suits entry.1 entry.2 := by
  induction h with
  | nil => rfl
  | @cons entry entry' _ _ hentry _ ih =>
    obtain ⟨hsame, hvalue⟩ := hentry
    rw [List.forM_cons, List.forM_cons, ih, suits_congr hvalue, hsame]

/-- A setting other than the key is read the same. -/
theorem get?_congr {α : Type} {name : String}
    {convert : String → Value → Except SettingsError α} (h : Rows Value.Alike t t')
    (hname : name ≠ "aes_key") : get? t name convert = get? t' name convert := by
  have hvalue := h.lookup name
  unfold get?
  generalize t.lookup name = found at hvalue
  generalize t'.lookup name = found' at hvalue
  cases hvalue with
  | none => rfl
  | some hvalue =>
    cases hvalue with
    | same value => rfl
    | key _ => exact absurd rfl hname

/-- The key is read alike. -/
theorem agree_get?_key (h : Rows Value.Alike t t') :
    Except.Agree (Option.Rel Key.Alike) (get? t "aes_key" Value.toText)
      (get? t' "aes_key" Value.toText) := by
  have hvalue := h.lookup "aes_key"
  unfold get?
  generalize t.lookup "aes_key" = found at hvalue
  generalize t'.lookup "aes_key" = found' at hvalue
  cases hvalue with
  | none => exact .ok .none
  | @some value value' hvalue =>
    cases hvalue with
    | same value =>
      cases value with
      | text text => exact .ok (.some (Key.Alike.refl text))
      | table => exact .error _
      | list => exact .error _
    | key hkey => exact .ok (.some hkey)

/-- Tables that are alike are read alike. -/
theorem agree_read (h : Rows Value.Alike t t') : Except.Agree Alike (read t) (read t') := by
  unfold read
  rw [forM_suits_congr h]
  refine .after _ fun _ => (agree_get?_key h).bind fun found found' hfound => ?_
  cases hfound with
  | none => exact .error _
  | some hkey =>
    dsimp only
    rw [get?_congr h (by decide), get?_congr h (by decide), get?_congr h (by decide),
      get?_congr h (by decide), get?_congr h (by decide), get?_congr h (by decide),
      get?_congr h (by decide)]
    refine .after _ fun suite => .after _ fun address => .after _ fun port => .after _ fun cert =>
      .after _ fun keyPath => .after _ fun limit => .after _ fun level => ?_
    exact .ok ⟨hkey, rfl⟩

namespace Alike

variable (h : s.Alike s')
include h

/-- The suite does not depend on the key. -/
theorem suite_eq : s.suite = s'.suite := by
  rw [Settings.suite, Settings.suite, h.rest]

/-- The socket does not depend on the key. -/
theorem socket_eq : s.socket = s'.socket := by
  rw [Settings.socket, Settings.socket, h.rest]

/-- The paths do not depend on the key. -/
theorem tlsPaths_eq : s.tlsPaths = s'.tlsPaths := by
  rw [tlsPaths, tlsPaths, h.rest]

/-- Every check finds the same wrong with both. -/
theorem perform_eq (c : Check) : s.perform c = s'.perform c := by
  cases c with
  | keyText =>
    have hblank := h.key.trim_eq_empty_iff
    rw [Text.trim_eq_empty_iff, Text.trim_eq_empty_iff, ← Bool.eq_iff_iff] at hblank
    rw [perform, perform, requireText, requireText, hblank]
  | key =>
    have hkey := h.key
    unfold Key.Alike at hkey
    rw [perform, perform, Settings.key, Settings.key]
    generalize Key.ofBase64 s.aesKey = key at hkey
    generalize Key.ofBase64 s'.aesKey = key' at hkey
    cases hkey with
    | error e => rfl
    | ok _ => rfl
  | suite => rw [perform, perform, h.suite_eq]
  | address => rw [perform, perform, h.socket_eq]
  | paths => rw [perform, perform, validatePaths, validatePaths, h.rest]
  | bodyLimit => rw [perform, perform, h.rest]

/-- Validation finds the same wrong with both. -/
theorem validate_eq : s.validate = s'.validate := by
  have hperform : s.perform = s'.perform := funext h.perform_eq
  rw [validate_eq_forM, validate_eq_forM, hperform]

/-- The description does not show the key. -/
theorem describe_eq : s.describe = s'.describe := by
  calc s.describe = { s with aesKey := s'.aesKey }.describe := rfl
    _ = s'.describe := congrArg describe h.rest.symm

end Alike

/-- Environments that are alike are both refused with the same error, or both accepted. The tables
are walked in one order in both, or their order plays no part. -/
theorem agree_ofEnvironment (h : env.Alike env') (hwalks : walks = walks' ∨ env.Definite) :
    Except.Agree Alike (ofEnvironment env walks) (ofEnvironment env' walks') := by
  have hwalk : ofEnvironment env walks = ofEnvironment env walks' := by
    rcases hwalks with rfl | hdefinite
    · rfl
    · exact hdefinite.ofEnvironment_eq walks walks'
  rw [hwalk]
  refine (agree_read (h.rows_settings walks')).bind fun s s' hs => ?_
  rw [hs.validate_eq]
  cases s'.validate with
  | error e => exact .error e
  | ok u => exact .ok hs

end Settings

namespace Running

variable {machine : Machine} {env env' : Environment} {walks walks' : Walks}
  {s s' : Settings}

/-- The log filter does not depend on the key. -/
theorem chooseFilter_congr (h : env.Alike env') (hs : s.Alike s') :
    chooseFilter env s = chooseFilter env' s' := by
  unfold chooseFilter
  rw [h.exactly?_eq (by decide), hs.rest]

/-- The identity for TLS does not depend on the key. -/
theorem loadIdentity_congr {files : Tls.Files} (hs : s.Alike s') :
    loadIdentity files s = loadIdentity files s' := by
  rw [hs.rest]
  rfl

/-- Two running programs are alike if they have all but the key in common. -/
def Alike (r r' : Running) : Prop :=
  r' = { r with service := { r.service with key := r'.service.key } }

/-- The keys of two settings have the same length, if there are keys in both. -/
def SameLength (read read' : Except SettingsError Settings) : Prop :=
  ∀ s s' key key', read = .ok s → read' = .ok s' → s.key = .ok key → s'.key = .ok key' →
    key.bits = key'.bits

/-- All that a start tells of a key is its length. -/
theorem startingEvent_congr {key key' : Key} (h : key.bits = key'.bits) (suite : Suite)
    (secure : Bool) : startingEvent suite key secure = startingEvent suite key' secure := by
  rw [startingEvent, startingEvent, h]

section

variable (h : env.Alike env') (hwalks : walks = walks' ∨ env.Definite)
include h hwalks

/-- Starts in environments that are alike end alike. If the keys have the same length they also
leave the same ledger. -/
theorem agree_start (l : Ledger) :
    Except.Agree Alike ((start machine env walks).run l).1 ((start machine env' walks').run l).1 ∧
    (SameLength (Settings.ofEnvironment env walks) (Settings.ofEnvironment env' walks') →
      ((start machine env walks).run l).2 = ((start machine env' walks').run l).2) := by
  have hsettings := Settings.agree_ofEnvironment h hwalks
  cases hs : Settings.ofEnvironment env walks with
  | error e =>
    have hs' := hsettings.eq_error_iff.mp hs
    rw [run_start_of_error hs, run_start_of_error hs']
    exact ⟨.error _, fun _ => rfl⟩
  | ok s =>
    obtain ⟨s', hs'⟩ := hsettings.exists_ok_iff.mp ⟨s, hs⟩
    rw [hs, hs'] at hsettings
    have halike := hsettings.of_ok
    obtain ⟨suite, key, address, hsuite, hkey, hsocket⟩ := Settings.exists_of_ofEnvironment hs
    obtain ⟨_, key', _, -, hkey', -⟩ := Settings.exists_of_ofEnvironment hs'
    rw [run_start hs hsuite hkey hsocket,
      run_start hs' (halike.suite_eq ▸ hsuite) hkey' (halike.socket_eq ▸ hsocket), hs',
      chooseFilter_congr h halike, loadIdentity_congr halike, halike.tlsPaths_eq]
    have hevent (hlength : SameLength (.ok s) (.ok s')) :
        startingEvent suite key s'.tlsPaths.isSome =
          startingEvent suite key' s'.tlsPaths.isSome :=
      startingEvent_congr (hlength s s' key key' rfl rfl hkey hkey') _ _
    cases chooseFilter env' s' with
    | error e => exact ⟨.error e, fun _ => rfl⟩
    | ok filter =>
      dsimp only
      cases machine.network.bind ⟨address, s.listenPort⟩ with
      | error reason => exact ⟨.error _, fun hlength => by rw [hevent hlength]⟩
      | ok u =>
        dsimp only
        cases loadIdentity machine.files s' with
        | error e => exact ⟨.error e, fun hlength => by rw [hevent hlength]⟩
        | ok identity =>
          refine ⟨.ok ?_, fun hlength => by rw [hevent hlength]⟩
          rw [Alike, halike.rest]

/-- A run that ends at its start tells the same. -/
theorem perform_congr (entropy : Entropy) (actions : List ClientAction) :
    (Run.perform machine env entropy actions walks).exitCode =
        (Run.perform machine env' entropy actions walks').exitCode ∧
      (Run.perform machine env entropy actions walks).diagnosis =
        (Run.perform machine env' entropy actions walks').diagnosis := by
  obtain ⟨hend, -⟩ := agree_start h hwalks ⟨entropy, [], []⟩
  unfold Run.perform
  generalize (start machine env walks).run ⟨entropy, [], []⟩ = outcome at hend
  generalize (start machine env' walks').run ⟨entropy, [], []⟩ = outcome' at hend
  obtain ⟨result, l⟩ := outcome
  obtain ⟨result', l'⟩ := outcome'
  cases hend with
  | error e => exact ⟨rfl, rfl⟩
  | ok hrunning => exact ⟨rfl, rfl⟩

end

/-- The key does not show at a start. Environments that are equal but for values of the key, which
are keys both or are refused for the same reason, are both accepted or refused with the same report;
accepted settings have the same description; and whatever else goes wrong later on, in both the exit
code and the text on the error stream are the same. In the log two keys differ by their lengths at
most.

The order in which tables are walked may decide which of several mistakes is reported. It is any
order, the same in both runs. In a definite environment the two runs may differ in it as well. -/
theorem start_hides_key (env env' : Environment) (h : env.Alike env') (walks walks' : Walks)
    (hwalks : walks = walks' ∨ env.Definite) :
    ((∃ s, Settings.ofEnvironment env walks = .ok s) ↔
      ∃ s', Settings.ofEnvironment env' walks' = .ok s') ∧
    (∀ e e', Settings.ofEnvironment env walks = .error e →
      Settings.ofEnvironment env' walks' = .error e' → e.report = e'.report) ∧
    (∀ s s', Settings.ofEnvironment env walks = .ok s →
      Settings.ofEnvironment env' walks' = .ok s' → s.describe = s'.describe) ∧
    ∀ machine : Machine,
      (∀ entropy actions,
        (Run.perform machine env entropy actions walks).exitCode =
            (Run.perform machine env' entropy actions walks').exitCode ∧
          (Run.perform machine env entropy actions walks).diagnosis =
            (Run.perform machine env' entropy actions walks').diagnosis) ∧
      ∀ l : Ledger,
        (∀ e, ((start machine env walks).run l).1 = .error e ↔
          ((start machine env' walks').run l).1 = .error e) ∧
        (SameLength (Settings.ofEnvironment env walks) (Settings.ofEnvironment env' walks') →
          ((start machine env walks).run l).2 = ((start machine env' walks').run l).2) := by
  have hsettings := Settings.agree_ofEnvironment h hwalks
  refine ⟨hsettings.exists_ok_iff, ?_, ?_, ?_⟩
  · intro e e' he he'
    have hsame := hsettings.eq_error_iff.mp he
    rw [he'] at hsame
    rw [Except.error.inj hsame]
  · intro s s' hs hs'
    rw [hs, hs'] at hsettings
    exact hsettings.of_ok.describe_eq
  · intro machine
    refine ⟨perform_congr h hwalks, fun l => ?_⟩
    obtain ⟨hend, hledger⟩ := agree_start h hwalks l
    exact ⟨fun e => hend.eq_error_iff, hledger⟩

/-- A key of 16 bytes and one of 24 with a blank in front of it, where both numbers are none and
settings are walked backwards; the same keys where three more things are wrong, walked one way and
the other; and two texts of ten bytes each. -/
theorem start_hides_key_three :
    (∃ e e',
      Settings.ofEnvironment [("AES_KEY", "AAAAAAAAAAAAAAAAAAAAAA=="), ("LISTEN_PORT", "web"),
        ("MAX_BODY_BYTES", "many")] .backwards = .error e ∧
      Settings.ofEnvironment [("AES_KEY", " AQEBAQEBAQEBAQEBAQEBAQEBAQEBAQEB"),
        ("LISTEN_PORT", "web"), ("MAX_BODY_BYTES", "many")] .backwards = .error e' ∧
      e.report = e'.report) ∧
    (∃ e e',
      Settings.ofEnvironment [("AES_KEY", "AAAAAAAAAAAAAAAAAAAAAA=="), ("LISTEN_ADDR", "here"),
        ("TLS_KEY_PATH", "key.pem"), ("MAX_BODY_BYTES", "0")] = .error e ∧
      Settings.ofEnvironment [("AES_KEY", " AQEBAQEBAQEBAQEBAQEBAQEBAQEBAQEB"),
        ("LISTEN_ADDR", "here"), ("TLS_KEY_PATH", "key.pem"), ("MAX_BODY_BYTES", "0")]
          .backwards = .error e' ∧
      e.report = e'.report) ∧
    ∀ machine entropy actions walks,
      (Run.perform machine [("aes_key", "AAAAAAAAAAAAAA==")] entropy actions walks).diagnosis =
        (Run.perform machine [("aes_key", "AQEBAQEBAQEBAQ==")] entropy actions walks).diagnosis :=
  by
  have hkeys : Key.Alike "AAAAAAAAAAAAAAAAAAAAAA==" " AQEBAQEBAQEBAQEBAQEBAQEBAQEBAQEB" := by
    have hkey : Key.ofBase64 "AAAAAAAAAAAAAAAAAAAAAA==" =
        .ok ⟨List.replicate 16 0, by decide⟩ := by rfl
    have hkey' : Key.ofBase64 " AQEBAQEBAQEBAQEBAQEBAQEBAQEBAQEB" =
        .ok ⟨List.replicate 24 1, by decide⟩ := by rfl
    rw [Key.Alike, hkey, hkey']
    exact .ok trivial
  have htexts : Key.Alike "AAAAAAAAAAAAAA==" "AQEBAQEBAQEBAQ==" := by
    have htext : Key.ofBase64 "AAAAAAAAAAAAAA==" = .error (.invalidLength 10) := by rfl
    have htext' : Key.ofBase64 "AQEBAQEBAQEBAQ==" = .error (.invalidLength 10) := by rfl
    rw [Key.Alike, htext, htext']
    exact .error _
  have hname : Environment.lowerName "AES_KEY" = "aes_key" := by decide
  refine ⟨?_, ?_, ?_⟩
  · have halike := Environment.alike_of_value [] [("LISTEN_PORT", "web"),
      ("MAX_BODY_BYTES", "many")] hname hkeys
    refine ⟨.notInteger "max_body_bytes" (.text "many"),
      .notInteger "max_body_bytes" (.text "many"), by rfl, by rfl, ?_⟩
    exact (start_hides_key _ _ halike .backwards .backwards (.inl rfl)).2.1 _ _ (by rfl) (by rfl)
  · have halike := Environment.alike_of_value [] [("LISTEN_ADDR", "here"),
      ("TLS_KEY_PATH", "key.pem"), ("MAX_BODY_BYTES", "0")] hname hkeys
    have hdefinite : Environment.Definite [("AES_KEY", "AAAAAAAAAAAAAAAAAAAAAA=="),
        ("LISTEN_ADDR", "here"), ("TLS_KEY_PATH", "key.pem"), ("MAX_BODY_BYTES", "0")] :=
      ⟨by decide, .inl fun text htext => by cases htext⟩
    refine ⟨.invalidAddress "here", .invalidAddress "here", by rfl, by rfl, ?_⟩
    exact (start_hides_key _ _ halike {} .backwards (.inr hdefinite)).2.1 _ _ (by rfl) (by rfl)
  · intro machine entropy actions walks
    have halike := Environment.alike_of_value [] []
      (show Environment.lowerName "aes_key" = "aes_key" by decide) htexts
    exact (((start_hides_key _ _ halike walks walks (.inl rfl)).2.2.2 machine).1 entropy actions).2

/-- Walked as they were added, the same variables show another mistake first. -/
example : Settings.ofEnvironment [("AES_KEY", "AAAAAAAAAAAAAAAAAAAAAA=="), ("LISTEN_PORT", "web"),
    ("MAX_BODY_BYTES", "many")] = .error (.notInteger "listen_port" (.text "web")) := by
  rfl

end Running

end Sealing
