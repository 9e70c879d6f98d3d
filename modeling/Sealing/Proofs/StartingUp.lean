import Sealing.Proofs.SettingsTable
import Sealing.Startup

/-!
# Starting up with valid settings

Starting up reads suite, key and address from settings that have been validated before. The run of
a start is therefore that of its fallible steps: the settings, the filter, the network and the
identity. Nothing else stops it, and what it starts with is what the settings said, TLS included.
-/

namespace Sealing

namespace Settings

variable {env : Environment} {walks : Walks} {s : Settings}

/-- What is read again from accepted settings is there. -/
theorem exists_of_ofEnvironment (h : ofEnvironment env walks = .ok s) :
    ∃ suite key address, s.suite = .ok suite ∧ s.key = .ok key ∧
      s.socket = .ok ⟨address, s.listenPort⟩ := by
  obtain ⟨-, hvalid⟩ := ofTable_eq_ok_iff.mp h
  obtain ⟨suite, hsuite⟩ := hvalid.exists_suite
  obtain ⟨key, hkey⟩ := hvalid.exists_key
  obtain ⟨address, hsocket⟩ := hvalid.exists_socket
  exact ⟨suite, key, address, hsuite, hkey, hsocket⟩

/-- Accepted settings ask for TLS as soon as the environment sets one path. -/
theorem isSome_tlsPaths_iff (h : ofEnvironment env walks = .ok s) : s.tlsPaths.isSome ↔
    env.Sets "tls_cert_path" ∨ env.Sets "tls_key_path" := by
  obtain ⟨-, hvalid⟩ := ofTable_eq_ok_iff.mp h
  obtain ⟨hcert, hkey⟩ := isSome_paths_of_ofEnvironment h
  rw [← hcert, ← hkey, Option.isSome_iff_ne_none, ne_eq, hvalid.tlsPaths_eq_none_iff,
    not_and_or, Option.isSome_iff_ne_none, Option.isSome_iff_ne_none]

end Settings

namespace Running

variable {α β : Type} {machine : Machine} {env : Environment} {walks : Walks} {s : Settings}
  {l : Ledger}

/-! ## The run of a start -/

private theorem run_lift_bind {x : Except StartError α} {f : α → Start β} :
    ((liftM x : Start α) >>= f).run l =
      match x with
      | .error e => (.error e, l)
      | .ok a => (f a).run l := by
  cases x <;> rfl

private theorem run_note_bind {x : StateM Ledger α} {f : α → Start β} :
    ((liftM x : Start α) >>= f).run l = (f (x.run l).1).run (x.run l).2 := rfl

/-- Settings that are refused stop the start before anything else. -/
theorem run_start_of_error {e : SettingsError} (h : Settings.ofEnvironment env walks = .error e) :
    (start machine env walks).run l = (.error (.settings e), l) := by
  rw [start, run_lift_bind, h]
  rfl

/-- With accepted settings there are three steps left that may fail. -/
theorem run_start {suite : Suite} {key : Key} {socket : Net.Socket}
    (h : Settings.ofEnvironment env walks = .ok s) (hsuite : s.suite = .ok suite)
    (hkey : s.key = .ok key) (hsocket : s.socket = .ok socket) :
    (start machine env walks).run l =
      match chooseFilter env s with
      | .error e => (.error e, l)
      | .ok filter =>
        let told := ((announce filter (startingEvent suite key s.tlsPaths.isSome)).run l).2
        match machine.network.bind socket with
        | .error reason => (.error (.bind socket reason), told)
        | .ok () =>
          let listening := ((announce filter (listeningEvent socket)).run told).2
          match loadIdentity machine.files s with
          | .error e => (.error e, listening)
          | .ok identity =>
            (.ok ⟨⟨suite.sealer, key, s.maxBodyBytes.toNat⟩, socket, identity, filter⟩,
              listening) := by
  rw [start, run_lift_bind, h]
  simp only [Except.mapError, run_lift_bind, run_note_bind, hsuite, hkey, hsocket]
  cases chooseFilter env s with
  | error e => rfl
  | ok filter =>
    dsimp only
    cases machine.network.bind socket with
    | error reason => rfl
    | ok u =>
      cases loadIdentity machine.files s with
      | error e => rfl
      | ok identity => rfl

/-! ## How a start ends -/

/-- The ends of a start. Settings that have been accepted and turn out not to be usable are none
of them. -/
inductive Ends (machine : Machine) (env : Environment) (walks : Walks) :
    Except StartError Running → Prop
  | settings {e : SettingsError} : Settings.ofEnvironment env walks = .error e →
      Ends machine env walks (.error (.settings e))
  | filter {s : Settings} {e : Log.FilterError} : Settings.ofEnvironment env walks = .ok s →
      Log.Filter.parse s.logLevel = .error e →
      Ends machine env walks (.error (.filter s.logLevel e))
  | bind {s : Settings} {socket : Net.Socket} {reason : String} :
      Settings.ofEnvironment env walks = .ok s → s.socket = .ok socket →
      machine.network.bind socket = .error reason →
      Ends machine env walks (.error (.bind socket reason))
  | tls {s : Settings} {cert key : String} {e : Tls.TlsError} :
      Settings.ofEnvironment env walks = .ok s → s.tlsPaths = some (cert, key) →
      Tls.Identity.load machine.files cert key = .error e → Ends machine env walks (.error (.tls e))
  | running {s : Settings} {suite : Suite} {running : Running} :
      Settings.ofEnvironment env walks = .ok s → s.suite = .ok suite →
      running.service.sealer = suite.sealer → s.key = .ok running.service.key →
      s.socket = .ok running.socket → loadIdentity machine.files s = .ok running.identity →
      Ends machine env walks (.ok running)

/-- If there is no filter, the log level is to blame. -/
theorem chooseFilter_eq_error {e : StartError} (h : chooseFilter env s = .error e) :
    ∃ f, Log.Filter.parse s.logLevel = .error f ∧ .filter s.logLevel f = e := by
  rw [chooseFilter] at h
  split at h
  · cases h
  · exact Except.mapError_eq_error_iff.mp h

private theorem loadIdentity_of_none {files : Tls.Files} (h : s.tlsPaths = none) :
    loadIdentity files s = .ok none := by
  rw [loadIdentity, h]

private theorem loadIdentity_of_some {files : Tls.Files} {cert key : String}
    (h : s.tlsPaths = some (cert, key)) : loadIdentity files s =
      ((Tls.Identity.load files cert key).map some).mapError .tls := by
  rw [loadIdentity, h]

private theorem loadIdentity_eq_error {files : Tls.Files} {e : StartError}
    (h : loadIdentity files s = .error e) :
    ∃ cert key f, s.tlsPaths = some (cert, key) ∧ Tls.Identity.load files cert key = .error f ∧
      .tls f = e := by
  rcases hpaths : s.tlsPaths with _ | ⟨cert, key⟩
  · rw [loadIdentity_of_none hpaths] at h
    cases h
  · rw [loadIdentity_of_some hpaths] at h
    obtain ⟨f, hf, he⟩ := Except.mapError_eq_error_iff.mp h
    exact ⟨cert, key, f, rfl, Except.map_eq_error_iff.mp hf, he⟩

/-- There is an identity exactly where one is asked for. -/
theorem isSome_identity_iff {files : Tls.Files} {identity : Option Tls.Identity}
    (h : loadIdentity files s = .ok identity) : identity.isSome ↔ s.tlsPaths.isSome := by
  rcases hpaths : s.tlsPaths with _ | ⟨cert, key⟩
  · rw [loadIdentity_of_none hpaths] at h
    obtain rfl := Except.ok.inj h
    rfl
  · rw [loadIdentity_of_some hpaths, Except.mapError_eq_ok_iff, Except.map_eq_ok_iff] at h
    obtain ⟨loaded, -, rfl⟩ := h
    rfl

/-- Every start has one of the ends. -/
theorem ends_start (machine : Machine) (env : Environment) (walks : Walks) (l : Ledger) :
    Ends machine env walks ((start machine env walks).run l).1 := by
  cases hs : Settings.ofEnvironment env walks with
  | error e =>
    rw [run_start_of_error hs]
    exact .settings hs
  | ok s =>
    obtain ⟨suite, key, address, hsuite, hkey, hsocket⟩ := Settings.exists_of_ofEnvironment hs
    rw [run_start hs hsuite hkey hsocket]
    cases hfilter : chooseFilter env s with
    | error e =>
      obtain ⟨f, hparse, rfl⟩ := chooseFilter_eq_error hfilter
      exact .filter hs hparse
    | ok filter =>
      dsimp only
      cases hbind : machine.network.bind ⟨address, s.listenPort⟩ with
      | error reason => exact .bind hs hsocket hbind
      | ok u =>
        dsimp only
        cases hidentity : loadIdentity machine.files s with
        | error e =>
          obtain ⟨cert, key, f, hpaths, hload, rfl⟩ := loadIdentity_eq_error hidentity
          exact .tls hs hpaths hload
        | ok identity => exact .running hs hsuite rfl hkey hsocket hidentity

/-- What has passed its check is usable. -/
theorem start_ne_unusable {e : SettingsError} :
    ((start machine env walks).run l).1 ≠ .error (.unusable e) := by
  intro h
  have hends := ends_start machine env walks l
  rw [h] at hends
  cases hends

/-- A started program speaks TLS exactly if the environment names a path for it. -/
theorem isSome_identity_of_start {running : Running}
    (h : ((start machine env walks).run l).1 = .ok running) : running.identity.isSome ↔
      env.Sets "tls_cert_path" ∨ env.Sets "tls_key_path" := by
  have hends := ends_start machine env walks l
  rw [h] at hends
  cases hends with
  | running hs _ _ _ _ hidentity =>
    rw [isSome_identity_iff hidentity, Settings.isSome_tlsPaths_iff hs]

end Running

namespace Settings

/-- What validation promises. It passes exactly the valid settings, and of others it tells the
first thing that is wrong. Settings that an environment is accepted with give a suite, a key and
an address whenever they are asked, and TLS as soon as one path is set. So no start fails for a
setting that has been accepted, and none speaks plainly if there is a path. -/
theorem accepted_settings_stay_usable :
    (∀ s : Settings, s.validate = .ok () ↔ s.Valid) ∧
    (∀ (s : Settings) (e : SettingsError), s.validate = .error e ↔
      ∃ before c after, Check.all = before ++ c :: after ∧ s.Fault c e ∧
        ∀ d ∈ before, ∀ f, ¬s.Fault d f) ∧
    (∀ (env : Environment) (walks : Walks) (s : Settings), ofEnvironment env walks = .ok s →
      (∃ suite key address, s.suite = .ok suite ∧ Suite.parse suite.sealer.suite = .ok suite ∧
        s.key = .ok key ∧ key.bytes ≠ [] ∧ s.socket = .ok ⟨address, s.listenPort⟩) ∧
      (env.Sets "tls_cert_path" ∨ env.Sets "tls_key_path" →
        s.tlsPaths.isSome)) ∧
    (∀ (machine : Machine) (env : Environment) (walks : Walks) (l : Ledger),
      (∀ e, ((Running.start machine env walks).run l).1 ≠ .error (.unusable e)) ∧
      ∀ running, ((Running.start machine env walks).run l).1 = .ok running →
        running.service.key.bytes ≠ [] ∧
        (env.Sets "tls_cert_path" ∨ env.Sets "tls_key_path" →
          running.identity.isSome)) := by
  refine ⟨fun s => validate_eq_ok_iff, fun s e => validate_eq_error_iff, ?_, ?_⟩
  · intro env walks s h
    obtain ⟨suite, key, address, hsuite, hkey, hsocket⟩ := exists_of_ofEnvironment h
    constructor
    · exact ⟨suite, key, address, hsuite, suite.parse_sealer, hkey, key.bytes_ne_nil, hsocket⟩
    · exact (isSome_tlsPaths_iff h).mpr
  · intro machine env walks l
    constructor
    · intro e
      exact Running.start_ne_unusable
    · intro running h
      exact ⟨running.service.key.bytes_ne_nil, (Running.isSome_identity_of_start h).mpr⟩

/-- An environment with two paths, and one with none in which the program starts. -/
theorem accepted_settings_stay_usable_paired :
    (∃ s, ofEnvironment [("AES_KEY", " AAAAAAAAAAAAAAAAAAAAAA== "), ("TLS_CERT_PATH", "cert.pem"),
      ("TLS_KEY_PATH", "key.pem")] = .ok s ∧ s.tlsPaths.isSome ∧ ∃ key, s.key = .ok key) ∧
    ∃ running, ((Running.start ⟨fun _ => .error "", Net.Network.loopback⟩
      [("AES_KEY", "AAAAAAAAAAAAAAAAAAAAAA==")]).run ⟨⟨[], none⟩, [], []⟩).1 = .ok running ∧
        running.service.key.bytes ≠ [] := by
  obtain ⟨-, -, haccepted, hstart⟩ := accepted_settings_stay_usable
  constructor
  · have h : ofEnvironment [("AES_KEY", " AAAAAAAAAAAAAAAAAAAAAA== "),
        ("TLS_CERT_PATH", "cert.pem"), ("TLS_KEY_PATH", "key.pem")] = .ok {
          aesKey := " AAAAAAAAAAAAAAAAAAAAAA== "
          tlsCertPath := some "cert.pem"
          tlsKeyPath := some "key.pem" } := by rfl
    obtain ⟨⟨suite, key, address, -, -, hkey, -⟩, htls⟩ := haccepted _ _ _ h
    exact ⟨_, h, htls (.inl ⟨("TLS_CERT_PATH", "cert.pem"), by decide, by rfl⟩), key, hkey⟩
  · obtain ⟨running, h⟩ : ∃ running, ((Running.start ⟨fun _ => .error "", Net.Network.loopback⟩
        [("AES_KEY", "AAAAAAAAAAAAAAAAAAAAAA==")]).run ⟨⟨[], none⟩, [], []⟩).1 = .ok running :=
      ⟨_, by rfl⟩
    obtain ⟨-, hrunning⟩ := hstart _ _ _ _
    exact ⟨running, h, (hrunning running h).1⟩

end Settings

end Sealing
