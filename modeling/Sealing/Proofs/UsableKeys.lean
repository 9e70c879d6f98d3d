import Mathlib.Data.List.TFAE
import Mathlib.Tactic.TFAE
import Sealing.Proofs.History
import Sealing.Proofs.KeyText

/-!
# Usable keys

The ciphers and the settings have one notion of a usable key: its length. A key that is loaded is
therefore never refused later on, and what can still go wrong is known: sealing fails for want of
random bytes only, and opening because of what is opened.
-/

namespace Sealing

namespace Aes

variable {key vector data : Bytes} {run : Bytes → Bytes → Bytes → Except SealError Bytes}

/-- The ways of running AES on data under a key and a vector. -/
def runs : List (Bytes → Bytes → Bytes → Except SealError Bytes) :=
  [aesCfb.encrypt, aesCfb.decrypt, aesCfb8.encrypt, aesCfb8.decrypt]

/-- All of them put a block function under the key to some use. -/
theorem exists_withBlock (hrun : run ∈ runs) (key vector data : Bytes) :
    ∃ use, run key vector data = withBlock key vector use := by
  simp only [runs, List.mem_cons, List.not_mem_nil, or_false] at hrun
  rcases hrun with rfl | rfl | rfl | rfl
  · exact ⟨fun image register => FeedbackMode.full.encrypt image register data, rfl⟩
  · exact ⟨fun image register => FeedbackMode.full.decrypt image register data, rfl⟩
  · exact ⟨fun image register => FeedbackMode.byte.encrypt image register data, rfl⟩
  · exact ⟨fun image register => FeedbackMode.byte.decrypt image register data, rfl⟩

/-- A key of the right length can be run, with a vector of the size of a block. -/
theorem exists_run_eq_ok (hrun : run ∈ runs) (hk : key.length ∈ keyLengths)
    (hv : vector.length = Block.size) : ∃ out, run key vector data = .ok out := by
  obtain ⟨use, huse⟩ := exists_withBlock hrun key vector data
  exact ⟨_, huse.trans (if_pos ⟨hk, hv⟩)⟩

/-- A key of another length is reported with its length. -/
theorem run_eq_error (hrun : run ∈ runs) (hk : key.length ∉ keyLengths) :
    run key vector data = .error (.invalidKey key.length) := by
  obtain ⟨use, huse⟩ := exists_withBlock hrun key vector data
  exact huse.trans (if_neg fun h => hk h.1)

/-- A key of another length is reported with it. -/
theorem validateKey_eq_error (hk : key.length ∉ keyLengths) :
    validateKey key = .error (.invalidKey key.length) :=
  if_neg hk

/-- To be accepted, to be run and to be loaded are all the same for a key: its length decides. -/
theorem usable_tfae (key data : Bytes) (hv : vector.length = Block.size) :
    List.TFAE [aesCfb.validateKey key = .ok (), aesCfb8.validateKey key = .ok (),
      ∀ run ∈ runs, ∃ out, run key vector data = .ok out,
      ∃ k, Key.ofBase64 (Base64.encode key) = .ok k ∧ k.bytes = key,
      key.length ∈ keyLengths] := by
  tfae_have 1 ↔ 5 := validateKey_eq_ok_iff
  tfae_have 2 ↔ 5 := validateKey_eq_ok_iff
  tfae_have 4 ↔ 5 := Key.exists_ofBase64_encode_iff
  tfae_have 5 → 3 := fun hk run hrun => exists_run_eq_ok hrun hk hv
  tfae_have 3 → 5 := by
    intro h
    obtain ⟨out, hout⟩ := h aesCfb.encrypt (List.mem_cons_self)
    exact (encrypt_inMode_eq_ok_iff.mp hout).1.1
  tfae_finish

end Aes

namespace Suite

variable {suite : Suite} {k : Key} {plaintext ciphertext tag text : Bytes} {l : Ledger}
  {e : SealError}

/-- Under a usable key sealing fails only if no vector can be drawn. -/
theorem exists_draw_of_sealMessage
    (h : ((suite.sealer.sealMessage k.bytes plaintext).run l).1 = .error e) :
    ∃ text, e = .randomSource text ∧ (l.entropy.draw 16).1 = .error text := by
  by_cases hl : l.entropy.Holds 16
  · obtain ⟨m, after, hround⟩ := suite.exists_roundTrip k.length_mem hl plaintext
    have hok : ((suite.sealer.sealMessage k.bytes plaintext).run l).1 = .ok m :=
      congrArg Prod.fst hround.sealed
    rw [hok] at h
    contradiction
  · obtain ⟨text, hdraw⟩ := Entropy.exists_draw_eq hl
    have hstarved : (suite.scheme.encrypt k.bytes plaintext).run l = _ :=
      Scheme.run_encrypt_starved (suite.validateKey_eq_ok k.length_mem)
        (suite.vectorLength_scheme.symm ▸ hdraw)
    have herror : ((suite.sealer.sealMessage k.bytes plaintext).run l).1 =
        .error (.randomSource text) :=
      congrArg Prod.fst (Scheme.run_sealMessage_error hstarved)
    rw [herror] at h
    exact ⟨text, (Except.error.inj h).symm, congrArg Prod.fst hdraw⟩

/-- Writing the envelope adds no failure. -/
theorem exists_draw_of_encode
    (h : ((suite.sealer.encode k.bytes plaintext).run l).1 = .error e) :
    ∃ text, e = .randomSource text ∧ (l.entropy.draw 16).1 = .error text := by
  rcases hseal : (suite.scheme.sealMessage k.bytes plaintext).run l with ⟨f | m, after⟩
  · have hencode : ((suite.sealer.encode k.bytes plaintext).run l).1 = .error f :=
      congrArg Prod.fst (Op.run_bind_error hseal _)
    rw [hencode] at h
    obtain rfl := Except.error.inj h
    exact exists_draw_of_sealMessage (congrArg Prod.fst hseal)
  · have hencode : ((suite.sealer.encode k.bytes plaintext).run l).1 = .ok m.toEnvelope.render :=
      congrArg Prod.fst (Scheme.run_encode hseal)
    rw [hencode] at h
    contradiction

/-- Under a usable key opening fails if the tag does not verify, or if there is no vector. -/
theorem error_of_openParts
    (h : ((suite.sealer.openParts k.bytes ciphertext tag).run l).1 = .error e) :
    e = .authenticationFailed ∨ e = .malformed 16 ciphertext.length := by
  by_cases hmac : suite.scheme.mac.compute k.bytes ciphertext = .ok tag
  · have hopen : ((suite.sealer.openParts k.bytes ciphertext tag).run l).1 =
        ((suite.scheme.decrypt k.bytes ciphertext).run _).1 :=
      congrArg Prod.fst (Scheme.run_openParts_verified hmac l)
    rw [hopen] at h
    rcases suite.fst_run_decrypt k.length_mem ciphertext _ with ⟨p, hp⟩ | hshort
    · rw [hp] at h
      contradiction
    · rw [hshort] at h
      exact .inr (Except.error.inj h).symm
  · have hopen : ((suite.sealer.openParts k.bytes ciphertext tag).run l).1 =
        .error .authenticationFailed :=
      (Scheme.performs_openParts_mismatch hmac).fst_run l
    rw [hopen] at h
    exact .inl (Except.error.inj h).symm

/-- The service fails to seal a body exactly if no vector can be drawn. -/
theorem status_answer_eq_iff {limit : Nat} {r : Http.Request}
    (hr : (suite.service k limit).Seals r) :
    (((suite.service k limit).answer r).run l).1.status = 500 ↔
      ∃ text, (l.entropy.draw 16).1 = .error text := by
  rcases hrun : ((suite.service k limit).answer r).run l with ⟨response, after⟩
  by_cases hl : l.entropy.Holds 16
  · have hstatus := (Service.issues_of_holds hr hl hrun).1
    simp [hstatus, hl.draw_eq]
  · have hstatus := (Service.fails_of_not_holds hr hl hrun).2.1
    obtain ⟨text, hdraw⟩ := Entropy.exists_draw_eq hl
    simp [hstatus, hdraw]

end Suite

/-- A key is accepted by both ciphers, run by them in both directions and loaded by the settings
exactly if it has one of the three lengths, and is otherwise reported with its length. So under a
key that has been loaded only the random source can keep a suite from sealing, and only what is
opened can keep it from opening. -/
theorem usable_keys_never_fail :
    (∀ key vector data : Bytes, vector.length = 16 →
      List.TFAE [aesCfb.validateKey key = .ok (), aesCfb8.validateKey key = .ok (),
        ∀ run ∈ Aes.runs, ∃ out, run key vector data = .ok out,
        ∃ k, Key.ofBase64 (Base64.encode key) = .ok k ∧ k.bytes = key,
        key.length ∈ Aes.keyLengths] ∧
      (key.length ∉ Aes.keyLengths →
        aesCfb.validateKey key = .error (.invalidKey key.length) ∧
        aesCfb8.validateKey key = .error (.invalidKey key.length) ∧
        ∀ run ∈ Aes.runs, run key vector data = .error (.invalidKey key.length))) ∧
    ∀ (suite : Suite) (k : Key) (l : Ledger) (e : SealError),
      (∀ plaintext, ((suite.sealer.sealMessage k.bytes plaintext).run l).1 = .error e →
        ∃ text, e = .randomSource text ∧ (l.entropy.draw 16).1 = .error text) ∧
      (∀ plaintext, ((suite.sealer.encode k.bytes plaintext).run l).1 = .error e →
        ∃ text, e = .randomSource text ∧ (l.entropy.draw 16).1 = .error text) ∧
      (∀ ciphertext tag, ((suite.sealer.openParts k.bytes ciphertext tag).run l).1 = .error e →
        e = .authenticationFailed ∨ e = .malformed 16 ciphertext.length) ∧
      (∀ text, ((suite.sealer.decodeBytes k.bytes text).run l).1 = .error e →
        (∃ reason, e = .decode reason) ∨ e = .authenticationFailed ∨
          ∃ expected actual, e = .malformed expected actual) ∧
      ∀ (limit : Nat) (r : Http.Request), (suite.service k limit).Seals r →
        ((((suite.service k limit).answer r).run l).1.status = 500 ↔
          ∃ text, (l.entropy.draw 16).1 = .error text) := by
  constructor
  · intro key vector data hv
    refine ⟨Aes.usable_tfae key data hv, fun hk => ?_⟩
    exact ⟨Aes.validateKey_eq_error hk, Aes.validateKey_eq_error hk,
      fun run hrun => Aes.run_eq_error hrun hk⟩
  · intro suite k l e
    refine ⟨fun plaintext h => Suite.exists_draw_of_sealMessage h,
      fun plaintext h => Suite.exists_draw_of_encode h,
      fun ciphertext tag h => Suite.error_of_openParts h, fun text h => ?_,
      fun limit r hr => Suite.status_answer_eq_iff hr⟩
    exact SealError.isRejection_iff.mp (Suite.isRejection_of_decodeBytes k.length_mem h)

/-- Twenty-four bytes are a key and seventeen are none. Under the former a service fails to seal if
its source is a byte short of a vector. -/
theorem usable_keys_never_fail_seventeen :
    (∀ run ∈ Aes.runs, ∃ out, run (List.replicate 24 1) (List.replicate 16 0) [2, 3] = .ok out) ∧
    (∀ run ∈ Aes.runs,
      run (List.replicate 17 1) (List.replicate 16 0) [2, 3] = .error (.invalidKey 17)) ∧
    (((Suite.default.service ⟨List.replicate 24 1, by decide⟩ 64).answer
      ⟨"POST", "/crypto/encrypt", [], [2, 3]⟩).run ⟨⟨List.replicate 15 0, none⟩, [], []⟩).1.status =
        500 := by
  have hkey := usable_keys_never_fail.1 (List.replicate 24 1) (List.replicate 16 0) [2, 3] rfl
  have hnone := usable_keys_never_fail.1 (List.replicate 17 1) (List.replicate 16 0) [2, 3] rfl
  have hservice := usable_keys_never_fail.2 Suite.default ⟨List.replicate 24 1, by decide⟩
    ⟨⟨List.replicate 15 0, none⟩, [], []⟩ .authenticationFailed
  refine ⟨?_, (hnone.2 (by decide)).2.2, ?_⟩
  · exact (hkey.1.out 4 2).mp (by decide)
  · exact (hservice.2.2.2.2 64 _ ⟨Service.asks_path "POST" .encrypt [] [2, 3], by decide⟩).mpr
      ⟨_, rfl⟩

end Sealing
