import Sealing.Proofs.Answering
import Sealing.Proofs.Separation

/-!
# Failures look alike

A client learns from an answer whether its message was accepted, but not which check it failed:
all failures of a message have one answer, and so have all failures of the service. The suites
leave nothing between the two classes: under a usable key every message that cannot be opened is
rejected for what it is, so a client cannot make the service fail.
-/

namespace Sealing

/-- The failures that concern the message itself. -/
theorem SealError.isRejection_iff {e : SealError} : e.isRejection = true ↔
    (∃ reason, e = .decode reason) ∨ e = .authenticationFailed ∨
      ∃ expected actual, e = .malformed expected actual := by
  cases e <;> simp [isRejection]

namespace Suite

variable {key : Bytes} {suite : Suite}

/-- Under a usable key a blob is decrypted unless it is too short for a vector. -/
theorem fst_run_decrypt (suite : Suite) (hk : key.length ∈ Aes.keyLengths) (blob : Bytes)
    (l : Ledger) :
    (∃ p, ((suite.scheme.decrypt key blob).run l).1 = .ok p) ∨
      ((suite.scheme.decrypt key blob).run l).1 = .error (.malformed 16 blob.length) := by
  have hkey := suite.validateKey_eq_ok hk
  by_cases hlength : blob.length < 16
  · have hshort : blob.length < suite.scheme.cipher.vectorLength := by
      rwa [vectorLength_scheme]
    right
    rw [(Scheme.performs_decrypt_short hkey hshort).fst_run, vectorLength_scheme]
  · have hlong : suite.scheme.cipher.vectorLength ≤ blob.length := by
      rw [vectorLength_scheme]
      omega
    have hvector : (blob.take suite.scheme.cipher.vectorLength).length = 16 := by
      rw [List.length_take_of_le hlong, vectorLength_scheme]
    obtain ⟨p, hp, -⟩ :=
      suite.exists_decrypt hk hvector (blob.drop suite.scheme.cipher.vectorLength)
    left
    exact ⟨p, ((Scheme.performs_decrypt hkey hlong).fst_run l).trans hp⟩

/-- Under a usable key a message is opened or rejected. -/
theorem isRejection_of_openMessage (hk : key.length ∈ Aes.keyLengths) {m : SealedMessage}
    {l : Ledger} {e : SealError} (h : ((suite.scheme.openMessage key m).run l).1 = .error e) :
    e.isRejection = true := by
  by_cases hmac : suite.scheme.mac.compute key m.ciphertext = .ok m.tag
  · rw [Scheme.openMessage, Scheme.run_openParts_verified hmac] at h
    rcases suite.fst_run_decrypt hk m.ciphertext _ with ⟨p, hp⟩ | hshort
    · rw [hp] at h
      contradiction
    · rw [hshort] at h
      obtain rfl := Except.error.inj h
      rfl
  · rw [Scheme.openMessage, (Scheme.performs_openParts_mismatch hmac).fst_run] at h
    obtain rfl := Except.error.inj h
    rfl

/-- Under a usable key a text is decoded or rejected. -/
theorem isRejection_of_decodeBytes (hk : key.length ∈ Aes.keyLengths) {text : Bytes} {l : Ledger}
    {e : SealError} (h : ((suite.scheme.decodeBytes key text).run l).1 = .error e) :
    e.isRejection = true := by
  by_cases hunreadable : Scheme.Unreadable text
  · obtain ⟨reason, hparse⟩ := hunreadable.exists_parseSealed_eq
    rw [(Scheme.performs_decodeBytes_rejected hparse).fst_run] at h
    obtain rfl := Except.error.inj h
    rfl
  · obtain ⟨m, hm⟩ := Scheme.exists_contains_of_not_unreadable hunreadable
    rw [Scheme.decodeBytes_of_parseSealed hm.parseSealed_eq] at h
    exact isRejection_of_openMessage hk h

/-- A text is not decoded unless it contains an authentic message. -/
theorem exists_error_of_not_authentic {text : Bytes}
    (h : ∀ m, Scheme.Contains text m → suite.scheme.mac.compute key m.ciphertext ≠ .ok m.tag)
    (l : Ledger) : ∃ e, ((suite.scheme.decodeBytes key text).run l).1 = .error e := by
  by_cases hunreadable : Scheme.Unreadable text
  · obtain ⟨reason, hparse⟩ := hunreadable.exists_parseSealed_eq
    exact ⟨_, (Scheme.performs_decodeBytes_rejected hparse).fst_run l⟩
  · obtain ⟨m, hm⟩ := Scheme.exists_contains_of_not_unreadable hunreadable
    rw [Scheme.decodeBytes_of_parseSealed hm.parseSealed_eq]
    exact ⟨_, (Scheme.performs_openParts_mismatch (h m hm)).fst_run l⟩

end Suite

namespace Service

open Http (Request Response)

variable {s : Service} {r r' : Request} {l l' : Ledger} {e e' : SealError}

/-- The service looks at the body of a request, and cannot open it. -/
structure FailsOpening (s : Service) (l : Ledger) (r : Request) (e : SealError) : Prop where
  opens : s.Opens r
  fails : ((s.sealer.decodeBytes s.key.bytes r.body).run l).1 = .error e

/-- The service looks at the body of a request, and cannot seal it. -/
structure FailsSealing (s : Service) (l : Ledger) (r : Request) (e : SealError) : Prop where
  seals : s.Seals r
  fails : ((s.sealer.encode s.key.bytes r.body).run l).1 = .error e

/-- A failure to open is answered with its rejection, or as internal. -/
theorem FailsOpening.fst_run_answer (h : s.FailsOpening l r e) :
    ((s.answer r).run l).1 = (failed (openingFailure e)).negotiated r := by
  have hrun := run_answer_unopened h.opens (Prod.ext h.fails rfl)
  rw [hrun]

/-- A failure to seal is answered as internal. -/
theorem FailsSealing.fst_run_answer (h : s.FailsSealing l r e) :
    ((s.answer r).run l).1 = (failed (.internal "encryption failed")).negotiated r := by
  have hrun := run_answer_unsealed h.seals (Prod.ext h.fails rfl)
  rw [hrun]

/-- Failures of one class have one answer. -/
theorem FailsOpening.answer_eq (h : s.FailsOpening l r e) (h' : s.FailsOpening l' r' e')
    (hclass : e.isRejection = e'.isRejection) (hheaders : r.headers = r'.headers) :
    ((s.answer r).run l).1 = ((s.answer r').run l').1 := by
  have hfailure : openingFailure e = openingFailure e' := by
    rw [openingFailure, openingFailure, hclass]
  rw [h.fst_run_answer, h'.fst_run_answer, hfailure, Http.negotiated_congr hheaders]

/-- The status tells the class. -/
theorem FailsOpening.status_answer (h : s.FailsOpening l r e) :
    ((s.answer r).run l).1.status = if e.isRejection then 400 else 500 := by
  rw [h.fst_run_answer, Http.status_negotiated, openingFailure]
  split <;> rfl

/-- Failures to seal are answered alike. -/
theorem FailsSealing.answer_eq (h : s.FailsSealing l r e) (h' : s.FailsSealing l' r' e')
    (hheaders : r.headers = r'.headers) :
    ((s.answer r).run l).1 = ((s.answer r').run l').1 := by
  rw [h.fst_run_answer, h'.fst_run_answer, Http.negotiated_congr hheaders]

/-- A failure to seal is answered with 500. -/
theorem FailsSealing.status_answer (h : s.FailsSealing l r e) :
    ((s.answer r).run l).1.status = 500 := by
  rw [h.fst_run_answer, Http.status_negotiated]
  rfl

/-- The service of a suite never fails to open: it rejects. -/
theorem FailsOpening.isRejection {suite : Suite} {k : Key} {limit : Nat}
    (h : (suite.service k limit).FailsOpening l r e) : e.isRejection = true :=
  Suite.isRejection_of_decodeBytes k.length_mem h.fails

/-- A request to open a body is answered by the plaintext, as a rejection, or as too large. -/
theorem status_answer_decrypt (suite : Suite) (k : Key) (limit : Nat)
    (h : Asks r "POST" .decrypt) (l : Ledger) :
    (((suite.service k limit).answer r).run l).1.status ∈ [200, 400, 413] := by
  by_cases hsize : limit < r.body.length
  · rw [run_answer_tooLarge h (by decide) hsize, Http.status_negotiated]
    decide
  · have hopens : (suite.service k limit).Opens r := ⟨h, Nat.not_lt.mp hsize⟩
    cases hrun : ((suite.scheme.decodeBytes k.bytes r.body).run l).1 with
    | error e =>
      have hfails : (suite.service k limit).FailsOpening l r e := ⟨hopens, hrun⟩
      rw [hfails.status_answer, if_pos hfails.isRejection]
      decide
    | ok plaintext =>
      rw [run_answer_opened hopens (Prod.ext hrun rfl), Http.status_negotiated]
      exact List.mem_cons_self

/-- Failures to open have one answer for all rejections and one for all others, and failures to
seal have one answer. Under a suite and a usable key a body without an authentic message is
rejected, whatever cannot be opened is rejected, and so no request to open is answered 500. -/
theorem failures_look_alike :
    (∀ e : SealError, e.isRejection = true ↔ (∃ reason, e = .decode reason) ∨
      e = .authenticationFailed ∨ ∃ expected actual, e = .malformed expected actual) ∧
    (∀ (s : Service) (r r' : Request) (l l' : Ledger) (e e' : SealError),
      s.FailsOpening l r e → s.FailsOpening l' r' e' → r.headers = r'.headers →
      (e.isRejection = true → e'.isRejection = true →
        ((s.answer r).run l).1.status = 400 ∧
          ((s.answer r).run l).1 = ((s.answer r').run l').1) ∧
      (e.isRejection = false → e'.isRejection = false →
        ((s.answer r).run l).1.status = 500 ∧
          ((s.answer r).run l).1 = ((s.answer r').run l').1)) ∧
    (∀ (s : Service) (r r' : Request) (l l' : Ledger) (e e' : SealError),
      s.FailsSealing l r e → s.FailsSealing l' r' e' → r.headers = r'.headers →
      ((s.answer r).run l).1.status = 500 ∧
        ((s.answer r).run l).1 = ((s.answer r').run l').1) ∧
    ∀ (suite : Suite) (k : Key) (limit : Nat) (r : Request) (l : Ledger),
      ((suite.service k limit).Opens r →
        (∀ m, Scheme.Contains r.body m →
          suite.scheme.mac.compute k.bytes m.ciphertext ≠ .ok m.tag) →
        ∃ e, (suite.service k limit).FailsOpening l r e) ∧
      (∀ e, (suite.service k limit).FailsOpening l r e → e.isRejection = true) ∧
      (Asks r "POST" .decrypt → (((suite.service k limit).answer r).run l).1.status ≠ 500) := by
  refine ⟨fun e => SealError.isRejection_iff, ?_, ?_, ?_⟩
  · intro s r r' l l' e e' h h' hheaders
    constructor
    · intro he he'
      exact ⟨by rw [h.status_answer, if_pos he], h.answer_eq h' (he.trans he'.symm) hheaders⟩
    · intro he he'
      have hstatus := h.status_answer
      rw [he] at hstatus
      exact ⟨hstatus, h.answer_eq h' (he.trans he'.symm) hheaders⟩
  · intro s r r' l l' e e' h h' hheaders
    exact ⟨h.status_answer, h.answer_eq h' hheaders⟩
  · intro suite k limit r l
    refine ⟨fun hopens hmac => ?_, fun e h => h.isRejection, fun h hstatus => ?_⟩
    · obtain ⟨e, he⟩ := Suite.exists_error_of_not_authentic hmac l
      exact ⟨e, hopens, he⟩
    · have hmem := status_answer_decrypt suite k limit h l
      rw [hstatus] at hmem
      exact absurd hmem (by decide)

/-- A service that never works, for reasons that depend on the body. -/
def broken : Service where
  sealer :=
    { Suite.default.sealer with
      encode := fun _ plaintext => throw (.randomSource s!"after {plaintext.length} bytes")
      decodeBytes := fun _ text => throw (.invalidKey text.length) }
  key := .zeros
  bodyLimit := 64

/-- An empty object and an empty body are rejected alike, and so are two bodies of which a broken
service can make nothing. -/
theorem failures_look_alike_empty :
    (((Suite.default.service .zeros 64).answer
        ⟨"POST", "/crypto/decrypt", [], Utf8.encode "\x7b\x7d"⟩).run ⟨⟨[], none⟩, [], []⟩).1 =
      (((Suite.default.service .zeros 64).answer
        ⟨"POST", "/crypto/decrypt?again", [], []⟩).run ⟨⟨[1], none⟩, [], []⟩).1 ∧
    ((broken.answer ⟨"POST", "/crypto/decrypt", [], [0]⟩).run ⟨⟨[], none⟩, [], []⟩).1 =
      ((broken.answer ⟨"POST", "/crypto/decrypt", [], []⟩).run ⟨⟨[], none⟩, [], []⟩).1 ∧
    ((broken.answer ⟨"POST", "/crypto/encrypt", [], [0]⟩).run ⟨⟨[], none⟩, [], []⟩).1 =
      ((broken.answer ⟨"POST", "/crypto/encrypt", [], []⟩).run ⟨⟨[], none⟩, [], []⟩).1 := by
  refine ⟨?_, ?_, ?_⟩
  · have hfails (r : Request) (hopens : (Suite.default.service .zeros 64).Opens r)
        {f : Json.Error} (hbody : Envelope.parse r.body = .error f) (l : Ledger) :
        ∃ e, (Suite.default.service .zeros 64).FailsOpening l r e ∧ e.isRejection = true := by
      have hsuite := failures_look_alike.2.2.2 .default .zeros 64 r l
      obtain ⟨e, he⟩ := hsuite.1 hopens fun m hm => absurd (.noEnvelope hbody) hm.not_unreadable
      exact ⟨e, he, hsuite.2.1 e he⟩
    obtain ⟨e, he, hrejection⟩ := hfails ⟨"POST", "/crypto/decrypt", [], Utf8.encode "\x7b\x7d"⟩
      ⟨⟨rfl, by decide⟩, by decide⟩ (by cbv) ⟨⟨[], none⟩, [], []⟩
    obtain ⟨e', he', hrejection'⟩ := hfails ⟨"POST", "/crypto/decrypt?again", [], []⟩
      ⟨⟨rfl, by decide⟩, by decide⟩ (by cbv) ⟨⟨[1], none⟩, [], []⟩
    exact ((failures_look_alike.2.1 _ _ _ _ _ _ _ he he' rfl).1 hrejection hrejection').2
  · have hone : broken.FailsOpening ⟨⟨[], none⟩, [], []⟩
        ⟨"POST", "/crypto/decrypt", [], [0]⟩ (.invalidKey 1) :=
      ⟨⟨⟨rfl, by decide⟩, by decide⟩, rfl⟩
    have hnone : broken.FailsOpening ⟨⟨[], none⟩, [], []⟩
        ⟨"POST", "/crypto/decrypt", [], []⟩ (.invalidKey 0) :=
      ⟨⟨⟨rfl, by decide⟩, by decide⟩, rfl⟩
    exact ((failures_look_alike.2.1 _ _ _ _ _ _ _ hone hnone rfl).2 rfl rfl).2
  · have hone : broken.FailsSealing ⟨⟨[], none⟩, [], []⟩
        ⟨"POST", "/crypto/encrypt", [], [0]⟩ (.randomSource "after 1 bytes") :=
      ⟨⟨⟨rfl, by decide⟩, by decide⟩, rfl⟩
    have hnone : broken.FailsSealing ⟨⟨[], none⟩, [], []⟩
        ⟨"POST", "/crypto/encrypt", [], []⟩ (.randomSource "after 0 bytes") :=
      ⟨⟨⟨rfl, by decide⟩, by decide⟩, rfl⟩
    exact (failures_look_alike.2.2.1 _ _ _ _ _ _ _ hone hnone rfl).2

end Service

end Sealing
