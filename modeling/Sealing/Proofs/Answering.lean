import Sealing.Proofs.Decoding
import Sealing.Service.Routes

/-!
# What the service answers

A request that reaches a route by one of its methods is answered by what the route makes of the
body, and a body beyond the limit is not looked at. What a route makes of a body is said by the run
of the sealer: one law for success and one for failure. Content negotiation adds header fields that
depend on the request's own, and leaves status and body alone.
-/

namespace Sealing

namespace Http

variable {request request' : Request}

@[simp] theorem status_negotiated (request : Request) (response : Response) :
    (response.negotiated request).status = response.status := by
  unfold Response.negotiated
  split <;> rfl

@[simp] theorem body_negotiated (request : Request) (response : Response) :
    (response.negotiated request).body = response.body := by
  unfold Response.negotiated
  split <;> rfl

/-- Requests with the same header fields get a response in the same form. -/
theorem negotiated_congr (h : request.headers = request'.headers) (response : Response) :
    response.negotiated request = response.negotiated request' := by
  simp only [Response.negotiated, h]

/-- A client that names no codings gets no coding. -/
theorem isCoded_negotiated (h : request.headers.values "accept-encoding" = [])
    (response : Response) : (response.negotiated request).isCoded = response.isCoded := by
  have hcoding : Coding.negotiate request.headers = .identity := by
    rw [Coding.negotiate, Preference.ofHeaders, h]
    rfl
  have hvary : ("vary" == "content-encoding") = false := by decide
  unfold Response.negotiated
  split
  · rfl
  · simp only [hcoding, ite_true, Response.isCoded, List.any_append, List.any_cons, List.any_nil,
      hvary, Bool.or_false]

end Http

namespace Service

open Http (Request Response)

variable {s : Service} {r : Request} {route : Route} {method : String} {body : Bytes}
  {l l' : Ledger}

/-- A request asks a route by a method. -/
def Asks (r : Request) (method : String) (route : Route) : Prop :=
  r.method = method ∧ Http.Target.path r.target = route.path

instance : Decidable (Asks r method route) := inferInstanceAs (Decidable (_ ∧ _))

/-- A request whose target is just the path of a route asks that route. -/
theorem asks_path (method : String) (route : Route) (headers : Http.Headers) (body : Bytes) :
    Asks ⟨method, route.path, headers, body⟩ method route := by
  have hpath : Http.Target.path route.path = route.path := by
    cases route <;> decide
  exact ⟨rfl, hpath⟩

/-- A request wants its body sealed, and the body is not too large for that. -/
def Seals (s : Service) (r : Request) : Prop :=
  Asks r "POST" .encrypt ∧ r.body.length ≤ s.bodyLimit

instance : Decidable (s.Seals r) := inferInstanceAs (Decidable (_ ∧ _))

/-- A request wants its body opened, and the body is not too large for that. -/
def Opens (s : Service) (r : Request) : Prop :=
  Asks r "POST" .decrypt ∧ r.body.length ≤ s.bodyLimit

/-- A method of the route leads to what the route makes of the body. -/
theorem answer_of_asks (h : Asks r method route) (hmethod : method ∈ route.methods)
    (hhead : method ≠ "HEAD") :
    s.answer r = (fun response => response.negotiated r) <$> s.perform route r.body := by
  obtain ⟨rfl, hpath⟩ := h
  simp only [answer, hpath, Route.ofPath?_path, dispatch, if_pos hmethod, if_neg hhead]
  rfl

/-- A request to seal is answered with what sealing its body gives. -/
theorem answer_of_seals (h : s.Seals r) :
    s.answer r = (fun response => response.negotiated r) <$> s.sealBody r.body := by
  rw [answer_of_asks h.1 (by decide) (by decide), perform, if_neg (Nat.not_lt.mpr h.2)]

/-- A request to open is answered with what opening its body gives. -/
theorem answer_of_opens (h : s.Opens r) :
    s.answer r = (fun response => response.negotiated r) <$> s.openBody r.body := by
  rw [answer_of_asks h.1 (by decide) (by decide), perform, if_neg (Nat.not_lt.mpr h.2)]

private theorem run_sealBody_eq (s : Service) (body : Bytes) (l : Ledger) :
    (s.sealBody body).run l =
      (match ((s.sealer.encode s.key.bytes body).run l).1 with
        | .ok text => (pure (jsonResponse 200 text) : StateM Ledger Response)
        | .error cause => do
          Ledger.note (failureEvent "encryption failed" cause body)
          pure (failed (.internal "encryption failed"))).run
        ((s.sealer.encode s.key.bytes body).run l).2 := rfl

private theorem run_openBody_eq (s : Service) (body : Bytes) (l : Ledger) :
    (s.openBody body).run l =
      (match ((s.sealer.decodeBytes s.key.bytes body).run l).1 with
        | .ok plaintext =>
          (pure ⟨200, [("content-type", "application/octet-stream")], plaintext⟩ :
            StateM Ledger Response)
        | .error cause => do
          Ledger.note (failureEvent "decryption failed" cause body)
          pure (failed (openingFailure cause))).run
        ((s.sealer.decodeBytes s.key.bytes body).run l).2 := rfl

private theorem run_negotiated (r : Request) (op : StateM Ledger Response) (l : Ledger) :
    ((fun response => response.negotiated r) <$> op).run l =
      ((op.run l).1.negotiated r, (op.run l).2) := rfl

private theorem fst_run_pure (response : Response) (l : Ledger) :
    ((pure response : StateM Ledger Response).run l).1 = response := rfl

/-- A body beyond the limit is not looked at. -/
theorem run_answer_tooLarge (h : Asks r "POST" route) (hroute : "POST" ∈ route.methods)
    (hsize : s.bodyLimit < r.body.length) (l : Ledger) :
    (s.answer r).run l = (tooLarge.negotiated r, l) := by
  rw [answer_of_asks h hroute (by decide), run_negotiated]
  cases route with
  | encrypt => rw [perform, if_pos hsize]; rfl
  | decrypt => rw [perform, if_pos hsize]; rfl
  | health => exact absurd hroute (by decide)

/-- A body that is sealed is answered by its envelope. -/
theorem run_answer_sealed {text : String} (h : s.Seals r)
    (hseal : (s.sealer.encode s.key.bytes r.body).run l = (.ok text, l')) :
    (s.answer r).run l = ((jsonResponse 200 text).negotiated r, l') := by
  rw [answer_of_seals h, run_negotiated, run_sealBody_eq, hseal]
  rfl

/-- A body that cannot be sealed is answered without the cause, which is logged. -/
theorem run_answer_unsealed {e : SealError} (h : s.Seals r)
    (hseal : (s.sealer.encode s.key.bytes r.body).run l = (.error e, l')) :
    (s.answer r).run l = ((failed (.internal "encryption failed")).negotiated r,
      l'.extend [] [failureEvent "encryption failed" e r.body]) := by
  rw [answer_of_seals h, run_negotiated, run_sealBody_eq, hseal, Ledger.extend, List.append_nil]
  rfl

/-- A body that is opened is answered by what was sealed in it. -/
theorem run_answer_opened {plaintext : Bytes} (h : s.Opens r)
    (hopen : (s.sealer.decodeBytes s.key.bytes r.body).run l = (.ok plaintext, l')) :
    (s.answer r).run l = (Response.negotiated r
      ⟨200, [("content-type", "application/octet-stream")], plaintext⟩, l') := by
  rw [answer_of_opens h, run_negotiated, run_openBody_eq, hopen]
  rfl

/-- A body that cannot be opened is answered by the class of the cause, which is logged. -/
theorem run_answer_unopened {e : SealError} (h : s.Opens r)
    (hopen : (s.sealer.decodeBytes s.key.bytes r.body).run l = (.error e, l')) :
    (s.answer r).run l = ((failed (openingFailure e)).negotiated r,
      l'.extend [] [failureEvent "decryption failed" e r.body]) := by
  rw [answer_of_opens h, run_negotiated, run_openBody_eq, hopen, Ledger.extend, List.append_nil]
  rfl

/-- No route puts its response in a content coding by itself. -/
theorem isCoded_perform (s : Service) (route : Route) (body : Bytes) (l : Ledger) :
    ((s.perform route body).run l).1.isCoded = false := by
  cases route with
  | encrypt =>
    by_cases hsize : s.bodyLimit < body.length
    · rw [perform, if_pos hsize]
      rfl
    · rw [perform, if_neg hsize, run_sealBody_eq]
      split <;> rfl
  | decrypt =>
    by_cases hsize : s.bodyLimit < body.length
    · rw [perform, if_pos hsize]
      rfl
    · rw [perform, if_neg hsize, run_openBody_eq]
      split <;> rfl
  | health => rfl

/-- A client that names no codings gets every response as it is. -/
theorem isCoded_answer (h : r.headers.values "accept-encoding" = []) (l : Ledger) :
    ((s.answer r).run l).1.isCoded = false := by
  cases hroute : Route.ofPath? (Http.Target.path r.target) with
  | none =>
    simp only [answer, hroute, fst_run_pure, Http.isCoded_negotiated h]
    rfl
  | some route =>
    have hperform := (Http.isCoded_negotiated h ((s.perform route r.body).run l).1).trans
      (s.isCoded_perform route r.body l)
    by_cases hmethod : r.method ∈ route.methods
    · by_cases hhead : r.method = "HEAD"
      · simp only [answer, hroute, dispatch, if_pos hmethod, if_pos hhead]
        exact hperform
      · simp only [answer, hroute, dispatch, if_pos hmethod, if_neg hhead]
        exact hperform
    · simp only [answer, hroute, dispatch, if_neg hmethod, fst_run_pure,
        Http.isCoded_negotiated h]
      rfl

/-- The service says how it is. -/
theorem run_answer_health (h : Asks r "GET" .health) (l : Ledger) :
    (s.answer r).run l = (s.healthResponse.negotiated r, l) := by
  rw [answer_of_asks h (by decide) (by decide)]
  rfl

end Service

/-- The key of sixteen zero bytes. -/
def Key.zeros : Key := ⟨List.replicate 16 0, by decide⟩

namespace Suite

/-- The service that seals and opens with a suite. -/
def service (suite : Suite) (k : Key) (limit : Nat) : Service := ⟨suite.sealer, k, limit⟩

variable (suite : Suite) (k : Key) (limit : Nat)

@[simp] theorem sealer_service : (suite.service k limit).sealer = suite.sealer := rfl

@[simp] theorem key_service : (suite.service k limit).key = k := rfl

@[simp] theorem bodyLimit_service : (suite.service k limit).bodyLimit = limit := rfl

variable {suite : Suite} {k : Key} {limit : Nat}

/-- On every ledger a text that carries a plaintext is answered by it, exactly if the text is short
enough. -/
theorem answer_of_carries {plaintext : Bytes} {text : String} {r : Http.Request}
    (h : suite.scheme.Carries k.bytes plaintext text) (hr : Service.Asks r "POST" .decrypt)
    (hbody : r.body = Utf8.encode text) (l : Ledger) :
    ((((suite.service k limit).answer r).run l).1.status = 200 ∧
        (((suite.service k limit).answer r).run l).1.body = plaintext ↔ r.body.length ≤ limit) ∧
      ((((suite.service k limit).answer r).run l).1.status = 413 ↔ limit < r.body.length) := by
  by_cases hsize : r.body.length ≤ limit
  · have hdecode : ((suite.scheme.decodeBytes k.bytes r.body).run l).1 = .ok plaintext := by
      rw [hbody]
      exact h.decodeBytes l
    have hnot : ¬limit < r.body.length := Nat.not_lt.mpr hsize
    rw [Service.run_answer_opened ⟨hr, hsize⟩ (Prod.ext hdecode rfl), Http.status_negotiated,
      Http.body_negotiated]
    simp [hsize, hnot]
  · have hlarge : limit < r.body.length := Nat.lt_of_not_le hsize
    rw [Service.run_answer_tooLarge hr (by decide) hlarge, Http.status_negotiated]
    simp [Service.tooLarge, hsize, hlarge]

end Suite

end Sealing
