import Sealing.Proofs.Rejection

/-!
# Histories of a service

A service answers requests one after another from one random source. What a request can do to the
source is said once, by cases: a body that is sealed takes one vector, and everything else takes
nothing. Along a history the vectors are therefore the consecutive pieces of the source, what is
left of it is known, and an envelope that was issued opens for good, because opening depends on
nothing that a request can change.
-/

namespace Sealing

namespace Entropy

/-- The source after so many bytes have been taken. -/
def skip (source : Entropy) (count : Nat) : Entropy :=
  { source with available := source.available.drop count }

@[simp] theorem available_skip (source : Entropy) (count : Nat) :
    (source.skip count).available = source.available.drop count := rfl

@[simp] theorem skip_skip (source : Entropy) (count more : Nat) :
    (source.skip count).skip more = source.skip (count + more) := by
  rw [skip, skip, skip, List.drop_drop]

/-- The vectors that a source holds, counted from zero. -/
def piece (source : Entropy) (i : Nat) : Bytes := (source.available.drop (16 * i)).take 16

/-- The first vector of what is left is the next one of the whole. -/
theorem piece_zero_skip (source : Entropy) (i : Nat) :
    (source.skip (16 * i)).piece 0 = source.piece i := rfl

/-- A piece has sixteen bytes, if the source has that many left. -/
theorem length_piece {source : Entropy} {i : Nat} (h : 16 * (i + 1) ≤ source.available.length) :
    (source.piece i).length = 16 := by
  rw [piece, List.length_take, List.length_drop]
  omega

/-- A source that does not hold so many bytes fails to deliver them, and keeps what it has. -/
theorem exists_draw_eq {source : Entropy} {count : Nat} (h : ¬source.Holds count) :
    ∃ text, source.draw count = (.error text, source) := by
  cases hfailure : source.failure with
  | some text => exact ⟨text, by simp only [draw, hfailure]⟩
  | none =>
    have hlength : source.available.length < count :=
      Nat.lt_of_not_le fun hle => h ⟨hfailure, hle⟩
    exact ⟨_, by simp only [draw, hfailure, if_pos hlength]; rfl⟩

end Entropy

/-- Sealing under a source that does not hold a vector fails, and keeps the source. -/
theorem Scheme.run_encode_starved {s : Scheme} {key plaintext : Bytes} {l : Ledger}
    (hk : s.cipher.validateKey key = .ok ())
    (hl : ¬l.entropy.Holds s.cipher.vectorLength) :
    ∃ e after, (s.encode key plaintext).run l = (.error e, after) ∧
      after.entropy = l.entropy := by
  obtain ⟨text, hdraw⟩ := Entropy.exists_draw_eq hl
  have hencrypt : (s.encrypt key plaintext).run l = _ := run_encrypt_starved hk hdraw
  have hseal : (s.sealMessage key plaintext).run l = _ := run_sealMessage_error hencrypt
  exact ⟨_, _, Op.run_bind_error hseal _, rfl⟩

/-- Sealing takes exactly one vector. -/
theorem Scheme.RoundTrip.entropy_eq {s : Scheme} {key plaintext : Bytes} {l after : Ledger}
    {m : SealedMessage} (h : s.RoundTrip key plaintext l m after)
    (hl : l.entropy.Holds s.cipher.vectorLength) :
    after.entropy = l.entropy.skip s.cipher.vectorLength := by
  obtain ⟨vector, rest, hdraw, -, rfl⟩ := run_sealMessage_eq_ok_iff.mp h.sealed
  rw [hl.draw_eq] at hdraw
  exact (Prod.mk.inj hdraw).2.symm

namespace Service

open Http (Request Response)

/-- No two paths have the same route. -/
theorem Route.ofPath?_eq_some_iff {path : String} {route : Route} :
    ofPath? path = some route ↔ path = route.path := by
  constructor
  · intro h
    have hpath := List.find?_some h
    exact (eq_of_beq hpath).symm
  · rintro rfl
    exact ofPath?_path route

/-- An operation is steady if it has one response on every ledger and leaves the source alone. -/
def Steady (op : StateM Ledger Response) : Prop :=
  ∃ response calls events, ∀ l, op.run l = (response, l.extend calls events)

/-- A response that uses nothing is steady. -/
theorem steady_pure (response : Response) : Steady (pure response) :=
  ⟨response, [], [], fun l => by rw [l.extend_nil]; rfl⟩

/-- A request and the response to it. -/
structure Exchange where
  request : Request
  response : Response

/-- What an exchange has issued: the envelope of a message that starts with a vector, and that
opens to the body of the request. -/
structure Issues (suite : Suite) (k : Key) (vector : Bytes) (e : Exchange) (m : SealedMessage) :
    Prop where
  body : e.response.body = Utf8.encode m.toEnvelope.render
  vector : m.ciphertext.take 16 = vector
  length_ciphertext : m.ciphertext.length = 16 + e.request.body.length
  length_tag : m.tag.length = suite.sealer.tagLength
  carries : suite.scheme.Carries k.bytes e.request.body m.toEnvelope.render

section Steps

variable {suite : Suite} {k : Key} {limit : Nat} {r : Request} {l : Ledger}

/-- Opening is steady. -/
theorem steady_of_opens (h : (suite.service k limit).Opens r) :
    Steady ((suite.service k limit).answer r) := by
  obtain ⟨result, calls, events, hdecode⟩ := suite.scheme.decodeBytes_performs k.bytes r.body
  cases result with
  | ok plaintext => exact ⟨_, calls, events, fun l => run_answer_opened h (hdecode l)⟩
  | error e =>
    refine ⟨(failed (openingFailure e)).negotiated r, calls,
      events ++ [failureEvent "decryption failed" e r.body], fun l => ?_⟩
    rw [run_answer_unopened h (hdecode l), Ledger.extend_extend, List.append_nil]

/-- Every request that does not lead to sealing is answered on its own. -/
theorem steady_answer (h : ¬(suite.service k limit).Seals r) :
    Steady ((suite.service k limit).answer r) := by
  have htooLarge {route : Route} (hasks : Asks r "POST" route) (hroute : "POST" ∈ route.methods)
      (hsize : limit < r.body.length) : Steady ((suite.service k limit).answer r) := by
    refine ⟨tooLarge.negotiated r, [], [], fun l => ?_⟩
    rw [run_answer_tooLarge hasks hroute hsize, l.extend_nil]
  cases hroute : Route.ofPath? (Http.Target.path r.target) with
  | none =>
    rw [answer, hroute]
    exact steady_pure _
  | some route =>
    have hpath := Route.ofPath?_eq_some_iff.mp hroute
    by_cases hmethod : r.method ∈ route.methods
    · cases route with
      | encrypt =>
        have hasks : Asks r "POST" .encrypt := ⟨List.mem_singleton.mp hmethod, hpath⟩
        exact htooLarge hasks (by decide) (Nat.lt_of_not_le fun hle => h ⟨hasks, hle⟩)
      | decrypt =>
        have hasks : Asks r "POST" .decrypt := ⟨List.mem_singleton.mp hmethod, hpath⟩
        by_cases hsize : r.body.length ≤ limit
        · exact steady_of_opens ⟨hasks, hsize⟩
        · exact htooLarge hasks (by decide) (Nat.lt_of_not_le hsize)
      | health =>
        simp only [answer, hroute, dispatch, if_pos hmethod]
        exact steady_pure _
    · simp only [answer, hroute, dispatch, if_neg hmethod]
      exact steady_pure _

/-- As long as the source holds a vector a body is sealed under the next one. -/
theorem issues_of_holds {response : Response} {after : Ledger}
    (h : (suite.service k limit).Seals r) (hl : l.entropy.Holds 16)
    (hrun : ((suite.service k limit).answer r).run l = (response, after)) :
    response.status = 200 ∧ after.entropy = l.entropy.skip 16 ∧
      ∃ m, Issues suite k (l.entropy.piece 0) ⟨r, response⟩ m := by
  obtain ⟨m, l', hround⟩ := suite.exists_roundTrip k.length_mem hl r.body
  have hsealed := run_answer_sealed h (Scheme.run_encode hround.sealed)
  obtain ⟨rfl, rfl⟩ := Prod.mk.inj (hsealed.symm.trans hrun)
  have hentropy : l'.entropy = l.entropy.skip 16 := by
    rw [hround.entropy_eq (by rwa [Suite.vectorLength_scheme]), Suite.vectorLength_scheme]
  obtain ⟨body, hciphertext, hbody⟩ := hround.ciphertext
  rw [Suite.vectorLength_scheme] at hciphertext
  have hvector : m.ciphertext.take 16 = l.entropy.piece 0 := by
    rw [hciphertext, List.take_left' (List.length_take_of_le hl.2)]
    rfl
  have hlength : m.ciphertext.length = 16 + r.body.length := by
    rw [hciphertext, List.length_append, List.length_take_of_le hl.2, hbody]
  rw [Http.status_negotiated]
  refine ⟨rfl, hentropy, m, ?_, hvector, hlength, suite.length_tag hround.tag, hround.carries⟩
  rw [Http.body_negotiated, jsonResponse]

/-- After that the service fails, and the source keeps what it has. -/
theorem fails_of_not_holds {response : Response} {after : Ledger}
    (h : (suite.service k limit).Seals r) (hl : ¬l.entropy.Holds 16)
    (hrun : ((suite.service k limit).answer r).run l = (response, after)) :
    response = (failed (.internal "encryption failed")).negotiated r ∧ response.status = 500 ∧
      after.entropy = l.entropy := by
  have hkey := suite.validateKey_eq_ok k.length_mem
  have hvector : ¬l.entropy.Holds suite.scheme.cipher.vectorLength := by
    rwa [Suite.vectorLength_scheme]
  have hstarved : ∃ e l', (suite.scheme.encode k.bytes r.body).run l = (.error e, l') ∧
      l'.entropy = l.entropy := Scheme.run_encode_starved hkey hvector
  obtain ⟨e, l', hencode, hentropy⟩ := hstarved
  obtain ⟨rfl, rfl⟩ := Prod.mk.inj ((run_answer_unsealed h hencode).symm.trans hrun)
  refine ⟨rfl, ?_, hentropy⟩
  rw [Http.status_negotiated]
  rfl

end Steps

/-- A history of a service: the exchanges so far, and the ledger that they have led to. -/
inductive History (s : Service) (start : Ledger) : List Exchange → Ledger → Prop
  | nil : History s start [] start
  | snoc {es : List Exchange} {l after : Ledger} {r : Request} {response : Response} :
      History s start es l → (s.answer r).run l = (response, after) →
        History s start (es ++ [⟨r, response⟩]) after

/-- A body was sealed in an exchange. -/
def Accepts (s : Service) (e : Exchange) : Prop := s.Seals e.request ∧ e.response.status = 200

instance (s : Service) (e : Exchange) : Decidable (s.Accepts e) :=
  inferInstanceAs (Decidable (_ ∧ _))

/-- The exchanges in which a body was sealed. -/
def accepted (s : Service) (es : List Exchange) : List Exchange := es.filter (s.Accepts ·)

/-- An accepted exchange is accepted after those before it. -/
theorem accepted_snoc {s : Service} {e : Exchange} (h : s.Accepts e) (es : List Exchange) :
    s.accepted (es ++ [e]) = s.accepted es ++ [e] := by
  have hlast : [e].filter (s.Accepts ·) = [e] := List.filter_cons_of_pos (decide_eq_true h)
  rw [accepted, List.filter_append, hlast, accepted]

/-- An exchange that is not accepted adds nothing to those that are. -/
theorem accepted_snoc_of_not {s : Service} {e : Exchange} (h : ¬s.Accepts e)
    (es : List Exchange) : s.accepted (es ++ [e]) = s.accepted es := by
  have hlast : [e].filter (s.Accepts ·) = [] :=
    List.filter_cons_of_neg (by rwa [decide_eq_true_eq])
  rw [accepted, List.filter_append, hlast, List.append_nil, accepted]

section Histories

variable {suite : Suite} {k : Key} {limit : Nat} {start l : Ledger} {es : List Exchange}

/-- A history goes on with any further requests. -/
theorem History.exists_append {s : Service} (h : s.History start es l) (requests : List Request) :
    ∃ es' l', s.History start (es ++ es') l' ∧ es'.map Exchange.request = requests := by
  induction requests generalizing es l with
  | nil => exact ⟨[], l, by rwa [List.append_nil], rfl⟩
  | cons r requests ih =>
    rcases hrun : (s.answer r).run l with ⟨response, after⟩
    obtain ⟨es', l', hhistory, hrequests⟩ := ih (h.snoc hrun)
    refine ⟨⟨r, response⟩ :: es', l', ?_, ?_⟩
    · rwa [List.append_assoc, List.singleton_append] at hhistory
    · rw [List.map_cons, hrequests]

/-- An exchange either takes a vector and issues an envelope that starts with it, or it is not
accepted and takes nothing. -/
theorem exchange_cases {r : Request} {response : Response} {after : Ledger}
    (hrun : ((suite.service k limit).answer r).run l = (response, after)) :
    ((suite.service k limit).Accepts ⟨r, response⟩ ∧ l.entropy.Holds 16 ∧
        after.entropy = l.entropy.skip 16 ∧
        ∃ m, Issues suite k (l.entropy.piece 0) ⟨r, response⟩ m) ∨
      (¬(suite.service k limit).Accepts ⟨r, response⟩ ∧ after.entropy = l.entropy) := by
  by_cases h : (suite.service k limit).Seals r
  · by_cases hl : l.entropy.Holds 16
    · obtain ⟨hstatus, hentropy, hissues⟩ := issues_of_holds h hl hrun
      exact .inl ⟨⟨h, hstatus⟩, hl, hentropy, hissues⟩
    · obtain ⟨-, hstatus, hentropy⟩ := fails_of_not_holds h hl hrun
      refine .inr ⟨fun haccepts => ?_, hentropy⟩
      exact absurd (hstatus.symm.trans haccepts.2) (by decide)
  · obtain ⟨steady, calls, events, hsteady⟩ := steady_answer h
    obtain ⟨rfl, rfl⟩ := Prod.mk.inj ((hsteady l).symm.trans hrun)
    exact .inr ⟨fun haccepts => h haccepts.1, l.entropy_extend calls events⟩

/-- The source has lost one vector for every body that was sealed. -/
theorem History.entropy_eq (h : (suite.service k limit).History start es l) :
    16 * ((suite.service k limit).accepted es).length ≤ start.entropy.available.length ∧
      l.entropy = start.entropy.skip (16 * ((suite.service k limit).accepted es).length) := by
  induction h with
  | nil => exact ⟨Nat.zero_le _, rfl⟩
  | snoc _ hrun ih =>
    obtain ⟨hle, hentropy⟩ := ih
    rcases exchange_cases hrun with ⟨haccepts, hholds, hafter, -⟩ | ⟨hnot, hafter⟩
    · have hroom := hholds.2
      rw [hentropy, Entropy.available_skip, List.length_drop] at hroom
      rw [accepted_snoc haccepts, List.length_append, List.length_singleton, Nat.mul_add, hafter,
        hentropy, Entropy.skip_skip]
      exact ⟨by omega, rfl⟩
    · rw [accepted_snoc_of_not hnot, hafter]
      exact ⟨hle, hentropy⟩

private theorem getElem?_snoc {xs : List Exchange} {x e : Exchange} {i : Nat}
    (h : (xs ++ [x])[i]? = some e) : xs[i]? = some e ∨ (i = xs.length ∧ e = x) := by
  by_cases hi : i < xs.length
  · left
    rwa [List.getElem?_append_left hi] at h
  · right
    rw [List.getElem?_append_right (Nat.not_lt.mp hi), List.getElem?_singleton] at h
    split at h
    · exact ⟨by omega, (Option.some.inj h).symm⟩
    · contradiction

/-- The envelopes of a history start with the consecutive vectors of the source. -/
theorem History.issues (h : (suite.service k limit).History start es l) {i : Nat} {e : Exchange}
    (he : ((suite.service k limit).accepted es)[i]? = some e) :
    ∃ m, Issues suite k (start.entropy.piece i) e m := by
  induction h generalizing i e with
  | nil => simp [accepted] at he
  | snoc hhistory hrun ih =>
    rcases exchange_cases hrun with ⟨haccepts, -, -, hissues⟩ | ⟨hnot, -⟩
    · rw [accepted_snoc haccepts] at he
      rcases getElem?_snoc he with hearlier | ⟨rfl, rfl⟩
      · exact ih hearlier
      · rwa [hhistory.entropy_eq.2, Entropy.piece_zero_skip] at hissues
    · rw [accepted_snoc_of_not hnot] at he
      exact ih he

/-- The length of an envelope follows from that of the plaintext. -/
theorem Issues.length_body {v : Bytes} {e : Exchange} {m : SealedMessage}
    (h : Issues suite k v e m) : e.response.body.length =
      27 + 4 * ((16 + e.request.body.length + 2) / 3) + 4 * ((suite.sealer.tagLength + 2) / 3) := by
  rw [h.body, m.length_render_toEnvelope, h.length_ciphertext, h.length_tag]

/-- Envelopes that start with different vectors are different. -/
theorem Issues.body_ne {v v' : Bytes} {e e' : Exchange} {m m' : SealedMessage}
    (h : Issues suite k v e m) (h' : Issues suite k v' e' m') (hne : v ≠ v') :
    e.response.body ≠ e'.response.body := by
  intro heq
  have hm := Scheme.contains_render m
  rw [← h.body, heq, h'.body] at hm
  obtain rfl := hm.unique (Scheme.contains_render m')
  exact hne (h.vector.symm.trans h'.vector)

/-- On every ledger the envelope of an exchange opens for whoever posts it, exactly if it fits the
limit. -/
theorem Issues.answer_decrypt {v : Bytes} {e : Exchange} {m : SealedMessage}
    (h : Issues suite k v e m) {r : Request} (hr : Asks r "POST" .decrypt)
    (hbody : r.body = e.response.body) (l : Ledger) :
    ((((suite.service k limit).answer r).run l).1.status = 200 ∧
        (((suite.service k limit).answer r).run l).1.body = e.request.body ↔
      r.body.length ≤ limit) ∧
    ((((suite.service k limit).answer r).run l).1.status = 413 ↔ limit < r.body.length) :=
  Suite.answer_of_carries h.carries hr (hbody.trans h.body) l

end Histories

/-- Any requests make a history. After it the source has lost one vector for every body that was
sealed; the envelopes start with the consecutive vectors, so that they differ where the vectors do,
and each of them still opens to its own plaintext. The next body to seal takes the next vector, or
fails for want of one, and the answer to any other request is the same on every ledger. -/
theorem histories_take_vectors_in_order (suite : Suite) (k : Key) (limit : Nat) (start : Ledger) :
    (∀ requests, ∃ es l, (suite.service k limit).History start es l ∧
      es.map Exchange.request = requests) ∧
    ∀ es l, (suite.service k limit).History start es l →
      (16 * ((suite.service k limit).accepted es).length ≤ start.entropy.available.length ∧
        l.entropy = start.entropy.skip (16 * ((suite.service k limit).accepted es).length)) ∧
      (∀ i e, ((suite.service k limit).accepted es)[i]? = some e →
        (start.entropy.piece i).length = 16 ∧ ∃ m, Issues suite k (start.entropy.piece i) e m) ∧
      (∀ i j e e', ((suite.service k limit).accepted es)[i]? = some e →
        ((suite.service k limit).accepted es)[j]? = some e' →
        start.entropy.piece i ≠ start.entropy.piece j → e.response.body ≠ e'.response.body) ∧
      (∀ e ∈ (suite.service k limit).accepted es, ∀ r, Asks r "POST" .decrypt →
        r.body = e.response.body →
        ((((suite.service k limit).answer r).run l).1.status = 200 ∧
            (((suite.service k limit).answer r).run l).1.body = e.request.body ↔
          r.body.length ≤ limit) ∧
        ((((suite.service k limit).answer r).run l).1.status = 413 ↔ limit < r.body.length)) ∧
      ∀ r response after, ((suite.service k limit).answer r).run l = (response, after) →
        ((suite.service k limit).Seals r → l.entropy.Holds 16 →
          response.status = 200 ∧ after.entropy = l.entropy.skip 16 ∧
            ∃ m, Issues suite k (l.entropy.piece 0) ⟨r, response⟩ m) ∧
        ((suite.service k limit).Seals r → ¬l.entropy.Holds 16 →
          response = (failed (.internal "encryption failed")).negotiated r ∧
            response.status = 500 ∧ after.entropy = l.entropy) ∧
        (¬(suite.service k limit).Seals r → after.entropy = l.entropy ∧
          ∀ l', (((suite.service k limit).answer r).run l').1 = response) := by
  constructor
  · intro requests
    obtain ⟨es, l, hhistory, hrequests⟩ := History.nil.exists_append requests
    exact ⟨es, l, hhistory, hrequests⟩
  · intro es l hhistory
    refine ⟨hhistory.entropy_eq, ?_, ?_, ?_, ?_⟩
    · intro i e he
      obtain ⟨hi, -⟩ := List.getElem?_eq_some_iff.mp he
      have hroom := hhistory.entropy_eq.1
      exact ⟨Entropy.length_piece (by omega), hhistory.issues he⟩
    · intro i j e e' he he' hne
      obtain ⟨m, hm⟩ := hhistory.issues he
      obtain ⟨m', hm'⟩ := hhistory.issues he'
      exact hm.body_ne hm' hne
    · intro e he r hr hbody
      obtain ⟨i, hi⟩ := List.mem_iff_getElem?.mp he
      obtain ⟨m, hm⟩ := hhistory.issues hi
      exact hm.answer_decrypt hr hbody l
    · intro r response after hrun
      refine ⟨fun h hl => issues_of_holds h hl hrun, fun h hl => fails_of_not_holds h hl hrun, ?_⟩
      intro h
      obtain ⟨steady, calls, events, hsteady⟩ := steady_answer h
      obtain ⟨hresponse, hafter⟩ := Prod.mk.inj ((hsteady l).symm.trans hrun)
      refine ⟨by rw [← hafter, Ledger.entropy_extend], fun l' => ?_⟩
      rw [hsteady l', hresponse]

/-- A source of twenty bytes seals one body. The next one fails, and the first envelope opens. -/
theorem histories_take_vectors_in_order_twenty : ∃ (e : Exchange) (l : Ledger),
    e.request = ⟨"POST", "/crypto/encrypt", [], [1, 2, 3]⟩ ∧
    (Suite.default.service .zeros 256).History ⟨⟨List.replicate 20 7, none⟩, [], []⟩ [e] l ∧
    e.response.status = 200 ∧ l.entropy.available = List.replicate 4 7 ∧
    (((Suite.default.service .zeros 256).answer e.request).run l).1.status = 500 ∧
    (((Suite.default.service .zeros 256).answer
      ⟨"POST", "/crypto/decrypt", [], e.response.body⟩).run l).1.body = [1, 2, 3] := by
  let start : Ledger := ⟨⟨List.replicate 20 7, none⟩, [], []⟩
  let r : Request := ⟨"POST", "/crypto/encrypt", [], [1, 2, 3]⟩
  have hsize : [1, 2, 3].length ≤ 256 := by decide
  have hseals : (Suite.default.service .zeros 256).Seals r := ⟨asks_path _ .encrypt _ _, hsize⟩
  obtain ⟨-, -, -, -, hfirst⟩ :=
    (histories_take_vectors_in_order .default .zeros 256 start).2 [] start .nil
  rcases hrun : ((Suite.default.service .zeros 256).answer r).run start with ⟨response, l⟩
  obtain ⟨hstatus, -, m, hissues⟩ := (hfirst r response l hrun).1 hseals ⟨rfl, by decide⟩
  have hhistory : (Suite.default.service .zeros 256).History start [⟨r, response⟩] l :=
    History.nil.snoc hrun
  have haccepted : (Suite.default.service .zeros 256).accepted [⟨r, response⟩] = [⟨r, response⟩] :=
    accepted_snoc ⟨hseals, hstatus⟩ []
  obtain ⟨⟨-, hentropy⟩, -, -, hopens, hnext⟩ :=
    (histories_take_vectors_in_order .default .zeros 256 start).2 _ l hhistory
  rw [haccepted] at hentropy hopens
  have hleft : l.entropy.available = List.replicate 4 7 := by rw [hentropy]; rfl
  have hstarved : ¬l.entropy.Holds 16 := fun h => absurd h.2 (by rw [hleft]; decide)
  have hlength : response.body.length = 27 + 4 * ((16 + 3 + 2) / 3) + 4 * ((32 + 2) / 3) :=
    hissues.length_body
  refine ⟨⟨r, response⟩, l, rfl, hhistory, hstatus, hleft, ?_, ?_⟩
  · exact ((hnext r _ _ rfl).2.1 hseals hstarved).2.1
  · have hopened := hopens _ (List.mem_singleton_self _)
      ⟨"POST", "/crypto/decrypt", [], response.body⟩ (asks_path _ .decrypt _ _) rfl
    exact (hopened.1.mpr (by rw [hlength]; decide)).2

end Service

end Sealing
