import Sealing.Proofs.History

/-!
# Round trips within the body limit

The limit is on the bodies of requests, and an envelope is larger than what is sealed in it. So the
service seals bodies whose envelopes it does not take back, and the length of an envelope, which
depends on that of the plaintext only, tells which they are. Nothing else stands in the way of a
body and its envelope.
-/

namespace Sealing

namespace Service

open Http (Request Response)

/-- A health report is read back from its written form. -/
theorem Health.parse_render (h : Health) : parse (Utf8.encode h.render) = .ok h := by
  have hnames : (members.map Prod.fst).Nodup := by decide
  exact Json.map_parseRecord_render "HealthResponse" hnames (List.cons_ne_nil _ _) ofRecord
    h.toRecord

section Limits

variable {suite : Suite} {k : Key} {limit : Nat} {r q : Request} {response : Response}
  {l after : Ledger}

/-- What the service says of itself can be read, and is true of its suite. -/
theorem answer_health (h : Asks q "GET" .health) (l : Ledger) :
    (((suite.service k limit).answer q).run l).1.status = 200 ∧
      ∃ health, Health.parse (((suite.service k limit).answer q).run l).1.body = .ok health ∧
        health.suite = suite.name ∧ health.tagLength.toNat = suite.sealer.tagLength := by
  have htag : (UInt64.ofNat suite.sealer.tagLength).toNat = suite.sealer.tagLength := by
    cases suite <;> rfl
  rw [run_answer_health h, Http.status_negotiated, Http.body_negotiated]
  simp only [healthResponse, jsonResponse, Suite.sealer_service, Health.parse_render]
  exact ⟨trivial, _, rfl, suite.name_scheme, htag⟩

/-- A body is sealed exactly if it fits the limit, and too large otherwise. -/
theorem status_answer_encrypt (hr : Asks r "POST" .encrypt) (hl : l.entropy.Holds 16)
    (hrun : ((suite.service k limit).answer r).run l = (response, after)) :
    (response.status = 200 ↔ r.body.length ≤ limit) ∧
      (response.status = 413 ↔ limit < r.body.length) := by
  by_cases hsize : r.body.length ≤ limit
  · have hstatus := (issues_of_holds ⟨hr, hsize⟩ hl hrun).1
    have hnot : ¬limit < r.body.length := Nat.not_lt.mpr hsize
    simp [hstatus, hsize, hnot]
  · have hlarge : limit < r.body.length := Nat.lt_of_not_le hsize
    obtain ⟨rfl, rfl⟩ := Prod.mk.inj ((run_answer_tooLarge hr (by decide) hlarge l).symm.trans hrun)
    rw [Http.status_negotiated]
    simp [tooLarge, hsize, hlarge]

end Limits

/-- A body is sealed exactly if it fits the limit. Its envelope has the lengths of the parts that
the service announces, and it is opened to the body exactly if it fits the limit as well, which the
length of the body decides; otherwise it is too large. A client that names no codings gets all of
this as it is. -/
theorem envelopes_open_within_limit (suite : Suite) (k : Key) (limit : Nat) {r : Request}
    {response : Response} {l after : Ledger} (hr : Asks r "POST" .encrypt)
    (hplain : r.headers.values "accept-encoding" = []) (hl : l.entropy.Holds 16)
    (hrun : ((suite.service k limit).answer r).run l = (response, after)) :
    response.isCoded = false ∧
    (response.status = 200 ↔ r.body.length ≤ limit) ∧
    (response.status = 413 ↔ limit < r.body.length) ∧
    (response.status = 200 → ∃ m, Scheme.Contains response.body m ∧
      m.ciphertext.length = 16 + r.body.length ∧
      (∀ q l', Asks q "GET" .health → q.headers.values "accept-encoding" = [] →
        (((suite.service k limit).answer q).run l').1.isCoded = false ∧
        (((suite.service k limit).answer q).run l').1.status = 200 ∧
        ∃ health, Health.parse (((suite.service k limit).answer q).run l').1.body = .ok health ∧
          health.tagLength.toNat = m.tag.length) ∧
      ∀ q l', Asks q "POST" .decrypt → q.headers.values "accept-encoding" = [] →
        q.body = response.body →
        (((suite.service k limit).answer q).run l').1.isCoded = false ∧
        ((((suite.service k limit).answer q).run l').1.status = 200 ∧
            (((suite.service k limit).answer q).run l').1.body = r.body ↔
          27 + 4 * ((16 + r.body.length + 2) / 3) + 4 * ((suite.sealer.tagLength + 2) / 3) ≤
            limit) ∧
        ((((suite.service k limit).answer q).run l').1.status = 413 ↔ limit <
          27 + 4 * ((16 + r.body.length + 2) / 3) + 4 * ((suite.sealer.tagLength + 2) / 3))) := by
  have hcoded : response.isCoded = false := by
    have hanswer := isCoded_answer (s := suite.service k limit) hplain l
    rwa [hrun] at hanswer
  obtain ⟨hok, hlarge⟩ := status_answer_encrypt hr hl hrun
  refine ⟨hcoded, hok, hlarge, fun hstatus => ?_⟩
  obtain ⟨-, -, m, hissues⟩ := issues_of_holds ⟨hr, hok.mp hstatus⟩ hl hrun
  have hcontains : Scheme.Contains response.body m := by
    have hbody : response.body = Utf8.encode m.toEnvelope.render := hissues.body
    rw [hbody]
    exact Scheme.contains_render m
  refine ⟨m, hcontains, hissues.length_ciphertext, fun q l' hq hcodings => ?_,
    fun q l' hq hcodings hbody => ?_⟩
  · obtain ⟨hhealth, health, hparse, -, htag⟩ := answer_health hq l'
    exact ⟨isCoded_answer hcodings l', hhealth, health, hparse,
      htag.trans hissues.length_tag.symm⟩
  · have hlength : q.body.length = 27 + 4 * ((16 + r.body.length + 2) / 3) +
        4 * ((suite.sealer.tagLength + 2) / 3) := hbody ▸ hissues.length_body
    obtain ⟨hopened, htooLarge⟩ := hissues.answer_decrypt hq hbody l'
    rw [hlength] at hopened htooLarge
    exact ⟨isCoded_answer hcodings l', hopened, htooLarge⟩

/-- The envelope of three bytes has ninety-nine, so one byte of the limit decides whether a service
that seals them opens them again. -/
theorem envelopes_open_within_limit_three :
    (∃ response after,
      ((Suite.default.service .zeros 98).answer ⟨"POST", "/crypto/encrypt", [], [1, 2, 3]⟩).run
        ⟨⟨List.replicate 16 7, none⟩, [], []⟩ = (response, after) ∧ response.status = 200 ∧
      (((Suite.default.service .zeros 98).answer
        ⟨"POST", "/crypto/decrypt", [], response.body⟩).run after).1.status = 413) ∧
    ∃ response after,
      ((Suite.default.service .zeros 99).answer ⟨"POST", "/crypto/encrypt", [], [1, 2, 3]⟩).run
        ⟨⟨List.replicate 16 7, none⟩, [], []⟩ = (response, after) ∧ response.status = 200 ∧
      (((Suite.default.service .zeros 99).answer
        ⟨"POST", "/crypto/decrypt", [], response.body⟩).run after).1.body = [1, 2, 3] := by
  have hround (limit : Nat) (hlimit : 3 ≤ limit) : ∃ response after,
      ((Suite.default.service .zeros limit).answer ⟨"POST", "/crypto/encrypt", [], [1, 2, 3]⟩).run
        ⟨⟨List.replicate 16 7, none⟩, [], []⟩ = (response, after) ∧ response.status = 200 ∧
      ((((Suite.default.service .zeros limit).answer
          ⟨"POST", "/crypto/decrypt", [], response.body⟩).run after).1.status = 200 ∧
        (((Suite.default.service .zeros limit).answer
          ⟨"POST", "/crypto/decrypt", [], response.body⟩).run after).1.body = [1, 2, 3] ↔
        99 ≤ limit) ∧
      ((((Suite.default.service .zeros limit).answer
        ⟨"POST", "/crypto/decrypt", [], response.body⟩).run after).1.status = 413 ↔
        limit < 99) := by
    have hholds : Entropy.Holds ⟨List.replicate 16 7, none⟩ 16 := ⟨rfl, by decide⟩
    obtain ⟨-, hok, -, hsealed⟩ := envelopes_open_within_limit .default .zeros limit
      (l := ⟨⟨List.replicate 16 7, none⟩, [], []⟩)
      (asks_path "POST" .encrypt [] [1, 2, 3]) rfl hholds rfl
    have hstatus := hok.mpr hlimit
    obtain ⟨m, -, -, -, hopens⟩ := hsealed hstatus
    obtain ⟨-, hopened, hlarge⟩ := hopens _ _ (asks_path _ .decrypt [] _) rfl rfl
    exact ⟨_, _, rfl, hstatus, hopened, hlarge⟩
  obtain ⟨response, after, hrun, hstatus, -, hlarge⟩ := hround 98 (by decide)
  obtain ⟨response', after', hrun', hstatus', hopened, -⟩ := hround 99 (by decide)
  exact ⟨⟨response, after, hrun, hstatus, hlarge.mpr (by decide)⟩,
    response', after', hrun', hstatus', (hopened.mpr (by decide)).2⟩

end Service

end Sealing
