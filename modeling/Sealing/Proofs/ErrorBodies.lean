import Sealing.Proofs.BodyLimit

/-!
# What an answer says of a failure

A client that is not answered with success wants to read why. The service tells it in a body for
errors wherever it fails itself and wherever there is no such path. A method that the path does not
have and a body beyond the limit are turned away before the service has a say, and their answers
have no such body. Every other answer without success has one.
-/

namespace Sealing

namespace Service

open Http (Request Response)

/-- An error body is read back from its written form. -/
theorem ErrorBody.parse_render (e : ErrorBody) : parse (Utf8.encode e.render) = .ok e := by
  have hnames : (members.map Prod.fst).Nodup := by decide
  exact Json.map_parseRecord_render "ErrorResponse" hnames (List.cons_ne_nil _ _) ofRecord
    e.toRecord

variable {s : Service} {r : Request} {route : Route} {method : String} {response : Response}
  {l after : Ledger}

/-- A request asks a known path by a method that the path does not have. -/
def Misdirected (r : Request) : Prop :=
  ∃ route : Route, Http.Target.path r.target = route.path ∧ r.method ∉ route.methods

/-- A request has a body that would be read, were it not beyond the limit. -/
def Oversized (s : Service) (r : Request) : Prop :=
  ∃ route : Route, Asks r "POST" route ∧ "POST" ∈ route.methods ∧ s.bodyLimit < r.body.length

/-- A request is for the service to judge. -/
structure Admits (s : Service) (r : Request) : Prop where
  directed : ¬Misdirected r
  fits : ¬s.Oversized r

/-- An answer tells in a body for errors what has gone wrong. -/
def Explains (response : Response) : Prop := ∃ e, ErrorBody.parse response.body = .ok e

/-- The kinds of answers, and the requests that get them. -/
inductive Outcome (s : Service) (r : Request) (response : Response) : Prop
  | misdirected : Misdirected r → response.status = 405 → response.body = [] → Outcome s r response
  | oversized : s.Oversized r → response.status = 413 → response.body = tooLarge.body →
      Outcome s r response
  | done : s.Admits r → response.status = 200 → Outcome s r response
  | failed (e : ErrorBody) : s.Admits r → response.status ∈ [400, 404, 500] →
      response.body = Utf8.encode e.render → Outcome s r response

/-- A path that no route has is unknown. -/
theorem run_answer_unknown (h : Route.ofPath? (Http.Target.path r.target) = none) (l : Ledger) :
    (s.answer r).run l = (notFound.negotiated r, l) := by
  rw [answer, h]
  rfl

/-- A method that the route does not have is not allowed. -/
theorem run_answer_misdirected (hpath : Http.Target.path r.target = route.path)
    (hmethod : r.method ∉ route.methods) (l : Ledger) :
    (s.answer r).run l = ((methodNotAllowed route).negotiated r, l) := by
  simp only [answer, Route.ofPath?_eq_some_iff.mpr hpath, dispatch, if_neg hmethod]
  rfl

/-! ## Which requests are admitted -/

/-- An unknown path is that of no route. -/
theorem Route.path_ne_of_none {path : String} (h : ofPath? path = none) (route : Route) :
    path ≠ route.path := by
  rintro rfl
  rw [ofPath?_path] at h
  cases h

/-- A request for an unknown path is admitted, to be told so. -/
theorem admits_of_none (h : Route.ofPath? (Http.Target.path r.target) = none) : s.Admits r := by
  constructor
  · rintro ⟨route, hpath, -⟩
    exact Route.path_ne_of_none h route hpath
  · rintro ⟨route, ⟨-, hpath⟩, -, -⟩
    exact Route.path_ne_of_none h route hpath

/-- A method that the route has is not misdirected. -/
theorem not_misdirected_of_mem (h : Asks r method route) (hmethod : method ∈ route.methods) :
    ¬Misdirected r := by
  obtain ⟨rfl, hpath⟩ := h
  rintro ⟨other, hother, hnot⟩
  have hroute : some other = some route := by
    rw [← Route.ofPath?_path, ← Route.ofPath?_path, ← hother, hpath]
  obtain rfl := Option.some.inj hroute
  exact hnot hmethod

/-- An oversized request is not misdirected. -/
theorem Oversized.not_misdirected (h : s.Oversized r) : ¬Misdirected r := by
  obtain ⟨route, hasks, hmethod, -⟩ := h
  exact not_misdirected_of_mem hasks hmethod

/-- A method of the route is admitted unless it comes with a body that is too large to be read. -/
theorem admits_of_asks (h : Asks r method route) (hmethod : method ∈ route.methods)
    (hsize : method = "POST" → r.body.length ≤ s.bodyLimit) : s.Admits r := by
  refine ⟨not_misdirected_of_mem h hmethod, ?_⟩
  rintro ⟨-, ⟨hpost, -⟩, -, hlarge⟩
  exact absurd (hsize (h.1.symm.trans hpost)) (Nat.not_le.mpr hlarge)

/-! ## Every answer is of one of the kinds -/

private theorem outcome_of_run (hrun : (s.answer r).run l = (response, after))
    (h : Outcome s r response) : Outcome s r ((s.answer r).run l).1 := by
  rw [hrun]
  exact h

private theorem outcome_done (h : s.Admits r) (hstatus : response.status = 200) :
    Outcome s r (response.negotiated r) := by
  apply Outcome.done h
  rwa [Http.status_negotiated]

private theorem outcome_json {status : Nat} (h : s.Admits r) (hstatus : status ∈ [400, 404, 500])
    (e : ErrorBody) : Outcome s r ((jsonResponse status e.render).negotiated r) := by
  apply Outcome.failed e h
  · rwa [Http.status_negotiated]
  · rw [Http.body_negotiated, jsonResponse]

private theorem outcome_failed (h : s.Admits r) (f : Failure) :
    Outcome s r ((failed f).negotiated r) := by
  have hstatus : f.status ∈ [400, 404, 500] := by
    cases f with
    | rejected => exact List.mem_cons_self
    | internal text => exact List.mem_cons_of_mem _ (List.mem_cons_of_mem _ List.mem_cons_self)
  exact outcome_json h hstatus (ErrorBody.ofFailure f)

/-- What sealing is answered with is of one of the kinds. -/
theorem outcome_of_seals (h : s.Seals r) (l : Ledger) : Outcome s r ((s.answer r).run l).1 := by
  have hadmits : s.Admits r := admits_of_asks h.1 (by decide) fun _ => h.2
  rcases hrun : (s.sealer.encode s.key.bytes r.body).run l with ⟨_ | text, l'⟩
  · apply outcome_of_run (run_answer_unsealed h hrun)
    exact outcome_failed hadmits _
  · apply outcome_of_run (run_answer_sealed h hrun)
    exact outcome_done hadmits rfl

/-- What opening is answered with is of one of the kinds. -/
theorem outcome_of_opens (h : s.Opens r) (l : Ledger) : Outcome s r ((s.answer r).run l).1 := by
  have hadmits : s.Admits r := admits_of_asks h.1 (by decide) fun _ => h.2
  rcases hrun : (s.sealer.decodeBytes s.key.bytes r.body).run l with ⟨_ | plaintext, l'⟩
  · apply outcome_of_run (run_answer_unopened h hrun)
    exact outcome_failed hadmits _
  · apply outcome_of_run (run_answer_opened h hrun)
    exact outcome_done hadmits rfl

/-- What a post is answered with is of one of the kinds. -/
theorem outcome_of_post (h : Asks r "POST" route) (hroute : "POST" ∈ route.methods) (l : Ledger) :
    Outcome s r ((s.answer r).run l).1 := by
  by_cases hsize : s.bodyLimit < r.body.length
  · apply outcome_of_run (run_answer_tooLarge h hroute hsize l)
    exact .oversized ⟨route, h, hroute, hsize⟩ (Http.status_negotiated ..) (Http.body_negotiated ..)
  · have hfits : r.body.length ≤ s.bodyLimit := Nat.not_lt.mp hsize
    cases route with
    | encrypt => exact outcome_of_seals ⟨h, hfits⟩ l
    | decrypt => exact outcome_of_opens ⟨h, hfits⟩ l
    | health => exact absurd hroute (by decide)

/-- Every answer that comes with its body is of one of the kinds. -/
theorem outcome_answer (s : Service) (hhead : r.method ≠ "HEAD") (l : Ledger) :
    Outcome s r ((s.answer r).run l).1 := by
  cases hroute : Route.ofPath? (Http.Target.path r.target) with
  | none =>
    apply outcome_of_run (run_answer_unknown hroute l)
    exact outcome_json (admits_of_none hroute) (by decide) _
  | some route =>
    have hpath := Route.ofPath?_eq_some_iff.mp hroute
    by_cases hmethod : r.method ∈ route.methods
    · cases route with
      | encrypt => exact outcome_of_post ⟨List.mem_singleton.mp hmethod, hpath⟩ (by decide) l
      | decrypt => exact outcome_of_post ⟨List.mem_singleton.mp hmethod, hpath⟩ (by decide) l
      | health =>
        have hget : r.method = "GET" := by
          rcases List.mem_cons.mp hmethod with hget | hrest
          · exact hget
          · exact absurd (List.mem_singleton.mp hrest) hhead
        have hasks : Asks r "GET" .health := ⟨hget, hpath⟩
        apply outcome_of_run (run_answer_health hasks l)
        have hadmits : s.Admits r :=
          admits_of_asks hasks (by decide) fun hpost => absurd hpost (by decide)
        exact outcome_done hadmits rfl
    · apply outcome_of_run (run_answer_misdirected hpath hmethod l)
      exact .misdirected ⟨route, hpath, hmethod⟩ (Http.status_negotiated ..)
        (Http.body_negotiated ..)

/-! ## Answers without an error body -/

/-- An empty body explains nothing. -/
theorem not_explains_of_empty (h : response.body = []) : ¬Explains response := by
  rintro ⟨e, he⟩
  rw [h] at he
  cases he

/-- The plain text of a body that is too large explains nothing. -/
theorem not_explains_of_tooLarge (h : response.body = tooLarge.body) : ¬Explains response := by
  obtain ⟨rest, hbody⟩ : ∃ rest, tooLarge.body = 70 :: rest := by
    have htext : "Failed to buffer the request body: length limit exceeded" =
        "F" ++ "ailed to buffer the request body: length limit exceeded" := rfl
    have hletter : Utf8.encode "F" = [70] := by decide
    rw [tooLarge, htext, Utf8.encode_append, hletter]
    exact ⟨_, rfl⟩
  have hblanks : Json.skipBlanks (70 :: rest) = 70 :: rest := rfl
  have hbracket : (70 : UInt8) ≠ Ascii.openBracket := by decide
  have hbrace : (70 : UInt8) ≠ Ascii.openBrace := by decide
  rintro ⟨e, he⟩
  simp only [h, hbody, ErrorBody.parse, Json.parseRecord, Json.readWhole, Json.readRecord, hblanks,
    if_neg hbracket, if_neg hbrace] at he
  cases he

/-- An answer without success explains itself, except to a request that is turned away for its
method or for the size of its body. These are told apart by their statuses. A client that names no
codings gets every answer as it is. -/
theorem explained_or_misdirected_or_oversized (hhead : r.method ≠ "HEAD")
    (hplain : r.headers.values "accept-encoding" = [])
    (hrun : (s.answer r).run l = (response, after)) :
    response.isCoded = false ∧
    (response.status = 405 ↔ Misdirected r) ∧
    (response.status = 413 ↔ s.Oversized r) ∧
    (¬(200 ≤ response.status ∧ response.status ≤ 299) →
      (Explains response ↔ ¬Misdirected r ∧ ¬s.Oversized r)) := by
  have hcoded : ((s.answer r).run l).1.isCoded = false := isCoded_answer hplain l
  have houtcome := outcome_answer s hhead l
  rw [hrun] at hcoded houtcome
  dsimp only at hcoded houtcome
  refine ⟨hcoded, ?_⟩
  cases houtcome with
  | misdirected h hstatus hbody =>
    have hfits : ¬s.Oversized r := fun hsize => hsize.not_misdirected h
    simp [hstatus, h, hfits, not_explains_of_empty hbody]
  | oversized h hstatus hbody =>
    simp [hstatus, h, h.not_misdirected, not_explains_of_tooLarge hbody]
  | done h hstatus => simp [hstatus, h.directed, h.fits]
  | failed e h hstatus hbody =>
    have hexplains : Explains response := ⟨e, by rw [hbody, ErrorBody.parse_render]⟩
    have hother : response.status ≠ 405 ∧ response.status ≠ 413 := by
      simp only [List.mem_cons, List.not_mem_nil, or_false] at hstatus
      omega
    simp [hother, h.directed, h.fits, hexplains]

/-- A service with a limit of three bytes explains that there is no such path, and does not explain
that the health report takes no posts. -/
theorem explained_or_misdirected_or_oversized_three :
    Explains (((Suite.default.service .zeros 3).answer
      ⟨"POST", "/crypto", [], [1, 2, 3, 4]⟩).run ⟨⟨[], none⟩, [], []⟩).1 ∧
    ¬Explains (((Suite.default.service .zeros 3).answer
      ⟨"POST", "/health", [], [1, 2, 3, 4]⟩).run ⟨⟨[], none⟩, [], []⟩).1 := by
  constructor
  · have hroute : Route.ofPath? (Http.Target.path "/crypto") = none := by decide
    have hrun := run_answer_unknown (s := Suite.default.service .zeros 3)
      (r := ⟨"POST", "/crypto", [], [1, 2, 3, 4]⟩) hroute ⟨⟨[], none⟩, [], []⟩
    obtain ⟨-, -, -, hexplains⟩ := explained_or_misdirected_or_oversized (by decide) rfl hrun
    have hstatus : (notFound.negotiated ⟨"POST", "/crypto", [], [1, 2, 3, 4]⟩).status = 404 := by
      rw [Http.status_negotiated, notFound, jsonResponse]
    have hadmits : (Suite.default.service .zeros 3).Admits
        ⟨"POST", "/crypto", [], [1, 2, 3, 4]⟩ := admits_of_none hroute
    rw [hstatus] at hexplains
    rw [hrun]
    exact (hexplains (by decide)).mpr ⟨hadmits.directed, hadmits.fits⟩
  · have hmethod : "POST" ∉ Route.health.methods := by decide
    have hrun := run_answer_misdirected (s := Suite.default.service .zeros 3)
      (r := ⟨"POST", "/health", [], [1, 2, 3, 4]⟩) (by decide) hmethod ⟨⟨[], none⟩, [], []⟩
    obtain ⟨-, hmisdirected, -, hexplains⟩ :=
      explained_or_misdirected_or_oversized (by decide) rfl hrun
    have hstatus : ((methodNotAllowed .health).negotiated
        ⟨"POST", "/health", [], [1, 2, 3, 4]⟩).status = 405 := by
      rw [Http.status_negotiated, methodNotAllowed]
    rw [hstatus] at hmisdirected hexplains
    rw [hrun]
    intro h
    exact ((hexplains (by decide)).mp h).1 (hmisdirected.mp rfl)

/-- A service that is asked to seal by `GET` does not allow that, and one that is asked to seal more
than its limit refuses that. Neither answer is an error body. -/
theorem unexplained_zeros :
    (∃ response after, ((Suite.default.service .zeros 64).answer
        ⟨"GET", "/crypto/encrypt", [], []⟩).run ⟨⟨[], none⟩, [], []⟩ = (response, after) ∧
      response.status = 405 ∧ ¬Explains response) ∧
    ∃ response after, ((Suite.default.service .zeros 64).answer
        ⟨"POST", "/crypto/encrypt", [], List.replicate 65 0⟩).run ⟨⟨[], none⟩, [], []⟩ =
          (response, after) ∧ response.status = 413 ∧ ¬Explains response := by
  constructor
  · have hmethod : "GET" ∉ Route.encrypt.methods := by decide
    have hrun := run_answer_misdirected (s := Suite.default.service .zeros 64)
      (r := ⟨"GET", "/crypto/encrypt", [], []⟩) (by decide) hmethod ⟨⟨[], none⟩, [], []⟩
    refine ⟨_, _, hrun, ?_, ?_⟩
    · rw [Http.status_negotiated, methodNotAllowed]
    · apply not_explains_of_empty
      rw [Http.body_negotiated, methodNotAllowed]
  · have hrun := run_answer_tooLarge (s := Suite.default.service .zeros 64)
      (asks_path "POST" .encrypt [] (List.replicate 65 0)) (by decide) (by decide)
      ⟨⟨[], none⟩, [], []⟩
    refine ⟨_, _, hrun, ?_, ?_⟩
    · rw [Http.status_negotiated, tooLarge]
    · apply not_explains_of_tooLarge
      rw [Http.body_negotiated]

end Service

end Sealing
