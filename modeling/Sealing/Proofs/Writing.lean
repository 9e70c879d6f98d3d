import Sealing.Proofs.SealingOrder
import Sealing.Proofs.UsableKeys

/-!
# Writing to a sink

Of a sink that takes something in every call it accepts, only the limit decides what becomes of the
bytes that are written to it: what fits is taken, and the rest is refused. How often the sink is
interrupted first, how much it takes in one call, and into which pieces the bytes were cut, makes no
difference. So whoever writes an envelope to a sink hands over the text that encoding returns, or
what there is room for, and spends the random source in the same way.
-/

namespace Sealing

/-- The text of a refusal. -/
def Refusal.message : Refusal → String
  | fails text => text
  | takesNothing => Sink.stalled

namespace Sink

variable {k : Sink} {data front rest : Bytes}

/-- The part of some bytes that a sink has room for. -/
def accepted (k : Sink) (data : Bytes) : Bytes :=
  match k.limit with
  | none => data
  | some limit => data.take (limit - k.taken.length)

/-- A sink that has been offered some bytes, with the part that it has room for. -/
def filled (k : Sink) (data : Bytes) : Sink :=
  { k with
    interruptions := if data = [] then k.interruptions else 0
    taken := k.taken ++ k.accepted data }

/-- What writing some bytes to a sink comes to: it takes what it has room for, and refuses if that
is not all. -/
def written (k : Sink) (data : Bytes) : Except String Unit × Sink :=
  (if k.accepted data = data then .ok () else .error k.refusal.message, k.filled data)

/-! ## Room -/

/-- Bytes are accepted whole exactly if they fit. -/
theorem accepted_eq_self_iff : k.accepted data = data ↔
    ∀ limit, k.limit = some limit → data.length ≤ limit - k.taken.length := by
  unfold accepted
  cases k.limit with
  | none => simp
  | some limit =>
    constructor
    · rintro h _ ⟨⟩
      rw [← h]
      exact List.length_take_le _ _
    · intro h
      exact List.take_of_length_le (h limit rfl)

/-- What has been taken leaves that much less room. -/
theorem accepted_append (hfront : k.accepted front = front) (rest : Bytes) :
    k.accepted (front ++ rest) = front ++ (k.filled front).accepted rest := by
  have hlength := accepted_eq_self_iff.mp hfront
  rw [filled, hfront]
  unfold accepted
  cases hlimit : k.limit with
  | none => rfl
  | some limit =>
    have hroom := hlength limit hlimit
    simp only [List.length_append, Nat.sub_add_eq]
    rw [List.take_append, List.take_of_length_le hroom]

/-- Behind what is refused nothing is taken. -/
theorem accepted_append_of_ne (hfront : k.accepted front ≠ front) (rest : Bytes) :
    k.accepted (front ++ rest) = k.accepted front := by
  unfold accepted at hfront ⊢
  cases hlimit : k.limit with
  | none => simp [hlimit] at hfront
  | some limit =>
    rw [hlimit] at hfront
    have hroom : limit - k.taken.length ≤ front.length := by
      by_contra hlong
      exact hfront (List.take_of_length_le (Nat.le_of_not_le hlong))
    simp only
    rw [List.take_append_of_le_length hroom]

/-- No bytes are always accepted. -/
theorem accepted_nil : k.accepted [] = [] := accepted_eq_self_iff.mpr fun _ _ => Nat.zero_le _

/-- To write nothing changes nothing. -/
theorem written_nil : k.written [] = (.ok (), k) := by
  rw [written, filled, accepted_nil, if_pos rfl, if_pos rfl, List.append_nil]

/-- Bytes that fit may be written first, and what follows them by itself. -/
theorem written_append (hfront : k.accepted front = front) (rest : Bytes) :
    k.written (front ++ rest) = (k.filled front).written rest := by
  have hall : k.accepted (front ++ rest) = front ++ rest ↔
      (k.filled front).accepted rest = rest := by
    rw [accepted_append hfront, List.append_right_inj]
  have hfilled : k.filled (front ++ rest) = (k.filled front).filled rest := by
    rw [filled, accepted_append hfront, ← List.append_assoc]
    by_cases hrest : rest = []
    · rw [filled, filled, hrest, List.append_nil, if_pos rfl, hfront]
    · rw [filled, filled, if_neg hrest, hfront, if_neg]
      exact fun h => hrest (List.append_eq_nil_iff.mp h).2
  rw [written, written, if_congr hall rfl rfl, hfilled]
  rfl

/-- Bytes that do not fit are the last that are written. -/
theorem written_append_of_ne (hfront : k.accepted front ≠ front) (rest : Bytes) :
    k.written (front ++ rest) = k.written front := by
  have hne : front ≠ [] := by
    rintro rfl
    exact hfront accepted_nil
  have hall : k.accepted (front ++ rest) ≠ front ++ rest := by
    intro hall
    apply hfront
    apply accepted_eq_self_iff.mpr
    intro limit hlimit
    have hroom := accepted_eq_self_iff.mp hall limit hlimit
    rw [List.length_append] at hroom
    omega
  rw [written, written, if_neg hall, if_neg hfront, filled, filled, accepted_append_of_ne hfront,
    if_neg hne, if_neg (List.append_ne_nil_of_left_ne_nil hne rest)]

/-! ## One call -/

/-- The answers of a sink that takes at least one byte in every call, as long as it has room. -/
inductive Answers (k : Sink) (data : Bytes) : Reply → Sink → Prop
  | interrupted : k.interruptions ≠ 0 →
    Answers k data .interrupted { k with interruptions := k.interruptions - 1 }
  | took {count : Nat} {after : Sink} : k.accepted (data.take (count + 1)) = data.take (count + 1) →
    after = k.filled (data.take (count + 1)) → Answers k data (.took (count + 1)) after
  | failed {text : String} : k.interruptions = 0 → k.accepted data = [] →
    k.refusal = .fails text → Answers k data (.failed text) k
  | stalled : k.interruptions = 0 → k.accepted data = [] → k.refusal = .takesNothing →
    Answers k data (.took 0) k

/-- A sink below its limit has room for at least one byte of a call, and not for more than that
the limit holds. -/
theorem room?_cases (hk : k.perCall ≠ some 0) {offered : Nat} (hoffered : 0 < offered) :
    (k.room? offered = none ∧ ∃ limit, k.limit = some limit ∧ limit ≤ k.taken.length) ∨
    ∃ count, k.room? offered = some (count + 1) ∧
      ∀ limit, k.limit = some limit → count + 1 ≤ limit - k.taken.length := by
  have hmost : 0 < min offered (k.perCall.getD offered) := by
    cases hcall : k.perCall with
    | none => simpa using hoffered
    | some most =>
      have hpos : most ≠ 0 := by
        rintro rfl
        exact hk hcall
      simp only [Option.getD_some]
      omega
  unfold room?
  generalize min offered (k.perCall.getD offered) = most at hmost
  obtain ⟨most, rfl⟩ := Nat.exists_eq_add_of_lt hmost
  cases hlimit : k.limit with
  | none => exact .inr ⟨0 + most, rfl, by simp⟩
  | some limit =>
    by_cases hfull : limit ≤ k.taken.length
    · exact .inl ⟨by simp only [hfull, if_true], limit, rfl, hfull⟩
    · refine .inr ⟨min (0 + most + 1) (limit - k.taken.length) - 1, ?_, ?_⟩
      · simp only [hfull, if_false, Option.some.injEq]
        omega
      · rintro _ ⟨⟩
        omega

/-- Every call is answered in one of these ways. -/
theorem answers_offer (hk : k.perCall ≠ some 0) (hdata : data ≠ []) :
    k.Answers data (k.offer data).1 (k.offer data).2 := by
  unfold offer
  by_cases hcalls : k.interruptions = 0
  · rw [if_neg (not_not.mpr hcalls)]
    rcases room?_cases hk (List.length_pos_iff.mpr hdata) with
      ⟨hroom, limit, hlimit, hfull⟩ | ⟨count, hroom, hfits⟩
    · have hnothing : k.accepted data = [] := by
        simp only [accepted, hlimit, Nat.sub_eq_zero_of_le hfull, List.take_zero]
      rw [hroom]
      cases hrefusal : k.refusal with
      | fails text => exact .failed hcalls hnothing hrefusal
      | takesNothing => exact .stalled hcalls hnothing hrefusal
    · have hfront : k.accepted (data.take (count + 1)) = data.take (count + 1) := by
        apply accepted_eq_self_iff.mpr
        intro limit hlimit
        exact Nat.le_trans (List.length_take_le _ _) (hfits limit hlimit)
      have hfilled : k.filled (data.take (count + 1)) =
          { k with taken := k.taken ++ data.take (count + 1) } := by
        rw [filled, hfront, hcalls, ite_self]
      rw [hroom]
      exact .took hfront hfilled.symm
  · rw [if_pos hcalls]
    exact .interrupted hcalls

/-! ## All calls -/

/-- An interruption is forgotten. -/
theorem written_interrupted (hdata : data ≠ []) (count : Nat) :
    { k with interruptions := count }.written data = k.written data := by
  rw [written, written, filled, filled, if_neg hdata, if_neg hdata]
  rfl

/-- A sink without room refuses. -/
theorem written_of_nothing (hdata : data ≠ []) (hcalls : k.interruptions = 0)
    (h : k.accepted data = []) : k.written data = (.error k.refusal.message, k) := by
  rw [written, filled, h, if_neg hdata.symm, if_neg hdata, List.append_nil, ← hcalls]

/-- Writing takes what there is room for, however many calls it needs. -/
theorem writeAll_eq (hk : k.perCall ≠ some 0) (data : Bytes) :
    k.writeAll data = k.written data := by
  fun_induction writeAll k data with
  | case1 k =>
    rw [written_nil]
  | case2 k b data after hoffer _ ih =>
    have hanswer := answers_offer hk (List.cons_ne_nil b data)
    rw [hoffer] at hanswer
    cases hanswer with
    | interrupted hcalls => rw [ih hk, written_interrupted (List.cons_ne_nil b data)]
  | case3 k b data after hoffer =>
    have hanswer := answers_offer hk (List.cons_ne_nil b data)
    rw [hoffer] at hanswer
    cases hanswer with
    | stalled hcalls hroom hrefusal =>
      rw [written_of_nothing (List.cons_ne_nil b data) hcalls hroom, hrefusal]
      rfl
  | case4 k b data count after hoffer _ ih =>
    have hanswer := answers_offer hk (List.cons_ne_nil b data)
    rw [hoffer] at hanswer
    cases hanswer with
    | took hfront hafter =>
      subst hafter
      have hsplit : (b :: data).take (count + 1) ++ data.drop count = b :: data :=
        List.take_append_drop (count + 1) (b :: data)
      rw [ih hk, ← written_append hfront, hsplit]
  | case5 k b data after text hoffer =>
    have hanswer := answers_offer hk (List.cons_ne_nil b data)
    rw [hoffer] at hanswer
    cases hanswer with
    | failed hcalls hroom hrefusal =>
      rw [written_of_nothing (List.cons_ne_nil b data) hcalls hroom, hrefusal]
      rfl

/-- It makes no difference into which pieces the bytes are cut. -/
theorem writeEach_eq (hk : k.perCall ≠ some 0) (pieces : List Bytes) :
    k.writeEach pieces = k.written pieces.flatten := by
  induction pieces generalizing k with
  | nil => rw [writeEach, List.flatten_nil, written_nil]
  | cons piece pieces ih =>
    rw [writeEach, writeAll_eq hk, List.flatten_cons]
    by_cases hpiece : k.accepted piece = piece
    · have hwritten : k.written piece = (.ok (), k.filled piece) := by
        rw [written, if_pos hpiece]
      have hfilled : (k.filled piece).perCall ≠ some 0 := hk
      rw [hwritten, written_append hpiece, ← ih hfilled]
    · have hwritten : k.written piece = (.error k.refusal.message, k.filled piece) := by
        rw [written, if_neg hpiece]
      rw [written_append_of_ne hpiece, hwritten]

/-- A fresh sink takes all of some bytes, or as many as its limit says. -/
theorem written_of_fresh (hk : k.taken = []) (data : Bytes) :
    ((∀ limit, k.limit = some limit → data.length ≤ limit) →
      ∃ after, k.written data = (.ok (), after) ∧ after.taken = data) ∧
    ∀ limit, k.limit = some limit → limit < data.length →
      ∃ after, k.written data = (.error k.refusal.message, after) ∧
        after.taken = data.take limit := by
  have htaken : (k.filled data).taken = k.accepted data := by
    rw [filled, hk, List.nil_append]
  have hiff : k.accepted data = data ↔ ∀ limit, k.limit = some limit → data.length ≤ limit := by
    rw [accepted_eq_self_iff, hk, List.length_nil]
    rfl
  constructor
  · intro hfits
    have hall := hiff.mpr hfits
    exact ⟨k.filled data, by rw [written, if_pos hall], htaken.trans hall⟩
  · intro limit hlimit hlong
    have hpart : k.accepted data ≠ data := by
      intro hall
      exact Nat.not_le.mpr hlong (hiff.mp hall limit hlimit)
    refine ⟨k.filled data, by rw [written, if_neg hpart], ?_⟩
    rw [htaken, accepted, hlimit, hk]
    rfl

end Sink

/-- The pieces of an envelope make up its text. -/
theorem Envelope.flatten_pieces (e : Envelope) : e.pieces.flatten = Utf8.encode e.render := by
  rw [pieces, render, Json.Record.render, Utf8.encode_ofList]
  induction Json.Record.pieces members e.toRecord with
  | nil => rfl
  | cons piece pieces ih =>
    rw [List.map_cons, List.flatten_cons, List.flatten_cons, ih, Utf8.encode_ofList,
      Utf8.encodeChars_append]

namespace Scheme

variable {s : Scheme} {key plaintext : Bytes} {l after : Ledger} {e : SealError}

/-- What a primitive of a scheme may report when it is asked to seal. -/
inductive Reports (s : Scheme) (key plaintext : Bytes) (e : SealError) : Prop
  | key : s.cipher.validateKey key = .error e → Reports s key plaintext e
  | cipher {vector : Bytes} : s.cipher.encrypt key vector plaintext = .error e →
    Reports s key plaintext e
  | mac {message : Bytes} : s.mac.compute key message = .error e → Reports s key plaintext e

/-- Sealing adds to the reports of its primitives only what it has to say of the random source. -/
theorem reports_of_sealMessage (h : (s.sealMessage key plaintext).run l = (.error e, after)) :
    (∃ text, e = .randomSource text) ∨ s.Reports key plaintext e := by
  have hsame {f : SealError} {after' : Ledger}
      (hrun : (s.sealMessage key plaintext).run l = (.error f, after')) : f = e :=
    Except.error.inj (Prod.mk.inj (hrun.symm.trans h)).1
  cases hk : s.cipher.validateKey key with
  | error f =>
    obtain rfl := hsame (stops_of_refused hk).sealMessage
    exact .inr (.key hk)
  | ok u =>
    rcases hd : l.entropy.draw s.cipher.vectorLength with ⟨text | vector, rest⟩
    · exact .inl ⟨text, (hsame (stops_of_starved hk hd).sealMessage).symm⟩
    · cases hc : s.cipher.encrypt key vector plaintext with
      | error f =>
        obtain rfl := hsame (stops_of_unencrypted hk hd hc).sealMessage
        exact .inr (.cipher hc)
      | ok body =>
        cases hm : s.mac.compute key (vector ++ body) with
        | error f =>
          obtain rfl := hsame (stopsUntagged_of_untagged hk hd hc hm).sealMessage
          exact .inr (.mac hm)
        | ok tag =>
          rw [run_sealMessage (run_encrypt_ok hk hd hc), hm] at h
          simp [Except.map] at h

/-- The primitives of a suite have nothing to say of envelopes. -/
theorem not_reports_encode (suite : Suite) (reason : String) :
    ¬suite.scheme.Reports key plaintext (.encode reason) := by
  have hblock (vector : Bytes) (use : (Block → Block) → Block → Bytes) :
      Aes.withBlock key vector use ≠ .error (.encode reason) := by
    unfold Aes.withBlock
    split <;> simp
  have hvalidate : Aes.validateKey key ≠ .error (.encode reason) := by
    unfold Aes.validateKey
    split <;> simp
  have hencrypt : suite.scheme.cipher.encrypt ∈ Aes.runs := by
    cases suite <;> simp [Aes.runs, Suite.scheme]
  intro h
  cases h with
  | key hkey =>
    have hkey' : Aes.validateKey key = .error (.encode reason) := by
      cases suite <;> exact hkey
    exact hvalidate hkey'
  | @cipher vector hcipher =>
    obtain ⟨use, huse⟩ := Aes.exists_withBlock hencrypt key vector plaintext
    exact hblock vector use (huse.symm.trans hcipher)
  | mac hmac => cases suite <;> cases hmac

/-- Writing an envelope to a sink refines encoding. Let the sink be fresh, with any number of
interruptions ahead, any limit and any refusal behind it, and let a call take at least one byte if
there is room. If encoding fails so does writing, with the same error, and the sink is left alone.
Otherwise the sink gets the text of the encoding if that fits, and else as many bytes as the limit
says and an error of transport with the text of the refusal. The ledger is the same each time, the
random source in it. That a message could not be written as text is never said, unless by the
cipher or the MAC of the scheme. Then encoding says the same. Those of a suite never do. -/
theorem encodeTo_refines_encode (s : Scheme) (key plaintext : Bytes) (l : Ledger) (sink : Sink)
    (hcall : sink.perCall ≠ some 0) (hfresh : sink.taken = []) :
    (∀ e after, (s.encode key plaintext).run l = (.error e, after) →
      s.encodeTo key plaintext sink l = ((.error e, sink), after)) ∧
    (∀ text after, (s.encode key plaintext).run l = (.ok text, after) →
      ((∀ limit, sink.limit = some limit → (Utf8.encode text).length ≤ limit) →
        ∃ written, s.encodeTo key plaintext sink l = ((.ok (), written), after) ∧
          written.taken = Utf8.encode text) ∧
      ∀ limit, sink.limit = some limit → limit < (Utf8.encode text).length →
        ∃ written, s.encodeTo key plaintext sink l =
            ((.error (.io sink.refusal.message), written), after) ∧
          written.taken = (Utf8.encode text).take limit) ∧
    (s.encodeTo key plaintext sink l).2 = ((s.encode key plaintext).run l).2 ∧
    ∀ reason, (s.encodeTo key plaintext sink l).1.1 = .error (.encode reason) →
      ((s.encode key plaintext).run l).1 = .error (.encode reason) ∧
      s.Reports key plaintext (.encode reason) ∧ ∀ suite : Suite, s ≠ suite.scheme := by
  rcases hseal : (s.sealMessage key plaintext).run l with ⟨e | m, after⟩
  · obtain ⟨-, hencode, hencodeTo⟩ := stopsUntagged_of_run hseal
    refine ⟨?_, ?_, ?_, ?_⟩
    · intro f after' hrun
      obtain ⟨hf, rfl⟩ := Prod.mk.inj (hencode.symm.trans hrun)
      obtain rfl := Except.error.inj hf
      exact hencodeTo sink
    · intro text after' hrun
      rw [hencode] at hrun
      cases hrun
    · rw [hencodeTo, hencode]
    · intro reason hreason
      rw [hencodeTo] at hreason
      obtain rfl := Except.error.inj hreason
      rcases reports_of_sealMessage hseal with ⟨text, htext⟩ | hreports
      · cases htext
      · refine ⟨by rw [hencode], hreports, ?_⟩
        rintro suite rfl
        exact not_reports_encode suite reason hreports
  · obtain ⟨-, hencode, hok, herror⟩ := yields_of_run hseal
    have hwrite : sink.writeEach m.toEnvelope.pieces =
        sink.written (Utf8.encode m.toEnvelope.render) := by
      rw [Sink.writeEach_eq hcall, Envelope.flatten_pieces]
    have hfills := Sink.written_of_fresh hfresh (Utf8.encode m.toEnvelope.render)
    rw [← hwrite] at hfills
    refine ⟨?_, ?_, ?_, ?_⟩
    · intro f after' hrun
      rw [hencode] at hrun
      cases hrun
    · intro text after' hrun
      obtain ⟨htext, rfl⟩ := Prod.mk.inj (hencode.symm.trans hrun)
      obtain rfl := Except.ok.inj htext
      constructor
      · intro hlimit
        obtain ⟨written, hwritten, htaken⟩ := hfills.1 hlimit
        exact ⟨written, hok hwritten, htaken⟩
      · intro limit hlimit hlong
        obtain ⟨written, hwritten, htaken⟩ := hfills.2 limit hlimit hlong
        exact ⟨written, herror hwritten, htaken⟩
    · rcases hwritten : sink.writeEach m.toEnvelope.pieces with ⟨text | u, written⟩
      · rw [herror hwritten, hencode]
      · rw [hok hwritten, hencode]
    · intro reason hreason
      rcases hwritten : sink.writeEach m.toEnvelope.pieces with ⟨text | u, written⟩
      · rw [herror hwritten] at hreason
        cases hreason
      · rw [hok hwritten] at hreason
        cases hreason

/-- A sink that is interrupted three times, takes two bytes in a call and breaks off behind the
twentieth, and one that stalls at the first byte, both for a plaintext of 17 bytes; and a key that
is refused before either is asked. -/
theorem encodeTo_refines_encode_twenty :
    (∃ text after written,
      (encode ⟨aesCfb, hmacSha256⟩ (List.replicate 16 0) (List.replicate 17 5)).run
          ⟨⟨List.replicate 16 7, none⟩, [], []⟩ = (.ok text, after) ∧
      encodeTo ⟨aesCfb, hmacSha256⟩ (List.replicate 16 0) (List.replicate 17 5)
          ⟨3, some 2, some 20, .fails "gone", []⟩ ⟨⟨List.replicate 16 7, none⟩, [], []⟩ =
        ((.error (.io "gone"), written), after) ∧
        written.taken = (Utf8.encode text).take 20) ∧
    (∃ after written, encodeTo ⟨aesCfb, hmacSha256⟩ (List.replicate 16 0) (List.replicate 17 5)
        ⟨0, none, some 0, .takesNothing, []⟩ ⟨⟨List.replicate 16 7, none⟩, [], []⟩ =
          ((.error (.io "failed to write whole buffer"), written), after) ∧ written.taken = []) ∧
    encodeTo ⟨aesCfb, hmacSha256⟩ [1, 2, 3] (List.replicate 17 5)
        ⟨3, some 2, none, .takesNothing, []⟩ ⟨⟨List.replicate 16 7, none⟩, [], []⟩ =
      ((.error (.invalidKey 3), ⟨3, some 2, none, .takesNothing, []⟩),
        ⟨⟨List.replicate 16 7, none⟩, [.validateKey [1, 2, 3]], []⟩) := by
  have hkey : (List.replicate 16 0 : Bytes).length ∈ Aes.keyLengths := by decide
  have hsource : Entropy.Holds ⟨List.replicate 16 7, none⟩ 16 := ⟨rfl, by decide⟩
  obtain ⟨m, after, h⟩ := Suite.aesCfbHmacSha256.exists_roundTrip
    (l := ⟨⟨List.replicate 16 7, none⟩, [], []⟩) hkey hsource (List.replicate 17 5)
  have hencode := run_encode h.sealed
  have hlength := m.length_render_toEnvelope
  refine ⟨?_, ?_, ?_⟩
  · obtain ⟨written, hwritten, htaken⟩ :=
      ((encodeTo_refines_encode ⟨aesCfb, hmacSha256⟩ (List.replicate 16 0) (List.replicate 17 5) _
        ⟨3, some 2, some 20, .fails "gone", []⟩ (by decide) rfl).2.1 _ after hencode).2 20 rfl
          (by omega)
    exact ⟨_, after, written, hencode, hwritten, htaken⟩
  · obtain ⟨written, hwritten, htaken⟩ :=
      ((encodeTo_refines_encode ⟨aesCfb, hmacSha256⟩ (List.replicate 16 0) (List.replicate 17 5) _
        ⟨0, none, some 0, .takesNothing, []⟩ (by decide) rfl).2.1 _ after hencode).2 0 rfl
          (by omega)
    exact ⟨after, written, hwritten, htaken⟩
  · exact (encodeTo_refines_encode ⟨aesCfb, hmacSha256⟩ [1, 2, 3] (List.replicate 17 5) _
      ⟨3, some 2, none, .takesNothing, []⟩ (by decide) rfl).1 _ _ (stops_of_refused rfl).encode

/-- A cipher that turns away every key, and says of it what is meant for messages. -/
def misspeaking : FeedbackCipher where
  name := "misspeaking"
  vectorLength := 16
  validateKey _ := .error (.encode "key refused")
  encrypt _ _ data := .ok data
  decrypt _ _ data := .ok data

/-- What a cipher says is passed on as it stands: writing under one that misspeaks says that a
message could not be written as text. -/
theorem encodeTo_misspeaking :
    encodeTo ⟨misspeaking, hmacSha256⟩ (List.replicate 16 0) (List.replicate 17 5)
        ⟨3, some 2, none, .takesNothing, []⟩ ⟨⟨List.replicate 16 7, none⟩, [], []⟩ =
      ((.error (.encode "key refused"), ⟨3, some 2, none, .takesNothing, []⟩),
        ⟨⟨List.replicate 16 7, none⟩, [.validateKey (List.replicate 16 0)], []⟩) := by
  rfl

end Scheme

end Sealing
