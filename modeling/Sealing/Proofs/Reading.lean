import Sealing.Proofs.Transport

/-!
# Reading from a source

A source is read into a buffer that grows: each read has room for at least one byte, meets the next
delivery or the front of it, and is made again after an interruption. The first delivery that ends
the input or fails is the last that is met. How much room a read has, how the bytes are cut and
where the interruptions stand makes no difference to what has been read by then. So whoever opens
an envelope from a source opens the bytes in front of the first end, and does nothing with those in
front of a failure.
-/

namespace Sealing

namespace Delivery

/-- The bytes of a delivery. -/
def bytes : Delivery → Bytes
  | chunk data => data
  | _ => []

/-- Reading goes on after a delivery that is neither the end of the input nor a failure. -/
inductive Continues : Delivery → Prop
  | chunk {data : Bytes} : data ≠ [] → Continues (.chunk data)
  | interruption : Continues .interruption

instance : DecidablePred Continues
  | .chunk [] => .isFalse fun h => by
    cases h with
    | chunk hdata => exact hdata rfl
  | .chunk (b :: data) => .isTrue (.chunk (List.cons_ne_nil b data))
  | .interruption => .isTrue .interruption
  | .failure _ => .isFalse nofun

end Delivery

namespace Source

variable {source before after rest : Source} {delivery : Delivery} {data : Bytes}

/-! ## One read -/

/-- What one read meets that has room for so many bytes, and what is left of the source. -/
def read (room : Nat) : Source → Delivery × Source
  | [] => (.chunk [], [])
  | .chunk data :: rest =>
    if data.length ≤ room then (.chunk data, rest)
    else (.chunk (data.take room), .chunk (data.drop room) :: rest)
  | delivery :: rest => (delivery, rest)

/-- What a read with room for at least one byte can meet. -/
inductive Meets : Source → Delivery → Source → Prop
  | nothing : Meets [] (.chunk []) []
  | whole (delivery : Delivery) (rest : Source) : Meets (delivery :: rest) delivery rest
  | front {data more : Bytes} (rest : Source) : data ≠ [] → more ≠ [] →
    Meets (.chunk (data ++ more) :: rest) (.chunk data) (.chunk more :: rest)

/-- What a read with room for at least one byte meets is what it can meet. -/
theorem meets_read {room : Nat} (h : source.read (room + 1) = (delivery, rest)) :
    source.Meets delivery rest := by
  unfold read at h
  split at h
  · obtain ⟨rfl, rfl⟩ := Prod.mk.inj h
    exact .nothing
  · rename_i data behind
    split at h
    · obtain ⟨rfl, rfl⟩ := Prod.mk.inj h
      exact .whole _ _
    · rename_i hlong
      obtain ⟨rfl, rfl⟩ := Prod.mk.inj h
      have hfront : data.take (room + 1) ≠ [] := by
        intro hnil
        have hlength := congrArg List.length hnil
        simp only [List.length_take, List.length_nil] at hlength
        omega
      have hback : data.drop (room + 1) ≠ [] := by
        intro hnil
        exact hlong (List.drop_eq_nil_iff.mp hnil)
      have hmeets := Meets.front behind hfront hback
      rwa [List.take_append_drop] at hmeets
  · obtain ⟨rfl, rfl⟩ := Prod.mk.inj h
    exact .whole _ _

/-! ## The loop -/

/-- More reads than it takes to meet all of a source, a byte at a time. -/
def weight : Source → Nat
  | [] => 0
  | delivery :: rest => delivery.bytes.length + 1 + weight rest

/-- A read after which reading goes on leaves less. -/
theorem Meets.weight_lt (h : source.Meets delivery rest) (hgo : delivery.Continues) :
    rest.weight < source.weight := by
  cases h with
  | nothing =>
    cases hgo with
    | chunk hdata => exact absurd rfl hdata
  | whole =>
    rw [weight]
    omega
  | @front data more rest hdata =>
    have hpos := List.length_pos_iff.mpr hdata
    simp only [weight, Delivery.bytes, List.length_append]
    omega

/-- Reads into a buffer up to the end of input or the first failure, and tells what is left of the
source. The room for a read may depend on all that has been met, the last read first. -/
def fill (room : List Delivery → Nat) (met : List Delivery) (buffer : Bytes) (source : Source) :
    Except String Bytes × Source :=
  match h : source.read (room met + 1) with
  | (.chunk [], rest) => (.ok buffer, rest)
  | (.chunk (b :: data), rest) =>
    have := (meets_read h).weight_lt (.chunk (List.cons_ne_nil b data))
    fill room (.chunk (b :: data) :: met) (buffer ++ b :: data) rest
  | (.interruption, rest) =>
    have := (meets_read h).weight_lt .interruption
    fill room (.interruption :: met) buffer rest
  | (.failure text, rest) => (.error text, rest)
termination_by source.weight

/-- What stands behind the first end of input or failure. -/
def unread : Source → Source
  | [] => []
  | .interruption :: rest => unread rest
  | .failure _ :: rest => rest
  | .chunk [] :: rest => rest
  | .chunk (_ :: _) :: rest => unread rest

/-- Bytes that are delivered come in front of what is read later. -/
theorem readAll_chunk (hdata : data ≠ []) (rest : Source) :
    readAll (.chunk data :: rest) = rest.readAll.map (data ++ ·) := by
  obtain ⟨b, data, rfl⟩ := List.exists_cons_of_ne_nil hdata
  rw [readAll]
  cases rest.readAll <;> rfl

private theorem unread_chunk (hdata : data ≠ []) (rest : Source) :
    unread (.chunk data :: rest) = rest.unread := by
  obtain ⟨b, data, rfl⟩ := List.exists_cons_of_ne_nil hdata
  rw [unread]

private theorem map_append_append (r : Except String Bytes) (front data : Bytes) :
    (r.map (data ++ ·)).map (front ++ ·) = r.map (front ++ data ++ ·) := by
  cases r with
  | error text => rfl
  | ok more => simp only [Except.map, List.append_assoc]

/-- Bytes that are met come in front of all that is read later, also if they are only the front of
what is delivered. -/
theorem Meets.readAll_chunk (h : source.Meets (.chunk data) rest) (hdata : data ≠ []) :
    source.readAll = rest.readAll.map (data ++ ·) ∧ source.unread = rest.unread := by
  cases h with
  | nothing => exact absurd rfl hdata
  | whole => exact ⟨Source.readAll_chunk hdata rest, unread_chunk hdata rest⟩
  | @front _ more rest _ hmore =>
    have hall : data ++ more ≠ [] := List.append_ne_nil_of_left_ne_nil hdata more
    rw [Source.readAll_chunk hall, Source.readAll_chunk hmore, unread_chunk hall,
      unread_chunk hmore, map_append_append]
    exact ⟨rfl, rfl⟩

/-- The loop reads what there is up to the first end or failure, and leaves the rest, with any room
for each read. -/
theorem fill_eq (room : List Delivery → Nat) (met : List Delivery) (buffer : Bytes)
    (source : Source) :
    source.fill room met buffer = (source.readAll.map (buffer ++ ·), source.unread) := by
  fun_induction fill room met buffer source with
  | case1 met buffer source rest h =>
    have hread : source.readAll = .ok [] ∧ source.unread = rest := by
      cases meets_read h with
      | nothing => exact ⟨rfl, rfl⟩
      | whole => exact ⟨rfl, rfl⟩
      | front _ hdata => exact absurd rfl hdata
    rw [hread.1, hread.2, Except.map, List.append_nil]
  | case2 met buffer source b data rest h _ ih =>
    have hread := (meets_read h).readAll_chunk (List.cons_ne_nil b data)
    rw [ih, hread.1, hread.2, map_append_append]
  | case3 met buffer source rest h _ ih =>
    cases meets_read h with
    | whole => rw [ih, readAll, unread]
  | case4 met buffer source text rest h =>
    cases meets_read h with
    | whole => rfl

/-! ## Where reading stops -/

/-- The input ends behind some deliveries, because a read meets no bytes or nothing is left. -/
def Ends (source before after : Source) : Prop :=
  (∀ delivery ∈ before, delivery.Continues) ∧
    (source = before ∧ after = [] ∨ source = before ++ .chunk [] :: after)

/-- A failure comes first. -/
def Fails (source before : Source) (text : String) (after : Source) : Prop :=
  (∀ delivery ∈ before, delivery.Continues) ∧ source = before ++ .failure text :: after

/-- Deliveries after which reading goes on are read in front of the others. -/
theorem readAll_append (hbefore : ∀ delivery ∈ before, delivery.Continues) (rest : Source) :
    readAll (before ++ rest) = rest.readAll.map (before.flatMap Delivery.bytes ++ ·) ∧
      unread (before ++ rest) = rest.unread := by
  induction before with
  | nil =>
    refine ⟨?_, rfl⟩
    cases hrest : rest.readAll <;> simp [hrest, Except.map]
  | cons delivery before ih =>
    obtain ⟨hread, hunread⟩ := ih fun d hd => hbefore d (List.mem_cons_of_mem _ hd)
    rw [List.cons_append, List.flatMap_cons]
    cases hbefore delivery List.mem_cons_self with
    | chunk hdata =>
      rw [readAll_chunk hdata, unread_chunk hdata, hread, hunread, map_append_append]
      exact ⟨rfl, rfl⟩
    | interruption =>
      rw [readAll, unread]
      exact ⟨hread, hunread⟩

/-- Filling goes through all deliveries after which reading goes on. -/
theorem fill_append (hbefore : ∀ delivery ∈ before, delivery.Continues) (rest : Source)
    (room : List Delivery → Nat) : fill room [] [] (before ++ rest) =
      (rest.readAll.map (before.flatMap Delivery.bytes ++ ·), rest.unread) := by
  obtain ⟨hread, hunread⟩ := readAll_append hbefore rest
  rw [fill_eq, hread, hunread, map_append_append]
  rfl

/-- The loop stops at the end of the input, with all bytes before it. -/
theorem Ends.fill (h : source.Ends before after) (room : List Delivery → Nat) :
    source.fill room [] [] = (.ok (before.flatMap Delivery.bytes), after) := by
  obtain ⟨hbefore, ⟨rfl, rfl⟩ | rfl⟩ := h
  · have hfill := fill_append hbefore [] room
    rw [List.append_nil] at hfill
    rw [hfill, readAll, unread, Except.map, List.append_nil]
  · rw [fill_append hbefore, readAll, unread, Except.map, List.append_nil]

/-- The loop stops at a failure. -/
theorem Fails.fill {text : String} (h : source.Fails before text after)
    (room : List Delivery → Nat) : source.fill room [] [] = (.error text, after) := by
  obtain ⟨hbefore, rfl⟩ := h
  rw [fill_append hbefore, readAll, unread, Except.map]

/-- Where reading goes on, the input ends as it does behind. -/
theorem Ends.cons (hgo : delivery.Continues) (h : rest.Ends before after) :
    Ends (delivery :: rest) (delivery :: before) after := by
  obtain ⟨hbefore, hrest⟩ := h
  refine ⟨List.forall_mem_cons.mpr ⟨hgo, hbefore⟩, ?_⟩
  rcases hrest with ⟨rfl, rfl⟩ | rfl
  · exact .inl ⟨rfl, rfl⟩
  · exact .inr rfl

/-- Where reading goes on, the input fails as it does behind. -/
theorem Fails.cons {text : String} (hgo : delivery.Continues) (h : rest.Fails before text after) :
    Fails (delivery :: rest) (delivery :: before) text after := by
  obtain ⟨hbefore, rfl⟩ := h
  exact ⟨List.forall_mem_cons.mpr ⟨hgo, hbefore⟩, rfl⟩

/-- Input ends or fails. -/
theorem ends_or_fails (source : Source) : (∃ before after, source.Ends before after) ∨
    ∃ before text after, source.Fails before text after := by
  induction source with
  | nil => exact .inl ⟨[], [], by simp, .inl ⟨rfl, rfl⟩⟩
  | cons delivery rest ih =>
    have hlater (hgo : delivery.Continues) :
        (∃ before after, Ends (delivery :: rest) before after) ∨
          ∃ before text after, Fails (delivery :: rest) before text after := by
      rcases ih with ⟨before, after, h⟩ | ⟨before, text, after, h⟩
      · exact .inl ⟨delivery :: before, after, h.cons hgo⟩
      · exact .inr ⟨delivery :: before, text, after, h.cons hgo⟩
    cases delivery with
    | chunk data =>
      by_cases hdata : data = []
      · subst hdata
        exact .inl ⟨[], rest, by simp, .inr rfl⟩
      · exact hlater (.chunk hdata)
    | interruption => exact hlater .interruption
    | failure text => exact .inr ⟨[], text, rest, by simp, rfl⟩

end Source

namespace Scheme

/-- Opening an envelope from a source is reading it by the loop and opening what has been read. -/
theorem decodeFrom_eq_fill (s : Scheme) (key : Bytes) (source : Source)
    (room : List Delivery → Nat) :
    s.decodeFrom key source =
      match (source.fill room [] []).1 with
      | .ok text => s.decodeBytes key text
      | .error text => throw (.io text) := by
  rw [Source.fill_eq, decodeFrom]
  cases source.readAll <;> rfl

/-- Opening from a source refines opening bytes. Every source ends or fails. If it ends, opening
from it gives the result and makes the calls of opening the bytes in front of the end, in one
piece. If a failure comes first the result is an error of transport with its text, and nothing is
called, whatever has been read before. What stands behind the end or the failure is left where it
is. All of this holds with any room for each read. -/
theorem decodeFrom_refines_decodeBytes (s : Scheme) (key : Bytes) (source : Source) :
    (∀ before after, source.Ends before after →
      (∀ l, (s.decodeFrom key source).run l =
        (s.decodeBytes key (before.flatMap Delivery.bytes)).run l) ∧
      ∀ room, source.fill room [] [] = (.ok (before.flatMap Delivery.bytes), after)) ∧
    (∀ before text after, source.Fails before text after →
      (∀ l, (s.decodeFrom key source).run l = (.error (.io text), l)) ∧
      ∀ room, source.fill room [] [] = (.error text, after)) ∧
    (∀ room, s.decodeFrom key source =
      match (source.fill room [] []).1 with
      | .ok text => s.decodeBytes key text
      | .error text => throw (.io text)) ∧
    ((∃ before after, source.Ends before after) ∨
      ∃ before text after, source.Fails before text after) := by
  refine ⟨?_, ?_, s.decodeFrom_eq_fill key source, source.ends_or_fails⟩
  · intro before after h
    refine ⟨?_, h.fill⟩
    intro l
    rw [s.decodeFrom_eq_fill key source fun _ => 0, h.fill]
  · intro before text after h
    refine ⟨?_, h.fill⟩
    intro l
    rw [s.decodeFrom_eq_fill key source fun _ => 0, h.fill]
    rfl

/-- The text of an empty object, cut in two and interrupted, with a failure behind the end of input
that is never met; and the same text in front of a failure. -/
theorem decodeFrom_refines_decodeBytes_braces :
    (decodeFrom ⟨aesCfb, hmacSha256⟩ [7] [.interruption, .chunk [0x7b], .interruption,
        .chunk [0x7d], .chunk [], .failure "late"]).run ⟨⟨[], none⟩, [], []⟩ =
      (decodeBytes ⟨aesCfb, hmacSha256⟩ [7] [0x7b, 0x7d]).run ⟨⟨[], none⟩, [], []⟩ ∧
    Source.fill (fun _ => 0) [] []
        [.interruption, .chunk [0x7b], .interruption, .chunk [0x7d], .chunk [], .failure "late"] =
      (.ok [0x7b, 0x7d], [.failure "late"]) ∧
    (decodeFrom ⟨aesCfb, hmacSha256⟩ [7]
        [.chunk [0x7b, 0x7d], .interruption, .failure "gone", .chunk []]).run ⟨⟨[], none⟩, [], []⟩ =
      (.error (.io "gone"), ⟨⟨[], none⟩, [], []⟩) := by
  have hended := (decodeFrom_refines_decodeBytes ⟨aesCfb, hmacSha256⟩ [7]
    [.interruption, .chunk [0x7b], .interruption, .chunk [0x7d], .chunk [], .failure "late"]).1
      [.interruption, .chunk [0x7b], .interruption, .chunk [0x7d]] [.failure "late"]
      ⟨by decide, .inr rfl⟩
  have hfailed := (decodeFrom_refines_decodeBytes ⟨aesCfb, hmacSha256⟩ [7]
    [.chunk [0x7b, 0x7d], .interruption, .failure "gone", .chunk []]).2.1
      [.chunk [0x7b, 0x7d], .interruption] "gone" [.chunk []] ⟨by decide, rfl⟩
  exact ⟨hended.1 _, hended.2 _, hfailed.1 _⟩

end Scheme

end Sealing
