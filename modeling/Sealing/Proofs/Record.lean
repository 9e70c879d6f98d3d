import Sealing.Proofs.Literal
import Sealing.Proofs.Numeral

/-!
# Records are read back

A written record is read back as itself, whatever its members are: every text and every count is
recovered, provided that no two members share a name. The members that have been read so far stand
in the draft; the proof goes through the others one by one, as a tail of the whole list.
-/

namespace Sealing.Json

variable {rest : Bytes}

/-- What follows a value in an object. -/
def EndsValue (rest : Bytes) : Prop :=
  ∃ b s, rest = b :: s ∧ (b = Ascii.comma ∨ b = Ascii.closeBrace)

/-- What ends a value ends a number. -/
theorem EndsValue.endsNumber (h : EndsValue rest) : EndsNumber rest := by
  obtain ⟨b, s, rfl, rfl | rfl⟩ := h
  · rintro c ⟨⟩
    decide
  · rintro c ⟨⟩
    decide

/-- In front of a byte that is not blank there are no blanks to skip. -/
theorem skipBlanks_cons {b : UInt8} (h : isBlank b = false) (s : Bytes) :
    skipBlanks (b :: s) = b :: s :=
  List.dropWhile_cons_of_neg (Bool.eq_false_iff.mp h)

/-- A digit is not blank. -/
theorem not_isBlank_of_isDigit {b : UInt8} (h : Ascii.isDigit b = true) :
    isBlank b = false := by
  cases hb : isBlank b with
  | false => rfl
  | true =>
    simp only [isBlank, Bool.or_eq_true, beq_iff_eq] at hb
    rcases hb with ((rfl | rfl) | rfl) | rfl <;> contradiction

/-- Every value is read back from its written form. -/
theorem readValue_render (kind : Kind) (v : kind.Carrier) (hrest : EndsValue rest) :
    readValue kind (Utf8.encodeChars (kind.render v) ++ rest) = .ok (v, rest) := by
  cases kind with
  | text =>
    rw [Kind.render, encodeChars_literal, List.append_assoc, List.cons_append,
      List.singleton_append, readValue, skipBlanks_cons rfl]
    simp only [readQuoted, ite_true, readText_flatMap_escaped]
  | count =>
    obtain ⟨b, s, hs, hdigit, hcount⟩ := readCount_toDigits v hrest.endsNumber
    rw [Kind.render, hs, readValue, skipBlanks_cons (not_isBlank_of_isDigit hdigit)]
    exact hcount

/-- A name is read back from its literal. -/
theorem openName_literal (name : String) (rest : Bytes) :
    openName Ascii.quotation (Utf8.encodeChars (name.toList.flatMap escaped) ++
      Ascii.quotation :: rest) = .ok (some (name, rest)) := by
  rw [openName, if_pos rfl, readText_flatMap_escaped]

/-- The first name of an object stands right after its opening. -/
theorem readName_true_cons {b : UInt8} (hblank : isBlank b = false) (hclose : b ≠ Ascii.closeBrace)
    (s : Bytes) : readName true (b :: s) = openName b s := by
  rw [readName, skipBlanks_cons hblank]
  simp only [if_neg hclose, ite_true]

/-- Every other name stands after a comma. -/
theorem readName_false_cons {b : UInt8} (hblank : isBlank b = false)
    (hclose : b ≠ Ascii.closeBrace) (s : Bytes) :
    readName false (Ascii.comma :: b :: s) = openName b s := by
  have hcomma : Ascii.comma ≠ Ascii.closeBrace := by decide
  rw [readName, skipBlanks_cons rfl]
  simp only [skipBlanks_cons hblank, if_neg hcomma, if_neg hclose, Bool.false_eq_true, ite_true,
    ite_false]

private theorem readName_first (name : String) (rest : Bytes) :
    readName true (Utf8.encodeChars (literal name) ++ rest) = .ok (some (name, rest)) := by
  rw [encodeChars_literal, List.append_assoc, List.cons_append, List.singleton_append,
    readName_true_cons rfl (by decide), openName_literal]

private theorem readName_next (name : String) (rest : Bytes) :
    readName false (Ascii.comma :: Utf8.encodeChars (literal name) ++ rest) =
      .ok (some (name, rest)) := by
  rw [encodeChars_literal, List.cons_append, List.append_assoc, List.cons_append,
    List.singleton_append, readName_false_cons rfl (by decide), openName_literal]

private theorem readColon_cons (s : Bytes) : readColon (Ascii.colon :: s) = .ok s := by
  rw [readColon, skipBlanks_cons rfl]
  exact if_pos rfl

namespace Record

variable {m : String × Kind} {ms : Members}

/-- A record with one more value at its front. -/
def cons (v : m.2.Carrier) (r : Record ms) : Record (m :: ms) := (v, r)

/-- A record has a first value, and the others. -/
theorem exists_cons (r : Record (m :: ms)) : ∃ v r', r = cons v r' := ⟨r.1, r.2, rfl⟩

/-- The pieces of a record are those of its first member and then of the others. -/
theorem memberPieces_cons (separator : List Char) (v : m.2.Carrier) (r : Record ms) :
    memberPieces (m :: ms) separator (cons v r) =
      separator :: literal m.1 :: [':'] :: m.2.render v :: memberPieces ms [','] r := rfl

end Record

namespace Draft

variable {m : String × Kind} {ms : Members}

/-- A draft with one more place at its front. -/
def cons (v : Option m.2.Carrier) (d : Draft ms) : Draft (m :: ms) := (v, d)

/-- A draft is empty if all its places are. -/
theorem empty_cons : empty (m :: ms) = cons none (empty ms) := rfl

/-- A completed draft has its first value in front. -/
theorem complete_cons (v : m.2.Carrier) (d : Draft ms) :
    (cons (some v) d).complete (m :: ms) = (d.complete ms).map (Record.cons v) := by
  rw [cons, complete]
  cases d.complete ms <;> rfl

/-- Another name is looked for in the places behind the first. -/
theorem readMember_cons_of_ne {name : String} (h : name ≠ m.1) (v : Option m.2.Carrier)
    (d : Draft ms) (s : Bytes) :
    (cons v d).readMember (m :: ms) name s =
      (d.readMember ms name s).map fun (d, rest) => (cons v d, rest) := by
  cases v with
  | none =>
    rw [cons, readMember, if_neg h]
    cases d.readMember ms name s <;> rfl
  | some v =>
    rw [cons, readMember, if_neg h]
    cases d.readMember ms name s <;> rfl

/-- The value of the first name fills the first place. -/
theorem readMember_cons_self {v : m.2.Carrier} {s : Bytes} (d : Draft ms)
    (h : readValue m.2 s = .ok (v, rest)) :
    (cons none d).readMember (m :: ms) m.1 (Ascii.colon :: s) = .ok (cons (some v) d, rest) := by
  simp only [cons, readMember, ite_true, readColon_cons, h]

end Draft

/-- The last members of a list, seen from the whole: where their values stand in a draft and in a
record. Their names are found there, and nothing but their values is missing. -/
structure Tail (all ms : Members) where
  toDraft : Draft ms → Draft all
  toRecord : Record ms → Record all
  readMember_toDraft (d : Draft ms) {name : String} (s : Bytes) : name ∈ ms.map Prod.fst →
    (toDraft d).readMember all name s =
      (d.readMember ms name s).map fun (d, rest) => (toDraft d, rest)
  complete_toDraft (d : Draft ms) : (toDraft d).complete all = (d.complete ms).map toRecord

namespace Tail

variable {all ms : Members} {m : String × Kind}

/-- All members. -/
def whole (ms : Members) : Tail ms ms where
  toDraft d := d
  toRecord r := r
  readMember_toDraft d _ s _ := by cases d.readMember ms _ s <;> rfl
  complete_toDraft d := by cases d.complete ms <;> rfl

/-- The members after the first, which has got its value. -/
def next (t : Tail all (m :: ms)) (hm : m.1 ∉ ms.map Prod.fst) (v : m.2.Carrier) :
    Tail all ms where
  toDraft d := t.toDraft (.cons (some v) d)
  toRecord r := t.toRecord (.cons v r)
  readMember_toDraft d name s hname := by
    have hne : name ≠ m.1 := fun h => hm (h ▸ hname)
    rw [t.readMember_toDraft _ s (List.mem_cons_of_mem m.1 hname),
      Draft.readMember_cons_of_ne hne]
    cases d.readMember ms name s <;> rfl
  complete_toDraft d := by
    rw [t.complete_toDraft, Draft.complete_cons]
    cases d.complete ms <;> rfl

end Tail

section Steps

variable {ms : Members} {d e : Draft ms} {isFirst : Bool} {s rest' : Bytes} {name : String}

/-- A name and its value are read into the draft, and then the other members. -/
theorem readMembers_of_readName (hn : readName isFirst s = .ok (some (name, rest)))
    (hm : d.readMember ms name rest = .ok (e, rest')) :
    readMembers ms d isFirst s = readMembers ms e false rest' := by
  rw [readMembers]
  split
  · next h => simp [hn] at h
  · next h => simp [hn] at h
  · next h =>
    rw [hn] at h
    obtain ⟨rfl, rfl⟩ := Prod.mk.inj (Option.some.inj (Except.ok.inj h))
    split
    · next h => simp [hm] at h
    · next h =>
      rw [hm] at h
      obtain ⟨rfl, rfl⟩ := Prod.mk.inj (Except.ok.inj h)
      rfl

/-- At the end of the object the draft has to be complete. -/
theorem readMembers_of_end {r : Record ms} (hn : readName isFirst s = .ok none)
    (hr : d.complete ms = .ok r) :
    readMembers ms d isFirst s = .ok (r, beyond .object s) := by
  rw [readMembers]
  split
  · next h => simp [hn] at h
  · rw [hr]
  · next h => simp [hn] at h

end Steps

section Written

variable {all ms : Members} {m : String × Kind}

/-- What follows a value in a record ends it: a comma or the closing brace. -/
theorem endsValue_memberPieces (ms : Members) (r : Record ms) (rest : Bytes) :
    EndsValue (Utf8.encodeChars (Record.memberPieces ms [','] r).flatten ++
      Ascii.closeBrace :: rest) := by
  cases ms with
  | nil => exact ⟨_, rest, rfl, .inr rfl⟩
  | cons m ms => exact ⟨Ascii.comma, _, rfl, .inl rfl⟩

/-- A written member fills its place. -/
theorem readMembers_member (t : Tail all (m :: ms)) (hm : m.1 ∉ ms.map Prod.fst)
    {v : m.2.Carrier} {isFirst : Bool} {s : Bytes} (hrest : EndsValue rest)
    (hn : readName isFirst s = .ok (some (m.1,
      Ascii.colon :: (Utf8.encodeChars (m.2.render v) ++ rest)))) :
    readMembers all (t.toDraft (.empty (m :: ms))) isFirst s =
      readMembers all ((t.next hm v).toDraft (.empty ms)) false rest := by
  refine readMembers_of_readName hn ?_
  rw [t.readMember_toDraft _ _ List.mem_cons_self, Draft.empty_cons,
    Draft.readMember_cons_self _ (readValue_render m.2 v hrest)]
  rfl

/-- The members that follow a written value are read up to the end of the object. -/
theorem readMembers_memberPieces (t : Tail all ms) (h : (ms.map Prod.fst).Nodup) (r : Record ms)
    (rest : Bytes) :
    readMembers all (t.toDraft (.empty ms)) false
        (Utf8.encodeChars (Record.memberPieces ms [','] r).flatten ++
          Ascii.closeBrace :: rest) =
      .ok (t.toRecord r, rest) := by
  induction ms with
  | nil =>
    have hend : readName false (Ascii.closeBrace :: rest) = .ok none := by
      rw [readName, skipBlanks_cons rfl]
      exact if_pos rfl
    have hcomplete : (t.toDraft (.empty [])).complete all = .ok (t.toRecord r) :=
      t.complete_toDraft _
    rw [Record.memberPieces, List.flatten_nil, Utf8.encodeChars_nil, List.nil_append,
      readMembers_of_end hend hcomplete, beyond, skipBlanks_cons rfl]
    rfl
  | cons m ms ih =>
    obtain ⟨hm, hms⟩ := List.nodup_cons.mp h
    obtain ⟨v, r, rfl⟩ := r.exists_cons
    have hrest := endsValue_memberPieces ms r rest
    rw [Record.memberPieces_cons]
    simp only [List.flatten_cons, Utf8.encodeChars_append, List.append_assoc]
    refine (readMembers_member t hm hrest (readName_next m.1 _)).trans ?_
    exact ih (t.next hm v) hms r

/-- The bytes of a written record. -/
theorem encodeChars_pieces (v : m.2.Carrier) (r : Record ms) :
    Utf8.encodeChars (Record.pieces (m :: ms) (.cons v r)).flatten = Ascii.openBrace ::
      (Utf8.encodeChars (literal m.1) ++ Ascii.colon :: (Utf8.encodeChars (m.2.render v) ++
        (Utf8.encodeChars (Record.memberPieces ms [','] r).flatten ++ [Ascii.closeBrace]))) := by
  rw [Record.pieces, Record.memberPieces_cons]
  simp only [List.cons_append, List.flatten_cons, List.flatten_append, List.flatten_nil,
    List.nil_append, List.append_nil, Utf8.encodeChars_cons, Utf8.encodeChars_append,
    Utf8.encodeChars_nil]
  rfl

/-- A record with at least one member is read back, whatever follows it. -/
theorem readRecord_pieces (title : String) (h : (ms.map Prod.fst).Nodup) (hne : ms ≠ [])
    (r : Record ms) (rest : Bytes) :
    readRecord title ms (Utf8.encodeChars (Record.pieces ms r).flatten ++ rest) =
      .ok (r, rest) := by
  obtain ⟨m, ms, rfl⟩ := List.exists_cons_of_ne_nil hne
  obtain ⟨hm, hms⟩ := List.nodup_cons.mp h
  obtain ⟨v, r, rfl⟩ := r.exists_cons
  have hrest := endsValue_memberPieces ms r rest
  rw [encodeChars_pieces, List.cons_append, readRecord, skipBlanks_cons rfl]
  simp only [List.append_assoc, List.cons_append, List.nil_append]
  refine (readMembers_member (.whole (m :: ms)) hm hrest (readName_first m.1 _)).trans ?_
  exact readMembers_memberPieces _ hms r rest

/-- Parsing inverts writing for every record whose members have different names. -/
theorem parseRecord_render (title : String) (h : (ms.map Prod.fst).Nodup) (hne : ms ≠ [])
    (r : Record ms) : parseRecord title ms (Utf8.encode (Record.render ms r)) = .ok r := by
  have hrecord := readRecord_pieces title h hne r []
  rw [List.append_nil] at hrecord
  simp only [parseRecord, readWhole, Record.render, Utf8.encode_ofList, hrecord]
  rfl

/-- What is made of a record is made of the one that is read back. -/
theorem map_parseRecord_render {α : Type} (title : String) (h : (ms.map Prod.fst).Nodup)
    (hne : ms ≠ []) (make : Record ms → α) (r : Record ms) :
    (parseRecord title ms (Utf8.encode (Record.render ms r))).map make = .ok (make r) := by
  rw [parseRecord_render title h hne r]
  rfl

end Written

end Sealing.Json
