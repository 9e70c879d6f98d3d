import Sealing.Proofs.Count
import Sealing.Proofs.Repertoire
import Sealing.Proofs.Skipping

/-!
# The object forms of a record

An object is read as a record exactly if the name of every member stands in it once, in front of a
written form of its value. Other members may have any values. The members of the object are read
one by one, so what is followed is what those that are still to come have to do for the places of
the draft.
-/

namespace Sealing.Json

variable {s rest : Bytes} {name : String} {m : String × Kind} {ms : Members}
  {found : List (String × Bytes)}

/-! ## Values -/

/-- The written forms of a value. -/
def Kind.Writes : (kind : Kind) → kind.Carrier → Bytes → Prop
  | text, t, s => Quotes s t
  | count, n, s => IsWhole s ∧ decimalFrom 0 s = n.toNat

/-- A whole number is a number. -/
theorem IsWhole.isNumber (h : IsWhole s) : IsNumber s :=
  .inl ⟨s, [], [], h, .inl rfl, .inl rfl, (List.append_nil s).symm⟩

/-- What a value is written as is a value of the grammar. -/
theorem Kind.Writes.derives {kind : Kind} {v : kind.Carrier} (h : kind.Writes v s) :
    Derives .bytes .value s := by
  cases kind with
  | text => exact Quotes.derives h
  | count => exact .number h.1.isNumber

/-- What is read as a value is a written form of it, with blanks in front. -/
theorem exists_of_readValue {kind : Kind} {v : kind.Carrier}
    (h : readValue kind s = .ok (v, rest)) :
    ∃ blanks t, IsBlanks blanks ∧ kind.Writes v t ∧ s = blanks ++ (t ++ rest) := by
  unfold readValue at h
  split at h
  · contradiction
  · next b t hs =>
    obtain ⟨blanks, hblanks, rfl⟩ := exists_of_skipBlanks hs
    cases kind with
    | text =>
      dsimp only [readQuoted] at h
      split at h
      · next hquotation =>
        obtain rfl := hquotation
        obtain ⟨content, hcontent, rfl⟩ := readText_eq_ok_iff.mp h
        exact ⟨blanks, _, hblanks, ⟨content, hcontent, rfl⟩, by simp⟩
      · contradiction
    | count =>
      obtain ⟨t, hwhole, hvalue, ht⟩ := exists_of_readCount h
      exact ⟨blanks, t, hblanks, ⟨hwhole, hvalue⟩, by rw [ht]⟩

/-- A written form at the front is read as its value. -/
theorem readValue_append {kind : Kind} {v : kind.Carrier} {blanks t : Bytes}
    (hblanks : IsBlanks blanks) (ht : kind.Writes v t) (hrest : EndsNumber rest) :
    readValue kind (blanks ++ (t ++ rest)) = .ok (v, rest) := by
  rw [readValue, skipBlanks_append hblanks]
  cases kind with
  | text =>
    obtain ⟨content, hcontent, rfl⟩ := ht
    rw [List.cons_append, List.append_assoc, List.singleton_append, skipBlanks_cons (by decide)]
    simp only [readQuoted, if_true]
    exact readText_eq_ok_iff.mpr ⟨content, hcontent, rfl⟩
  | count =>
    obtain ⟨b, u, hu, hb, hcount⟩ := readCount_append ht.1 ht.2 hrest
    rw [hu, skipBlanks_cons (not_isBlank_of_isDigit hb)]
    exact hcount

/-! ## Names -/

/-- A colon with blanks around it. -/
def IsGap (s : Bytes) : Prop :=
  ∃ between after, IsBlanks between ∧ IsBlanks after ∧ s = between ++ Ascii.colon :: after

/-- What stands between an item and the one before it, or the opening of the container. -/
def Leads (isFirst : Bool) (s : Bytes) : Prop :=
  if isFirst then IsBlanks s
  else ∃ before after, IsBlanks before ∧ IsBlanks after ∧ s = before ++ Ascii.comma :: after

/-- A quote opens a name exactly if the content of one follows. -/
theorem openName_eq_ok_iff {b : UInt8} : openName b s = .ok (some (name, rest)) ↔
    ∃ content, Denotes content name.toList ∧
      b :: s = Ascii.quotation :: (content ++ Ascii.quotation :: rest) := by
  constructor
  · intro h
    unfold openName at h
    split at h
    · next hquotation =>
      split at h
      · contradiction
      · next htext =>
        obtain ⟨rfl, rfl⟩ := Prod.mk.inj (Option.some.inj (Except.ok.inj h))
        obtain ⟨content, hcontent, rfl⟩ := readText_eq_ok_iff.mp htext
        exact ⟨content, hcontent, by rw [hquotation]⟩
    · contradiction
  · rintro ⟨content, hcontent, hs⟩
    obtain ⟨rfl, rfl⟩ := List.cons.inj hs
    have htext := readText_eq_ok_iff.mpr ⟨content, hcontent,
      Eq.refl (content ++ Ascii.quotation :: rest)⟩
    rw [openName, if_pos rfl, htext]

private theorem openName_ne_none {b : UInt8} : openName b s ≠ .ok none := by
  intro h
  unfold openName at h
  split at h
  · split at h
    · contradiction
    · cases Except.ok.inj h
  · contradiction

/-- The end of an object is found exactly if it stands next. -/
theorem readName_eq_none_iff {isFirst : Bool} : readName isFirst s = .ok none ↔
    ∃ blanks rest, IsBlanks blanks ∧ s = blanks ++ Ascii.closeBrace :: rest := by
  constructor
  · intro h
    unfold readName at h
    split at h
    · contradiction
    · next b t hs =>
      obtain ⟨blanks, hblanks, rfl⟩ := exists_of_skipBlanks hs
      split at h
      · next hclose => exact ⟨blanks, t, hblanks, by rw [hclose]⟩
      · split at h
        · exact absurd h openName_ne_none
        · split at h
          · split at h
            · contradiction
            · split at h
              · contradiction
              · exact absurd h openName_ne_none
          · contradiction
  · rintro ⟨blanks, rest, hblanks, rfl⟩
    rw [readName, skipBlanks_append hblanks, skipBlanks_cons (by decide)]
    exact if_pos rfl

/-- A name is read exactly if it stands next. -/
theorem readName_eq_some_iff {isFirst : Bool} : readName isFirst s = .ok (some (name, rest)) ↔
    ∃ lead content, Leads isFirst lead ∧ Denotes content name.toList ∧
      s = lead ++ Ascii.quotation :: (content ++ Ascii.quotation :: rest) := by
  constructor
  · intro h
    unfold readName at h
    split at h
    · contradiction
    · next b t hs =>
      obtain ⟨before, hbefore, rfl⟩ := exists_of_skipBlanks hs
      split at h
      · cases Except.ok.inj h
      · split at h
        · next hfirst =>
          obtain rfl := hfirst
          obtain ⟨content, hcontent, ht⟩ := openName_eq_ok_iff.mp h
          exact ⟨before, content, hbefore, hcontent, by rw [ht]⟩
        · next hfirst =>
          obtain rfl := Bool.eq_false_iff.mpr hfirst
          split at h
          · next hcomma =>
            obtain rfl := hcomma
            split at h
            · contradiction
            · next c u hu =>
              obtain ⟨after, hafter, rfl⟩ := exists_of_skipBlanks hu
              split at h
              · contradiction
              · obtain ⟨content, hcontent, ht⟩ := openName_eq_ok_iff.mp h
                exact ⟨_, content, ⟨before, after, hbefore, hafter, rfl⟩, hcontent,
                  by rw [ht, List.append_assoc, List.cons_append]⟩
          · contradiction
  · rintro ⟨lead, content, hlead, hcontent, rfl⟩
    have hopen := openName_eq_ok_iff.mpr ⟨content, hcontent,
      Eq.refl (Ascii.quotation :: (content ++ Ascii.quotation :: rest))⟩
    have hblanks {isFirst : Bool} {blanks : Bytes} (h : IsBlanks blanks) (t : Bytes) :
        readName isFirst (blanks ++ t) = readName isFirst t := by
      rw [readName, readName, skipBlanks_append h]
    have hcomma {blanks : Bytes} (h : IsBlanks blanks) (t : Bytes) :
        readName false (Ascii.comma :: (blanks ++ t)) = readName false (Ascii.comma :: t) := by
      have hclose : Ascii.comma ≠ Ascii.closeBrace := by decide
      have hself : isBlank Ascii.comma = false := by decide
      simp only [readName, skipBlanks_cons hself, skipBlanks_append h, if_neg hclose,
        Bool.false_eq_true, if_false, if_true]
    cases isFirst with
    | true => rw [hblanks hlead, readName_true_cons rfl (by decide), hopen]
    | false =>
      obtain ⟨before, after, hbefore, hafter, rfl⟩ := hlead
      rw [List.append_assoc, hblanks hbefore, List.cons_append, hcomma hafter,
        readName_false_cons rfl (by decide), hopen]

private theorem exists_gap {after : Bytes} (h : readColon s = .ok (after ++ rest))
    (hafter : IsBlanks after) : ∃ gap, IsGap gap ∧ s = gap ++ rest := by
  obtain ⟨between, hbetween, rfl⟩ := readColon_eq_ok_iff.mp h
  exact ⟨_, ⟨between, after, hbetween, hafter, rfl⟩, by rw [List.append_assoc, List.cons_append]⟩

/-- A gap is read as a colon, but for blanks at its end. -/
theorem IsGap.exists_readColon_eq {gap : Bytes} (h : IsGap gap) :
    ∃ blanks, IsBlanks blanks ∧ ∀ t, readColon (gap ++ t) = .ok (blanks ++ t) := by
  obtain ⟨between, after, hbetween, hafter, rfl⟩ := h
  refine ⟨after, hafter, fun t => readColon_eq_ok_iff.mpr ⟨between, hbetween, ?_⟩⟩
  rw [List.append_assoc, List.cons_append]

/-! ## Members -/

/-- Exactly one of the members that are found has the name, and its value is written so. -/
def HasValue (found : List (String × Bytes)) (m : String × Kind) (v : m.2.Carrier) : Prop :=
  ∃ t, found.filter (fun f => f.1 = m.1) = [(m.1, t)] ∧ m.2.Writes v t

/-- Every member of a record is found exactly once, with its value. -/
def HasValues (found : List (String × Bytes)) : (ms : Members) → Record ms → Prop
  | [], _ => True
  | m :: ms, (v, r) => HasValue found m v ∧ HasValues found ms r

/-- What is still to be found for a place of a draft: its member if it is empty, and no other of
that name if it is not. -/
def Settles (found : List (String × Bytes)) (m : String × Kind) (v : m.2.Carrier) :
    Option m.2.Carrier → Prop
  | none => HasValue found m v
  | some u => u = v ∧ ∀ f ∈ found, f.1 ≠ m.1

/-- What is still to be found makes a draft into a record. -/
def Completes (found : List (String × Bytes)) : (ms : Members) → Draft ms → Record ms → Prop
  | [], _, _ => True
  | m :: ms, (u, d), (v, r) => Settles found m v u ∧ Completes found ms d r

/-- The first member has the value of its name if it is the only one. -/
theorem hasValue_cons_self {t : Bytes} {v : m.2.Carrier} :
    HasValue ((m.1, t) :: found) m v ↔ m.2.Writes v t ∧ ∀ f ∈ found, f.1 ≠ m.1 := by
  have hnone : found.filter (fun f => f.1 = m.1) = [] ↔ ∀ f ∈ found, f.1 ≠ m.1 := by
    simp [List.filter_eq_nil_iff]
  simp only [HasValue, List.filter_cons, decide_true, if_true, List.cons.injEq, Prod.mk.injEq,
    true_and, ← hnone]
  constructor
  · rintro ⟨u, ⟨rfl, hfound⟩, hu⟩
    exact ⟨hu, hfound⟩
  · rintro ⟨ht, hfound⟩
    exact ⟨t, ⟨rfl, hfound⟩, ht⟩

private theorem settles_cons_of_ne {t : Bytes} {v : m.2.Carrier} {u : Option m.2.Carrier}
    (h : name ≠ m.1) : Settles ((name, t) :: found) m v u ↔ Settles found m v u := by
  cases u with
  | none =>
    simp only [Settles, HasValue, List.filter_cons, h, decide_false, Bool.false_eq_true, if_false]
  | some u => simp only [Settles, List.forall_mem_cons, ne_eq, h, not_false_eq_true, true_and]

/-- A member with another name changes nothing. -/
theorem completes_cons_of_notMem {t : Bytes} {d : Draft ms} {r : Record ms}
    (h : name ∉ ms.map Prod.fst) :
    Completes ((name, t) :: found) ms d r ↔ Completes found ms d r := by
  induction ms with
  | nil => rfl
  | cons m ms ih =>
    obtain ⟨hm, hms⟩ := not_or.mp (mt List.mem_cons.mpr h)
    exact and_congr (settles_cons_of_ne hm) (ih hms)

/-- With nothing to be found a draft is complete or not. -/
theorem completes_nil_iff {d : Draft ms} {r : Record ms} :
    Completes [] ms d r ↔ d.complete ms = .ok r := by
  induction ms with
  | nil => exact ⟨fun _ => rfl, fun _ => trivial⟩
  | cons m ms ih =>
    obtain ⟨u, d⟩ := d
    obtain ⟨v, r⟩ := r
    cases u with
    | none =>
      have hmissing : ¬HasValue [] m v := by
        rintro ⟨t, ht, -⟩
        contradiction
      refine ⟨fun h => absurd h.1 hmissing, fun h => ?_⟩
      contradiction
    | some u =>
      change (u = v ∧ ∀ f ∈ ([] : List (String × Bytes)), f.1 ≠ m.1) ∧ Completes [] ms d r ↔
        (Draft.cons (some u) d).complete (m :: ms) = .ok (Record.cons v r)
      rw [Draft.complete_cons, ih]
      constructor
      · rintro ⟨⟨rfl, -⟩, hd⟩
        rw [hd, Except.map]
      · intro h
        cases hd : d.complete ms with
        | error e =>
          rw [hd] at h
          contradiction
        | ok r' =>
          rw [hd] at h
          obtain ⟨rfl, rfl⟩ := Prod.mk.inj (Except.ok.inj h)
          exact ⟨⟨rfl, fun _ hf => absurd hf List.not_mem_nil⟩, rfl⟩

/-- The members of a whole object have every name once. -/
theorem completes_empty_iff {r : Record ms} :
    Completes found ms (.empty ms) r ↔ HasValues found ms r := by
  induction ms with
  | nil => rfl
  | cons m ms ih => exact and_congr Iff.rfl ih

/-- What is read as a member, after its name, is a value of any kind, and does for the draft what
the draft still lacks. -/
theorem exists_of_readMember (hnames : (ms.map Prod.fst).Nodup) {d d' : Draft ms}
    (h : d.readMember ms name s = .ok (d', rest)) :
    ∃ gap t, IsGap gap ∧ Derives .bytes .value t ∧ s = gap ++ (t ++ rest) ∧
      ∀ found r, Completes found ms d' r → Completes ((name, t) :: found) ms d r := by
  induction ms with
  | nil =>
    simp only [Draft.readMember] at h
    split at h
    · contradiction
    · next hcolon =>
      split at h
      · contradiction
      · next hskip =>
        obtain ⟨rfl, rfl⟩ := Prod.mk.inj (Except.ok.inj h)
        obtain ⟨blanks, t, hblanks, ht, rfl⟩ := exists_of_skipValue hskip
        obtain ⟨gap, hgap, rfl⟩ := exists_gap hcolon hblanks
        exact ⟨gap, t, hgap, ht, rfl, fun _ _ _ => trivial⟩
  | cons m ms ih =>
    obtain ⟨hm, hms⟩ := List.nodup_cons.mp hnames
    obtain ⟨u, d⟩ := d
    simp only [Draft.readMember] at h
    split at h
    · next hname =>
      obtain rfl := hname
      split at h
      · contradiction
      · split at h
        · contradiction
        · next hcolon =>
          split at h
          · contradiction
          · next v after hvalue =>
            obtain ⟨rfl, rfl⟩ := Prod.mk.inj (Except.ok.inj h)
            obtain ⟨blanks, t, hblanks, ht, rfl⟩ := exists_of_readValue hvalue
            obtain ⟨gap, hgap, rfl⟩ := exists_gap hcolon hblanks
            refine ⟨gap, t, hgap, ht.derives, rfl, fun found r hr => ?_⟩
            obtain ⟨w, r⟩ := r
            obtain ⟨⟨rfl, hfound⟩, hd⟩ := hr
            exact ⟨hasValue_cons_self.mpr ⟨ht, hfound⟩, (completes_cons_of_notMem hm).mpr hd⟩
    · next hname =>
      split at h
      · contradiction
      · next hmember =>
        obtain ⟨rfl, rfl⟩ := Prod.mk.inj (Except.ok.inj h)
        obtain ⟨gap, t, hgap, ht, rfl, hrest⟩ := ih hms hmember
        refine ⟨gap, t, hgap, ht, rfl, fun found r hr => ?_⟩
        obtain ⟨w, r⟩ := r
        exact ⟨(settles_cons_of_ne hname).mpr hr.1, hrest found r hr.2⟩

/-- A member that the draft lacks, or that nobody asked for, is read. -/
theorem exists_readMember_eq (hnames : (ms.map Prod.fst).Nodup) {d : Draft ms} {r : Record ms}
    {gap t : Bytes} (hgap : IsGap gap) (ht : Derives .bytes .value t) (hrest : EndsNumber rest)
    (h : Completes ((name, t) :: found) ms d r) :
    ∃ d', d.readMember ms name (gap ++ (t ++ rest)) = .ok (d', rest) ∧
      Completes found ms d' r := by
  obtain ⟨blanks, hblanks, hcolon⟩ := hgap.exists_readColon_eq
  induction ms with
  | nil =>
    have hskip := skipValue_append hblanks ht hrest
    exact ⟨d, by simp only [Draft.readMember, hcolon, hskip], trivial⟩
  | cons m ms ih =>
    obtain ⟨hm, hms⟩ := List.nodup_cons.mp hnames
    obtain ⟨u, d⟩ := d
    obtain ⟨v, r⟩ := r
    obtain ⟨hfirst, hd⟩ := h
    by_cases hname : name = m.1
    · subst hname
      cases u with
      | none =>
        obtain ⟨hv, hfound⟩ := hasValue_cons_self.mp hfirst
        have hvalue := readValue_append hblanks hv hrest
        exact ⟨(some v, d), by simp only [Draft.readMember, hcolon, hvalue, if_true],
          ⟨rfl, hfound⟩, (completes_cons_of_notMem hm).mp hd⟩
      | some u => exact absurd rfl (hfirst.2 _ List.mem_cons_self)
    · obtain ⟨d', hmember, hd'⟩ := ih hms hd
      exact ⟨(u, d'), by simp only [Draft.readMember, hname, hmember, if_false],
        (settles_cons_of_ne hname).mp hfirst, hd'⟩

/-! ## Objects -/

/-- The members that follow the opening of an object, or one of its values, up to its end. -/
inductive Remainder : Bool → List (String × Bytes) → Bytes → Prop
  | none {isFirst : Bool} {blanks : Bytes} : IsBlanks blanks → Remainder isFirst [] blanks
  | first {found : List (String × Bytes)} {s : Bytes} : MembersOf .bytes found s →
      Remainder true found s
  | next {found : List (String × Bytes)} {blanks s : Bytes} : IsBlanks blanks →
      MembersOf .bytes found s → Remainder false found (blanks ++ Ascii.comma :: s)

/-- An object is a brace, what remains of it, and a brace. -/
theorem isObject_iff : IsObject .bytes found s ↔
    ∃ t, Remainder true found t ∧ s = Ascii.openBrace :: (t ++ [Ascii.closeBrace]) := by
  constructor
  · rintro (hblanks | hms)
    · exact ⟨_, .none hblanks, rfl⟩
    · exact ⟨_, .first hms, rfl⟩
  · rintro ⟨t, ht, rfl⟩
    cases ht with
    | none hblanks => exact .empty hblanks
    | first hms => exact .members hms

/-- What follows a value ends a number. -/
theorem Remainder.endsNumber (h : Remainder false found s) (rest : Bytes) :
    EndsNumber (s ++ Ascii.closeBrace :: rest) := by
  cases h with
  | none hblanks => exact endsNumber_of_blanks_append hblanks (by decide) rest
  | next hblanks =>
    rw [List.append_assoc, List.cons_append]
    exact endsNumber_of_blanks_append hblanks (by decide) _

/-- The first of the members, and the others. -/
theorem membersOf_cons_iff {t : Bytes} :
    MembersOf .bytes ((name, t) :: found) s ↔
      ∃ before content gap s', IsBlanks before ∧ Denotes content name.toList ∧ IsGap gap ∧
        Derives .bytes .value t ∧ Remainder false found s' ∧
        s = before ++ Ascii.quotation :: (content ++ Ascii.quotation :: (gap ++ (t ++ s'))) := by
  constructor
  · intro h
    cases h with
    | last hlabel ht hblanks =>
      obtain ⟨before, content, between, after, hbefore, hcontent, hbetween, hafter, rfl⟩ := hlabel
      exact ⟨before, content, _, _, hbefore, hcontent, ⟨between, after, hbetween, hafter, rfl⟩, ht,
        .none hblanks, by simp⟩
    | more hlabel ht hblanks hfound =>
      obtain ⟨before, content, between, after, hbefore, hcontent, hbetween, hafter, rfl⟩ := hlabel
      exact ⟨before, content, _, _, hbefore, hcontent, ⟨between, after, hbetween, hafter, rfl⟩, ht,
        .next hblanks hfound, by simp⟩
  · rintro ⟨before, content, gap, s', hbefore, hcontent, ⟨between, after, hbetween, hafter, rfl⟩,
      ht, hs', rfl⟩
    have hlabel : IsLabel (Denotes · name.toList) (before ++ Ascii.quotation ::
        (content ++ Ascii.quotation :: (between ++ Ascii.colon :: after))) :=
      ⟨before, content, between, after, hbefore, hcontent, hbetween, hafter, rfl⟩
    cases hs' with
    | none hblanks => simpa using MembersOf.last hlabel ht hblanks
    | next hblanks hfound => simpa using MembersOf.more hlabel ht hblanks hfound

/-- The first of the members that follow, and the others. -/
theorem remainder_cons_iff {isFirst : Bool} {t : Bytes} :
    Remainder isFirst ((name, t) :: found) s ↔
      ∃ lead content gap s', Leads isFirst lead ∧ Denotes content name.toList ∧ IsGap gap ∧
        Derives .bytes .value t ∧ Remainder false found s' ∧
        s = lead ++ Ascii.quotation :: (content ++ Ascii.quotation :: (gap ++ (t ++ s'))) := by
  constructor
  · intro h
    cases h with
    | first hms => exact membersOf_cons_iff.mp hms
    | next hblanks hms =>
      obtain ⟨before, content, gap, s', hbefore, hcontent, hgap, ht, hs', rfl⟩ :=
        membersOf_cons_iff.mp hms
      exact ⟨_, content, gap, s', ⟨_, before, hblanks, hbefore, rfl⟩, hcontent, hgap, ht, hs',
        by rw [List.append_assoc, List.cons_append]⟩
  · rintro ⟨lead, content, gap, s', hlead, hcontent, hgap, ht, hs', rfl⟩
    cases isFirst with
    | true => exact .first (membersOf_cons_iff.mpr ⟨lead, content, gap, s', hlead, hcontent, hgap,
        ht, hs', rfl⟩)
    | false =>
      obtain ⟨blanks, before, hblanks, hbefore, rfl⟩ := hlead
      rw [List.append_assoc, List.cons_append]
      exact .next hblanks (membersOf_cons_iff.mpr ⟨before, content, gap, s', hbefore, hcontent,
        hgap, ht, hs', rfl⟩)

/-- What closes a frame is skipped, with the blanks in front of it. -/
theorem beyond_append {frame : Frame} {blanks : Bytes} (hblanks : IsBlanks blanks)
    (rest : Bytes) : beyond frame (blanks ++ frame.close :: rest) = rest := by
  have hclose : isBlank frame.close = false := by cases frame <;> decide
  simp only [beyond, skipBlanks_append hblanks, skipBlanks_cons hclose, if_true]

/-- What is read as the members of an object makes the draft into the record. Behind a member the
others find the draft that it leaves. -/
theorem exists_of_readMembers (hnames : (ms.map Prod.fst).Nodup) {d : Draft ms} {r : Record ms}
    {isFirst : Bool} (h : readMembers ms d isFirst s = .ok (r, rest)) :
    ∃ found t, Remainder isFirst found t ∧ Completes found ms d r ∧
      s = t ++ Ascii.closeBrace :: rest := by
  fun_induction readMembers ms d isFirst s with
  | case1 => contradiction
  | case2 d isFirst s hname r' hd =>
    obtain ⟨rfl, rfl⟩ := Prod.mk.inj (Except.ok.inj h)
    obtain ⟨blanks, rest, hblanks, rfl⟩ := readName_eq_none_iff.mp hname
    have hrest : beyond .object (blanks ++ Ascii.closeBrace :: rest) = rest :=
      beyond_append hblanks rest
    exact ⟨[], blanks, .none hblanks, completes_nil_iff.mpr hd, by rw [hrest]⟩
  | case3 => contradiction
  | case4 => contradiction
  | case5 d isFirst s name after hname d' after' hmember _ _ ih =>
    obtain ⟨lead, content, hlead, hcontent, rfl⟩ := readName_eq_some_iff.mp hname
    obtain ⟨gap, t, hgap, ht, rfl, hcompletes⟩ := exists_of_readMember hnames hmember
    obtain ⟨found, u, hu, hd', rfl⟩ := ih h
    refine ⟨(name, t) :: found, _, remainder_cons_iff.mpr ⟨lead, content, gap, u, hlead, hcontent,
      hgap, ht, hu, rfl⟩, hcompletes found r hd', ?_⟩
    simp only [List.append_assoc, List.cons_append]

/-- Members that make the draft into a record are read as that. -/
theorem readMembers_append (hnames : (ms.map Prod.fst).Nodup) {d : Draft ms} {r : Record ms}
    {isFirst : Bool} {t : Bytes} (ht : Remainder isFirst found t) (hd : Completes found ms d r)
    (rest : Bytes) :
    readMembers ms d isFirst (t ++ Ascii.closeBrace :: rest) = .ok (r, rest) := by
  induction found generalizing d isFirst t with
  | nil =>
    have hblanks : IsBlanks t := by
      cases ht with
      | none hblanks => exact hblanks
      | first hms => nomatch hms
      | next _ hms => nomatch hms
    have hrest : beyond .object (t ++ Ascii.closeBrace :: rest) = rest := beyond_append hblanks rest
    rw [readMembers_of_end (readName_eq_none_iff.mpr ⟨t, rest, hblanks, rfl⟩)
      (completes_nil_iff.mp hd), hrest]
  | cons f found ih =>
    obtain ⟨name, v⟩ := f
    obtain ⟨lead, content, gap, u, hlead, hcontent, hgap, hv, hu, rfl⟩ := remainder_cons_iff.mp ht
    obtain ⟨d', hmember, hd'⟩ := exists_readMember_eq hnames hgap hv (hu.endsNumber rest) hd
    have hname := readName_eq_some_iff.mpr ⟨lead, content, hlead, hcontent,
      Eq.refl (lead ++ Ascii.quotation :: (content ++ Ascii.quotation ::
        (gap ++ (v ++ (u ++ Ascii.closeBrace :: rest)))))⟩
    simp only [List.append_assoc, List.cons_append]
    rw [readMembers_of_readName hname hmember]
    exact ih hu hd'

end Sealing.Json
