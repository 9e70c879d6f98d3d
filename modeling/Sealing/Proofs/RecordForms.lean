import Sealing.Proofs.ObjectForms

/-!
# Records are read from their written forms only

A record has two written forms: an object in which every member stands once, and the list of its
values in order. It is read from these forms and from no other text.
-/

namespace Sealing.Json

variable {s rest : Bytes} {ms : Members} {found : List (String × Bytes)}

/-! ## Lists -/

/-- The written forms of values in order, up to the end of the last. -/
def ItemsOf : Bool → (ms : Members) → Record ms → Bytes → Prop
  | _, [], _, s => s = []
  | isFirst, m :: ms, (v, r), s => ∃ lead t s', Leads isFirst lead ∧ m.2.Writes v t ∧
      ItemsOf false ms r s' ∧ s = lead ++ (t ++ s')

/-- What follows an item in a list ends a number. -/
theorem ItemsOf.endsNumber {r : Record ms} {blanks : Bytes} (h : ItemsOf false ms r s)
    (hblanks : IsBlanks blanks) (rest : Bytes) :
    EndsNumber (s ++ (blanks ++ Ascii.closeBracket :: rest)) := by
  cases ms with
  | nil =>
    obtain rfl : s = [] := h
    exact endsNumber_of_blanks_append hblanks (by decide) rest
  | cons m ms =>
    obtain ⟨v, r⟩ := r
    obtain ⟨lead, t, s', ⟨before, after, hbefore, hafter, rfl⟩, ht, -, rfl⟩ := h
    simp only [List.append_assoc, List.cons_append]
    exact endsNumber_of_blanks_append hbefore (by decide) _

/-- The place of the next item is found, and nothing of the item is taken. -/
theorem exists_of_readSeparator {isFirst : Bool} {t : Bytes}
    (h : readSeparator isFirst s = .ok (some t)) : ∃ lead, Leads isFirst lead ∧ s = lead ++ t := by
  unfold readSeparator at h
  split at h
  · contradiction
  · next b u hs =>
    obtain ⟨before, hbefore, rfl⟩ := exists_of_skipBlanks hs
    split at h
    · cases Except.ok.inj h
    · split at h
      · next hfirst =>
        obtain rfl := hfirst
        obtain rfl := Option.some.inj (Except.ok.inj h)
        exact ⟨before, hbefore, rfl⟩
      · next hfirst =>
        obtain rfl := Bool.eq_false_iff.mpr hfirst
        split at h
        · next hcomma =>
          obtain rfl := hcomma
          split at h
          · contradiction
          · next c w hu =>
            obtain ⟨after, hafter, rfl⟩ := exists_of_skipBlanks hu
            split at h
            · contradiction
            · obtain rfl := Option.some.inj (Except.ok.inj h)
              exact ⟨_, ⟨before, after, hbefore, hafter, rfl⟩,
                by rw [List.append_assoc, List.cons_append]⟩
        · contradiction

/-- A comma, or nothing before the first item, is read with the blanks around it. -/
theorem readSeparator_append {isFirst : Bool} {lead : Bytes} {b : UInt8}
    (hlead : Leads isFirst lead) (hblank : isBlank b = false) (hclose : b ≠ Ascii.closeBracket)
    (s : Bytes) : readSeparator isFirst (lead ++ b :: s) = .ok (some (b :: s)) := by
  cases isFirst with
  | true =>
    rw [readSeparator, skipBlanks_append hlead, skipBlanks_cons hblank]
    simp only [if_neg hclose, if_true]
  | false =>
    obtain ⟨before, after, hbefore, hafter, rfl⟩ := hlead
    have hself : isBlank Ascii.comma = false := by decide
    have hcomma : Ascii.comma ≠ Ascii.closeBracket := by decide
    rw [List.append_assoc, List.cons_append, readSeparator, skipBlanks_append hbefore,
      skipBlanks_cons hself]
    simp only [if_neg hcomma, Bool.false_eq_true, if_false, if_true, skipBlanks_append hafter,
      skipBlanks_cons hblank, if_neg hclose]

/-- What is read as the items of a list are written forms of the values. -/
theorem exists_of_readItems {expected : String} {done : Nat} {r : Record ms}
    (h : readItems expected ms done s = .ok (r, rest)) :
    ∃ t, ItemsOf (done == 0) ms r t ∧ s = t ++ rest := by
  induction ms generalizing done s with
  | nil =>
    obtain ⟨-, rfl⟩ := Prod.mk.inj (Except.ok.inj h)
    exact ⟨[], rfl, rfl⟩
  | cons m ms ih =>
    simp only [readItems] at h
    split at h
    · contradiction
    · contradiction
    · next u hseparator =>
      split at h
      · contradiction
      · next v w hvalue =>
        split at h
        · contradiction
        · next r' after hitems =>
          obtain ⟨rfl, rfl⟩ := Prod.mk.inj (Except.ok.inj h)
          obtain ⟨lead, hlead, rfl⟩ := exists_of_readSeparator hseparator
          obtain ⟨blanks, t, hblanks, ht, rfl⟩ := exists_of_readValue hvalue
          obtain ⟨t', ht', rfl⟩ := ih hitems
          have hmore : Leads (done == 0) (lead ++ blanks) := by
            cases hfirst : done == 0 with
            | true =>
              rw [hfirst] at hlead
              exact IsBlanks.append hlead hblanks
            | false =>
              rw [hfirst] at hlead
              obtain ⟨before, after, hbefore, hafter, rfl⟩ := hlead
              exact ⟨before, after ++ blanks, hbefore, hafter.append hblanks,
                by rw [List.append_assoc, List.cons_append]⟩
          exact ⟨_, ⟨lead ++ blanks, t, t', hmore, ht, ht', rfl⟩, by simp only [List.append_assoc]⟩

/-- The written forms of the values in order are read. -/
theorem readItems_append {expected : String} {done : Nat} {r : Record ms} {t blanks : Bytes}
    (ht : ItemsOf (done == 0) ms r t) (hblanks : IsBlanks blanks) (rest : Bytes) :
    readItems expected ms done (t ++ (blanks ++ Ascii.closeBracket :: rest)) =
      .ok (r, blanks ++ Ascii.closeBracket :: rest) := by
  induction ms generalizing done t with
  | nil =>
    obtain rfl : t = [] := ht
    rfl
  | cons m ms ih =>
    obtain ⟨v, r⟩ := r
    obtain ⟨lead, u, t', hlead, hu, ht', rfl⟩ := ht
    obtain ⟨b, w, hbw, hblank, hclose⟩ := hu.derives.exists_cons
    have hvalue : readValue m.2 ([] ++ (u ++ (t' ++ (blanks ++ Ascii.closeBracket :: rest)))) =
        .ok (v, t' ++ (blanks ++ Ascii.closeBracket :: rest)) :=
      readValue_append .nil hu (ht'.endsNumber hblanks rest)
    have hitems : readItems expected ms (done + 1) (t' ++ (blanks ++ Ascii.closeBracket :: rest)) =
        .ok (r, blanks ++ Ascii.closeBracket :: rest) := ih ht'
    have hseparator := readSeparator_append hlead hblank hclose
      (w ++ (t' ++ (blanks ++ Ascii.closeBracket :: rest)))
    rw [← List.cons_append, ← hbw] at hseparator
    rw [List.nil_append] at hvalue
    simp only [List.append_assoc, readItems, hseparator, hvalue, hitems]

/-- The end of a list is read as blanks and a bracket. -/
theorem readListEnd_eq_ok_iff : readListEnd s = .ok rest ↔
    ∃ blanks, IsBlanks blanks ∧ s = blanks ++ Ascii.closeBracket :: rest := by
  constructor
  · intro h
    unfold readListEnd at h
    split at h
    · contradiction
    · next hs =>
      obtain ⟨blanks, hblanks, rfl⟩ := exists_of_skipBlanks hs
      split at h
      · next hclose =>
        obtain rfl := Except.ok.inj h
        exact ⟨blanks, hblanks, by rw [hclose]⟩
      · split at h
        · split at h <;> contradiction
        · contradiction
  · rintro ⟨blanks, hblanks, rfl⟩
    rw [readListEnd, skipBlanks_append hblanks, skipBlanks_cons (by decide)]
    exact if_pos rfl

/-! ## Records -/

/-- A text is the object form of a record. -/
def IsObjectOf (α : Repertoire) (ms : Members) (r : Record ms) (text : Bytes) : Prop :=
  ∃ found, IsObjectText α found text ∧ HasValues found ms r

/-- A text is the list form of a record. -/
def IsListOf (ms : Members) (r : Record ms) (text : Bytes) : Prop :=
  ∃ before items blanks after, IsBlanks before ∧ ItemsOf true ms r items ∧ IsBlanks blanks ∧
    IsBlanks after ∧
    text = before ++ Ascii.openBracket :: (items ++ (blanks ++ Ascii.closeBracket :: after))

/-- Nothing is left behind the blanks if there is nothing else. -/
theorem skipBlanks_eq_nil_iff : skipBlanks s = [] ↔ IsBlanks s := by
  simp only [skipBlanks, List.dropWhile_eq_nil_iff, isBlank_iff, IsBlanks]

/-- What is read as a record is an object or a list that stands for it. -/
theorem exists_of_readRecord {title : String} (hnames : (ms.map Prod.fst).Nodup) {r : Record ms}
    (h : readRecord title ms s = .ok (r, rest)) : ∃ before, IsBlanks before ∧
      ((∃ found t, IsObject .bytes found t ∧ HasValues found ms r ∧ s = before ++ (t ++ rest)) ∨
        ∃ items blanks, ItemsOf true ms r items ∧ IsBlanks blanks ∧
          s = before ++ Ascii.openBracket :: (items ++ (blanks ++ Ascii.closeBracket :: rest))) := by
  unfold readRecord at h
  split at h
  · contradiction
  · next b t hs =>
    obtain ⟨before, hbefore, rfl⟩ := exists_of_skipBlanks hs
    refine ⟨before, hbefore, ?_⟩
    split at h
    · next hlist =>
      obtain rfl := hlist
      split at h
      · contradiction
      · next hread =>
        split at h
        · contradiction
        · next hend =>
          obtain ⟨rfl, rfl⟩ := Prod.mk.inj (Except.ok.inj h)
          obtain ⟨items, hitems, rfl⟩ := exists_of_readItems hread
          obtain ⟨blanks, hblanks, rfl⟩ := readListEnd_eq_ok_iff.mp hend
          exact .inr ⟨items, blanks, hitems, hblanks, rfl⟩
    · split at h
      · next hobject =>
        obtain rfl := hobject
        obtain ⟨found, u, hu, hcompletes, rfl⟩ := exists_of_readMembers hnames h
        exact .inl ⟨found, _, isObject_iff.mpr ⟨u, hu, rfl⟩, completes_empty_iff.mp hcompletes,
          by simp⟩
      · contradiction

/-- An object of the members, in front of anything, is read. -/
theorem readRecord_object (title : String) (hnames : (ms.map Prod.fst).Nodup) {r : Record ms}
    {before t : Bytes} (hbefore : IsBlanks before) (ht : IsObject .bytes found t)
    (hvalues : HasValues found ms r) (rest : Bytes) :
    readRecord title ms (before ++ (t ++ rest)) = .ok (r, rest) := by
  obtain ⟨u, hu, rfl⟩ := isObject_iff.mp ht
  rw [List.cons_append, List.append_assoc, List.singleton_append, readRecord,
    skipBlanks_append hbefore, skipBlanks_cons (by decide)]
  exact readMembers_append hnames hu (completes_empty_iff.mpr hvalues) rest

/-- A list of the values, in front of anything, is read. -/
theorem readRecord_list (title : String) {r : Record ms} {before items blanks : Bytes}
    (hbefore : IsBlanks before) (hitems : ItemsOf true ms r items) (hblanks : IsBlanks blanks)
    (rest : Bytes) :
    readRecord title ms (before ++ Ascii.openBracket :: (items ++
      (blanks ++ Ascii.closeBracket :: rest))) = .ok (r, rest) := by
  have hread {expected : String} : readItems expected ms 0 (items ++
      (blanks ++ Ascii.closeBracket :: rest)) = .ok (r, blanks ++ Ascii.closeBracket :: rest) := by
    refine readItems_append ?_ hblanks rest
    exact hitems
  have hend := readListEnd_eq_ok_iff.mpr ⟨blanks, hblanks,
    Eq.refl (blanks ++ Ascii.closeBracket :: rest)⟩
  rw [readRecord, skipBlanks_append hbefore, skipBlanks_cons (by decide)]
  simp only [if_true, hread, hend]

/-- A whole text is read as a record if only blanks follow. -/
theorem readWhole_eq_ok_iff {title : String} {r : Record ms} : readWhole title ms s = .ok r ↔
    ∃ rest, readRecord title ms s = .ok (r, rest) ∧ IsBlanks rest := by
  constructor
  · intro h
    unfold readWhole at h
    split at h
    · contradiction
    · next rest hrecord =>
      split at h
      · next hblanks =>
        obtain rfl := Except.ok.inj h
        exact ⟨rest, hrecord, skipBlanks_eq_nil_iff.mp hblanks⟩
      · contradiction
  · rintro ⟨rest, hrecord, hblanks⟩
    simp only [readWhole, hrecord, skipBlanks_eq_nil_iff.mpr hblanks]

/-- A record is read exactly from its forms, with blanks around them. -/
theorem parseRecord_eq_ok_iff (title : String) (hnames : (ms.map Prod.fst).Nodup) {r : Record ms}
    {text : Bytes} : parseRecord title ms text = .ok r ↔
      IsObjectOf .bytes ms r text ∨ IsListOf ms r text := by
  have hwhole : parseRecord title ms text = .ok r ↔ readWhole title ms text = .ok r := by
    rw [parseRecord]
    cases readWhole title ms text <;> simp
  rw [hwhole, readWhole_eq_ok_iff]
  constructor
  · rintro ⟨after, h, hafter⟩
    obtain ⟨before, hbefore, ⟨found, t, ht, hvalues, rfl⟩ |
      ⟨items, blanks, hitems, hblanks, rfl⟩⟩ := exists_of_readRecord hnames h
    · exact .inl ⟨found, ⟨before, t, after, hbefore, ht, hafter, rfl⟩, hvalues⟩
    · exact .inr ⟨before, items, blanks, after, hbefore, hitems, hblanks, hafter, rfl⟩
  · rintro (⟨found, ⟨before, t, after, hbefore, ht, hafter, rfl⟩, hvalues⟩ |
      ⟨before, items, blanks, after, hbefore, hitems, hblanks, hafter, rfl⟩)
    · exact ⟨after, readRecord_object title hnames hbefore ht hvalues after, hafter⟩
    · exact ⟨after, readRecord_list title hbefore hitems hblanks after, hafter⟩

end Sealing.Json
