import Sealing.Proofs.Tokens

/-!
# Skipping takes exactly one value

An ignored value is skipped exactly if it is well formed, whatever is in its literals, however
large its numbers are and however deep its containers are nested. The skipper is a machine, so what
a place still owes to the text is written down: an accepted step pays a part of it, and a run that
ends has paid everything. Conversely a value at the front leads the machine to its end.
-/

namespace Sealing.Json

variable {s rest : Bytes}

/-! ## Names and colons -/

/-- A colon is read with the blanks in front of it, and nothing else. -/
theorem readColon_eq_ok_iff :
    readColon s = .ok rest ↔ ∃ blanks, IsBlanks blanks ∧ s = blanks ++ Ascii.colon :: rest := by
  constructor
  · intro h
    unfold readColon at h
    split at h
    · contradiction
    · next hs =>
      split at h
      · next hcolon =>
        obtain rfl := Except.ok.inj h
        obtain rfl := hcolon
        exact exists_of_skipBlanks hs
      · contradiction
  · rintro ⟨blanks, hblanks, rfl⟩
    rw [readColon, skipBlanks_append hblanks, skipBlanks_cons rfl]
    exact if_pos rfl

/-- What is skipped as a name is blanks, a string, blanks and a colon. -/
theorem skipName_eq_ok_iff : skipName s = .ok rest ↔
    ∃ before name between, IsBlanks before ∧ Content .bytes name ∧ IsBlanks between ∧
      s = before ++ Ascii.quotation :: (name ++ Ascii.quotation ::
        (between ++ Ascii.colon :: rest)) := by
  constructor
  · intro h
    unfold skipName at h
    split at h
    · contradiction
    · next hs =>
      obtain ⟨before, hbefore, rfl⟩ := exists_of_skipBlanks hs
      split at h
      · next hquotation =>
        obtain rfl := hquotation
        split at h
        · contradiction
        · next htext =>
          obtain ⟨name, hname, rfl⟩ := skipText_eq_ok_iff.mp htext
          obtain ⟨between, hbetween, rfl⟩ := readColon_eq_ok_iff.mp h
          exact ⟨before, name, between, hbefore, hname, hbetween, rfl⟩
      · contradiction
  · rintro ⟨before, name, between, hbefore, hname, hbetween, rfl⟩
    have htext := skipText_eq_ok_iff.mpr ⟨name, hname,
      Eq.refl (name ++ Ascii.quotation :: (between ++ Ascii.colon :: rest))⟩
    rw [skipName, skipBlanks_append hbefore, skipBlanks_cons rfl]
    simp only [if_true, htext]
    exact readColon_eq_ok_iff.mpr ⟨between, hbetween, rfl⟩

/-! ## What the machine accepts -/

section Soundness

variable {frame : Frame} {stack : List Frame} {p q : Place} {t blanks label v : Bytes}

/-- What may follow an item in its container: nothing more, or a comma and further items. -/
inductive Continues (frame : Frame) : Bytes → Prop
  | nothing {blanks : Bytes} : IsBlanks blanks → Continues frame blanks
  | more {blanks items : Bytes} : IsBlanks blanks → Derives .bytes (.items frame) items →
      Continues frame (blanks ++ Ascii.comma :: items)

/-- What ends all the containers of a stack, after an item of the innermost. -/
inductive Closes : List Frame → Bytes → Prop
  | nil : Closes [] []
  | cons {frame : Frame} {stack : List Frame} {s t : Bytes} : Continues frame s →
      Closes stack t → Closes (frame :: stack) (s ++ frame.close :: t)

/-- What is left of an accepted text at a place. -/
inductive Owes : Place → Bytes → Prop
  | value {stack : List Frame} {blanks v s : Bytes} : IsBlanks blanks →
      Derives .bytes .value v → Closes stack s → Owes ⟨.value, stack⟩ (blanks ++ (v ++ s))
  | next {stack : List Frame} {s : Bytes} : Closes stack s → Owes ⟨.next, stack⟩ s
  | none {frame : Frame} {stack : List Frame} {blanks s : Bytes} : IsBlanks blanks →
      Closes stack s → Owes ⟨.first, frame :: stack⟩ (blanks ++ frame.close :: s)
  | items {frame : Frame} {stack : List Frame} {items s : Bytes} :
      Derives .bytes (.items frame) items → Closes stack s →
      Owes ⟨.first, frame :: stack⟩ (items ++ frame.close :: s)
  | done : Owes ⟨.first, []⟩ []

/-- Items, the end of their container, and what ends the containers around it. -/
inductive OwesItems (frame : Frame) (stack : List Frame) : Bytes → Prop
  | mk {items s : Bytes} : Derives .bytes (.items frame) items → Closes stack s →
      OwesItems frame stack (items ++ frame.close :: s)

/-- Blanks may be added in front of an item. -/
theorem Frame.Introduces.blanks_append {α : Repertoire} (hblanks : IsBlanks blanks)
    (h : frame.Introduces α label) : frame.Introduces α (blanks ++ label) := by
  cases frame with
  | list => exact hblanks.append h
  | object =>
    obtain ⟨before, name, between, after, hbefore, hname, hbetween, hafter, rfl⟩ := h
    exact ⟨blanks ++ before, name, between, after, hblanks.append hbefore, hname, hbetween, hafter,
      by rw [List.append_assoc]⟩

/-- Blanks may be added in front of a value. -/
theorem Frame.Introduces.append_blanks {α : Repertoire} (h : frame.Introduces α label)
    (hblanks : IsBlanks blanks) : frame.Introduces α (label ++ blanks) := by
  cases frame with
  | list => exact IsBlanks.append h hblanks
  | object =>
    obtain ⟨before, name, between, after, hbefore, hname, hbetween, hafter, rfl⟩ := h
    exact ⟨before, name, between, after ++ blanks, hbefore, hname, hbetween, hafter.append hblanks,
      by simp only [List.append_assoc, List.cons_append]⟩

/-- Blanks may be added in front of owed items. -/
theorem OwesItems.blanks_append (hblanks : IsBlanks blanks) (h : OwesItems frame stack t) :
    OwesItems frame stack (blanks ++ t) := by
  obtain ⟨hitems, hs⟩ := h
  cases hitems with
  | last hlabel hv hafter =>
    rw [← List.append_assoc, ← List.append_assoc]
    exact .mk (.last (hlabel.blanks_append hblanks) hv hafter) hs
  | more hlabel hv hafter hmore =>
    rw [← List.append_assoc, ← List.append_assoc]
    exact .mk (.more (hlabel.blanks_append hblanks) hv hafter hmore) hs

/-- A value that has been introduced, and what follows it. -/
theorem Owes.items_of_value (hlabel : frame.Introduces .bytes label)
    (h : Owes ⟨.value, frame :: stack⟩ t) : OwesItems frame stack (label ++ t) := by
  obtain ⟨hblanks, hv, hcloses⟩ := h
  have hlabel := hlabel.append_blanks hblanks
  cases hcloses with
  | cons hcontinues hs =>
    cases hcontinues with
    | nothing hafter =>
      have hitems := OwesItems.mk (.last hlabel hv hafter) hs
      simpa only [List.append_assoc] using hitems
    | more hafter hmore =>
      have hitems := OwesItems.mk (.more hlabel hv hafter hmore) hs
      simpa only [List.append_assoc, List.cons_append] using hitems

/-- Owed items may follow the opening of a container. -/
theorem OwesItems.first (h : OwesItems frame stack t) : Owes ⟨.first, frame :: stack⟩ t := by
  obtain ⟨hitems, hs⟩ := h
  exact .items hitems hs

/-- Owed items may follow a comma. -/
theorem OwesItems.next (hblanks : IsBlanks blanks) (h : OwesItems frame stack t) :
    Owes ⟨.next, frame :: stack⟩ (blanks ++ Ascii.comma :: t) := by
  obtain ⟨hitems, hs⟩ := h
  have := Closes.cons (.more hblanks hitems) hs
  exact .next (by simpa only [List.append_assoc, List.cons_append] using this)

/-- A part of the text was taken, and settles what the place owed beyond the next place. -/
def Pays (Before After : Bytes → Prop) (s rest : Bytes) : Prop :=
  ∃ paid, s = paid ++ rest ∧ ∀ t, After t → Before (paid ++ t)

/-- Behind a value comes the next item. -/
theorem of_afterValue {result : Except Fault Bytes}
    (h : afterValue stack result = .ok (q, rest)) : result = .ok rest ∧ q = ⟨.next, stack⟩ := by
  unfold afterValue at h
  split at h
  · contradiction
  · obtain ⟨rfl, rfl⟩ := Prod.mk.inj (Except.ok.inj h)
    exact ⟨rfl, rfl⟩

/-- A value that was taken. -/
theorem pays_value (hblanks : IsBlanks blanks) (hv : Derives .bytes .value v)
    (hs : s = blanks ++ (v ++ rest)) :
    Pays (Owes ⟨.value, stack⟩) (Owes ⟨.next, stack⟩) s rest := by
  refine ⟨blanks ++ v, by rw [hs, List.append_assoc], ?_⟩
  intro t ht
  cases ht with
  | next hcloses =>
    rw [List.append_assoc]
    exact .value hblanks hv hcloses

/-- The opening of a container. -/
theorem pays_opening (hblanks : IsBlanks blanks) (hs : s = blanks ++ frame.opening :: rest) :
    Pays (Owes ⟨.value, stack⟩) (Owes ⟨.first, frame :: stack⟩) s rest := by
  refine ⟨blanks ++ [frame.opening], by rw [hs, List.append_assoc, List.singleton_append], ?_⟩
  intro t ht
  rw [List.append_assoc, List.singleton_append]
  cases ht with
  | none hinside hclose =>
    have := Owes.value hblanks (@Derives.empty _ frame _ hinside) hclose
    simpa only [List.cons_append, List.append_assoc, List.nil_append] using this
  | items hitems hclose =>
    have := Owes.value hblanks (.container hitems) hclose
    simpa only [List.cons_append, List.append_assoc, List.nil_append] using this

/-- A constant that was taken. -/
theorem pays_word {b : UInt8} {tail : Bytes} (h : b :: tail ∈ words) (hblanks : IsBlanks blanks)
    (hread : afterValue stack (readWord tail t) = .ok (q, rest)) :
    Pays (Owes ⟨.value, stack⟩) (Owes q) (blanks ++ b :: t) rest := by
  obtain ⟨hword, rfl⟩ := of_afterValue hread
  refine pays_value hblanks (.word h) ?_
  rw [readWord_eq_ok_iff.mp hword, List.cons_append]

/-- A step into a value pays for what it takes. -/
theorem pays_stepValue (h : stepValue stack s = .ok (q, rest)) :
    Pays (Owes ⟨.value, stack⟩) (Owes q) s rest := by
  unfold stepValue at h
  split at h
  · contradiction
  · next b t hs =>
    obtain ⟨blanks, hblanks, rfl⟩ := exists_of_skipBlanks hs
    split_ifs at h with hn ht hf hminus hdigit htext hlist hobject
    · obtain rfl := hn
      exact pays_word (by decide) hblanks h
    · obtain rfl := ht
      exact pays_word (by decide) hblanks h
    · obtain rfl := hf
      exact pays_word (by decide) hblanks h
    · obtain rfl := hminus
      obtain ⟨hskip, rfl⟩ := of_afterValue h
      obtain ⟨n, hn, rfl⟩ := exists_of_skipNumber hskip
      exact pays_value hblanks (.number (.inr ⟨n, hn, rfl⟩)) rfl
    · obtain ⟨hskip, rfl⟩ := of_afterValue h
      obtain ⟨n, hn, hbt⟩ := exists_of_skipNumber hskip
      exact pays_value hblanks (.number (.inl hn)) (by rw [hbt])
    · obtain rfl := htext
      obtain ⟨hskip, rfl⟩ := of_afterValue h
      obtain ⟨content, hcontent, rfl⟩ := skipText_eq_ok_iff.mp hskip
      exact pays_value hblanks (.text hcontent)
        (by rw [List.cons_append, List.append_assoc, List.singleton_append])
    · obtain rfl := hlist
      obtain ⟨rfl, rfl⟩ := Prod.mk.inj (Except.ok.inj h)
      exact pays_opening hblanks rfl
    · obtain rfl := hobject
      obtain ⟨rfl, rfl⟩ := Prod.mk.inj (Except.ok.inj h)
      exact pays_opening hblanks rfl

/-- An item that was begun. -/
theorem pays_stepItem (h : stepItem frame stack s = .ok (q, rest)) :
    Pays (OwesItems frame stack) (Owes q) s rest := by
  unfold stepItem at h
  split at h
  · obtain ⟨paid, rfl, hpays⟩ := pays_stepValue h
    refine ⟨paid, rfl, fun t ht => ?_⟩
    have hlabel : Frame.list.Introduces .bytes [] := IsBlanks.nil
    have hitems := (hpays t ht).items_of_value hlabel
    rwa [List.nil_append] at hitems
  · split at h
    · contradiction
    · next hskip =>
      obtain ⟨rfl, rfl⟩ := Prod.mk.inj (Except.ok.inj h)
      obtain ⟨before, name, between, hbefore, hname, hbetween, rfl⟩ :=
        skipName_eq_ok_iff.mp hskip
      have hlabel : Frame.object.Introduces .bytes (before ++ Ascii.quotation ::
          (name ++ Ascii.quotation :: (between ++ [Ascii.colon]))) :=
        ⟨before, name, between, [], hbefore, hname, hbetween, .nil, rfl⟩
      refine ⟨_, ?_, fun t ht => ht.items_of_value hlabel⟩
      simp only [List.append_assoc, List.cons_append, List.nil_append]

/-- More was taken in front. -/
theorem Pays.append {Before Middle After : Bytes → Prop} {front : Bytes}
    (h : Pays Middle After s rest) (hmiddle : ∀ t, Middle t → Before (front ++ t)) :
    Pays Before After (front ++ s) rest := by
  obtain ⟨paid, rfl, hpays⟩ := h
  refine ⟨front ++ paid, by rw [List.append_assoc], fun t ht => ?_⟩
  rw [List.append_assoc]
  exact hmiddle _ (hpays t ht)

private theorem step_first {b : UInt8} (hs : skipBlanks s = b :: t) :
    Place.step ⟨.first, frame :: stack⟩ s =
      if b = frame.close then .ok (⟨.next, stack⟩, t) else stepItem frame stack (b :: t) := by
  simp only [Place.step, hs]

private theorem step_next {b : UInt8} (hs : skipBlanks s = b :: t) :
    Place.step ⟨.next, frame :: stack⟩ s =
      if b = Ascii.comma then
        match frame with
        | .list => .ok (⟨.value, .list :: stack⟩, t)
        | .object => stepItem .object stack t
      else if b = frame.close then .ok (⟨.next, stack⟩, t)
      else .error (.at frame.commaOrEnd (b :: t)) := by
  cases frame <;> simp only [Place.step, hs]

/-- A comma and what follows it up to the next value or container. -/
theorem pays_comma (hblanks : IsBlanks blanks)
    (h : (match frame with
      | .list => .ok (⟨.value, .list :: stack⟩, t)
      | .object => stepItem .object stack t) = Except.ok (ε := Fault) (q, rest)) :
    Pays (Owes ⟨.next, frame :: stack⟩) (Owes q) (blanks ++ Ascii.comma :: t) rest := by
  have hitems : Pays (OwesItems frame stack) (Owes q) t rest := by
    cases frame with
    | list =>
      obtain ⟨rfl, rfl⟩ := Prod.mk.inj (Except.ok.inj h)
      have hlabel : Frame.list.Introduces .bytes [] := IsBlanks.nil
      exact ⟨[], rfl, fun u hu => hu.items_of_value hlabel⟩
    | object => exact pays_stepItem h
  rw [List.append_cons]
  refine hitems.append fun u hu => ?_
  rw [← List.append_cons]
  exact hu.next hblanks

/-- The end of a container. -/
theorem pays_close {Before : Bytes → Prop}
    (h : ∀ u, Closes stack u → Before (blanks ++ frame.close :: u)) :
    Pays Before (Owes ⟨.next, stack⟩) (blanks ++ frame.close :: t) t := by
  refine ⟨blanks ++ [frame.close], List.append_cons _ _ _, fun u hu => ?_⟩
  cases hu with
  | next hs =>
    rw [← List.append_cons]
    exact h u hs

/-- A step behind an opening pays for what it takes. -/
theorem pays_first (h : Place.step ⟨.first, frame :: stack⟩ s = .ok (q, rest)) :
    Pays (Owes ⟨.first, frame :: stack⟩) (Owes q) s rest := by
  cases hs : skipBlanks s with
  | nil =>
    simp only [Place.step, hs] at h
    contradiction
  | cons b t =>
    rw [step_first hs] at h
    obtain ⟨blanks, hblanks, rfl⟩ := exists_of_skipBlanks hs
    split_ifs at h with hclose
    · obtain rfl := hclose
      obtain ⟨rfl, rfl⟩ := Prod.mk.inj (Except.ok.inj h)
      exact pays_close fun u hu => .none hblanks hu
    · exact (pays_stepItem h).append fun u hu => (hu.blanks_append hblanks).first

/-- A step behind an item pays for what it takes. -/
theorem pays_next (h : Place.step ⟨.next, frame :: stack⟩ s = .ok (q, rest)) :
    Pays (Owes ⟨.next, frame :: stack⟩) (Owes q) s rest := by
  cases hs : skipBlanks s with
  | nil =>
    simp only [Place.step, hs] at h
    contradiction
  | cons b t =>
    rw [step_next hs] at h
    obtain ⟨blanks, hblanks, rfl⟩ := exists_of_skipBlanks hs
    split_ifs at h with hcomma hclose
    · obtain rfl := hcomma
      exact pays_comma hblanks h
    · obtain rfl := hclose
      obtain ⟨rfl, rfl⟩ := Prod.mk.inj (Except.ok.inj h)
      exact pays_close fun u hu => .next (.cons (.nothing hblanks) hu)

/-- Every step that is taken settles a part of what a place owes. -/
theorem pays_step (h : p.step s = .ok (q, rest)) : Pays (Owes p) (Owes q) s rest := by
  obtain ⟨awaited | first | next, stack⟩ := p
  · exact pays_stepValue h
  · cases stack with
    | nil =>
      obtain ⟨rfl, rfl⟩ := Prod.mk.inj (Except.ok.inj h)
      refine ⟨[], rfl, fun t ht => ?_⟩
      cases ht with
      | next hs =>
        cases hs
        exact .done
    | cons frame stack => exact pays_first h
  · cases stack with
    | nil =>
      obtain ⟨rfl, rfl⟩ := Prod.mk.inj (Except.ok.inj h)
      exact ⟨[], rfl, fun t ht => ht⟩
    | cons frame stack => exact pays_next h

/-- A run that ends has paid what its place owed: each step pays a part of it, and the rest is what
the next place owes. -/
theorem exists_of_skipFrom (h : skipFrom p s = .ok rest) : ∃ t, Owes p t ∧ s = t ++ rest := by
  fun_induction skipFrom p s with
  | case1 p s hp =>
    obtain rfl := Except.ok.inj h
    refine ⟨[], ?_, rfl⟩
    obtain ⟨awaited, stack⟩ := p
    simp only [Place.isDone, Bool.and_eq_true, bne_iff_ne, List.isEmpty_iff] at hp
    obtain ⟨hawaited, rfl⟩ := hp
    cases awaited with
    | value => contradiction
    | first => exact .done
    | next => exact .next .nil
  | case2 => contradiction
  | case3 p s hp q after hstep _ ih =>
    obtain ⟨paid, rfl, hpays⟩ := pays_step hstep
    obtain ⟨t, ht, rfl⟩ := ih h
    exact ⟨paid ++ t, hpays t ht, (List.append_assoc ..).symm⟩

/-- What is skipped as a value is one, with blanks in front. -/
theorem exists_of_skipValue (h : skipValue s = .ok rest) :
    ∃ blanks v, IsBlanks blanks ∧ Derives .bytes .value v ∧ s = blanks ++ (v ++ rest) := by
  obtain ⟨t, ht, rfl⟩ := exists_of_skipFrom h
  cases ht with
  | @value _ blanks v _ hblanks hv hs =>
    cases hs
    exact ⟨blanks, v, hblanks, hv, by simp⟩

end Soundness

/-! ## What the machine takes -/

section Completeness

variable {α : Repertoire} {frame : Frame} {stack : List Frame} {p q : Place}
  {t blanks label v n : Bytes}

/-- A run takes its first step, if there is one to take. -/
theorem skipFrom_of_not_isDone (hp : p.isDone = false) :
    skipFrom p s = (p.step s).bind fun (q, rest) => skipFrom q rest := by
  rw [skipFrom, dif_neg (Bool.eq_false_iff.mp hp)]
  split
  · next h =>
    simp only [h]
    rfl
  · next h =>
    simp only [h]
    rfl

private theorem skipFrom_of_step (hp : p.isDone = false) (h : p.step s = .ok (q, rest)) :
    skipFrom p s = skipFrom q rest := by
  rw [skipFrom_of_not_isDone hp, h, Except.bind]

private theorem skipFrom_value_of_step (h : stepValue stack s = .ok (q, rest)) :
    skipFrom ⟨.value, stack⟩ s = skipFrom q rest :=
  skipFrom_of_step rfl h

private theorem skipFrom_congr (hp : p.isDone = false) (hq : q.isDone = false)
    (h : p.step s = q.step t) : skipFrom p s = skipFrom q t := by
  rw [skipFrom_of_not_isDone hp, skipFrom_of_not_isDone hq, h]

private theorem skipFrom_value_blanks_append (hblanks : IsBlanks blanks) (s : Bytes) :
    skipFrom ⟨.value, stack⟩ (blanks ++ s) = skipFrom ⟨.value, stack⟩ s := by
  refine skipFrom_congr rfl rfl ?_
  change stepValue stack (blanks ++ s) = stepValue stack s
  rw [stepValue, stepValue, skipBlanks_append hblanks]

private theorem skipFrom_next_blanks_append (hblanks : IsBlanks blanks) (s : Bytes) :
    skipFrom ⟨.next, frame :: stack⟩ (blanks ++ s) = skipFrom ⟨.next, frame :: stack⟩ s := by
  refine skipFrom_congr rfl rfl ?_
  simp only [Place.step, skipBlanks_append hblanks]

/-- A number without a sign begins with a digit. -/
theorem IsUnsigned.exists_cons (h : IsUnsigned n) :
    ∃ b t, n = b :: t ∧ Ascii.isDigit b = true := by
  obtain ⟨whole, fraction, exponent, hwhole, -, -, rfl⟩ := h
  rcases hwhole with rfl | ⟨⟨hne, hds⟩, -⟩
  · exact ⟨Ascii.zero, _, rfl, by decide⟩
  · obtain ⟨b, t, rfl⟩ := List.exists_cons_of_ne_nil hne
    exact ⟨b, _, rfl, hds b List.mem_cons_self⟩

/-- A value starts with a byte of its own. -/
theorem Derives.exists_cons (h : Derives α .value v) :
    ∃ b t, v = b :: t ∧ isBlank b = false ∧ b ≠ Ascii.closeBracket := by
  cases h with
  | word hw =>
    have hall : ∀ w ∈ words, ∃ b ∈ w.head?, isBlank b = false ∧ b ≠ Ascii.closeBracket := by
      decide
    obtain ⟨b, hb, hblank⟩ := hall v hw
    obtain ⟨t, rfl⟩ := List.head?_eq_some_iff.mp hb
    exact ⟨b, t, rfl, hblank⟩
  | number hn =>
    rcases hn with hn | ⟨t, -, rfl⟩
    · obtain ⟨b, t, rfl, hb⟩ := hn.exists_cons
      refine ⟨b, t, rfl, not_isBlank_of_isDigit hb, ?_⟩
      rintro rfl
      contradiction
    · exact ⟨_, _, rfl, by decide, by decide⟩
  | text => exact ⟨_, _, rfl, by decide, by decide⟩
  | @empty frame => exact ⟨_, _, rfl, by cases frame <;> decide, by cases frame <;> decide⟩
  | @container frame => exact ⟨_, _, rfl, by cases frame <;> decide, by cases frame <;> decide⟩

/-- A word is taken in one step. -/
theorem stepValue_word (hv : v ∈ words) (stack : List Frame) (rest : Bytes) :
    stepValue stack (v ++ rest) = .ok (⟨.next, stack⟩, rest) := by
  have hnull : Ascii.bytes "null" = 0x6E :: nullTail := by decide
  have htrue : Ascii.bytes "true" = 0x74 :: trueTail := by decide
  have hfalse : Ascii.bytes "false" = 0x66 :: falseTail := by decide
  have hread (tail : Bytes) : afterValue stack (readWord tail (tail ++ rest)) =
      .ok (⟨.next, stack⟩, rest) := by
    rw [readWord_eq_ok_iff.mpr rfl, afterValue]
  simp only [words, hnull, htrue, hfalse, List.mem_cons, List.not_mem_nil, or_false] at hv
  rcases hv with rfl | rfl | rfl
  · rw [List.cons_append, stepValue, skipBlanks_cons (by decide)]
    exact hread nullTail
  · rw [List.cons_append, stepValue, skipBlanks_cons (by decide)]
    exact hread trueTail
  · rw [List.cons_append, stepValue, skipBlanks_cons (by decide)]
    exact hread falseTail

/-- A number is taken in one step. -/
theorem stepValue_number (hn : IsNumber v) (hrest : EndsNumber rest) (stack : List Frame) :
    stepValue stack (v ++ rest) = .ok (⟨.next, stack⟩, rest) := by
  rcases hn with hn | ⟨t, ht, rfl⟩
  · obtain ⟨b, t, rfl, hb⟩ := hn.exists_cons
    have hword {c : UInt8} (hc : Ascii.isDigit c = false) : b ≠ c := by
      rintro rfl
      rw [hb] at hc
      contradiction
    have hskip := skipNumber_append hn hrest
    rw [List.cons_append] at hskip ⊢
    rw [stepValue, skipBlanks_cons (not_isBlank_of_isDigit hb)]
    simp only [if_neg (hword (c := 0x6E) (by decide)), if_neg (hword (c := 0x74) (by decide)),
      if_neg (hword (c := 0x66) (by decide)), if_neg (hword (c := Ascii.minus) (by decide)),
      if_pos hb, hskip, afterValue]
  · rw [List.cons_append, stepValue, skipBlanks_cons (by decide)]
    change afterValue stack (skipNumber (t ++ rest)) = _
    rw [skipNumber_append ht hrest, afterValue]

/-- A string is taken in one step. -/
theorem stepValue_text {content : Bytes} (h : Content .bytes content) (stack : List Frame)
    (rest : Bytes) :
    stepValue stack (Ascii.quotation :: (content ++ Ascii.quotation :: rest)) =
      .ok (⟨.next, stack⟩, rest) := by
  rw [stepValue, skipBlanks_cons (by decide)]
  change afterValue stack (skipText (content ++ Ascii.quotation :: rest)) = _
  rw [skipText_eq_ok_iff.mpr ⟨content, h, rfl⟩, afterValue]

/-- A container is opened in one step. -/
theorem stepValue_opening (frame : Frame) (stack : List Frame) (s : Bytes) :
    stepValue stack (frame.opening :: s) = .ok (⟨.first, frame :: stack⟩, s) := by
  cases frame <;> rw [stepValue, skipBlanks_cons (by decide)] <;> rfl

/-- What follows an item does not continue a number. -/
theorem endsNumber_of_blanks_append (hblanks : IsBlanks blanks) {b : UInt8}
    (hb : b ∈ [Ascii.comma, Ascii.closeBracket, Ascii.closeBrace]) (s : Bytes) :
    EndsNumber (blanks ++ b :: s) := by
  have hends : ∀ c ∈ [Ascii.space, Ascii.tab, Ascii.lineFeed, Ascii.carriageReturn] ++
      [Ascii.comma, Ascii.closeBracket, Ascii.closeBrace],
      Ascii.isDigit c = false ∧ c ≠ Ascii.point ∧ isExponentLetter c = false := by decide +kernel
  intro c hc
  refine hends c ?_
  cases blanks with
  | nil =>
    obtain rfl := Option.some.inj hc
    exact List.mem_append_right _ hb
  | cons d blanks =>
    obtain rfl := Option.some.inj hc
    exact List.mem_append_left _ (hblanks d List.mem_cons_self)

/-- A container is closed by one of the bytes that may follow an item. -/
theorem Frame.close_mem (frame : Frame) :
    frame.close ∈ [Ascii.comma, Ascii.closeBracket, Ascii.closeBrace] := by
  cases frame <;> decide

/-- The name of a member is skipped, with its colon. -/
theorem stepItem_object (hlabel : IsLabel (Content .bytes) label) (stack : List Frame)
    (s : Bytes) : ∃ blanks, IsBlanks blanks ∧
      stepItem .object stack (label ++ s) = .ok (⟨.value, .object :: stack⟩, blanks ++ s) := by
  obtain ⟨before, name, between, after, hbefore, hname, hbetween, hafter, rfl⟩ := hlabel
  have hskip := skipName_eq_ok_iff.mpr ⟨before, name, between, hbefore, hname, hbetween,
    Eq.refl (before ++ Ascii.quotation :: (name ++ Ascii.quotation ::
      (between ++ Ascii.colon :: (after ++ s))))⟩
  refine ⟨after, hafter, ?_⟩
  simp only [List.append_assoc, List.cons_append, stepItem, hskip]

/-- The first item of a container leads to its value. -/
theorem skipFrom_first (hlabel : frame.Introduces .bytes label) (hv : Derives .bytes .value v)
    (stack : List Frame) (s : Bytes) :
    skipFrom ⟨.first, frame :: stack⟩ (label ++ (v ++ s)) =
      skipFrom ⟨.value, frame :: stack⟩ (v ++ s) := by
  cases frame with
  | list =>
    obtain ⟨b, t, rfl, hblank, hne⟩ := hv.exists_cons
    have hclose : b ≠ Frame.list.close := hne
    have hs : skipBlanks (label ++ (b :: t ++ s)) = b :: (t ++ s) := by
      rw [skipBlanks_append hlabel, List.cons_append, skipBlanks_cons hblank]
    refine skipFrom_congr rfl rfl ?_
    rw [step_first hs, if_neg hclose]
    rfl
  | object =>
    obtain ⟨before, name, between, after, hbefore, hname, hbetween, hafter, rfl⟩ := hlabel
    obtain ⟨blanks, hblanks, hstep⟩ := stepItem_object
      ⟨[], name, between, after, .nil, hname, hbetween, hafter, rfl⟩ stack (v ++ s)
    have hs := skipBlanks_append hbefore (Ascii.quotation :: (name ++ Ascii.quotation ::
      (between ++ Ascii.colon :: after)) ++ (v ++ s))
    rw [List.cons_append, skipBlanks_cons (by decide), ← List.cons_append,
      ← List.append_assoc before] at hs
    rw [← skipFrom_value_blanks_append hblanks]
    refine skipFrom_of_step rfl ?_
    rw [step_first hs, if_neg (by decide)]
    exact hstep

/-- After a comma the next item leads to its value. -/
theorem skipFrom_next_comma (hlabel : frame.Introduces .bytes label) (stack : List Frame)
    (s : Bytes) :
    skipFrom ⟨.next, frame :: stack⟩ (Ascii.comma :: (label ++ s)) =
      skipFrom ⟨.value, frame :: stack⟩ s := by
  have hs : skipBlanks (Ascii.comma :: (label ++ s)) = Ascii.comma :: (label ++ s) :=
    skipBlanks_cons (by decide) _
  cases frame with
  | list =>
    rw [← skipFrom_value_blanks_append hlabel]
    refine skipFrom_of_step rfl ?_
    rw [step_next hs, if_pos rfl]
  | object =>
    obtain ⟨blanks, hblanks, hstep⟩ := stepItem_object hlabel stack s
    rw [← skipFrom_value_blanks_append hblanks]
    refine skipFrom_of_step rfl ?_
    rw [step_next hs, if_pos rfl]
    exact hstep

private theorem skipFrom_next_close (hblanks : IsBlanks blanks) (frame : Frame) (stack : List Frame)
    (rest : Bytes) : skipFrom ⟨.next, frame :: stack⟩ (blanks ++ frame.close :: rest) =
      skipFrom ⟨.next, stack⟩ rest := by
  have hs : skipBlanks (frame.close :: rest) = frame.close :: rest :=
    skipBlanks_cons (by cases frame <;> decide) rest
  have hcomma : frame.close ≠ Ascii.comma := by cases frame <;> decide
  rw [skipFrom_next_blanks_append hblanks]
  refine skipFrom_of_step rfl ?_
  rw [step_next hs, if_neg hcomma, if_pos rfl]

/-- What the machine does with a value, and with the items of a container. -/
def Skips : Symbol → Bytes → Prop
  | .value, s => ∀ stack rest, EndsNumber rest →
      skipFrom ⟨.value, stack⟩ (s ++ rest) = skipFrom ⟨.next, stack⟩ rest
  | .items frame, s => ∀ stack rest,
      skipFrom ⟨.first, frame :: stack⟩ (s ++ frame.close :: rest) =
        skipFrom ⟨.next, stack⟩ rest ∧
      skipFrom ⟨.next, frame :: stack⟩ (Ascii.comma :: (s ++ frame.close :: rest)) =
        skipFrom ⟨.next, stack⟩ rest

/-- An item is skipped if its value and what follows it are. -/
theorem skips_items (hlabel : frame.Introduces .bytes label) (hv : Derives .bytes .value v)
    (ih : Skips .value v)
    (hs : ∀ stack rest, EndsNumber (s ++ frame.close :: rest) ∧
      skipFrom ⟨.next, frame :: stack⟩ (s ++ frame.close :: rest) =
        skipFrom ⟨.next, stack⟩ rest) :
    Skips (.items frame) (label ++ (v ++ s)) := by
  intro stack rest
  obtain ⟨hends, hnext⟩ := hs stack rest
  simp only [List.append_assoc]
  rw [skipFrom_first hlabel hv, skipFrom_next_comma hlabel, ih _ _ hends]
  exact ⟨hnext, hnext⟩

/-- Whatever the grammar derives is skipped. Containers are skipped item by item, so for items this
says what happens at a comma. -/
theorem Derives.skips {symbol : Symbol} (h : Derives .bytes symbol s) : Skips symbol s := by
  induction h with
  | word hw => exact fun stack rest _ => skipFrom_value_of_step (stepValue_word hw stack rest)
  | number hn =>
    exact fun stack rest hrest => skipFrom_value_of_step (stepValue_number hn hrest stack)
  | text hcontent =>
    intro stack rest _
    rw [List.cons_append, List.append_assoc, List.singleton_append]
    exact skipFrom_value_of_step (stepValue_text hcontent stack rest)
  | @empty frame blanks hblanks =>
    intro stack rest _
    have hclose : skipBlanks (blanks ++ frame.close :: rest) = frame.close :: rest := by
      rw [skipBlanks_append hblanks, skipBlanks_cons (by cases frame <;> decide)]
    rw [List.cons_append, List.append_assoc, List.singleton_append]
    refine (skipFrom_value_of_step (stepValue_opening frame stack _)).trans ?_
    refine skipFrom_of_step rfl ?_
    rw [step_first hclose, if_pos rfl]
  | @container frame items _ ih =>
    intro stack rest _
    rw [List.cons_append, List.append_assoc, List.singleton_append]
    exact (skipFrom_value_of_step (stepValue_opening frame stack _)).trans (ih stack rest).1
  | @last frame label v blanks hlabel hv hblanks ih =>
    exact skips_items hlabel hv ih fun stack rest =>
      ⟨endsNumber_of_blanks_append hblanks frame.close_mem rest,
        skipFrom_next_close hblanks frame stack rest⟩
  | @more frame label v blanks items hlabel hv hblanks _ ih ihs =>
    refine skips_items hlabel hv ih fun stack rest => ?_
    rw [List.append_assoc, List.cons_append, skipFrom_next_blanks_append hblanks]
    exact ⟨endsNumber_of_blanks_append hblanks (by decide) _, (ihs stack rest).2⟩

/-- A value at the front is skipped. -/
theorem skipValue_append (hblanks : IsBlanks blanks) (hv : Derives .bytes .value v)
    (hrest : EndsNumber rest) : skipValue (blanks ++ (v ++ rest)) = .ok rest := by
  rw [skipValue, skipFrom_value_blanks_append hblanks, hv.skips [] rest hrest, skipFrom]
  rfl

end Completeness

end Sealing.Json
