import Mathlib.Algebra.Group.Nat.Defs
import Sealing.Proofs.Decoding

/-!
# Base64 has one form for every byte string

Reading base64 undoes writing, and writing undoes reading on everything that is read. What is not
read is told by its shape alone: a character outside the alphabet, padding that is missing,
misplaced or in excess, or a last symbol with bits that belong to no byte. So envelopes and sealed
messages stand for each other, one to one.
-/

namespace Sealing

namespace Base64

/-- A symbol is the symbol of its value. -/
theorem value?_eq_some_iff {b : UInt8} {v : Nat} :
    value? b = some v ↔ v < 64 ∧ symbol v = b := by
  constructor
  · have hall : ∀ n < 256, ∀ v ∈ value? (UInt8.ofNat n), v < 64 ∧ symbol v = UInt8.ofNat n := by
      decide +kernel
    intro h
    rw [← UInt8.ofNat_toNat (x := b)] at h ⊢
    exact hall b.toNat b.toNat_lt v h
  · rintro ⟨hv, rfl⟩
    exact value?_symbol hv

/-- A byte is read as a value exactly if it is the symbol for it. -/
theorem valueAt_eq_ok_iff {offset : Nat} {b : UInt8} {v : Nat} :
    valueAt offset b = .ok v ↔ v < 64 ∧ symbol v = b := by
  rw [← value?_eq_some_iff, valueAt]
  cases value? b with
  | none => simp
  | some w => simp

/-- What the last group is made of, if its parts can be told apart. -/
theorem lastGroup_eq_ok {offset paddings paddings' : Nat} {values values' : List Nat}
    {group : Bytes} (h : lastGroup offset values paddings group = .ok (values', paddings')) :
    ∃ vs count, group = vs.map symbol ++ List.replicate count Ascii.equals ∧
      (∀ v ∈ vs, v < 64) ∧ (paddings ≠ 0 → vs = []) ∧
      values' = values ++ vs ∧ paddings' = paddings + count := by
  fun_induction lastGroup offset values paddings group with
  | case1 values paddings =>
    obtain ⟨rfl, rfl⟩ := Prod.mk.inj (Except.ok.inj h)
    exact ⟨[], 0, by simp⟩
  | case2 => contradiction
  | case3 values paddings bs _ ih =>
    obtain ⟨vs, count, rfl, hlt, hnil, rfl, rfl⟩ := ih h
    obtain rfl := hnil (Nat.succ_ne_zero paddings)
    refine ⟨[], count + 1, by simp [List.replicate_succ], hlt, fun _ => rfl, rfl, by omega⟩
  | case4 => contradiction
  | case5 values paddings b bs _ hzero v hv ih =>
    obtain ⟨vs, count, rfl, hlt, -, rfl, rfl⟩ := ih h
    obtain ⟨hlow, rfl⟩ := valueAt_eq_ok_iff.mp hv
    exact ⟨v :: vs, count, rfl, List.forall_mem_cons.mpr ⟨hlow, hlt⟩,
      fun hne => absurd hne hzero, by simp, rfl⟩
  | case6 => contradiction

section Groups

variable {v w x y : Nat}

/-- The symbols of a byte. -/
theorem encodeBytes_two (hv : v < 64) (hw : w < 64) (hbits : w % 16 = 0) :
    encodeBytes [UInt8.ofNat (v * 4 + w / 16)] =
      [symbol v, symbol w, Ascii.equals, Ascii.equals] := by
  have hfirst : (UInt8.ofNat (v * 4 + w / 16)).toNat = v * 4 + w / 16 := by
    rw [UInt8.toNat_ofNat']
    omega
  have hv' : (v * 4 + w / 16) / 4 = v := by omega
  have hw' : (v * 4 + w / 16) % 4 * 16 = w := by omega
  rw [encodeBytes, hfirst, hv', hw']

/-- The symbols of two bytes. -/
theorem encodeBytes_three (hv : v < 64) (hw : w < 64) (hx : x < 64) (hbits : x % 4 = 0) :
    encodeBytes [UInt8.ofNat (v * 4 + w / 16), UInt8.ofNat (w % 16 * 16 + x / 4)] =
      [symbol v, symbol w, symbol x, Ascii.equals] := by
  have hfirst : (UInt8.ofNat (v * 4 + w / 16)).toNat = v * 4 + w / 16 := by
    rw [UInt8.toNat_ofNat']
    omega
  have hsecond : (UInt8.ofNat (w % 16 * 16 + x / 4)).toNat = w % 16 * 16 + x / 4 := by
    rw [UInt8.toNat_ofNat']
    omega
  have hv' : (v * 4 + w / 16) / 4 = v := by omega
  have hw' : (v * 4 + w / 16) % 4 * 16 + (w % 16 * 16 + x / 4) / 16 = w := by omega
  have hx' : (w % 16 * 16 + x / 4) % 16 * 4 = x := by omega
  rw [encodeBytes, hfirst, hsecond, hv', hw', hx']

/-- The symbols of three bytes, whatever follows them. -/
theorem encodeBytes_four (hv : v < 64) (hw : w < 64) (hx : x < 64) (hy : y < 64) (rest : Bytes) :
    encodeBytes (UInt8.ofNat (v * 4 + w / 16) :: UInt8.ofNat (w % 16 * 16 + x / 4) ::
        UInt8.ofNat (x % 4 * 64 + y) :: rest) =
      symbol v :: symbol w :: symbol x :: symbol y :: encodeBytes rest := by
  have hfirst : (UInt8.ofNat (v * 4 + w / 16)).toNat = v * 4 + w / 16 := by
    rw [UInt8.toNat_ofNat']
    omega
  have hsecond : (UInt8.ofNat (w % 16 * 16 + x / 4)).toNat = w % 16 * 16 + x / 4 := by
    rw [UInt8.toNat_ofNat']
    omega
  have hthird : (UInt8.ofNat (x % 4 * 64 + y)).toNat = x % 4 * 64 + y := by
    rw [UInt8.toNat_ofNat']
    omega
  have hv' : (v * 4 + w / 16) / 4 = v := by omega
  have hw' : (v * 4 + w / 16) % 4 * 16 + (w % 16 * 16 + x / 4) / 16 = w := by omega
  have hx' : (w % 16 * 16 + x / 4) % 16 * 4 + (x % 4 * 64 + y) / 64 = x := by omega
  have hy' : (x % 4 * 64 + y) % 64 = y := by omega
  rw [encodeBytes, hfirst, hsecond, hthird, hv', hw', hx', hy']

end Groups

private theorem of_bind {α β : Type} {x : Except DecodeError α} {next : α → Except DecodeError β}
    {b : β} (h : x >>= next = .ok b) : ∃ a, x = .ok a ∧ next a = .ok b := by
  cases x with
  | error e => contradiction
  | ok a => exact ⟨a, rfl, h⟩

/-- A check that was passed. -/
private theorem of_check {α : Type} {p : Prop} [Decidable p] {e : DecodeError}
    {next : Unit → Except DecodeError α} {b : α}
    (h : (if p then (throw e : Except DecodeError Unit) >>= next else next ()) = .ok b) :
    ¬p ∧ next () = .ok b := by
  by_cases hp : p
  · rw [if_pos hp] at h
    contradiction
  · rw [if_neg hp] at h
    exact ⟨hp, h⟩

/-- The last group is read from its written form only. -/
theorem encodeBytes_of_decodeLast {offset : Nat} {group b : Bytes} (hlength : group.length ≤ 4)
    (h : decodeLast offset group = .ok b) : encodeBytes b = group := by
  rw [decodeLast] at h
  obtain ⟨⟨values, paddings⟩, hg, h⟩ := of_bind h
  obtain ⟨vs, count, rfl, hlt, -, rfl, rfl⟩ := lastGroup_eq_ok hg
  rw [List.length_append, List.length_map, List.length_replicate] at hlength
  obtain ⟨hshort, h⟩ := of_check h
  obtain ⟨hfilled, h⟩ := of_check h
  rw [Nat.zero_add, Decidable.not_not] at hfilled
  rcases values with _ | ⟨v, _ | ⟨w, _ | ⟨x, _ | ⟨y, _ | ⟨z, vs⟩⟩⟩⟩⟩
  · obtain rfl := Except.ok.inj h
    have hnone : List.replicate count Ascii.equals = [] := by simpa using hshort
    rw [encodeBytes, List.map_nil, List.nil_append, hnone]
  · simp at hshort
  · obtain ⟨hbits, h⟩ := of_check h
    obtain rfl := Except.ok.inj h
    obtain rfl : count = 2 := by simp only [List.length_cons, List.length_nil] at *; omega
    exact encodeBytes_two (hlt v (by simp)) (hlt w (by simp)) (Decidable.not_not.mp hbits)
  · obtain ⟨hbits, h⟩ := of_check h
    obtain rfl := Except.ok.inj h
    obtain rfl : count = 1 := by simp only [List.length_cons, List.length_nil] at *; omega
    exact encodeBytes_three (hlt v (by simp)) (hlt w (by simp)) (hlt x (by simp))
      (Decidable.not_not.mp hbits)
  · obtain rfl := Except.ok.inj h
    obtain rfl : count = 0 := by simp only [List.length_cons, List.length_nil] at *; omega
    exact encodeBytes_four (hlt v (by simp)) (hlt w (by simp)) (hlt x (by simp))
      (hlt y (by simp)) []
  · simp only [List.length_cons] at hlength
    omega

/-- A text is read from its written form only, wherever it stands. -/
theorem encodeBytes_of_decodeFrom {offset : Nat} {text b : Bytes}
    (h : decodeFrom offset text = .ok b) : encodeBytes b = text := by
  induction offset, text using decodeFrom.induct generalizing b with
  | case1 offset s t u z e rest ih =>
    rw [decodeFrom] at h
    obtain ⟨v, hv, h⟩ := of_bind h
    obtain ⟨w, hw, h⟩ := of_bind h
    obtain ⟨x, hx, h⟩ := of_bind h
    obtain ⟨y, hy, h⟩ := of_bind h
    obtain ⟨tail, htail, h⟩ := of_bind h
    obtain rfl := Except.ok.inj h
    obtain ⟨hv64, rfl⟩ := valueAt_eq_ok_iff.mp hv
    obtain ⟨hw64, rfl⟩ := valueAt_eq_ok_iff.mp hw
    obtain ⟨hx64, rfl⟩ := valueAt_eq_ok_iff.mp hx
    obtain ⟨hy64, rfl⟩ := valueAt_eq_ok_iff.mp hy
    rw [encodeBytes_four hv64 hw64 hx64 hy64, ih htail]
  | case2 offset group hgroup =>
    rw [decodeFrom] at h
    · refine encodeBytes_of_decodeLast (Nat.le_of_not_lt fun hlong => ?_) h
      rcases group with _ | ⟨a, _ | ⟨b, _ | ⟨c, _ | ⟨d, _ | ⟨e, rest⟩⟩⟩⟩⟩
      iterate 5 simp at hlong
      exact hgroup a b c d e rest rfl
    · exact hgroup

/-- Reading undoes writing, and writing undoes reading. -/
theorem decodeBytes_eq_ok_iff {text b : Bytes} :
    decodeBytes text = .ok b ↔ encodeBytes b = text := by
  refine ⟨fun h => ?_, fun h => h ▸ decodeBytes_encodeBytes b⟩
  rw [decodeBytes] at h
  split at h
  · split at h
    · contradiction
    · exact encodeBytes_of_decodeFrom h
  · next hnone =>
    obtain rfl := Except.ok.inj h
    exact (List.getLast?_eq_none_iff.mp hnone).symm

/-- A text is decoded exactly if it is what encoding makes of the bytes. -/
theorem decode_eq_ok_iff {text : String} {b : Bytes} : decode text = .ok b ↔ encode b = text := by
  rw [decode, decodeBytes_eq_ok_iff, ← utf8Encode_encode, Utf8.encode_inj]

/-- The symbols in the order of their values. -/
def alphabet : List Char :=
  "ABCDEFGHIJKLMNOPQRSTUVWXYZabcdefghijklmnopqrstuvwxyz0123456789+/".toList

/-- What keeps a text from being the written form of a byte string. -/
inductive Flawed (text : String) : Prop
  /-- A character is neither a symbol nor padding. -/
  | foreign {c : Char} : c ∈ text.toList → c ≠ '=' → c ∉ alphabet → Flawed text
  /-- Padding is missing, or there is too much of it to make up groups of four. -/
  | ungrouped : text.length % 4 ≠ 0 → Flawed text
  /-- Something else follows padding. -/
  | misplaced {front back : List Char} {c : Char} :
      text.toList = front ++ '=' :: c :: back → c ≠ '=' → Flawed text
  /-- More than two paddings stand at the end. -/
  | excess {front : List Char} : text.toList = front ++ ['=', '=', '='] → Flawed text
  /-- The last symbol, before the padding, carries bits that belong to no byte. -/
  | spare {front : List Char} {c : Char} {v paddings : Nat} : alphabet[v]? = some c →
      text.toList = front ++ c :: List.replicate paddings '=' → v % 4 ^ paddings ≠ 0 → Flawed text

/-- Values of symbols, and a number of paddings, that make up whole groups and whole bytes. -/
structure Filled (vs : List Nat) (paddings : Nat) : Prop where
  lt : ∀ v ∈ vs, v < 64
  paddings_le : paddings ≤ 2
  groups : (vs.length + paddings) % 4 = 0
  spare : ∀ v ∈ vs.getLast?, v % 4 ^ paddings = 0

/-- The symbol of a value, as a character. -/
def letter (v : Nat) : Char := alphabet.getD v '='

/-- The letter for a value is its symbol as a character. -/
theorem letter_eq {v : Nat} (h : v < 64) : Char.ofNat (symbol v).toNat = letter v := by
  have hall : ∀ v < 64, Char.ofNat (symbol v).toNat = letter v := by decide +kernel
  exact hall v h

private theorem alphabet_nodup : alphabet.Nodup := by decide

private theorem getElem?_alphabet {v : Nat} (h : v < 64) : alphabet[v]? = some (letter v) := by
  have hlength : v < alphabet.length := h
  rw [letter, List.getD_eq_getElem?_getD, List.getElem?_eq_getElem hlength, Option.getD_some]

private theorem letter_mem_alphabet {v : Nat} (h : v < 64) : letter v ∈ alphabet :=
  List.mem_of_getElem? (getElem?_alphabet h)

private theorem equals_notMem_alphabet : '=' ∉ alphabet := by decide

/-- A whole group in front changes nothing for those behind it. -/
theorem filled_cons_iff {v w x y paddings : Nat} {vs : List Nat} :
    Filled (v :: w :: x :: y :: vs) paddings ↔
      (v < 64 ∧ w < 64 ∧ x < 64 ∧ y < 64) ∧ Filled vs paddings := by
  constructor
  · rintro ⟨hlt, hle, hgroups, hspare⟩
    simp only [List.forall_mem_cons] at hlt
    obtain ⟨hv, hw, hx, hy, hvs⟩ := hlt
    refine ⟨⟨hv, hw, hx, hy⟩, hvs, hle, ?_, fun z hz => hspare z ?_⟩
    · simp only [List.length_cons] at hgroups
      omega
    · obtain ⟨front, rfl⟩ := List.getLast?_eq_some_iff.mp hz
      exact List.getLast?_eq_some_iff.mpr ⟨v :: w :: x :: y :: front, rfl⟩
  · rintro ⟨⟨hv, hw, hx, hy⟩, hvs, hle, hgroups, hspare⟩
    refine ⟨by simpa only [List.forall_mem_cons] using ⟨hv, hw, hx, hy, hvs⟩, hle, ?_, ?_⟩
    · simp only [List.length_cons]
      omega
    · rcases List.eq_nil_or_concat vs with rfl | ⟨front, last, rfl⟩
      · obtain rfl : paddings = 0 := by simp only [List.length_nil] at hgroups; omega
        exact fun z _ => Nat.mod_one z
      · intro z hz
        refine hspare z ?_
        simpa [List.getLast?_cons] using hz

/-- The written form of a byte string, by the values of its symbols. -/
theorem exists_filled (b : Bytes) : ∃ vs paddings, Filled vs paddings ∧
    encodeBytes b = vs.map symbol ++ List.replicate paddings Ascii.equals := by
  induction b using encodeBytes.induct with
  | case1 => exact ⟨[], 0, ⟨by simp, by decide, by decide, by simp⟩, rfl⟩
  | case2 a =>
    have ha := a.toNat_lt
    refine ⟨[a.toNat / 4, a.toNat % 4 * 16], 2, ⟨?_, by decide, by simp, ?_⟩, rfl⟩
    · simp only [List.forall_mem_cons, List.not_mem_nil, false_implies, implies_true, and_true]
      omega
    · rintro v ⟨⟩
      change a.toNat % 4 * 16 % 4 ^ 2 = 0
      omega
  | case3 a b =>
    have ha := a.toNat_lt
    have hb := b.toNat_lt
    refine ⟨[a.toNat / 4, a.toNat % 4 * 16 + b.toNat / 16, b.toNat % 16 * 4], 1,
      ⟨?_, by decide, by simp, ?_⟩, rfl⟩
    · simp only [List.forall_mem_cons, List.not_mem_nil, false_implies, implies_true, and_true]
      omega
    · rintro v ⟨⟩
      change b.toNat % 16 * 4 % 4 ^ 1 = 0
      omega
  | case4 a b c rest ih =>
    have ha := a.toNat_lt
    have hb := b.toNat_lt
    have hc := c.toNat_lt
    obtain ⟨vs, paddings, h, htext⟩ := ih
    refine ⟨a.toNat / 4 :: (a.toNat % 4 * 16 + b.toNat / 16) ::
      (b.toNat % 16 * 4 + c.toNat / 64) :: c.toNat % 64 :: vs, paddings,
      filled_cons_iff.mpr ⟨by omega, h⟩, ?_⟩
    rw [encodeBytes, htext]
    rfl

/-- Values that make up whole groups and whole bytes are those of a byte string. -/
theorem Filled.exists_encodeBytes {vs : List Nat} {paddings : Nat} (h : Filled vs paddings) :
    ∃ b, encodeBytes b = vs.map symbol ++ List.replicate paddings Ascii.equals := by
  match vs, h with
  | [], h =>
    have hle := h.paddings_le
    have hgroups := h.groups
    obtain rfl : paddings = 0 := by simp only [List.length_nil] at hgroups; omega
    exact ⟨[], rfl⟩
  | [v], h =>
    have hle := h.paddings_le
    have hgroups := h.groups
    simp only [List.length_cons, List.length_nil] at hgroups
    omega
  | [v, w], h =>
    have hle := h.paddings_le
    have hgroups := h.groups
    obtain rfl : paddings = 2 := by simp only [List.length_cons, List.length_nil] at hgroups; omega
    exact ⟨_, encodeBytes_two (h.lt v (by simp)) (h.lt w (by simp)) (h.spare w rfl)⟩
  | [v, w, x], h =>
    have hle := h.paddings_le
    have hgroups := h.groups
    obtain rfl : paddings = 1 := by simp only [List.length_cons, List.length_nil] at hgroups; omega
    exact ⟨_, encodeBytes_three (h.lt v (by simp)) (h.lt w (by simp)) (h.lt x (by simp))
      (h.spare x rfl)⟩
  | v :: w :: x :: y :: vs, h =>
    obtain ⟨⟨hv, hw, hx, hy⟩, hvs⟩ := filled_cons_iff.mp h
    obtain ⟨b, hb⟩ := hvs.exists_encodeBytes
    exact ⟨_, (encodeBytes_four hv hw hx hy b).trans (by rw [hb]; rfl)⟩

/-- The characters of a written form. -/
theorem toList_encode {b : Bytes} {vs : List Nat} {paddings : Nat} (h : Filled vs paddings)
    (hb : encodeBytes b = vs.map symbol ++ List.replicate paddings Ascii.equals) :
    (encode b).toList = vs.map letter ++ List.replicate paddings '=' := by
  have hvs : (vs.map symbol).map (fun c => Char.ofNat c.toNat) = vs.map letter := by
    rw [List.map_map]
    exact List.map_congr_left fun v hv => letter_eq (h.lt v hv)
  rw [encode, String.toList_ofList, hb, List.map_append, hvs, List.map_replicate]
  rfl

private theorem equals_notMem_map_letter {vs : List Nat} {paddings : Nat} (h : Filled vs paddings) :
    '=' ∉ vs.map letter := by
  rintro hmem
  obtain ⟨v, hv, heq⟩ := List.mem_map.mp hmem
  exact equals_notMem_alphabet (heq ▸ letter_mem_alphabet (h.lt v hv))

/-- Padding at the end can be told apart from what stands before it. -/
theorem append_replicate_inj {front front' : List Char} {count count' : Nat}
    (h : '=' ∉ front) (h' : '=' ∉ front')
    (heq : front ++ List.replicate count '=' = front' ++ List.replicate count' '=') :
    front = front' ∧ count = count' := by
  have hcount := congrArg (List.count '=') heq
  rw [List.count_append, List.count_append, List.count_eq_zero.mpr h, List.count_eq_zero.mpr h',
    List.count_replicate_self, List.count_replicate_self, Nat.zero_add, Nat.zero_add] at hcount
  subst hcount
  exact ⟨List.append_cancel_right heq, rfl⟩

/-- Only padding follows padding. -/
theorem eq_equals_of_append {front front' rest : List Char} {count : Nat} (h : '=' ∉ front)
    (heq : front ++ List.replicate count '=' = front' ++ '=' :: rest) : ∀ c ∈ rest, c = '=' := by
  intro c hc
  rcases List.append_eq_append_iff.mp heq with ⟨more, -, hmore⟩ | ⟨more, hfront, hmore⟩
  · refine List.eq_of_mem_replicate (n := count) ?_
    rw [hmore]
    simp [hc]
  · cases more with
    | nil =>
      refine List.eq_of_mem_replicate (n := count) ?_
      rw [← List.nil_append (List.replicate _ _), ← hmore]
      simp [hc]
    | cons d more =>
      obtain ⟨rfl, -⟩ := List.cons.inj hmore
      exact absurd (by simp [hfront]) h

/-- No written form is flawed. -/
theorem not_flawed_encode (b : Bytes) : ¬Flawed (encode b) := by
  obtain ⟨vs, paddings, h, hb⟩ := exists_filled b
  have htext := toList_encode h hb
  have hequals := equals_notMem_map_letter h
  intro hflaw
  cases hflaw with
  | @foreign c hc hne hmem =>
    rw [htext, List.mem_append] at hc
    rcases hc with hc | hc
    · obtain ⟨v, hv, rfl⟩ := List.mem_map.mp hc
      exact hmem (letter_mem_alphabet (h.lt v hv))
    · exact hne (List.eq_of_mem_replicate hc)
  | ungrouped hlength =>
    rw [← String.length_toList, htext, List.length_append, List.length_map,
      List.length_replicate] at hlength
    exact hlength h.groups
  | @misplaced front back c hmis hne =>
    exact hne (eq_equals_of_append hequals (htext.symm.trans hmis) c List.mem_cons_self)
  | @excess front hex =>
    have hcount := congrArg (List.count '=') (htext.symm.trans hex)
    rw [List.count_append, List.count_append, List.count_eq_zero.mpr hequals,
      List.count_replicate_self] at hcount
    have hthree : List.count '=' ['=', '=', '='] = 3 := by decide
    have hle := h.paddings_le
    omega
  | @spare front c v count hv hspare hne =>
    have hc : c ∈ alphabet := List.mem_of_getElem? hv
    have hfront : '=' ∉ front ++ [c] := by
      intro hmem
      rcases List.mem_append.mp hmem with hmem | hmem
      · obtain ⟨start, more, rfl⟩ := List.append_of_mem hmem
        rw [List.append_assoc, List.cons_append] at hspare
        have hequal := eq_equals_of_append hequals (htext.symm.trans hspare) c (by simp)
        exact equals_notMem_alphabet (hequal ▸ hc)
      · exact equals_notMem_alphabet (List.mem_singleton.mp hmem ▸ hc)
    rw [List.append_cons] at hspare
    obtain ⟨hletters, rfl⟩ := append_replicate_inj hequals hfront (htext.symm.trans hspare)
    obtain ⟨vs', ws, rfl, -, hws⟩ := List.map_eq_append_iff.mp hletters
    obtain ⟨w, rfl, rfl⟩ := List.map_eq_singleton_iff.mp hws
    have hw : w < 64 := h.lt w (by simp)
    have hlength : v < alphabet.length := (List.getElem?_eq_some_iff.mp hv).1
    obtain rfl : v = w := (List.getElem?_inj hlength alphabet_nodup).mp
      (hv.trans (getElem?_alphabet hw).symm)
    exact hne (h.spare v (by simp))

/-- A text in which only padding follows padding is padded at its end, if at all. -/
theorem exists_padded {cs : List Char}
    (h : ∀ front c back, cs = front ++ '=' :: c :: back → c = '=') :
    ∃ front count, cs = front ++ List.replicate count '=' ∧ '=' ∉ front := by
  induction cs with
  | nil => exact ⟨[], 0, rfl, List.not_mem_nil⟩
  | cons c cs ih =>
    obtain ⟨front, count, rfl, hfront⟩ := ih fun front d back hcs =>
      h (c :: front) d back (by rw [hcs, List.cons_append])
    by_cases hc : c = '='
    · subst hc
      cases front with
      | nil => exact ⟨[], count + 1, rfl, List.not_mem_nil⟩
      | cons d front =>
        have hd : d = '=' := h [] d _ rfl
        exact absurd (hd ▸ List.mem_cons_self) hfront
    · exact ⟨c :: front, count, rfl, by simp [hfront, Ne.symm hc]⟩

/-- Symbols are the symbols of values. -/
theorem exists_map_letter {cs : List Char} (h : ∀ c ∈ cs, c ∈ alphabet) :
    ∃ vs : List Nat, (∀ v ∈ vs, v < 64) ∧ cs = vs.map letter := by
  induction cs with
  | nil => exact ⟨[], by simp, rfl⟩
  | cons c cs ih =>
    obtain ⟨vs, hvs, rfl⟩ := ih fun d hd => h d (List.mem_cons_of_mem c hd)
    obtain ⟨v, hv, hc⟩ := List.getElem_of_mem (h c List.mem_cons_self)
    have hletter : letter v = c := by
      rw [← hc]
      exact Option.some.inj ((getElem?_alphabet hv).symm.trans (List.getElem?_eq_getElem hv))
    exact ⟨v :: vs, List.forall_mem_cons.mpr ⟨hv, hvs⟩, by rw [List.map_cons, hletter]⟩

/-- A text without a flaw is a written form. -/
theorem exists_encode_eq {text : String} (h : ¬Flawed text) : ∃ b, encode b = text := by
  obtain ⟨front, paddings, htext, hfront⟩ := exists_padded fun front c back heq =>
    Decidable.byContradiction fun hne => h (.misplaced heq hne)
  have hsymbols : ∀ c ∈ front, c ∈ alphabet := fun c hc =>
    Decidable.byContradiction fun hmem =>
      h (.foreign (by simp [htext, hc]) (fun heq => hfront (heq ▸ hc)) hmem)
  obtain ⟨vs, hvs, rfl⟩ := exists_map_letter hsymbols
  have hfilled : Filled vs paddings := by
    refine ⟨hvs, ?_, ?_, ?_⟩
    · refine Nat.le_of_not_lt fun hlt => h (@Flawed.excess text (vs.map letter ++
        List.replicate (paddings - 3) '=') ?_)
      have hthree : List.replicate 3 '=' = ['=', '=', '='] := rfl
      rw [htext, List.append_assoc, ← hthree, List.replicate_append_replicate,
        Nat.sub_add_cancel hlt]
    · refine Decidable.byContradiction fun hne => h (.ungrouped ?_)
      rwa [← String.length_toList, htext, List.length_append, List.length_map,
        List.length_replicate]
    · intro v hv
      obtain ⟨start, rfl⟩ := List.getLast?_eq_some_iff.mp hv
      refine Decidable.byContradiction fun hne => h (@Flawed.spare text (start.map letter) _ _ _
        (getElem?_alphabet (hvs v (by simp))) ?_ hne)
      rw [htext, List.map_append, List.map_singleton]
      exact (List.append_cons _ _ _).symm
  obtain ⟨b, hb⟩ := hfilled.exists_encodeBytes
  exact ⟨b, String.toList_inj.mp ((toList_encode hfilled hb).trans htext.symm)⟩

/-- The flaws are all that keeps a text from being read. -/
theorem exists_decode_iff {text : String} : (∃ b, decode text = .ok b) ↔ ¬Flawed text := by
  constructor
  · rintro ⟨b, hb⟩
    obtain rfl := decode_eq_ok_iff.mp hb
    exact not_flawed_encode b
  · intro h
    obtain ⟨b, rfl⟩ := exists_encode_eq h
    exact ⟨b, decode_encode b⟩

end Base64

namespace SealedMessage

variable {part text : String} {b : Bytes} {e : Envelope} {m : SealedMessage}

/-- A part of an envelope is read exactly if it is what encoding makes of the bytes. -/
theorem readPart_eq_ok_iff : readPart part text = .ok b ↔ Base64.encode b = text := by
  rw [← Base64.decode_eq_ok_iff, readPart]
  cases Base64.decode text <;> simp

/-- An envelope is that of the message it is read as, and of no other. -/
theorem ofEnvelope_eq_ok_iff : ofEnvelope e = .ok m ↔ m.toEnvelope = e := by
  refine ⟨fun h => ?_, fun h => h ▸ m.ofEnvelope_toEnvelope⟩
  rw [ofEnvelope] at h
  split at h
  · contradiction
  · next hciphertext =>
    split at h
    · contradiction
    · next hhmac =>
      obtain rfl := Except.ok.inj h
      rw [toEnvelope, readPart_eq_ok_iff.mp hciphertext, readPart_eq_ok_iff.mp hhmac]

/-- What cannot be read is reported as such, with a reason. -/
theorem exists_ofEnvelope_eq_error (h : ¬∃ m, ofEnvelope e = .ok m) :
    ∃ reason, ofEnvelope e = .error (.decode reason) := by
  cases hciphertext : Base64.decode e.ciphertext with
  | error f => exact ⟨_, ofEnvelope_eq_error_ciphertext hciphertext⟩
  | ok ciphertext =>
    cases hhmac : Base64.decode e.hmac with
    | error f => exact ⟨_, ofEnvelope_eq_error_tag hciphertext hhmac⟩
    | ok tag => exact absurd ⟨_, ofEnvelope_eq_ok hciphertext hhmac⟩ h

/-- An envelope can be read exactly if neither part has a flaw. -/
theorem exists_ofEnvelope_iff : (∃ m, ofEnvelope e = .ok m) ↔
    ¬Base64.Flawed e.ciphertext ∧ ¬Base64.Flawed e.hmac := by
  simp only [ofEnvelope_eq_ok_iff, ← Base64.exists_decode_iff, Base64.decode_eq_ok_iff]
  constructor
  · rintro ⟨m, rfl⟩
    exact ⟨⟨m.ciphertext, rfl⟩, m.tag, rfl⟩
  · rintro ⟨⟨ciphertext, hciphertext⟩, tag, htag⟩
    exact ⟨⟨ciphertext, tag⟩, by rw [toEnvelope, hciphertext, htag]⟩

/-- Messages and the envelopes that can be read stand for each other, one to one. An envelope with
a flaw in either part is a failure to decode, and no other is. -/
theorem envelopes_stand_for_messages :
    (∀ m : SealedMessage, ofEnvelope m.toEnvelope = .ok m) ∧
    (∀ (e : Envelope) (m : SealedMessage), ofEnvelope e = .ok m → m.toEnvelope = e) ∧
    (∀ (e e' : Envelope) (m : SealedMessage),
      ofEnvelope e = .ok m → ofEnvelope e' = .ok m → e = e') ∧
    ∀ e : Envelope, (Base64.Flawed e.ciphertext ∨ Base64.Flawed e.hmac ↔
      ∃ reason, ofEnvelope e = .error (.decode reason)) := by
  refine ⟨ofEnvelope_toEnvelope, fun e m h => ofEnvelope_eq_ok_iff.mp h, fun e e' m h h' => ?_,
    fun e => ⟨fun h => ?_, fun ⟨reason, h⟩ => ?_⟩⟩
  · exact (ofEnvelope_eq_ok_iff.mp h).symm.trans (ofEnvelope_eq_ok_iff.mp h')
  · refine exists_ofEnvelope_eq_error fun hread => ?_
    obtain ⟨hciphertext, hhmac⟩ := exists_ofEnvelope_iff.mp hread
    exact h.elim hciphertext hhmac
  · refine Classical.byContradiction fun hflaw => ?_
    obtain ⟨m, hm⟩ := exists_ofEnvelope_iff.mpr (not_or.mp hflaw)
    rw [h] at hm
    contradiction

/-- Four bytes and one byte, whose texts end in two paddings each. With another last symbol in
front of them there are bits left over, and without them the groups are not whole. -/
theorem envelopes_stand_for_messages_padded :
    (SealedMessage.mk [1, 2, 3, 4] [5]).toEnvelope = ⟨"AQIDBA==", "BQ=="⟩ ∧
    (∃ reason, ofEnvelope ⟨"AQIDBB==", "BQ=="⟩ = .error (.decode reason)) ∧
    ∃ reason, ofEnvelope ⟨"AQIDBA==", "BQ"⟩ = .error (.decode reason) := by
  obtain ⟨-, hwrite, -, hflaw⟩ := envelopes_stand_for_messages
  refine ⟨hwrite _ _ (by rfl), (hflaw _).mp (.inl ?_), (hflaw _).mp (.inr ?_)⟩
  · exact @Base64.Flawed.spare _ "AQIDB".toList 'B' 1 2 (by decide) (by decide) (by decide)
  · exact .ungrouped (by decide)

end SealedMessage

end Sealing
