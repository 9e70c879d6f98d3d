import Sealing.Bytes.Base64
import Sealing.Proofs.Utf8

/-!
# Base64 reads what it writes

A written group is a few symbols and the padding that fills it up. The reader takes the values of
the symbols back and puts the bytes together again, at whatever offset the group stands. The
written form has one length for each number of bytes, and all of it is ASCII.
-/

namespace Sealing.Base64

variable {v : Nat}

/-- The value of a symbol is the one that it stands for. -/
theorem value?_symbol (h : v < 64) : value? (symbol v) = some v := by
  have hall : ∀ v < 64, value? (symbol v) = some v := by decide
  exact hall v h

example : (List.range 64).map symbol =
    Ascii.bytes "ABCDEFGHIJKLMNOPQRSTUVWXYZabcdefghijklmnopqrstuvwxyz0123456789+/" := by
  decide

/-- Padding is no symbol. -/
theorem symbol_ne_equals (h : v < 64) : symbol v ≠ Ascii.equals := by
  intro heq
  have hnone : value? (symbol v) = none := by
    rw [heq]
    rfl
  rw [value?_symbol h] at hnone
  contradiction

private theorem valueAt_symbol (offset : Nat) (h : v < 64) : valueAt offset (symbol v) = .ok v := by
  rw [valueAt, value?_symbol h]

/-- The last group takes the values of the symbols at its front. -/
theorem lastGroup_symbols {vs : List Nat} (h : ∀ v ∈ vs, v < 64) (offset : Nat)
    (values : List Nat) (rest : Bytes) :
    lastGroup offset values 0 (vs.map symbol ++ rest) =
      lastGroup offset (values ++ vs) 0 rest := by
  induction vs generalizing values with
  | nil => rw [List.map_nil, List.nil_append, List.append_nil]
  | cons v vs ih =>
    have hv : v < 64 := h v List.mem_cons_self
    have hvs : ∀ w ∈ vs, w < 64 := fun w hw => h w (List.mem_cons_of_mem v hw)
    rw [List.map_cons, List.cons_append, lastGroup, if_neg (symbol_ne_equals hv),
      if_neg (not_not_intro rfl), valueAt_symbol _ hv]
    simp only
    rw [ih hvs, List.append_assoc, List.singleton_append]

/-- The last group counts the paddings at its end. -/
theorem lastGroup_paddings {values : List Nat} {paddings : Nat}
    (h : 2 ≤ values.length + paddings) (offset count : Nat) :
    lastGroup offset values paddings (List.replicate count Ascii.equals) =
      .ok (values, paddings + count) := by
  induction count generalizing paddings with
  | zero => rfl
  | succ count ih =>
    rw [List.replicate_succ, lastGroup, if_pos rfl, if_neg (by omega), ih (by omega)]
    simp only [Except.ok.injEq, Prod.mk.injEq, true_and]
    omega

/-- A filled group yields its values and the number of its paddings. -/
theorem lastGroup_filled {vs : List Nat} (h : ∀ v ∈ vs, v < 64) (hlength : 2 ≤ vs.length)
    (offset count : Nat) :
    lastGroup offset [] 0 (vs.map symbol ++ List.replicate count Ascii.equals) =
      .ok (vs, count) := by
  rw [lastGroup_symbols h, List.nil_append, lastGroup_paddings (by omega), Nat.zero_add]

/-- The bytes of a filled group of two symbols. -/
theorem decodeLast_two {v w : Nat} (hv : v < 64) (hw : w < 64) (hbits : w % 16 = 0)
    (offset : Nat) :
    decodeLast offset [symbol v, symbol w, Ascii.equals, Ascii.equals] =
      .ok [UInt8.ofNat (v * 4 + w / 16)] := by
  have hgroup : lastGroup offset [] 0 ([v, w].map symbol ++ List.replicate 2 Ascii.equals) =
      .ok ([v, w], 2) := lastGroup_filled (by simp [hv, hw]) (by simp) offset 2
  simp only [List.map_cons, List.map_nil, List.replicate, List.cons_append,
    List.nil_append] at hgroup
  rw [decodeLast, hgroup]
  simp [bind, Except.bind, pure, Except.pure, hbits]

/-- The bytes of a filled group of three symbols. -/
theorem decodeLast_three {v w x : Nat} (hv : v < 64) (hw : w < 64) (hx : x < 64)
    (hbits : x % 4 = 0) (offset : Nat) :
    decodeLast offset [symbol v, symbol w, symbol x, Ascii.equals] =
      .ok [UInt8.ofNat (v * 4 + w / 16), UInt8.ofNat (w % 16 * 16 + x / 4)] := by
  have hgroup : lastGroup offset [] 0 ([v, w, x].map symbol ++ List.replicate 1 Ascii.equals) =
      .ok ([v, w, x], 1) := lastGroup_filled (by simp [hv, hw, hx]) (by simp) offset 1
  simp only [List.map_cons, List.map_nil, List.replicate, List.cons_append,
    List.nil_append] at hgroup
  rw [decodeLast, hgroup]
  simp [bind, Except.bind, pure, Except.pure, hbits]

/-- The bytes of a group of four symbols. -/
theorem decodeLast_four {v w x y : Nat} (hv : v < 64) (hw : w < 64) (hx : x < 64) (hy : y < 64)
    (offset : Nat) :
    decodeLast offset [symbol v, symbol w, symbol x, symbol y] =
      .ok [UInt8.ofNat (v * 4 + w / 16), UInt8.ofNat (w % 16 * 16 + x / 4),
        UInt8.ofNat (x % 4 * 64 + y)] := by
  have hgroup : lastGroup offset [] 0 ([v, w, x, y].map symbol ++ List.replicate 0 Ascii.equals) =
      .ok ([v, w, x, y], 0) := lastGroup_filled (by simp [hv, hw, hx, hy]) (by simp) offset 0
  simp only [List.map_cons, List.map_nil, List.replicate, List.append_nil] at hgroup
  rw [decodeLast, hgroup]
  simp [bind, Except.bind, pure, Except.pure]

/-- Four symbols that are not the last ones are read as three bytes. -/
theorem decodeFrom_four {v w x y : Nat} (hv : v < 64) (hw : w < 64) (hx : x < 64) (hy : y < 64)
    (offset : Nat) (rest : Bytes) :
    decodeFrom offset (symbol v :: symbol w :: symbol x :: symbol y :: rest) =
      (decodeFrom (offset + 4) rest).map fun tail =>
        UInt8.ofNat (v * 4 + w / 16) :: UInt8.ofNat (w % 16 * 16 + x / 4) ::
          UInt8.ofNat (x % 4 * 64 + y) :: tail := by
  cases rest with
  | nil => 
    rw [decodeFrom, decodeLast_four hv hw hx hy]
    · rfl
    · simp
  | cons e rest =>
    rw [decodeFrom, valueAt_symbol _ hv, valueAt_symbol _ hw, valueAt_symbol _ hx,
      valueAt_symbol _ hy]
    cases decodeFrom (offset + 4) (e :: rest) <;> rfl

private theorem ofNat_eq {n : Nat} {a : UInt8} (h : n = a.toNat) : UInt8.ofNat n = a := by
  rw [h, UInt8.ofNat_toNat]

/-- Reading inverts writing, wherever the symbols stand. -/
theorem decodeFrom_encodeBytes (offset : Nat) (b : Bytes) :
    decodeFrom offset (encodeBytes b) = .ok b := by
  induction b using encodeBytes.induct generalizing offset with
  | case1 => rfl
  | case2 a =>
    have ha := a.toNat_lt
    have hfirst : UInt8.ofNat (a.toNat / 4 * 4 + a.toNat % 4 * 16 / 16) = a := ofNat_eq (by omega)
    rw [encodeBytes, decodeFrom, decodeLast_two (by omega) (by omega) (by omega), hfirst]
    simp
  | case3 a b =>
    have ha := a.toNat_lt
    have hb := b.toNat_lt
    have hfirst : UInt8.ofNat (a.toNat / 4 * 4 + (a.toNat % 4 * 16 + b.toNat / 16) / 16) = a :=
      ofNat_eq (by omega)
    have hsecond : UInt8.ofNat ((a.toNat % 4 * 16 + b.toNat / 16) % 16 * 16 +
        b.toNat % 16 * 4 / 4) = b := ofNat_eq (by omega)
    rw [encodeBytes, decodeFrom, decodeLast_three (by omega) (by omega) (by omega) (by omega),
      hfirst, hsecond]
    simp
  | case4 a b c rest ih =>
    have ha := a.toNat_lt
    have hb := b.toNat_lt
    have hc := c.toNat_lt
    have hfirst : UInt8.ofNat (a.toNat / 4 * 4 + (a.toNat % 4 * 16 + b.toNat / 16) / 16) = a :=
      ofNat_eq (by omega)
    have hsecond : UInt8.ofNat ((a.toNat % 4 * 16 + b.toNat / 16) % 16 * 16 +
        (b.toNat % 16 * 4 + c.toNat / 64) / 4) = b := ofNat_eq (by omega)
    have hthird : UInt8.ofNat ((b.toNat % 16 * 4 + c.toNat / 64) % 4 * 64 + c.toNat % 64) = c :=
      ofNat_eq (by omega)
    rw [encodeBytes, decodeFrom_four (by omega) (by omega) (by omega) (by omega), ih, Except.map,
      hfirst, hsecond, hthird]

/-- Every started group of three bytes takes four symbols. -/
theorem length_encodeBytes (b : Bytes) : (encodeBytes b).length = 4 * ((b.length + 2) / 3) := by
  induction b using encodeBytes.induct with
  | case1 => rfl
  | case2 a => simp [encodeBytes]
  | case3 a b => simp [encodeBytes]
  | case4 a b c rest ih =>
    simp only [encodeBytes, List.length_cons, ih]
    omega

/-- Decoding inverts encoding, on bytes. -/
theorem decodeBytes_encodeBytes (b : Bytes) : decodeBytes (encodeBytes b) = .ok b := by
  have hlength : ¬(encodeBytes b).length % 4 = 1 := by
    rw [length_encodeBytes]
    omega
  rw [decodeBytes]
  split
  · rw [if_neg (fun h => hlength h.1), decodeFrom_encodeBytes]
  · next hlast =>
    have hempty : encodeBytes b = [] := List.getLast?_eq_none_iff.mp hlast
    rw [← decodeFrom_encodeBytes 0 b, hempty]
    rfl

/-- A property of the symbols and the padding is one of every written byte. -/
theorem forall_mem_encodeBytes {p : UInt8 → Prop} (hsymbol : ∀ v < 64, p (symbol v))
    (hequals : p Ascii.equals) (b : Bytes) : ∀ c ∈ encodeBytes b, p c := by
  induction b using encodeBytes.induct with
  | case1 => simp [encodeBytes]
  | case2 a =>
    have ha := a.toNat_lt
    simp only [encodeBytes, List.forall_mem_cons, List.not_mem_nil, false_implies, implies_true]
    exact ⟨hsymbol _ (by omega), hsymbol _ (by omega), hequals, hequals, trivial⟩
  | case3 a b =>
    have ha := a.toNat_lt
    have hb := b.toNat_lt
    simp only [encodeBytes, List.forall_mem_cons, List.not_mem_nil, false_implies, implies_true]
    exact ⟨hsymbol _ (by omega), hsymbol _ (by omega), hsymbol _ (by omega), hequals, trivial⟩
  | case4 a b c rest ih =>
    have ha := a.toNat_lt
    have hb := b.toNat_lt
    have hc := c.toNat_lt
    simp only [encodeBytes, List.forall_mem_cons]
    exact ⟨hsymbol _ (by omega), hsymbol _ (by omega), hsymbol _ (by omega),
      hsymbol _ (by omega), ih⟩

/-- The text of a byte string has its symbols as bytes. -/
theorem utf8Encode_encode (b : Bytes) : Utf8.encode (encode b) = encodeBytes b := by
  have hascii : ∀ c ∈ encodeBytes b, c < 0x80 :=
    forall_mem_encodeBytes (by decide) (by decide) b
  rw [encode, Utf8.encode_ofList, Utf8.encodeChars_map_ofNat hascii]

/-- The text of a byte string is read back. -/
theorem decode_encode (b : Bytes) : decode (encode b) = .ok b := by
  rw [decode, utf8Encode_encode, decodeBytes_encodeBytes]

end Sealing.Base64
