import Sealing.Text.Utf8

/-!
# Texts and their bytes

Strict reading accepts exactly the bytes of texts, and each text from its own. A byte below `0x80`
only ever is a character by itself: an ASCII character is written as the byte of its number, and
every other one with bytes from `0x80` on. The bytes of a text can be cut wherever a character
starts, and both parts are the bytes of texts again.
-/

namespace Sealing.Utf8

/-- The bytes of a list of characters. -/
def encodeChars (cs : List Char) : Bytes := cs.flatMap String.utf8EncodeChar

@[simp] theorem encodeChars_nil : encodeChars [] = [] := rfl

@[simp] theorem encodeChars_cons (c : Char) (cs : List Char) :
    encodeChars (c :: cs) = String.utf8EncodeChar c ++ encodeChars cs := List.flatMap_cons

@[simp] theorem encodeChars_append (cs ds : List Char) :
    encodeChars (cs ++ ds) = encodeChars cs ++ encodeChars ds := List.flatMap_append

@[simp] theorem encode_ofList (cs : List Char) : encode (String.ofList cs) = encodeChars cs := by
  rw [encode, String.toList_ofList, encodeChars]

@[simp] theorem encode_append (s t : String) : encode (s ++ t) = encode s ++ encode t := by
  rw [encode, String.toList_append, List.flatMap_append, encode, encode]

private theorem toByteArray_encode (s : String) :
    (⟨(encode s).toArray⟩ : ByteArray) = s.toByteArray := by
  rw [← String.utf8Encode_toList, List.utf8Encode, encode]
  exact ByteArray.ext List.data_toByteArray.symm

/-- Strict reading accepts exactly the bytes of texts. -/
theorem decode?_eq_some_iff {b : Bytes} {s : String} : decode? b = some s ↔ encode s = b := by
  rw [decode?, String.fromUTF8?]
  constructor
  · intro h
    split at h
    · next hvalid =>
      obtain rfl := Option.some.inj h
      have hbytes := toByteArray_encode (String.fromUTF8 ⟨b.toArray⟩ hvalid)
      exact List.toArray_inj (congrArg ByteArray.data hbytes)
    · simp at h
  · rintro rfl
    rw [dif_pos (toByteArray_encode s ▸ s.isValidUTF8)]
    exact congrArg some (String.toByteArray_inj.mp (toByteArray_encode s))

/-- Decoding inverts encoding. -/
theorem decode?_encode (s : String) : decode? (encode s) = some s := decode?_eq_some_iff.mpr rfl

/-- A text is known by its bytes. -/
theorem encode_inj {s t : String} : encode s = encode t ↔ s = t := by
  refine ⟨fun h => ?_, congrArg encode⟩
  rw [← Option.some_inj, ← decode?_encode s, h, decode?_encode]

/-- An ASCII character is written as one byte. -/
theorem utf8EncodeChar_of_lt {c : Char} (h : c.toNat < 0x80) :
    String.utf8EncodeChar c = [UInt8.ofNat c.toNat] := by
  have hle : c.val.toNat ≤ 0x7f := Nat.le_of_lt_succ h
  rw [String.utf8EncodeChar, if_pos hle]
  rfl

/-- The bytes of any other character are not those of ASCII characters. -/
theorem le_of_mem_utf8EncodeChar {c : Char} (h : 0x80 ≤ c.toNat) {b : UInt8}
    (hb : b ∈ String.utf8EncodeChar c) : 0x80 ≤ b := by
  have hgt : ¬c.val.toNat ≤ 0x7f := Nat.not_le.mpr h
  have hbyte {n : Nat} (hn : 0x80 ≤ n % 256) : 0x80 ≤ UInt8.ofNat n :=
    UInt8.le_iff_toNat_le.mpr (by rwa [UInt8.toNat_ofNat'])
  rw [String.utf8EncodeChar] at hb
  simp only [if_neg hgt] at hb
  split at hb
  · simp only [List.mem_cons, List.not_mem_nil, or_false] at hb
    rcases hb with rfl | rfl <;> exact hbyte (by omega)
  · split at hb
    · simp only [List.mem_cons, List.not_mem_nil, or_false] at hb
      rcases hb with rfl | rfl | rfl <;> exact hbyte (by omega)
    · simp only [List.mem_cons, List.not_mem_nil, or_false] at hb
      rcases hb with rfl | rfl | rfl | rfl <;> exact hbyte (by omega)

private theorem toNat_ofNat_of_lt {n : Nat} (h : n < 0x80) : (Char.ofNat n).toNat = n := by
  have hall : ∀ n < 0x80, (Char.ofNat n).toNat = n := by decide
  exact hall n h

/-- ASCII bytes are the bytes of the characters with their numbers. -/
theorem encodeChars_map_ofNat {b : Bytes} (h : ∀ c ∈ b, c < 0x80) :
    encodeChars (b.map fun c => Char.ofNat c.toNat) = b := by
  induction b with
  | nil => rfl
  | cons c b ih =>
    have hc : c.toNat < 0x80 := UInt8.lt_iff_toNat_lt.mp (h c List.mem_cons_self)
    have hchar : (Char.ofNat c.toNat).toNat = c.toNat := toNat_ofNat_of_lt hc
    rw [List.map_cons, encodeChars_cons, ih fun d hd => h d (List.mem_cons_of_mem c hd),
      utf8EncodeChar_of_lt (by omega), hchar, UInt8.ofNat_toNat, List.singleton_append]

/-- Whether a byte string is the bytes of a text. -/
def Valid (b : Bytes) : Prop := ∃ cs, encodeChars cs = b

section Valid

variable {a : UInt8} {b x y : Bytes}

/-- The bytes of characters are valid. -/
theorem valid_encodeChars (cs : List Char) : Valid (encodeChars cs) := ⟨cs, rfl⟩

/-- The bytes of a text are valid. -/
theorem valid_encode (s : String) : Valid (encode s) := ⟨s.toList, rfl⟩

/-- Strict reading accepts exactly the valid byte strings. -/
theorem isSome_decode?_iff : (decode? b).isSome ↔ Valid b := by
  simp only [Option.isSome_iff_exists, decode?_eq_some_iff]
  constructor
  · rintro ⟨s, rfl⟩
    exact valid_encode s
  · rintro ⟨cs, rfl⟩
    exact ⟨String.ofList cs, encode_ofList cs⟩

private theorem isContinuation_eq_false {n : Nat} (h : n < 0x80 ∨ 0xC0 ≤ n) (hn : n < 256) :
    isContinuation (UInt8.ofNat n) = false := by
  rw [isContinuation, Bool.and_eq_false_iff, decide_eq_false_iff_not, decide_eq_false_iff_not,
    UInt8.le_iff_toNat_le, UInt8.le_iff_toNat_le, UInt8.toNat_ofNat', Nat.mod_eq_of_lt hn]
  change ¬0x80 ≤ n ∨ ¬n ≤ 0xBF
  omega

private theorem isContinuation_ofNat (n : Nat) :
    isContinuation (UInt8.ofNat (n % 64 + 128)) = true := by
  rw [isContinuation, Bool.and_eq_true, decide_eq_true_iff, decide_eq_true_iff,
    UInt8.le_iff_toNat_le, UInt8.le_iff_toNat_le, UInt8.toNat_ofNat']
  change 0x80 ≤ (n % 64 + 128) % 256 ∧ (n % 64 + 128) % 256 ≤ 0xBF
  omega

/-- A character is written as one byte that starts it and bytes that continue it. -/
theorem exists_utf8EncodeChar_eq (c : Char) : ∃ first more,
    String.utf8EncodeChar c = first :: more ∧ isContinuation first = false ∧
      ∀ b ∈ more, isContinuation b = true := by
  have hnil : ∀ b ∈ ([] : Bytes), isContinuation b = true := fun b hb => nomatch hb
  have hcons {n : Nat} {more : Bytes} (hmore : ∀ b ∈ more, isContinuation b = true) :
      ∀ b ∈ UInt8.ofNat (n % 64 + 128) :: more, isContinuation b = true :=
    List.forall_mem_cons.mpr ⟨isContinuation_ofNat n, hmore⟩
  rw [String.utf8EncodeChar]
  split
  · exact ⟨_, _, rfl, isContinuation_eq_false (by omega) (by omega), hnil⟩
  · split
    · exact ⟨_, _, rfl, isContinuation_eq_false (by omega) (by omega), hcons hnil⟩
    · split
      · exact ⟨_, _, rfl, isContinuation_eq_false (by omega) (by omega), hcons (hcons hnil)⟩
      · exact ⟨_, _, rfl, isContinuation_eq_false (by omega) (by omega),
          hcons (hcons (hcons hnil))⟩

/-- The first character of a text is known by its bytes. -/
theorem utf8EncodeChar_append_inj {c d : Char}
    (h : String.utf8EncodeChar c ++ x = String.utf8EncodeChar d ++ y) : c = d ∧ x = y := by
  have hfirst := congrArg (fun b : Bytes => b.toByteArray.utf8DecodeChar? 0) h
  simp only [List.toByteArray_append, ByteArray.utf8DecodeChar?_utf8EncodeChar_append] at hfirst
  obtain rfl := Option.some.inj hfirst
  exact ⟨rfl, List.append_cancel_left h⟩

/-- The first byte of a text starts a character. -/
theorem exists_of_encodeChars_eq_cons {cs : List Char} (h : encodeChars cs = a :: b) :
    ∃ c ds more, cs = c :: ds ∧ String.utf8EncodeChar c = a :: more ∧
      b = more ++ encodeChars ds ∧ isContinuation a = false ∧
      ∀ k ∈ more, isContinuation k = true := by
  cases cs with
  | nil => contradiction
  | cons c ds =>
    obtain ⟨first, more, hc, hfirst, hmore⟩ := exists_utf8EncodeChar_eq c
    rw [encodeChars_cons, hc, List.cons_append] at h
    obtain ⟨rfl, rfl⟩ := List.cons.inj h
    exact ⟨c, ds, more, rfl, hc, rfl, hfirst, hmore⟩

/-- Valid bytes in a row are valid. -/
theorem Valid.append (hx : Valid x) (hy : Valid y) : Valid (x ++ y) := by
  obtain ⟨cs, rfl⟩ := hx
  obtain ⟨ds, rfl⟩ := hy
  exact ⟨cs ++ ds, encodeChars_append cs ds⟩

/-- A text can be cut where a character starts. -/
theorem valid_append_iff (h : ∀ b ∈ y.head?, isContinuation b = false) :
    Valid (x ++ y) ↔ Valid x ∧ Valid y := by
  refine ⟨?_, fun ⟨hx, hy⟩ => hx.append hy⟩
  rintro ⟨cs, hcs⟩
  induction cs generalizing x with
  | nil =>
    obtain ⟨rfl, rfl⟩ := List.append_eq_nil_iff.mp hcs.symm
    exact ⟨⟨[], rfl⟩, [], rfl⟩
  | cons c cs ih =>
    cases x with
    | nil => exact ⟨⟨[], rfl⟩, c :: cs, hcs⟩
    | cons a x =>
      obtain ⟨d, ds, more, hd, hc, hrest, -, hmore⟩ := exists_of_encodeChars_eq_cons hcs
      obtain ⟨rfl, rfl⟩ := List.cons.inj hd
      rcases List.append_eq_append_iff.mp hrest with ⟨inside, rfl, rfl⟩ | ⟨left, rfl, hleft⟩
      · cases inside with
        | nil =>
          exact ⟨⟨[c], by simp [hc]⟩, cs, rfl⟩
        | cons k inside =>
          have hk := hmore k (by simp)
          rw [h k rfl] at hk
          contradiction
      · obtain ⟨⟨ds, rfl⟩, hy⟩ := ih hleft
        exact ⟨⟨c :: ds, by rw [encodeChars_cons, hc, List.cons_append]⟩, hy⟩

private theorem isContinuation_of_lt (h : a < 0x80) : isContinuation a = false := by
  rw [isContinuation, Bool.and_eq_false_iff, decide_eq_false_iff_not]
  exact .inl (UInt8.not_le.mpr h)

private theorem valid_singleton_of_lt (h : a < 0x80) : Valid [a] := by
  have hall : ∀ c ∈ [a], c < 0x80 := fun c hc => List.mem_singleton.mp hc ▸ h
  exact ⟨_, encodeChars_map_ofNat hall⟩

/-- An ASCII byte in front of a text is a character of its own. -/
theorem exists_of_encodeChars_eq_ascii {cs : List Char} (ha : a < 0x80)
    (h : encodeChars cs = a :: b) :
    ∃ ds, cs = Char.ofNat a.toNat :: ds ∧ encodeChars ds = b := by
  obtain ⟨c, ds, more, rfl, hc, rfl, -, -⟩ := exists_of_encodeChars_eq_cons h
  have hascii : c.toNat < 0x80 := by
    refine Nat.lt_of_not_le fun hle => ?_
    have hge := le_of_mem_utf8EncodeChar hle (hc ▸ List.mem_cons_self)
    exact absurd hge (UInt8.not_le.mpr ha)
  rw [utf8EncodeChar_of_lt hascii] at hc
  obtain ⟨rfl, rfl⟩ := List.cons.inj hc
  have hbyte : (UInt8.ofNat c.toNat).toNat = c.toNat := by
    rw [UInt8.toNat_ofNat']
    omega
  exact ⟨ds, by rw [hbyte, Char.ofNat_toNat], rfl⟩

/-- An ASCII byte in front makes no difference to what is valid. -/
theorem valid_cons_iff (h : a < 0x80) : Valid (a :: y) ↔ Valid y := by
  refine ⟨?_, (valid_singleton_of_lt h).append⟩
  rintro ⟨cs, hcs⟩
  obtain ⟨ds, -, hds⟩ := exists_of_encodeChars_eq_ascii h hcs
  exact ⟨ds, hds⟩

/-- A text can be cut around an ASCII byte. -/
theorem valid_append_cons_iff (h : a < 0x80) : Valid (x ++ a :: y) ↔ Valid x ∧ Valid y := by
  have hhead : ∀ b ∈ (a :: y).head?, isContinuation b = false := by
    rintro b ⟨⟩
    exact isContinuation_of_lt h
  rw [valid_append_iff hhead, valid_cons_iff h]

/-- ASCII bytes in front of a text do not matter. -/
theorem valid_append_iff_right (h : ∀ a ∈ x, a < 0x80) : Valid (x ++ y) ↔ Valid y := by
  induction x with
  | nil => rfl
  | cons a x ih =>
    obtain ⟨ha, hx⟩ := List.forall_mem_cons.mp h
    rw [List.cons_append, valid_cons_iff ha, ih hx]

/-- ASCII bytes behind a text do not matter. -/
theorem valid_append_iff_left (h : ∀ a ∈ y, a < 0x80) : Valid (x ++ y) ↔ Valid x := by
  cases y with
  | nil => rw [List.append_nil]
  | cons a y =>
    obtain ⟨ha, hy⟩ := List.forall_mem_cons.mp h
    have hvalid : Valid y := ⟨_, encodeChars_map_ofNat hy⟩
    rw [valid_append_cons_iff ha, and_iff_left hvalid]

end Valid

end Sealing.Utf8
