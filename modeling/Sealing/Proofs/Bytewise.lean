import Sealing.Proofs.RoundTrip

/-!
# Feedback modes byte by byte

Both directions of a mode add to each byte of their input one byte of an image: the image of the
sixteen bytes that stand, in the vector and the ciphertext behind it, in front of the segment of
the byte. This form says where a byte of the output comes from, so two runs agree at a position as
soon as their inputs agree there and their ciphertexts agree in front of it. A changed byte of
ciphertext is therefore forgotten once it has left the register, a front of the input gives a front
of the output, and no other output has the form.
-/

namespace Sealing

namespace Block

variable {block other : Block} {stream : Bytes} {start : Nat}

/-- The sixteen bytes of a byte string from a position on, all of them there. -/
def StandsAt (block : Block) (stream : Bytes) (start : Nat) : Prop :=
  ∀ (t : Nat) (h : t < 16), stream[start + t]? = some block[t]

/-- The bytes determine the block, also when they are read from another byte string. -/
theorem StandsAt.unique {stream' : Bytes} (h : block.StandsAt stream start)
    (h' : other.StandsAt stream' start)
    (hstream : ∀ t < 16, stream[start + t]? = stream'[start + t]?) : block = other := by
  apply Vector.ext
  intro t ht
  have hsome : some block[t] = some other[t] := by
    rw [← h t ht, ← h' t ht, hstream t ht]
  exact Option.some.inj hsome

private theorem standsAt_zero (block : Block) (rest : Bytes) : block.StandsAt (block.bytes ++ rest) 0 := by
  intro t ht
  have hbytes : t < block.bytes.length := by rwa [length_bytes]
  rw [Nat.zero_add, List.getElem?_append_left hbytes, List.getElem?_eq_getElem hbytes]
  simp only [bytes, Vector.getElem_toList]

/-- Where a block stands behind the front, it stands in the whole. -/
theorem StandsAt.of_drop {k : Nat} (h : block.StandsAt (stream.drop k) start) :
    block.StandsAt stream (k + start) := by
  intro t ht
  have hdrop := h t ht
  rwa [List.getElem?_drop, ← Nat.add_assoc] at hdrop

/-- A window that ends in the byte string holds its bytes. -/
theorem bytes_window (h : start + size ≤ stream.length) :
    (window stream start).bytes = (stream.drop start).take size := by
  apply List.ext_getElem?
  intro t
  by_cases ht : t < size
  · have hin : start + t < stream.length := by omega
    have hwindow := getElem_window stream start t ht
    rw [List.getD_eq_getElem?_getD, List.getElem?_eq_getElem hin, Option.getD_some] at hwindow
    rw [List.getElem?_take_of_lt ht, List.getElem?_drop, List.getElem?_eq_getElem hin, ← hwindow,
      bytes, Vector.getElem?_toList]
    exact Vector.getElem?_eq_getElem ht
  · rw [List.getElem?_eq_none (by rwa [length_bytes, ← Nat.not_lt]),
      List.getElem?_eq_none (by rw [List.length_take]; omega)]

/-- Sixteen bytes make a block of these bytes. -/
theorem bytes_ofBytes {vector : Bytes} (h : vector.length = size) :
    (ofBytes vector).bytes = vector := by
  rw [ofBytes, bytes_window (by omega), List.drop_zero, List.take_of_length_le (by omega)]

end Block

/-- The register after a segment is all that follows the first bytes of register and segment. -/
theorem FeedbackMode.bytes_advance (register : Block) (segment : Bytes) :
    (advance register segment).bytes = (register.bytes ++ segment).drop segment.length := by
  have hlength : (register.bytes ++ segment).length = Block.size + segment.length := by
    rw [List.length_append, Block.length_bytes, Block.size]
  rw [advance, Block.bytes_window (by omega), List.take_of_length_le]
  rw [List.length_drop]
  omega

/-- A segment that is not a whole one is the last. -/
theorem FeedbackMode.drop_of_length_take_lt {width : Nat} {data : Bytes}
    (h : (data.take width).length < width) : data.drop width = [] := by
  rw [List.length_take] at h
  exact List.drop_of_length_le (by omega)

/-- Every byte of the output is the byte of the input with a byte of an image added. The image is
that of the block that stands in the stream where `start` says; `place` picks the byte. -/
structure Masks (image : Block → Block) (stream : Bytes) (start place : Nat → Nat)
    (input output : Bytes) : Prop where
  length_eq : output.length = input.length
  byte_eq : ∀ i x, input[i]? = some x → ∃ block mask, block.StandsAt stream (start i) ∧
    (image block).bytes[place i]? = some mask ∧ output[i]? = some (x ^^^ mask)

namespace FeedbackMode

variable {mode : FeedbackMode} {image : Block → Block} {register : Block}
  {ciphertext ciphertext' input input' output output' data : Bytes}

/-- Where the segment of a position starts. -/
def start (mode : FeedbackMode) (i : Nat) : Nat := mode.width * (i / mode.width)

/-- The place of a position in its segment. -/
def place (mode : FeedbackMode) (i : Nat) : Nat := i % mode.width

/-- Input and output are chained by a ciphertext: one masks the other with images of the sixteen
bytes in front of each segment, where the register comes first. -/
abbrev Chains (mode : FeedbackMode) (image : Block → Block) (register : Block)
    (ciphertext input output : Bytes) : Prop :=
  Masks image (register.bytes ++ ciphertext) mode.start mode.place input output

/-- A byte does not stand before the start of its block. -/
theorem start_le (i : Nat) : mode.start i ≤ i := Nat.mul_div_le i mode.width

private theorem start_of_lt {i : Nat} (h : i < mode.width) : mode.start i = 0 := by
  rw [start, Nat.div_eq_of_lt h, Nat.mul_zero]

private theorem place_of_lt {i : Nat} (h : i < mode.width) : mode.place i = i := Nat.mod_eq_of_lt h

private theorem start_add (j : Nat) : mode.start (mode.width + j) = mode.width + mode.start j := by
  rw [start, Nat.add_div_left j mode.width_pos, Nat.mul_succ, Nat.add_comm]
  rfl

private theorem place_add (j : Nat) : mode.place (mode.width + j) = mode.place j :=
  Nat.add_mod_left mode.width j

/-! ## The runs of a mode mask -/

private theorem chains_nil : mode.Chains image register [] [] [] where
  length_eq := rfl
  byte_eq i x h := by simp at h

/-- A segment in front is masked by the image of the register, and what follows it by the images
of what follows the register. -/
theorem Chains.append {c x : Bytes} (hc : c.length = x.length) (hw : x.length ≤ mode.width)
    (hrest : x.length < mode.width → input = [])
    (h : mode.Chains image (advance register c) ciphertext input output) :
    mode.Chains image register (c ++ ciphertext) (x ++ input)
      (Bytes.xor x (image register).bytes ++ output) := by
  have hlength : (Bytes.xor x (image register).bytes).length = x.length := length_xor_image x hw
  refine ⟨by rw [List.length_append, List.length_append, hlength, h.length_eq], ?_⟩
  intro i b hb
  by_cases hi : i < x.length
  · rw [start_of_lt (by omega), place_of_lt (by omega), List.getElem?_append_left (by omega)]
    rw [List.getElem?_append_left hi] at hb
    have hmask : i < (image register).bytes.length := by
      have hle := mode.width_le
      rw [Block.length_bytes]
      omega
    refine ⟨register, _, register.standsAt_zero _, List.getElem?_eq_getElem hmask, ?_⟩
    rw [Bytes.xor, List.getElem?_zipWith, hb, List.getElem?_eq_getElem hmask]
  · rw [List.getElem?_append_right (by omega)] at hb
    have hwhole : x.length = mode.width := by
      apply Nat.le_antisymm hw
      apply Nat.le_of_not_lt
      intro hlt
      rw [hrest hlt] at hb
      simp at hb
    obtain ⟨j, rfl⟩ : ∃ j, i = mode.width + j := ⟨i - mode.width, by omega⟩
    rw [hwhole, Nat.add_sub_cancel_left] at hb
    obtain ⟨block, mask, hblock, hmask, houtput⟩ := h.byte_eq j b hb
    refine ⟨block, mask, ?_, by rwa [place_add], ?_⟩
    · rw [start_add]
      apply Block.StandsAt.of_drop
      have hdrop : (register.bytes ++ (c ++ ciphertext)).drop mode.width =
          (advance register c).bytes ++ ciphertext := by
        rw [bytes_advance, hc, hwhole, ← List.append_assoc, List.drop_append_of_le_length]
        rw [List.length_append]
        omega
      rwa [hdrop]
    · rw [List.getElem?_append_right (by omega), hlength, hwhole, Nat.add_sub_cancel_left, houtput]

/-- Encryption masks with images of what it has put out. -/
theorem chains_encrypt (data : Bytes) :
    mode.Chains image register (mode.encrypt image register data) data
      (mode.encrypt image register data) := by
  fun_induction mode.encrypt image register data with
  | case1 => exact chains_nil
  | case2 register b bs segment ih =>
    have hw : ((b :: bs).take mode.width).length ≤ mode.width := List.length_take_le _ _
    have happend := Chains.append (length_xor_image _ hw) hw drop_of_length_take_lt ih
    rwa [List.take_append_drop] at happend

/-- Decryption masks with images of what it is given. -/
theorem chains_decrypt (data : Bytes) :
    mode.Chains image register data data (mode.decrypt image register data) := by
  fun_induction mode.decrypt image register data with
  | case1 => exact chains_nil
  | case2 register b bs segment ih =>
    have hw : segment.length ≤ mode.width := List.length_take_le _ _
    have happend := Chains.append rfl hw drop_of_length_take_lt ih
    rwa [List.take_append_drop] at happend

/-! ## Where two runs agree -/

/-- What comes out at a position depends on what goes in there, and on the ciphertext in front of
the segment as far as the register reaches back. -/
theorem Chains.getElem?_congr {i : Nat} (h : mode.Chains image register ciphertext input output)
    (h' : mode.Chains image register ciphertext' input' output') (hinput : input[i]? = input'[i]?)
    (hciphertext : ∀ j < mode.start i, mode.start i ≤ j + 16 → ciphertext[j]? = ciphertext'[j]?) :
    output[i]? = output'[i]? := by
  cases hx : input[i]? with
  | none =>
    have hlength := h.length_eq
    have hlength' := h'.length_eq
    have hle := List.getElem?_eq_none_iff.mp hx
    have hle' := List.getElem?_eq_none_iff.mp (hinput ▸ hx)
    rw [List.getElem?_eq_none (by omega), List.getElem?_eq_none (by omega)]
  | some x =>
    obtain ⟨block, mask, hblock, hmask, houtput⟩ := h.byte_eq i x hx
    obtain ⟨block', mask', hblock', hmask', houtput'⟩ := h'.byte_eq i x (hinput ▸ hx)
    have hstream : ∀ t < 16, (register.bytes ++ ciphertext)[mode.start i + t]? =
        (register.bytes ++ ciphertext')[mode.start i + t]? := by
      intro t ht
      by_cases hregister : mode.start i + t < register.bytes.length
      · rw [List.getElem?_append_left hregister, List.getElem?_append_left hregister]
      · rw [List.getElem?_append_right (by omega), List.getElem?_append_right (by omega)]
        rw [Block.length_bytes] at hregister ⊢
        exact hciphertext _ (by omega) (by omega)
    obtain rfl := hblock.unique hblock' hstream
    rw [hmask] at hmask'
    obtain rfl := Option.some.inj hmask'
    rw [houtput, houtput']

/-- Encryptions of inputs with a common front have a common front. -/
theorem Chains.front_eq {k : Nat} (h : mode.Chains image register output input output)
    (h' : mode.Chains image register output' input' output')
    (hinput : ∀ i < k, input[i]? = input'[i]?) : ∀ i < k, output[i]? = output'[i]? := by
  intro i
  induction i using Nat.strongRecOn with
  | _ i ih =>
    intro hi
    apply h.getElem?_congr h' (hinput i hi)
    intro j hj _
    have hstart := mode.start_le i
    exact ih j (by omega) (by omega)

/-- Only encryption masks with images of what comes out. -/
theorem Chains.eq_encrypt (h : mode.Chains image register output input output) :
    output = mode.encrypt image register input := by
  apply List.ext_getElem?
  intro i
  exact h.front_eq (chains_encrypt input) (fun _ _ => rfl) i (Nat.lt_succ_self i)

/-- A mask that is added twice is gone. -/
theorem Chains.symm (h : mode.Chains image register ciphertext input output) :
    mode.Chains image register ciphertext output input where
  length_eq := h.length_eq.symm
  byte_eq i y hy := by
    have hlength := h.length_eq
    have hi : i < input.length := by
      have hlt := (List.getElem?_eq_some_iff.mp hy).1
      omega
    obtain ⟨block, mask, hblock, hmask, houtput⟩ :=
      h.byte_eq i _ (List.getElem?_eq_getElem hi)
    rw [houtput] at hy
    obtain rfl := Option.some.inj hy
    refine ⟨block, mask, hblock, hmask, ?_⟩
    rw [List.getElem?_eq_getElem hi, UInt8.xor_assoc, UInt8.xor_self, UInt8.xor_zero]

/-! ## Fronts and single bytes -/

private theorem eq_take_of_front {k : Nat} (hlength : output.length = min k output'.length)
    (h : ∀ i < k, output[i]? = output'[i]?) : output = output'.take k := by
  apply List.ext_getElem?
  intro i
  by_cases hi : i < k
  · rw [h i hi, List.getElem?_take_of_lt hi]
  · rw [List.getElem?_eq_none (by omega),
      List.getElem?_eq_none (by rw [List.length_take]; omega)]

/-- Encrypting a front gives the front of the encryption. -/
theorem encrypt_take (data : Bytes) (k : Nat) :
    mode.encrypt image register (data.take k) = (mode.encrypt image register data).take k := by
  apply eq_take_of_front
  · rw [length_encrypt, length_encrypt, List.length_take]
  · exact (chains_encrypt _).front_eq (chains_encrypt data)
      fun i hi => List.getElem?_take_of_lt hi

/-- Decrypting a front gives the front of the decryption. -/
theorem decrypt_take (data : Bytes) (k : Nat) :
    mode.decrypt image register (data.take k) = (mode.decrypt image register data).take k := by
  apply eq_take_of_front
  · rw [length_decrypt, length_decrypt, List.length_take]
  · intro i hi
    apply (chains_decrypt _).getElem?_congr (chains_decrypt data) (List.getElem?_take_of_lt hi)
    intro j hj _
    have hstart := mode.start_le i
    exact List.getElem?_take_of_lt (by omega)

/-- A changed byte of ciphertext shows in its own position, and in those whose segment starts at
most sixteen bytes behind it. -/
theorem getElem?_decrypt_set {i j : Nat} (hi : i ≠ j)
    (hj : j < mode.start i → j + 16 < mode.start i) (data : Bytes) (x : UInt8) :
    (mode.decrypt image register (data.set j x))[i]? = (mode.decrypt image register data)[i]? := by
  apply (chains_decrypt _).getElem?_congr (chains_decrypt data) (List.getElem?_set_ne hi.symm)
  intro k hk hreach
  apply List.getElem?_set_ne
  rintro rfl
  exact absurd (hj hk) (Nat.not_lt.mpr hreach)

private theorem start_full (i : Nat) : full.start i = 16 * (i / 16) := rfl

/-- Whole blocks are chained as blocks of sixteen bytes. -/
theorem chains_full_iff : full.Chains image register ciphertext input output ↔
    Masks image (register.bytes ++ ciphertext) (fun i => 16 * (i / 16)) (fun i => i % 16)
      input output := Iff.rfl

private theorem start_byte (i : Nat) : byte.start i = i := by
  simp only [start, byte, Nat.div_one, Nat.one_mul]

/-- Single bytes are chained each by itself. -/
theorem chains_byte_iff : byte.Chains image register ciphertext input output ↔
    Masks image (register.bytes ++ ciphertext) id (fun _ => 0) input output := by
  have hstart : byte.start = id := funext start_byte
  have hplace : byte.place = fun _ => 0 := funext Nat.mod_one
  rw [Chains, hstart, hplace]

end FeedbackMode

namespace Aes

/-- Under a key of an AES length and a vector of sixteen bytes both directions of AES run, from the
vector as the register. -/
theorem inMode_eq_ok (mode : FeedbackMode) (name : String) {key vector : Bytes}
    (hk : key.length ∈ keyLengths) (hv : vector.length = Block.size) (data : Bytes) :
    (inMode mode name).encrypt key vector data =
        .ok (mode.encrypt (encryptBlock key) (Block.ofBytes vector) data) ∧
      (inMode mode name).decrypt key vector data =
        .ok (mode.decrypt (encryptBlock key) (Block.ofBytes vector) data) :=
  ⟨encrypt_inMode_eq_ok_iff.mpr ⟨⟨hk, hv⟩, rfl⟩, decrypt_inMode_eq_ok_iff.mpr ⟨⟨hk, hv⟩, rfl⟩⟩

/-- The first block of the test vector for AES-128 in NIST SP 800-38A, F.3. -/
example : FeedbackMode.full.encrypt (encryptBlock [0x2b, 0x7e, 0x15, 0x16, 0x28, 0xae, 0xd2, 0xa6,
      0xab, 0xf7, 0x15, 0x88, 0x09, 0xcf, 0x4f, 0x3c])
    (Block.ofBytes [0, 1, 2, 3, 4, 5, 6, 7, 8, 9, 10, 11, 12, 13, 14, 15])
    [0x6b, 0xc1, 0xbe, 0xe2, 0x2e, 0x40, 0x9f, 0x96, 0xe9, 0x3d, 0x7e, 0x11, 0x73, 0x93, 0x17,
      0x2a] =
    [0x3b, 0x3f, 0xd9, 0x2e, 0xb7, 0x2d, 0xad, 0x20, 0x33, 0x34, 0x49, 0xf8, 0xe8, 0x3c, 0xfb,
      0x4a] := by
  decide +kernel

end Aes

open FeedbackMode in
/-- Both ciphers, in both directions, are given byte by byte. The byte at position `i` has a byte
added of the image of sixteen bytes of the vector and the ciphertext behind it: with whole blocks
fed back of those from `16 * (i / 16)` on, and the byte at `i % 16`; with single bytes fed back of
those from `i` on, and the first. This is so for any block function in the place of AES. Therefore
a changed byte of ciphertext shows at its own position and in the next block, or in the next sixteen
positions, and fronts are encrypted and decrypted to fronts. -/
theorem modes_mask_bytewise :
    (∀ key vector data : Bytes, key.length ∈ [16, 24, 32] → vector.length = 16 →
      ∃ register : Block, register.bytes = vector ∧
        aesCfb.encrypt key vector data =
          .ok (full.encrypt (Aes.encryptBlock key) register data) ∧
        aesCfb.decrypt key vector data =
          .ok (full.decrypt (Aes.encryptBlock key) register data) ∧
        aesCfb8.encrypt key vector data =
          .ok (byte.encrypt (Aes.encryptBlock key) register data) ∧
        aesCfb8.decrypt key vector data =
          .ok (byte.decrypt (Aes.encryptBlock key) register data)) ∧
    ∀ (image : Block → Block) (register : Block) (data : Bytes),
      Masks image (register.bytes ++ full.encrypt image register data)
        (fun i => 16 * (i / 16)) (fun i => i % 16) data (full.encrypt image register data) ∧
      Masks image (register.bytes ++ data)
        (fun i => 16 * (i / 16)) (fun i => i % 16) data (full.decrypt image register data) ∧
      Masks image (register.bytes ++ byte.encrypt image register data)
        (fun i => i) (fun _ => 0) data (byte.encrypt image register data) ∧
      Masks image (register.bytes ++ data)
        (fun i => i) (fun _ => 0) data (byte.decrypt image register data) ∧
      (∀ (i j : Nat) (x : UInt8), i ≠ j → i / 16 ≠ j / 16 + 1 →
        (full.decrypt image register (data.set j x))[i]? =
          (full.decrypt image register data)[i]?) ∧
      (∀ (i j : Nat) (x : UInt8), ¬(j ≤ i ∧ i ≤ j + 16) →
        (byte.decrypt image register (data.set j x))[i]? =
          (byte.decrypt image register data)[i]?) ∧
      ∀ k, full.encrypt image register (data.take k) = (full.encrypt image register data).take k ∧
        full.decrypt image register (data.take k) = (full.decrypt image register data).take k ∧
        byte.encrypt image register (data.take k) = (byte.encrypt image register data).take k ∧
        byte.decrypt image register (data.take k) = (byte.decrypt image register data).take k := by
  constructor
  · intro key vector data hk hv
    have hfull := Aes.inMode_eq_ok full "aes-cfb" hk hv data
    have hbyte := Aes.inMode_eq_ok byte "aes-cfb8" hk hv data
    exact ⟨Block.ofBytes vector, Block.bytes_ofBytes hv, hfull.1, hfull.2, hbyte.1, hbyte.2⟩
  · intro image register data
    refine ⟨chains_full_iff.mp (chains_encrypt data), chains_full_iff.mp (chains_decrypt data),
      chains_byte_iff.mp (chains_encrypt data), chains_byte_iff.mp (chains_decrypt data),
      ?_, ?_, ?_⟩
    · intro i j x hij hblock
      apply getElem?_decrypt_set hij
      rw [start_full]
      omega
    · intro i j x hreach
      apply getElem?_decrypt_set (by omega)
      rw [start_byte]
      omega
    · intro k
      exact ⟨encrypt_take data k, decrypt_take data k, encrypt_take data k, decrypt_take data k⟩

/-- Under a key of 24 bytes AES masks 17 bytes as described. Of 40 bytes, a change at position 15
does not show at 32 with whole blocks fed back, nor one at position 3 at 20 with single bytes. -/
theorem modes_mask_bytewise_seventeen :
    (∃ out, aesCfb.encrypt (List.replicate 24 7) (List.replicate 16 9) (List.replicate 17 1) =
        .ok out ∧
      Masks (Aes.encryptBlock (List.replicate 24 7)) (List.replicate 16 9 ++ out)
        (fun i => 16 * (i / 16)) (fun i => i % 16) (List.replicate 17 1) out) ∧
    ∀ (image : Block → Block) (register : Block) (x : UInt8),
      (FeedbackMode.full.decrypt image register ((List.replicate 40 0).set 15 x))[32]? =
        (FeedbackMode.full.decrypt image register (List.replicate 40 0))[32]? ∧
      (FeedbackMode.byte.decrypt image register ((List.replicate 40 0).set 3 x))[20]? =
        (FeedbackMode.byte.decrypt image register (List.replicate 40 0))[20]? := by
  constructor
  · obtain ⟨register, hregister, hrun, -⟩ := modes_mask_bytewise.1 (List.replicate 24 7)
      (List.replicate 16 9) (List.replicate 17 1) (by decide) (by decide)
    have hform := (modes_mask_bytewise.2 (Aes.encryptBlock (List.replicate 24 7)) register
      (List.replicate 17 1)).1
    rw [hregister] at hform
    exact ⟨_, hrun, hform⟩
  · intro image register x
    have hform := modes_mask_bytewise.2 image register (List.replicate 40 0)
    exact ⟨hform.2.2.2.2.1 32 15 x (by decide) (by decide),
      hform.2.2.2.2.2.1 20 3 x (by decide)⟩

end Sealing
