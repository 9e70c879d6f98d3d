import Sealing.Cipher.Feedback

/-!
# Feedback modes undo themselves

Both directions of a mode work segment by segment, and both shift the ciphertext of a segment into
the register. A decryption that starts from the register of the encryption therefore meets the
same images, and adds each of them a second time. The block function plays no part in this: it may
be any function at all.
-/

namespace Sealing

namespace Bytes

/-- Adding the same bytes twice restores what was there, as far as those bytes reach. -/
theorem xor_xor_cancel {a b : Bytes} (h : a.length ≤ b.length) : xor (xor a b) b = a := by
  induction a generalizing b with
  | nil => rfl
  | cons x a ih =>
    cases b with
    | nil => simp at h
    | cons y b =>
      have ht : xor (xor a b) b = a := ih (by simpa using h)
      simp only [xor, List.zipWith_cons_cons, List.cons.injEq] at ht ⊢
      exact ⟨by rw [UInt8.xor_assoc, UInt8.xor_self, UInt8.xor_zero], ht⟩

end Bytes

namespace FeedbackMode

variable {mode : FeedbackMode} {image : Block → Block} {register : Block}

/-- A segment is never wider than a block, so its image covers it. -/
theorem length_xor_image (segment : Bytes) (h : segment.length ≤ mode.width) :
    (Bytes.xor segment (image register).bytes).length = segment.length := by
  have hw := mode.width_le
  rw [Bytes.length_xor, Block.length_bytes]
  omega

/-- Encryption keeps the length: there is no padding. -/
@[simp] theorem length_encrypt (data : Bytes) :
    (mode.encrypt image register data).length = data.length := by
  fun_induction mode.encrypt image register data with
  | case1 => rfl
  | case2 register b bs segment ih =>
    have hs : segment.length = ((b :: bs).take mode.width).length :=
      length_xor_image _ (List.length_take_le _ _)
    rw [List.length_append, ih, hs, ← List.length_append, List.take_append_drop]

/-- So does decryption, of whatever it is given. -/
@[simp] theorem length_decrypt (data : Bytes) :
    (mode.decrypt image register data).length = data.length := by
  fun_induction mode.decrypt image register data with
  | case1 => rfl
  | case2 register b bs segment ih =>
    rw [List.length_append, ih, length_xor_image segment (List.length_take_le _ _),
      ← List.length_append, List.take_append_drop]

/-- Decryption takes a whole segment off the front, and a shorter one only at the end. -/
theorem decrypt_append {segment rest : Bytes} (hs : segment ≠ [])
    (hw : segment.length ≤ mode.width) (hrest : segment.length < mode.width → rest = []) :
    mode.decrypt image register (segment ++ rest) =
      Bytes.xor segment (image register).bytes ++
        mode.decrypt image (advance register segment) rest := by
  obtain ⟨b, bs, rfl⟩ := List.exists_cons_of_ne_nil hs
  have htake : ((b :: bs) ++ rest).take mode.width = b :: bs := by
    by_cases hlt : (b :: bs).length < mode.width
    · rw [hrest hlt, List.append_nil, List.take_of_length_le hw]
    · rw [List.take_append_of_le_length (by omega), List.take_of_length_le hw]
  have hdrop : ((b :: bs) ++ rest).drop mode.width = rest := by
    have happend := List.take_append_drop mode.width ((b :: bs) ++ rest)
    rw [htake] at happend
    exact List.append_cancel_left happend
  rw [List.cons_append] at htake hdrop ⊢
  rw [decrypt, htake, hdrop]

/-- Decryption from the same register inverts encryption, whatever the block function is. -/
theorem decrypt_encrypt (data : Bytes) :
    mode.decrypt image register (mode.encrypt image register data) = data := by
  fun_induction mode.encrypt image register data with
  | case1 => rw [decrypt]
  | case2 register b bs segment ih =>
    have hw : ((b :: bs).take mode.width).length ≤ mode.width := List.length_take_le _ _
    have hs : segment.length = ((b :: bs).take mode.width).length := length_xor_image _ hw
    have hne : segment ≠ [] := by
      have hpos := mode.width_pos
      rw [← List.length_pos_iff, hs, List.length_take, List.length_cons]
      omega
    rw [decrypt_append hne (by omega) ?_, ih, Bytes.xor_xor_cancel, List.take_append_drop]
    · have hle := mode.width_le
      rw [Block.length_bytes]
      omega
    · intro hlt
      rw [hs, List.length_take] at hlt
      rw [List.drop_of_length_le (by omega), encrypt]

end FeedbackMode

end Sealing
