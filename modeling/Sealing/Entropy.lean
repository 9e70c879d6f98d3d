import Sealing.Bytes.Basic

/-!
# The random source

A source is the bytes that it will still deliver. A draw takes the next bytes or fails and takes
nothing.
-/

namespace Sealing

/-- A source of random bytes. -/
structure Entropy where
  /-- The bytes not yet taken. -/
  available : Bytes
  /-- When present, every draw fails with this text. -/
  failure : Option String := none

namespace Entropy

/-- Takes the next `count` bytes, or says why there are none. A source that fails does so in every
draw, and also if no bytes are asked for. -/
def draw (count : Nat) (source : Entropy) : Except String Bytes × Entropy :=
  match source.failure with
  | some text => (.error text, source)
  | none =>
    if source.available.length < count then (.error "entropy exhausted", source)
    else
      (.ok (source.available.take count),
        { source with available := source.available.drop count })

/-- A failed draw takes nothing. -/
theorem draw_error {count : Nat} {source rest : Entropy} {text : String}
    (h : source.draw count = (.error text, rest)) : rest = source := by
  unfold draw at h
  split at h
  · exact (Prod.mk.inj h).2.symm
  · split at h
    · exact (Prod.mk.inj h).2.symm
    · simp at h

/-- A successful draw delivers the next bytes and leaves the others. -/
theorem draw_ok {count : Nat} {source rest : Entropy} {taken : Bytes}
    (h : source.draw count = (.ok taken, rest)) :
    taken.length = count ∧ source.available = taken ++ rest.available := by
  unfold draw at h
  split at h
  · simp at h
  · split at h
    · simp at h
    · obtain ⟨ht, hr⟩ := Prod.mk.inj h
      cases ht
      subst hr
      simp only [List.take_append_drop, and_true, List.length_take]
      omega

end Entropy

end Sealing
