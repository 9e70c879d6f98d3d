import Sealing.Bytes.Basic

/-!
# Streams

A sink accepts bytes call by call: it may be interrupted, take only a part of what it is offered,
and stop for good at a limit. A source delivers bytes chunk by chunk, and may be interrupted, end
or fail. Whoever writes or reads everything retries what was interrupted and sees the same bytes
however they are cut.
-/

namespace Sealing

/-- What a sink does with bytes beyond its limit. -/
inductive Refusal where
  /-- It fails with a text. -/
  | fails (text : String)
  /-- It takes nothing, call after call. -/
  | takesNothing
deriving DecidableEq, Repr

/-- A sink, and what it has taken so far. -/
structure Sink where
  /-- So many calls will be interrupted first. -/
  interruptions : Nat := 0
  /-- The most bytes that one call takes. -/
  perCall : Option Nat := none
  /-- The most bytes taken in all. -/
  limit : Option Nat := none
  refusal : Refusal := .takesNothing
  taken : Bytes := []
deriving DecidableEq, Repr

/-- How a sink answers one call. -/
inductive Reply where
  | interrupted
  | took (count : Nat)
  | failed (text : String)
deriving DecidableEq, Repr

namespace Sink

/-- The most bytes that the next uninterrupted call may take, or none at the limit. -/
def room? (k : Sink) (offered : Nat) : Option Nat :=
  let most := min offered (k.perCall.getD offered)
  match k.limit with
  | none => some most
  | some limit => if limit ≤ k.taken.length then none else some (min most (limit - k.taken.length))

/-- Offers bytes to a sink in one call. -/
def offer (k : Sink) (data : Bytes) : Reply × Sink :=
  if k.interruptions ≠ 0 then (.interrupted, { k with interruptions := k.interruptions - 1 })
  else
    match k.room? data.length with
    | some count => (.took count, { k with taken := k.taken ++ data.take count })
    | none =>
      match k.refusal with
      | .fails text => (.failed text, k)
      | .takesNothing => (.took 0, k)

/-- The failure of a sink that takes nothing. -/
def stalled : String := "failed to write whole buffer"

/-- An interruption uses up one of those ahead. -/
theorem offer_interrupted {k after : Sink} {data : Bytes}
    (h : k.offer data = (.interrupted, after)) : after.interruptions < k.interruptions := by
  unfold offer at h
  split at h
  · obtain ⟨-, rfl⟩ := Prod.mk.inj h
    simp only
    omega
  · split at h
    · simp at h
    · split at h <;> simp at h

/-- A sink takes bytes only once there are no interruptions ahead. -/
theorem offer_took {k after : Sink} {data : Bytes} {count : Nat}
    (h : k.offer data = (.took count, after)) : after.interruptions = k.interruptions := by
  unfold offer at h
  split at h
  · simp at h
  · split at h
    · rw [← (Prod.mk.inj h).2]
    · split at h
      · simp at h
      · rw [← (Prod.mk.inj h).2]

/-- Offers bytes until all are taken or the sink gives up. -/
def writeAll (k : Sink) : Bytes → Except String Unit × Sink
  | [] => (.ok (), k)
  | b :: data =>
    match h : k.offer (b :: data) with
    | (.interrupted, k') =>
      have := offer_interrupted h
      writeAll k' (b :: data)
    | (.took 0, k') => (.error stalled, k')
    | (.took (count + 1), k') =>
      have := offer_took h
      writeAll k' (data.drop count)
    | (.failed text, k') => (.error text, k')
termination_by data => k.interruptions + data.length
decreasing_by
  · omega
  · simp only [List.length_drop, List.length_cons]
    omega

/-- Writes pieces one after the other, up to the first that fails. -/
def writeEach (k : Sink) : List Bytes → Except String Unit × Sink
  | [] => (.ok (), k)
  | piece :: rest =>
    match k.writeAll piece with
    | (.ok (), k) => writeEach k rest
    | (.error text, k) => (.error text, k)

end Sink

/-- What one read meets. -/
inductive Delivery where
  /-- These bytes; no bytes are the end of input. -/
  | chunk (data : Bytes)
  | interruption
  | failure (text : String)
deriving DecidableEq, Repr

/-- A source: what successive reads meet. After the last delivery the input ends. -/
abbrev Source := List Delivery

namespace Source

/-- Reads to the end of input, or to the first failure. -/
def readAll : Source → Except String Bytes
  | [] => .ok []
  | .interruption :: rest => readAll rest
  | .failure text :: _ => .error text
  | .chunk [] :: _ => .ok []
  | .chunk (b :: data) :: rest =>
    match readAll rest with
    | .ok more => .ok (b :: data ++ more)
    | .error text => .error text

end Source

end Sealing
