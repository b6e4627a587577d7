import Cronet.Lib.Conduit

namespace Cronet.Native

abbrev Bytes := List UInt8

def kReadBufferSize : Nat := 64 * 1024
def kHighWaterBytes : Nat := 256 * 1024
def kLowWaterBytes : Nat := 64 * 1024

def CRONET_EOF : Int := -1

/-- What `body_lock_` guards. -/
structure Body where
  body : Bytes
  bodyOffset : Nat
  bodyComplete : Bool
  readPaused : Bool
  deriving DecidableEq

/-- The `int64_t` of `Read` beside the bytes it copied out. -/
inductive ReadReturn where
  | eof
  | copied (out : Bytes)
  deriving DecidableEq

def ReadReturn.code : ReadReturn → Int
  | .eof => CRONET_EOF
  | .copied out => out.length

namespace Body

def initial : Body := ⟨[], 0, false, false⟩

def available (b : Body) : Nat := b.body.length - b.bodyOffset

def unread (b : Body) : Bytes := b.body.drop b.bodyOffset

/-- Hands `count` bytes out and reclaims the front once more has gone than is left. -/
def advance (b : Body) (count : Nat) : Body :=
  let offset := b.bodyOffset + count
  if offset > b.body.length - offset then { b with body := b.body.drop offset, bodyOffset := 0 }
  else { b with bodyOffset := offset }

/-- The section of `CallState::Read` under `body_lock_`: what it returns, whether the network
    read is to be resumed once the lock is let go, and the body it leaves. -/
def read (b : Body) (capacity : Nat) : ReadReturn × Bool × Body :=
  if capacity = 0 then (.copied [], false, b)
  else if b.available = 0 then (if b.bodyComplete then .eof else .copied [], false, b)
  else
    let count := min capacity b.available
    let out := b.unread.take count
    let rest := b.advance count
    if rest.readPaused ∧ rest.available ≤ kLowWaterBytes then (.copied out, true, { rest with readPaused := false })
    else (.copied out, false, rest)

/-- The section of `CallState::OnData`, with its answer whether to keep reading. -/
def onData (b : Body) (chunk : Bytes) : Bool × Body :=
  let body := b.body ++ chunk
  let keepReading := decide (body.length - b.bodyOffset < kHighWaterBytes)
  (keepReading, { b with body, readPaused := !keepReading })

/-- The section of `CallState::Finish`. -/
def complete (b : Body) : Body := { b with bodyComplete := true, readPaused := false }

/-- The offset stays within the body, and what has been handed out but not reclaimed is
    never more than what is left. -/
def WellFormed (b : Body) : Prop := b.bodyOffset ≤ b.body.length ∧ b.bodyOffset ≤ b.available

theorem unread_length (b : Body) : b.unread.length = b.available := List.length_drop

theorem unread_eq_nil (b : Body) : b.unread = [] ↔ b.available = 0 := by
  rw [← unread_length, List.length_eq_zero_iff]

theorem WellFormed.size_bound {b : Body} (wf : b.WellFormed) : b.body.length ≤ 2 * b.unread.length := by
  obtain ⟨within, reclaimed⟩ := wf
  rw [unread_length]
  unfold available at *
  omega

@[simp] theorem initial_wellFormed : initial.WellFormed := by simp [WellFormed, initial, available]

@[simp] theorem initial_unread : initial.unread = [] := rfl

@[simp] theorem advance_bodyComplete (b : Body) (count : Nat) :
    (b.advance count).bodyComplete = b.bodyComplete := by
  unfold advance
  dsimp only
  split <;> rfl

@[simp] theorem advance_readPaused (b : Body) (count : Nat) : (b.advance count).readPaused = b.readPaused := by
  unfold advance
  dsimp only
  split <;> rfl

@[simp] theorem advance_unread (b : Body) (count : Nat) : (b.advance count).unread = b.unread.drop count := by
  unfold advance unread
  dsimp only
  split
  · simp [Nat.add_comm]
  · simp [Nat.add_comm]

theorem advance_wellFormed {b : Body} {count : Nat} (fits : b.bodyOffset + count ≤ b.body.length) :
    (b.advance count).WellFormed := by
  unfold advance WellFormed available
  dsimp only
  split
  · simp
  · simp only
    omega

/-- What one `Read` does, in terms of the bytes not yet handed out. -/
structure ReadSpec (b : Body) (capacity : Nat) (ret : ReadReturn) (resume : Bool) (after : Body) : Prop where
  returned : ret = if b.unread = [] ∧ b.bodyComplete then .eof else .copied (b.unread.take capacity)
  unread : after.unread = b.unread.drop capacity
  complete : after.bodyComplete = b.bodyComplete
  wellFormed : b.WellFormed → after.WellFormed
  resumed : resume = true → b.readPaused = true ∧ after.readPaused = false ∧ after.unread.length ≤ kLowWaterBytes
  paused : resume = false → after.readPaused = b.readPaused
  drained : b.unread ≠ [] → after.readPaused = true → kLowWaterBytes < after.unread.length

theorem read_spec (b : Body) {capacity : Nat} (positive : 0 < capacity) :
    ReadSpec b capacity (b.read capacity).1 (b.read capacity).2.1 (b.read capacity).2.2 := by
  have nonzero : capacity ≠ 0 := by omega
  unfold read
  simp only [nonzero, ↓reduceIte]
  by_cases none_left : b.available = 0
  · have drained := (unread_eq_nil b).mpr none_left
    simp only [none_left, ↓reduceIte]
    constructor <;> simp [drained]
  · have buffered : b.unread ≠ [] := fun h => none_left ((unread_eq_nil b).mp h)
    have out : b.unread.take (min capacity b.available) = b.unread.take capacity := by
      rw [← unread_length]
      exact List.take_eq_take_min.symm
    have left : (b.advance (min capacity b.available)).unread = b.unread.drop capacity := by
      rw [advance_unread]
      rcases Nat.le_total capacity b.available with fits | past
      · rw [Nat.min_eq_left fits]
      · rw [Nat.min_eq_right past, List.drop_eq_nil_of_le (Nat.le_of_eq (unread_length b)),
          List.drop_eq_nil_of_le (by rw [unread_length]; exact past)]
    have wf : b.WellFormed → (b.advance (min capacity b.available)).WellFormed := by
      intro ⟨within, _⟩
      apply advance_wellFormed
      unfold available
      omega
    simp only [none_left, ↓reduceIte, out]
    split
    · rename_i resumes
      refine ⟨by simp [buffered], left, advance_bodyComplete b _, wf, fun _ => ⟨?_, rfl, ?_⟩, by simp, by simp⟩
      · simpa using resumes.1
      · rw [unread_length]
        exact resumes.2
    · rename_i stays
      refine ⟨by simp [buffered], left, advance_bodyComplete b _, wf, by simp, fun _ => advance_readPaused b _, ?_⟩
      intro _ paused
      rw [unread_length]
      exact Nat.lt_of_not_le fun low => stays ⟨paused, low⟩

end Body

end Cronet.Native
