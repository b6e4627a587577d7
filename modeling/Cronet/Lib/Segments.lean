import Mathlib.Data.List.Basic

/-- What one read of a stream returns: never nothing, which is how a stream ends. -/
structure Segment (α : Type) where
  elements : List α
  some : elements ≠ []

abbrev Segments (α : Type) := List (Segment α)

namespace Segments

variable {α ε β γ : Type}

def stream (s : Segments α) : List α := s.flatMap Segment.elements

@[simp] theorem stream_nil : stream ([] : Segments α) = [] := rfl

@[simp] theorem stream_cons (segment : Segment α) (rest : Segments α) :
    stream (segment :: rest) = segment.elements ++ stream rest := List.flatMap_cons

theorem exists_stream (whole : List α) : ∃ s : Segments α, s.stream = whole := by
  by_cases none : whole = []
  · exact ⟨[], none.symm⟩
  · exact ⟨[⟨whole, none⟩], List.append_nil whole⟩

/-- Reads until `count` elements are there; `closed` is told how many were when the stream ended. -/
def receive (closed : Nat → ε) (count : Nat) (data : List α) : Segments α → Except ε (List α × Segments α)
  | [] => if count ≤ data.length then .ok (data, []) else .error (closed data.length)
  | segment :: rest =>
    if count ≤ data.length then .ok (data, segment :: rest)
    else if part : count - data.length < segment.elements.length then
      .ok (data ++ segment.elements.take (count - data.length),
        ⟨segment.elements.drop (count - data.length), fun none => absurd (List.drop_eq_nil_iff.mp none) (Nat.not_le.mpr part)⟩ :: rest)
    else receive closed count (data ++ segment.elements) rest

theorem receive_sound {closed : Nat → ε} {count : Nat} {data bytes : List α} {s t : Segments α}
    (room : data.length ≤ count) (received : receive closed count data s = .ok (bytes, t)) :
    data ++ s.stream = bytes ++ t.stream ∧ bytes.length = count := by
  induction s generalizing data with
  | nil =>
    unfold receive at received
    split at received
    · cases received
      exact ⟨rfl, by omega⟩
    · cases received
  | cons segment rest ih =>
    unfold receive at received
    split at received
    · cases received
      exact ⟨rfl, by omega⟩
    · split at received
      · rename_i part
        cases received
        constructor
        · rw [stream_cons, stream_cons, List.append_assoc, ← List.append_assoc (List.take _ _), List.take_append_drop]
        · rw [List.length_append, List.length_take_of_le (by omega)]
          omega
      · obtain ⟨same, length⟩ := ih (by simp; omega) received
        exact ⟨by rw [← same]; simp [stream], length⟩

theorem receive_complete (closed : Nat → ε) {count : Nat} {data bytes rest : List α} {s : Segments α}
    (room : data.length ≤ count) (whole : data ++ s.stream = bytes ++ rest) (length : bytes.length = count) :
    ∃ t, receive closed count data s = .ok (bytes, t) ∧ t.stream = rest := by
  induction s generalizing data with
  | nil =>
    rw [stream_nil, List.append_nil] at whole
    have none : rest = [] := by
      have lengths := congrArg List.length whole
      rw [List.length_append] at lengths
      exact List.length_eq_zero_iff.mp (by omega)
    rw [none, List.append_nil] at whole
    subst whole
    unfold receive
    rw [if_pos (Nat.le_of_eq length.symm)]
    exact ⟨[], rfl, none.symm⟩
  | cons segment others ih =>
    unfold receive
    split
    · obtain ⟨rfl, rfl⟩ := List.append_inj whole (by omega)
      exact ⟨_, rfl, rfl⟩
    · split
      · rw [stream_cons, ← List.take_append_drop (count - data.length) segment.elements, List.append_assoc,
          ← List.append_assoc] at whole
        obtain ⟨rfl, rfl⟩ := List.append_inj whole (by rw [List.length_append, List.length_take_of_le (by omega)]; omega)
        exact ⟨_, rfl, stream_cons _ _⟩
      · exact ih (by rw [List.length_append]; omega) (by rw [← whole, stream_cons, List.append_assoc])

abbrev Reader (ε α β : Type) := StateT (Segments α) (Except ε) β

def receiveExactly (closed : Nat → ε) (count : Nat) : Reader ε α (List α) := receive closed count []

/-- However the stream is cut, the reader takes from its start what `Takes` says and gives what that stands for. -/
structure Reads (reader : Reader ε α β) (Takes : List α → β → Prop) : Prop where
  sound : ∀ s b t, reader.run s = .ok (b, t) → ∃ taken, Takes taken b ∧ s.stream = taken ++ t.stream
  complete : ∀ s taken b rest, Takes taken b → s.stream = taken ++ rest →
    ∃ t, reader.run s = .ok (b, t) ∧ t.stream = rest

namespace Reads

variable {reader : Reader ε α β} {Takes Other : List α → β → Prop}

theorem congr (reads : Reads reader Takes) (same : ∀ taken b, Takes taken b ↔ Other taken b) : Reads reader Other where
  sound s b t ran := by
    obtain ⟨taken, takes, whole⟩ := reads.sound s b t ran
    exact ⟨taken, (same taken b).mp takes, whole⟩
  complete s taken b rest takes whole := reads.complete s taken b rest ((same taken b).mpr takes) whole

theorem receiveExactly (closed : Nat → ε) (count : Nat) :
    Reads (Segments.receiveExactly closed count : Reader ε α (List α)) fun taken bytes =>
      taken = bytes ∧ bytes.length = count where
  sound s bytes t ran := by
    obtain ⟨whole, length⟩ := receive_sound (Nat.zero_le count) ran
    exact ⟨bytes, ⟨rfl, length⟩, whole⟩
  complete s taken bytes rest takes whole := by
    obtain ⟨rfl, length⟩ := takes
    exact receive_complete closed (Nat.zero_le count) whole length

theorem pure (b : β) : Reads (Pure.pure b : Reader ε α β) fun taken given => taken = [] ∧ given = b where
  sound s given t ran := by
    cases ran
    exact ⟨[], ⟨rfl, rfl⟩, rfl⟩
  complete s taken given rest takes whole := by
    obtain ⟨rfl, rfl⟩ := takes
    exact ⟨s, rfl, whole⟩

theorem throw (e : ε) : Reads (MonadExcept.throw e : Reader ε α β) fun _ _ => False where
  sound s b t ran := by cases ran
  complete s taken b rest takes whole := takes.elim

theorem bind {next : β → Reader ε α γ} {D : β → List α → γ → Prop} (reads : Reads reader Takes)
    (reads' : ∀ b, Reads (next b) (D b)) :
    Reads (reader >>= next) fun taken c => ∃ first second b, taken = first ++ second ∧ Takes first b ∧ D b second c where
  sound s c t ran := by
    rw [StateT.run_bind] at ran
    cases read : reader.run s with
    | error e =>
      rw [read] at ran
      cases ran
    | ok given =>
      obtain ⟨b, between⟩ := given
      rw [read] at ran
      obtain ⟨first, takes, whole⟩ := reads.sound s b between read
      obtain ⟨second, takes', whole'⟩ := (reads' b).sound between c t ran
      exact ⟨first ++ second, ⟨first, second, b, rfl, takes, takes'⟩, by rw [whole, whole', List.append_assoc]⟩
  complete s taken c rest takes whole := by
    obtain ⟨first, second, b, rfl, takes, takes'⟩ := takes
    obtain ⟨between, read, left⟩ := reads.complete s first b (second ++ rest) takes (by rw [whole, List.append_assoc])
    obtain ⟨t, ran, final⟩ := (reads' b).complete between second c rest takes' left
    exact ⟨t, by rw [StateT.run_bind, read]; exact ran, final⟩

theorem lift {next : β → Reader ε α γ} {T : List α → γ → Prop} (b : β) (reads : Reads (next b) T) :
    Reads ((liftM (Except.ok b : Except ε β) : Reader ε α β) >>= next) T := reads

theorem check {p : Prop} [Decidable p] (e : ε) (next : γ → Reader ε α β) (reads : Reads reader Takes) :
    Reads (if p then MonadExcept.throw e >>= next else reader) fun taken b => ¬p ∧ Takes taken b := by
  by_cases fails : p
  · rw [if_pos fails]
    refine ⟨fun s b t ran => ?_, fun s taken b rest takes => absurd fails takes.1⟩
    cases ran
  · rw [if_neg fails]
    exact reads.congr fun taken b => (and_iff_right fails).symm

end Reads

end Segments
