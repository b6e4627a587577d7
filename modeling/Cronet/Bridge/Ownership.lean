import Cronet.Bridge.Engine

namespace Cronet.Bridge

theorem cancelCalls_eq_none {heap : Nat → Option NativeCall} {calls : Finset Nat} {call : Nat} :
    cancelCalls heap calls call = none ↔ heap call = none := by
  unfold cancelCalls
  split <;> simp

theorem cancelCalls_eq_some {heap : Nat → Option NativeCall} {calls : Finset Nat} {call : Nat} {c : NativeCall}
    (allocated : cancelCalls heap calls call = some c) :
    ∃ was, heap call = some was ∧ c.freeing = was.freeing ∧ (was.cancelled = true ∨ call ∈ calls → c.cancelled = true) := by
  unfold cancelCalls at allocated
  split at allocated
  · obtain ⟨was, before, rfl⟩ := Option.map_eq_some_iff.mp allocated
    exact ⟨was, before, rfl, fun _ => rfl⟩
  · rename_i other
    exact ⟨c, allocated, rfl, fun either => either.resolve_right other⟩

namespace Engine

variable {τ : Type}

/-- Whose an allocated call is: nobody's yet (`none`), while it is open, or one thread's. -/
def holds (s : Engine τ) : Option τ → Nat → Prop
  | none, call => call ∈ s.opened
  | some t, call => (s.acts t).call? = some call

/-- An allocated call has exactly one holder, and it is live while it is open or its closing has
    not reached the set. -/
structure OwnedAt (s : Engine τ) (call : Nat) : Prop where
  allocated : ∀ o, s.holds o call →
    ∃ c, s.heap call = some c ∧ (c.freeing = true ↔ ∃ t, o = some t ∧ s.acts t = .freeing call)
  unique : ∀ o o', s.holds o call → s.holds o' call → o = o'
  covered : s.heap call ≠ none → ∃ o, s.holds o call
  live : call ∈ s.liveCalls ↔ call ∈ s.opened ∨ ∃ t, s.acts t = .discarding call
  cancelled : s.handle = none → call ∈ s.liveCalls → ∀ c, s.heap call = some c → c.cancelled = true

def Ownership (s : Engine τ) : Prop := ∀ call, s.OwnedAt call

theorem ownership_initial (handle : Nat) : Ownership (initial τ handle) := by
  intro call
  constructor
  · intro o held
    cases o <;> simp [holds, initial, Activity.call?] at held
  · intro o o' held
    cases o <;> simp [holds, initial, Activity.call?] at held
  all_goals simp [initial]

variable {s d : Engine τ} {t : τ} {call : Nat}

theorem OwnedAt.live_not_freeing (own : s.OwnedAt call) (live : call ∈ s.liveCalls) :
    ∃ c, s.heap call = some c ∧ c.freeing = false := by
  rcases own.live.mp live with isOpen | ⟨t, discarding⟩
  · obtain ⟨c, allocated, freeing⟩ := own.allocated none isOpen
    refine ⟨c, allocated, Bool.eq_false_iff.mpr fun frees => ?_⟩
    obtain ⟨t, same, _⟩ := freeing.mp frees
    cases same
  · obtain ⟨c, allocated, freeing⟩ := own.allocated (some t) (by simp [holds, discarding, Activity.call?])
    refine ⟨c, allocated, Bool.eq_false_iff.mpr fun frees => ?_⟩
    obtain ⟨other, same, frees⟩ := freeing.mp frees
    cases same
    exact absurd (discarding.symm.trans frees) nofun

theorem OwnedAt.of_thread {c : NativeCall} (alone : ∀ o, d.holds o call → o = some t)
    (held : (d.acts t).call? = some call) (allocated : d.heap call = some c)
    (freeing : c.freeing = true ↔ d.acts t = .freeing call) (live : call ∈ d.liveCalls ↔ d.acts t = .discarding call)
    (cancelled : d.handle = none → call ∈ d.liveCalls → c.cancelled = true) : d.OwnedAt call where
  allocated o holds := by
    cases alone o holds
    exact ⟨c, allocated, freeing.trans ⟨fun frees => ⟨t, rfl, frees⟩, fun ⟨_, same, frees⟩ => by cases same; exact frees⟩⟩
  unique o o' holds holds' := (alone o holds).trans (alone o' holds').symm
  covered _ := ⟨some t, held⟩
  live := by
    rw [live]
    constructor
    · exact fun discards => .inr ⟨t, discards⟩
    · rintro (isOpen | ⟨other, discards⟩)
      · cases alone none isOpen
      · cases alone (some other) (by simp [holds, discards, Activity.call?])
        exact discards
  cancelled closed live c' same := by
    cases allocated.symm.trans same
    exact cancelled closed live

theorem OwnedAt.of_open {c : NativeCall} (alone : ∀ t, (d.acts t).call? ≠ some call) (isOpen : call ∈ d.opened)
    (allocated : d.heap call = some c) (kept : c.freeing = false) (live : call ∈ d.liveCalls)
    (cancelled : d.handle = none → c.cancelled = true) : d.OwnedAt call where
  allocated o holds := by
    cases o with
    | none => exact ⟨c, allocated, by simp [kept]⟩
    | some t => exact absurd holds (alone t)
  unique o o' holds holds' := by
    cases o with
    | some t => exact absurd holds (alone t)
    | none =>
      cases o' with
      | some t => exact absurd holds' (alone t)
      | none => rfl
  covered _ := ⟨none, isOpen⟩
  live := iff_of_true live (.inl isOpen)
  cancelled closed _ c' same := by
    cases allocated.symm.trans same
    exact cancelled closed

theorem OwnedAt.of_freed (alone : ∀ o, ¬ d.holds o call) (freed : d.heap call = none) (dead : call ∉ d.liveCalls) :
    d.OwnedAt call where
  allocated o holds := absurd holds (alone o)
  unique o _ holds := absurd holds (alone o)
  covered allocated := absurd freed allocated
  live := iff_of_false dead (by
    rintro (isOpen | ⟨t, discards⟩)
    · exact alone none isOpen
    · exact alone (some t) (by simp [holds, discards, Activity.call?]))
  cancelled _ live := absurd live dead

theorem OwnedAt.not_open (own : s.OwnedAt call) (held : (s.acts t).call? = some call) : call ∉ s.opened := by
  intro isOpen
  cases own.unique none (some t) isOpen held

variable [DecidableEq τ] {act : Activity}

theorem OwnedAt.frame (own : s.OwnedAt call) (acts : d.acts = Function.update s.acts t act)
    (before : (s.acts t).call? ≠ some call) (after : act.call? ≠ some call) (heap : d.heap call = s.heap call)
    (opened : call ∈ d.opened ↔ call ∈ s.opened) (liveCalls : call ∈ d.liveCalls ↔ call ∈ s.liveCalls)
    (handle : d.handle = s.handle) : d.OwnedAt call := by
  have kept : ∀ o, d.holds o call ↔ s.holds o call := by
    intro o
    cases o with
    | none => exact opened
    | some other =>
      simp only [holds, acts]
      by_cases same : other = t
      · subst same
        rw [Function.update_self]
        exact iff_of_false after before
      · rw [Function.update_of_ne same]
  have inHand : ∀ other busy, busy.call? = some call → (d.acts other = busy ↔ s.acts other = busy) := by
    intro other busy hand
    rw [acts]
    by_cases same : other = t
    · subst same
      rw [Function.update_self]
      exact iff_of_false (fun same => after (same ▸ hand)) fun same => before (same ▸ hand)
    · rw [Function.update_of_ne same]
  refine ⟨?_, ?_, ?_, ?_, ?_⟩
  · intro o held
    obtain ⟨c, allocated, freeing⟩ := own.allocated o ((kept o).mp held)
    refine ⟨c, heap ▸ allocated, freeing.trans ?_⟩
    exact exists_congr fun other => and_congr_right fun _ => (inHand other (.freeing call) rfl).symm
  · exact fun o o' held held' => own.unique o o' ((kept o).mp held) ((kept o').mp held')
  · intro allocated
    obtain ⟨o, held⟩ := own.covered (heap ▸ allocated)
    exact ⟨o, (kept o).mpr held⟩
  · rw [liveCalls, own.live, opened]
    exact or_congr_right (exists_congr fun other => (inHand other (.discarding call) rfl).symm)
  · rw [handle, liveCalls, heap]
    exact own.cancelled

theorem Ownership.pass (own : Ownership s) (acts : d.acts = Function.update s.acts t act)
    (before : (s.acts t).call? = none) (after : act.call? = none) (heap : d.heap = s.heap)
    (opened : d.opened = s.opened) (liveCalls : d.liveCalls = s.liveCalls) (handle : d.handle = s.handle) :
    Ownership d :=
  fun call => (own call).frame acts (by simp [before]) (by simp [after]) (by rw [heap]) (by rw [opened])
    (by rw [liveCalls]) handle

theorem OwnedAt.others_update (own : s.OwnedAt call) (held : (s.acts t).call? = some call)
    (acts : d.acts = Function.update s.acts t act) (other : τ) (ne : other ≠ t) : (d.acts other).call? ≠ some call := by
  rw [acts, Function.update_of_ne ne]
  intro also
  exact ne (Option.some.inj (own.unique (some other) (some t) also held))

theorem Ownership.started {handle : Nat} (own : Ownership s) (starting : s.acts t = .starting handle)
    (fresh : s.heap call = none) :
    Ownership ({ s with heap := Function.update s.heap call (some ⟨false, false⟩) }.goto t (.registering call)) := by
  intro other
  by_cases same : other = call
  · subst same
    have unheld : ∀ o, ¬ s.holds o other := fun o held => by
      obtain ⟨c, allocated, _⟩ := (own other).allocated o held
      exact absurd (fresh.symm.trans allocated) nofun
    have dead : other ∉ s.liveCalls := fun live => by
      obtain ⟨c, allocated, _⟩ := (own other).live_not_freeing live
      exact absurd (fresh.symm.trans allocated) nofun
    refine @OwnedAt.of_thread τ _ t other ⟨false, false⟩ ?_ ?_ (Function.update_self ..) ?_ ?_ ?_
    · intro o held
      cases o with
      | none => exact absurd held (unheld none)
      | some thread =>
        by_cases mine : thread = t
        · rw [mine]
        · refine absurd ?_ (unheld (some thread))
          simpa [holds, goto, Function.update_of_ne mine] using held
    · simp [goto, Activity.call?]
    · simp [goto]
    · simpa [goto] using dead
    · exact fun _ live => absurd live dead
  · refine (own other).frame rfl (by simp [starting, Activity.call?]) (by simp [Activity.call?, Ne.symm same]) ?_ Iff.rfl
      Iff.rfl rfl
    exact Function.update_of_ne same ..

theorem Ownership.register (own : Ownership s) (registering : s.acts t = .registering call) :
    Ownership ({ s with
      liveCalls := insert call s.liveCalls
      opened := insert call s.opened
      heap := cancelCalls s.heap (s.cancels (.register t)) }.goto t .idle) := by
  have held : (s.acts t).call? = some call := by simp [registering, Activity.call?]
  have cancels : s.cancels (.register t) = if s.handle = none then {call} else ∅ := by
    simp [Engine.cancels, registering]
  intro other
  by_cases same : other = call
  · subst same
    obtain ⟨c, allocated, freeing⟩ := (own other).allocated (some t) held
    have kept : c.freeing = false := by
      refine Bool.eq_false_iff.mpr fun frees => ?_
      obtain ⟨_, mine, frees⟩ := freeing.mp frees
      cases mine
      exact absurd (registering.symm.trans frees) nofun
    obtain ⟨d, allocated'⟩ : ∃ d, cancelCalls s.heap (s.cancels (.register t)) other = some d :=
      Option.ne_none_iff_exists'.mp fun gone => absurd (allocated.symm.trans (cancelCalls_eq_none.mp gone)) nofun
    obtain ⟨was, before, flag, cancelled⟩ := cancelCalls_eq_some allocated'
    cases allocated.symm.trans before
    refine OwnedAt.of_open (fun thread => ?_) (Finset.mem_insert_self ..) allocated' (flag.trans kept)
      (Finset.mem_insert_self ..) fun closed => cancelled (.inr ?_)
    · by_cases mine : thread = t
      · rw [mine]
        simp [goto, Activity.call?]
      · exact (own other).others_update held rfl thread mine
    · have closed : s.handle = none := closed
      simp [cancels, closed]
  · have untouched : other ∉ s.cancels (.register t) := by
      rw [cancels]
      split <;> simp [same]
    refine (own other).frame rfl (by simpa [held] using Ne.symm same) (by simp [Activity.call?]) (if_neg untouched) ?_ ?_ rfl
    · simp [goto, same]
    · simp [goto, same]

theorem Ownership.closeCall (own : Ownership s) (idle : s.acts t = .idle) (isOpen : call ∈ s.opened) :
    Ownership ({ s with opened := s.opened.erase call }.goto t (.discarding call)) := by
  intro other
  by_cases same : other = call
  · subst same
    obtain ⟨c, allocated, freeing⟩ := (own other).allocated none isOpen
    have live : other ∈ s.liveCalls := (own other).live.mpr (.inl isOpen)
    refine @OwnedAt.of_thread τ _ t other c ?_ ?_ allocated ?_ ?_ ?_
    · intro o held
      cases o with
      | none => simp [holds, goto] at held
      | some thread =>
        by_cases mine : thread = t
        · rw [mine]
        · cases (own other).unique none (some thread) isOpen
            (by simpa [holds, goto, Function.update_of_ne mine] using held)
    · simp [goto, Activity.call?]
    · simpa [goto] using freeing
    · simpa [goto] using live
    · exact fun closed _ => (own other).cancelled closed live c allocated
  · refine (own other).frame rfl (by simp [idle, Activity.call?]) (by simp [Activity.call?, Ne.symm same]) rfl ?_ Iff.rfl rfl
    simp [goto, same]

theorem Ownership.discard (own : Ownership s) (discarding : s.acts t = .discarding call) :
    Ownership ({ s with liveCalls := s.liveCalls.erase call }.goto t (.discarded call)) := by
  have held : (s.acts t).call? = some call := by simp [discarding, Activity.call?]
  intro other
  by_cases same : other = call
  · subst same
    obtain ⟨c, allocated, freeing⟩ := (own other).allocated (some t) held
    refine @OwnedAt.of_thread τ _ t other c ?_ ?_ allocated ?_ ?_ ?_
    · intro o holds
      cases o with
      | none => exact absurd holds ((own other).not_open held)
      | some thread =>
        by_cases mine : thread = t
        · rw [mine]
        · exact absurd holds ((own other).others_update held rfl thread mine)
    · simp [goto, Activity.call?]
    · simpa [goto, discarding] using freeing
    · simp [goto]
    · simp [goto]
  · refine (own other).frame rfl (by simpa [held] using Ne.symm same) (by simp [Activity.call?, Ne.symm same]) rfl Iff.rfl
      ?_ rfl
    simp [goto, same]

theorem Ownership.free (own : Ownership s) (discarded : s.acts t = .discarded call) :
    Ownership ({ s with heap := Function.update s.heap call ((s.heap call).map .passToFree) }.goto t (.freeing call)) := by
  have held : (s.acts t).call? = some call := by simp [discarded, Activity.call?]
  intro other
  by_cases same : other = call
  · subst same
    obtain ⟨c, allocated, _⟩ := (own other).allocated (some t) held
    have dead : other ∉ s.liveCalls := fun live => by
      rcases (own other).live.mp live with isOpen | ⟨thread, discarding⟩
      · exact (own other).not_open held isOpen
      · have mine := (own other).unique (some thread) (some t) (by simp [holds, discarding, Activity.call?]) held
        cases mine
        exact absurd (discarding.symm.trans discarded) nofun
    refine @OwnedAt.of_thread τ _ t other c.passToFree ?_ ?_ ?_ ?_ ?_ ?_
    · intro o holds
      cases o with
      | none => exact absurd holds ((own other).not_open held)
      | some thread =>
        by_cases mine : thread = t
        · rw [mine]
        · exact absurd holds ((own other).others_update held rfl thread mine)
    · simp [goto, Activity.call?]
    · simp [goto, allocated]
    · simp [goto, NativeCall.passToFree]
    · simpa [goto] using dead
    · exact fun _ live => absurd live dead
  · refine (own other).frame rfl (by simpa [held] using Ne.symm same) (by simp [Activity.call?, Ne.symm same]) ?_ Iff.rfl
      Iff.rfl rfl
    exact Function.update_of_ne same ..

theorem Ownership.freed (own : Ownership s) (freeing : s.acts t = .freeing call) :
    Ownership ({ s with heap := Function.update s.heap call none }.goto t .releasing) := by
  have held : (s.acts t).call? = some call := by simp [freeing, Activity.call?]
  intro other
  by_cases same : other = call
  · subst same
    have dead : other ∉ s.liveCalls := fun live => by
      rcases (own other).live.mp live with isOpen | ⟨thread, discarding⟩
      · exact (own other).not_open held isOpen
      · have mine := (own other).unique (some thread) (some t) (by simp [holds, discarding, Activity.call?]) held
        cases mine
        exact absurd (discarding.symm.trans freeing) nofun
    refine OwnedAt.of_freed (fun o holds => ?_) (Function.update_self ..) dead
    cases o with
    | none => exact (own other).not_open held holds
    | some thread =>
      by_cases mine : thread = t
      · subst mine
        simp [Engine.holds, goto, Activity.call?] at holds
      · exact (own other).others_update held rfl thread mine holds
  · refine (own other).frame rfl (by simpa [held] using Ne.symm same) (by simp [Activity.call?]) ?_ Iff.rfl Iff.rfl rfl
    exact Function.update_of_ne same ..

theorem Ownership.close (own : Ownership s) (idle : s.acts t = .idle) (opened : s.handle.isSome = true) :
    Ownership ({ s with handle := none, heap := cancelCalls s.heap (s.cancels (.close t)) }.goto t .waiting) := by
  have cancels : s.cancels (.close t) = s.liveCalls := by simp [Engine.cancels, idle, opened]
  rw [cancels]
  have closed : Ownership { s with handle := none, heap := cancelCalls s.heap s.liveCalls } := by
    intro call
    refine ⟨fun o held => ?_, (own call).unique, fun allocated => ?_, (own call).live, fun _ live c allocated => ?_⟩
    · obtain ⟨c, allocated, freeing⟩ := (own call).allocated o held
      obtain ⟨d, allocated'⟩ : ∃ d, cancelCalls s.heap s.liveCalls call = some d :=
        Option.ne_none_iff_exists'.mp fun gone => absurd (allocated.symm.trans (cancelCalls_eq_none.mp gone)) nofun
      obtain ⟨was, before, flag, _⟩ := cancelCalls_eq_some allocated'
      cases allocated.symm.trans before
      exact ⟨d, allocated', flag ▸ freeing⟩
    · exact (own call).covered fun gone => allocated (cancelCalls_eq_none.mpr gone)
    · obtain ⟨_, _, _, cancelled⟩ := cancelCalls_eq_some allocated
      exact cancelled (.inr live)
  exact closed.pass rfl (by simp [idle, Activity.call?]) rfl rfl rfl rfl rfl

end Engine

end Cronet.Bridge
