import Cronet.Bridge.Ownership

namespace Cronet.Bridge

namespace Engine

variable {τ : Type}

theorem destroys_step [DecidableEq τ] {s d : Engine τ} {label : Label τ} (stepped : s.step label = some d) : s.destroys ≤ d.destroys := by
  cases label <;> simp only [Engine.step] at stepped <;> (try split at stepped) <;> (try split at stepped) <;>
    (try split at stepped) <;> cases stepped <;> simp [goto]

variable [Fintype τ]

/-- The claims not yet given back: a thread's, or a started call's until it has been freed. -/
def holders (s : Engine τ) : Nat := tally Activity.claims s.acts + s.opened.card

def Ending (s : Engine τ) : Prop := (∃ t, s.acts t = .finalizing) ∨ s.destroys ≠ 0

structure CloseInv (s : Engine τ) : Prop where
  own : Ownership s
  count : s.callsInFlight = s.holders
  closers : tally Activity.closes s.acts + s.destroys = s.handle.isNone.toNat
  finalizer : s.finalizer = none ↔ s.destroys ≠ 0
  drained : s.Ending → s.callsInFlight = 0

variable {s d : Engine τ} {t : τ} {act : Activity}

theorem closeInv_initial (handle : Nat) : CloseInv (initial τ handle) where
  own := ownership_initial handle
  count := by simp [holders, initial, tally_const (ι := τ) (a := Activity.idle) (p := Activity.claims) rfl]
  closers := by simp [initial, tally_const (ι := τ) (a := Activity.idle) (p := Activity.closes) rfl]
  finalizer := by simp [initial]
  drained ending := by simp [Ending, initial] at ending

theorem CloseInv.quiet (inv : CloseInv s) (ending : s.Ending) : (∀ t, (s.acts t).claims = false) ∧ s.opened = ∅ := by
  have none_left : s.holders = 0 := by
    have count := inv.count
    rw [inv.drained ending] at count
    exact_mod_cast count.symm
  unfold holders at none_left
  exact ⟨tally_eq_zero.mp (by omega), Finset.card_eq_zero.mp (by omega)⟩

theorem CloseInv.not_ending (inv : CloseInv s) (claims : (s.acts t).claims = true) : ¬ s.Ending :=
  fun ending => Bool.noConfusion (claims.symm.trans ((inv.quiet ending).1 t))

theorem CloseInv.closed_of_ending (inv : CloseInv s) (ending : s.Ending) : s.handle = none := by
  by_contra opened
  have closers := inv.closers
  rw [Option.isNone_eq_false_iff.mpr (Option.isSome_iff_ne_none.mpr opened), Bool.toNat_false] at closers
  rcases ending with ⟨t, finalizing⟩ | destroyed
  · have positive := tally_pos (p := Activity.closes) (f := s.acts) t (by simp [finalizing, Activity.closes])
    omega
  · omega

theorem CloseInv.not_finalized (inv : CloseInv s) (closing : (s.acts t).closes = true) : s.finalizer ≠ none := by
  intro gone
  have destroyed := inv.finalizer.mp gone
  have positive := tally_pos (p := Activity.closes) (f := s.acts) t closing
  have closers := inv.closers
  have once := Bool.toNat_le s.handle.isNone
  omega

theorem CloseInv.destroys_le (inv : CloseInv s) : s.destroys ≤ 1 := by
  have closers := inv.closers
  have once := Bool.toNat_le s.handle.isNone
  omega

theorem CloseInv.passes_nothing {label : Label τ} (inv : CloseInv s) (destroyed : s.destroys ≠ 0) :
    s.passes label = none := by
  cases label with
  | enter t =>
    have unclaimed := (inv.quiet (.inr destroyed)).1 t
    unfold passes
    cases act : s.acts t <;> simp_all [Activity.claims, Activity.handle?]
  | finalize t =>
    simp only [passes, inv.finalizer.mpr destroyed, ite_self]
  | _ => rfl

theorem CloseInv.cancels_live {label : Label τ} {call : Nat} (inv : CloseInv s) (cancelled : call ∈ s.cancels label) :
    ∃ c, s.heap call = some c ∧ c.freeing = false := by
  cases label with
  | close t =>
    simp only [cancels] at cancelled
    split at cancelled
    · exact (inv.own call).live_not_freeing cancelled
    · simp at cancelled
  | register t =>
    simp only [cancels] at cancelled
    split at cancelled
    · rename_i mine registering
      split at cancelled
      · obtain rfl := Finset.mem_singleton.mp cancelled
        obtain ⟨c, allocated, freeing⟩ := (inv.own call).allocated (some t) (congrArg Activity.call? registering)
        refine ⟨c, allocated, Bool.eq_false_iff.mpr fun frees => ?_⟩
        obtain ⟨_, same, frees⟩ := freeing.mp frees
        cases same
        cases registering.symm.trans frees
      · simp at cancelled
    · simp at cancelled
  | _ => simp [cancels] at cancelled

variable [DecidableEq τ] {was is_ closed closes : Bool}

theorem CloseInv.update (inv : CloseInv s) (own : Ownership d) (acts : d.acts = Function.update s.acts t act)
    (before : (s.acts t).claims = was) (after : act.claims = is_)
    (count : d.callsInFlight + was.toNat + s.opened.card = s.callsInFlight + is_.toNat + d.opened.card)
    (closed_ : (s.acts t).closes = closed) (closes_ : act.closes = closes)
    (closers : closes.toNat + d.destroys + s.handle.isNone.toNat = closed.toNat + s.destroys + d.handle.isNone.toNat)
    (finalizer : d.finalizer = none ↔ d.destroys ≠ 0) (drained : d.Ending → d.callsInFlight = 0) : CloseInv d where
  own := own
  count := by
    have moved := tally_update (p := Activity.claims) (f := s.acts) t act
    have counted := inv.count
    rw [← acts, before, after] at moved
    unfold holders at counted ⊢
    push_cast at *
    omega
  closers := by
    have moved := tally_update (p := Activity.closes) (f := s.acts) t act
    have counted := inv.closers
    rw [← acts, closed_, closes_] at moved
    omega
  finalizer := finalizer
  drained := drained

theorem CloseInv.book (inv : CloseInv s) (own : Ownership d) (acts : d.acts = Function.update s.acts t act)
    (before : (s.acts t).claims = was) (after : act.claims = is_)
    (count : d.callsInFlight + was.toNat + s.opened.card = s.callsInFlight + is_.toNat + d.opened.card)
    (closed_ : (s.acts t).closes = false) (closes_ : act.closes = false) (handle : d.handle = s.handle)
    (finalizer : d.finalizer = s.finalizer) (destroys : d.destroys = s.destroys)
    (drained : s.Ending → d.callsInFlight = 0) : CloseInv d := by
  refine inv.update own acts before after count closed_ closes_ (by rw [handle, destroys])
    (by rw [finalizer, destroys]; exact inv.finalizer) fun ending => drained ?_
  rcases ending with ⟨other, finalizing⟩ | destroyed
  · refine .inl ⟨other, ?_⟩
    rw [acts] at finalizing
    by_cases same : other = t
    · subst same
      rw [Function.update_self] at finalizing
      simp [finalizing, Activity.closes] at closes_
    · rwa [Function.update_of_ne same] at finalizing
  · exact .inr (destroys ▸ destroyed)

theorem CloseInv.pass (inv : CloseInv s) (own : Ownership d) (acts : d.acts = Function.update s.acts t act)
    (before : (s.acts t).claims = was) (after : act.claims = was) (closed_ : (s.acts t).closes = false)
    (closes_ : act.closes = false) (inFlight : d.callsInFlight = s.callsInFlight) (opened : d.opened = s.opened)
    (handle : d.handle = s.handle) (finalizer : d.finalizer = s.finalizer) (destroys : d.destroys = s.destroys) :
    CloseInv d :=
  inv.book own acts before after (by rw [inFlight, opened]) closed_ closes_ handle finalizer destroys
    fun ending => inFlight.trans (inv.drained ending)

theorem CloseInv.step {label : Label τ} (inv : CloseInv s) (stepped : s.step label = some d) : CloseInv d := by
  cases label with
  | claim t op =>
    simp only [Engine.step, Option.ite_none_right_eq_some] at stepped
    obtain ⟨idle, stepped⟩ := stepped
    split at stepped
    · cases stepped
      exact inv
    · rename_i handle opened
      cases stepped
      refine inv.book (inv.own.pass rfl (congrArg Activity.call? idle) rfl rfl rfl rfl rfl) rfl (congrArg Activity.claims idle) rfl ?_
        (congrArg Activity.closes idle) rfl rfl rfl rfl fun ending => ?_
      · simp [goto, Activity.claims]
      · simp [inv.closed_of_ending ending] at opened
  | enter t =>
    simp only [Engine.step] at stepped
    split at stepped
    · rename_i handle claimed
      cases stepped
      exact inv.pass (inv.own.pass rfl (congrArg Activity.call? claimed) rfl rfl rfl rfl rfl) rfl (congrArg Activity.claims claimed) rfl
        (congrArg Activity.closes claimed) rfl rfl rfl rfl rfl rfl
    · rename_i op handle _ claimed
      cases stepped
      exact inv.pass (inv.own.pass rfl (congrArg Activity.call? claimed) rfl rfl rfl rfl rfl) rfl (congrArg Activity.claims claimed) rfl
        (congrArg Activity.closes claimed) rfl rfl rfl rfl rfl rfl
    · cases stepped
  | started t call =>
    simp only [Engine.step] at stepped
    split at stepped
    · rename_i handle starting
      split at stepped
      · cases stepped
        exact inv.pass (inv.own.pass rfl (congrArg Activity.call? starting) rfl rfl rfl rfl rfl) rfl (congrArg Activity.claims starting) rfl
          (congrArg Activity.closes starting) rfl rfl rfl rfl rfl rfl
      · simp only [Option.ite_none_right_eq_some, Option.some.injEq] at stepped
        obtain ⟨fresh, rfl⟩ := stepped
        exact inv.pass (inv.own.started starting fresh) rfl (congrArg Activity.claims starting) rfl (congrArg Activity.closes starting) rfl rfl
          rfl rfl rfl rfl
    · cases stepped
  | register t =>
    simp only [Engine.step] at stepped
    split at stepped
    · rename_i call registering
      cases stepped
      have busy : (s.acts t).claims = true := congrArg Activity.claims registering
      have closed := (inv.own call).not_open (t := t) (congrArg Activity.call? registering)
      refine inv.book (inv.own.register registering) rfl busy rfl ?_ (congrArg Activity.closes registering) rfl rfl rfl rfl
        fun ending => absurd ending (inv.not_ending busy)
      simp only [goto, Activity.claims, Bool.toNat_true, Bool.toNat_false, Finset.card_insert_of_notMem closed]
      push_cast
      omega
    · cases stepped
  | logged t =>
    simp only [Engine.step] at stepped
    split at stepped
    · rename_i handle logging
      cases stepped
      exact inv.pass (inv.own.pass rfl (congrArg Activity.call? logging) rfl rfl rfl rfl rfl) rfl (congrArg Activity.claims logging) rfl
        (congrArg Activity.closes logging) rfl rfl rfl rfl rfl rfl
    · cases stepped
  | closeCall t call =>
    simp only [Engine.step, Option.ite_none_right_eq_some, Option.some.injEq] at stepped
    obtain ⟨⟨idle, isOpen⟩, rfl⟩ := stepped
    refine inv.book (inv.own.closeCall idle isOpen) rfl (congrArg Activity.claims idle) rfl ?_ (congrArg Activity.closes idle) rfl rfl rfl rfl
      fun ending => ?_
    · have counted := Finset.card_erase_add_one isOpen
      simp only [goto, Activity.claims, Bool.toNat_true, Bool.toNat_false]
      push_cast
      omega
    · simp [(inv.quiet ending).2] at isOpen
  | discard t =>
    simp only [Engine.step] at stepped
    split at stepped
    · rename_i call discarding
      cases stepped
      exact inv.pass (inv.own.discard discarding) rfl (congrArg Activity.claims discarding) rfl (congrArg Activity.closes discarding) rfl rfl
        rfl rfl rfl rfl
    · cases stepped
  | free t =>
    simp only [Engine.step] at stepped
    split at stepped
    · rename_i call discarded
      cases stepped
      exact inv.pass (inv.own.free discarded) rfl (congrArg Activity.claims discarded) rfl (congrArg Activity.closes discarded) rfl rfl
        rfl rfl rfl rfl
    · cases stepped
  | freed t =>
    simp only [Engine.step] at stepped
    split at stepped
    · rename_i call freeing
      cases stepped
      exact inv.pass (inv.own.freed freeing) rfl (congrArg Activity.claims freeing) rfl (congrArg Activity.closes freeing) rfl rfl
        rfl rfl rfl rfl
    · cases stepped
  | release t =>
    simp only [Engine.step, Option.ite_none_right_eq_some, Option.some.injEq] at stepped
    obtain ⟨releasing, rfl⟩ := stepped
    have busy : (s.acts t).claims = true := congrArg Activity.claims releasing
    refine inv.book (inv.own.pass rfl (congrArg Activity.call? releasing) rfl rfl rfl rfl rfl) rfl busy rfl ?_
      (congrArg Activity.closes releasing) rfl rfl rfl rfl fun ending => absurd ending (inv.not_ending busy)
    simp [goto, Activity.claims]
  | close t =>
    simp only [Engine.step, Option.ite_none_right_eq_some] at stepped
    obtain ⟨idle, stepped⟩ := stepped
    split at stepped
    · cases stepped
      exact inv
    · rename_i handle opened
      cases stepped
      refine inv.update (inv.own.close idle (congrArg Option.isSome opened)) rfl (congrArg Activity.claims idle) rfl ?_ (congrArg Activity.closes idle) rfl
        ?_ inv.finalizer fun ending => ?_
      · simp [goto, Activity.claims]
      · simp [goto, opened, Activity.closes]
        omega
      · have early : ¬ s.Ending := fun ending => by simp [inv.closed_of_ending ending] at opened
        refine absurd ?_ early
        rcases ending with ⟨other, finalizing⟩ | destroyed
        · refine .inl ⟨other, ?_⟩
          by_cases same : other = t
          · subst same
            simp [goto] at finalizing
          · simpa [goto, Function.update_of_ne same] using finalizing
        · exact .inr destroyed
  | wake t =>
    simp only [Engine.step, Option.ite_none_right_eq_some, Option.some.injEq] at stepped
    obtain ⟨⟨waiting, drained⟩, rfl⟩ := stepped
    exact inv.update (inv.own.pass rfl (congrArg Activity.call? waiting) rfl rfl rfl rfl rfl) rfl (congrArg Activity.claims waiting) rfl rfl
      (congrArg Activity.closes waiting) rfl rfl inv.finalizer fun _ => drained
  | finalize t =>
    simp only [Engine.step, Option.ite_none_right_eq_some] at stepped
    obtain ⟨finalizing, stepped⟩ := stepped
    split at stepped
    · rename_i gone
      exact absurd gone (inv.not_finalized (t := t) (congrArg Activity.closes finalizing))
    · cases stepped
      refine inv.update (inv.own.pass rfl (congrArg Activity.call? finalizing) rfl rfl rfl rfl rfl) rfl (congrArg Activity.claims finalizing) rfl
        rfl (congrArg Activity.closes finalizing) rfl ?_ ?_ fun _ => inv.drained (.inl ⟨t, finalizing⟩)
      · simp [goto, Activity.closes]
        omega
      · simp [goto]
  | destroyed t =>
    simp only [Engine.step, Option.ite_none_right_eq_some, Option.some.injEq] at stepped
    obtain ⟨destroying, rfl⟩ := stepped
    exact inv.pass (inv.own.pass rfl (congrArg Activity.call? destroying) rfl rfl rfl rfl rfl) rfl (congrArg Activity.claims destroying) rfl
      (congrArg Activity.closes destroying) rfl rfl rfl rfl rfl rfl

theorem closeInv_of_run {handle : Nat} {labels : List (Label τ)}
    (ran : machine.run (initial τ handle) labels = some s) : CloseInv s :=
  Machine.invariant CloseInv (closeInv_initial handle) (fun _ _ _ inv stepped => inv.step stepped) ran

theorem CloseInv.run {labels : List (Label τ)} (inv : CloseInv s) (ran : machine.run s labels = some d) : CloseInv d :=
  Machine.invariant CloseInv inv (fun _ _ _ inv stepped => inv.step stepped) ran

/-- Closing an engine under any number of threads: the count is right, the engine is destroyed
    once, with nobody inside and every call freed, and never used again; no freed call is
    cancelled, and a call that outlives the closing has been cancelled. -/
theorem close_safe (handle : Nat) (labels : List (Label τ)) (s : Engine τ)
    (ran : machine.run (initial τ handle) labels = some s) :
    s.callsInFlight = s.holders ∧
    s.destroys ≤ 1 ∧
    (s.destroys = 1 → (∀ t, (s.acts t).handle? = none) ∧ (∀ call, s.heap call = none) ∧
      ∀ later u, machine.run s later = some u → ∀ label, u.passes label = none) ∧
    (∀ label, ∀ call ∈ s.cancels label, ∃ c, s.heap call = some c ∧ c.freeing = false) ∧
    (s.handle = none → ∀ call, call ∈ s.opened ∨ (∃ t, s.acts t = .discarding call) →
      ∃ c, s.heap call = some c ∧ c.cancelled = true) := by
  have inv := closeInv_of_run ran
  refine ⟨inv.count, inv.destroys_le, fun destroyed => ⟨fun t => ?_, fun call => ?_, fun later u ran' label => ?_⟩,
    fun label call cancelled => inv.cancels_live cancelled, fun closed call held => ?_⟩
  · have unclaimed := (inv.quiet (.inr (by omega))).1 t
    cases act : s.acts t <;> simp_all [Activity.claims, Activity.handle?]
  · by_contra allocated
    obtain ⟨unclaimed, none_open⟩ := inv.quiet (.inr (by omega))
    obtain ⟨o, held⟩ := (inv.own call).covered allocated
    cases o with
    | none => simp [holds, none_open] at held
    | some t =>
      have unclaimed := unclaimed t
      cases act : s.acts t <;> simp_all [holds, Activity.claims, Activity.call?]
  · have still : u.destroys ≠ 0 :=
      Machine.invariant (fun u => u.destroys ≠ 0) (by omega)
        (fun _ _ _ destroyed stepped => by have grown := destroys_step stepped; omega) ran'
    exact (inv.run ran').passes_nothing still
  · have live := (inv.own call).live.mpr held
    obtain ⟨c, allocated, _⟩ := (inv.own call).live_not_freeing live
    exact ⟨c, allocated, (inv.own call).cancelled closed live c allocated⟩

/-- One call runs when another thread closes the engine; it is cancelled there and then. -/
theorem close_safe_running :
    ∃ labels s, machine.run (initial Bool 7) labels = some s ∧ s.acts true = .waiting ∧ 40 ∈ s.opened ∧
      ∃ c, s.heap 40 = some c ∧ c.cancelled = true := by
  let labels : List (Label Bool) :=
    [.claim false .start, .enter false, .started false (some 40), .register false, .close true]
  have safe := close_safe 7 labels _ rfl
  exact ⟨labels, _, rfl, rfl, by decide, safe.2.2.2.2 rfl 40 (.inl (by decide))⟩

end Engine

end Cronet.Bridge
