import Cronet.Bridge.Closing
import Cronet.Native.Posting
import Cronet.Native.Releasing

namespace Cronet.Bridge

/-- An `Engine` and the native engine behind its handle. `inside` is the call a thread is in `StartCall` for, `behind` the
    one an address of the heap stands for; `used` are the calls `StartCall` has been entered for. -/
structure Stack (τ ι : Type) where
  bridge : Engine τ
  native : Native.Engine ι
  inside : τ → Option ι
  behind : Nat → Option ι
  used : Finset ι

inductive StackLabel (τ ι : Type) where
  | enter (t : τ) (i : ι)
  | startCall (t : τ) (label : Native.Label)
  | bridge (label : Label τ)
  | native (label : Native.EngineLabel ι)

/-- The steps of `StartCall`. -/
def startsCall : Native.Label → Bool
  | .rejectUrl | .registerCall _ | .construct | .attachRequest | .start => true
  | _ => false

namespace Stack

variable {τ ι : Type}

def initial (τ : Type) (handle : Nat) (url : ι → String) (maxRedirects : ι → Int) : Stack τ ι where
  bridge := .initial τ handle
  native := .initial url maxRedirects
  inside _ := none
  behind _ := none
  used := ∅

/-- What a native function has to have come to before the step that ends its call. -/
def returns [DecidableEq ι] (s : Stack τ ι) : Label τ → Bool
  | .enter t =>
    match s.bridge.acts t with
    | .claimed .start _ => false
    | _ => true
  | .started t call =>
    match s.inside t with
    | some i => (s.native.calls i).starter = if call.isSome then .returned else .refused
    | none => false
  | .freed t =>
    match s.bridge.acts t with
    | .freeing call =>
      match s.behind call with
      | some i => (s.native.calls i).shared.released
      | none => false
    | _ => false
  | .destroyed _ => s.native.destroyer = .deleted
  | _ => true

/-- The calls `cronet_call_cancel` or `cronet_call_free` is called with. A network thread that comes between two of them is
    one that comes before both: cancelling twice is cancelling once. -/
def cancelled (s : Stack τ ι) : Label τ → Finset Nat
  | .free t =>
    match s.bridge.acts t with
    | .discarded call => {call}
    | _ => ∅
  | label => s.bridge.cancels label

variable [DecidableEq ι]

def cancelBehind (s : Stack τ ι) (calls : Finset Nat) : Native.Engine ι :=
  { s.native with
    calls := fun i => if some i ∈ calls.image s.behind then (s.native.calls i).cancel else s.native.calls i }

def called (s : Stack τ ι) : Label τ → Option (Native.Engine ι)
  | .finalize t => if (s.bridge.passes (.finalize t)).isSome then s.native.step .destroy else some s.native
  | label => some (s.cancelBehind (s.cancelled label))

variable [DecidableEq τ]

def insideAfter (s : Stack τ ι) : Label τ → τ → Option ι
  | .started t _ => Function.update s.inside t none
  | _ => s.inside

def behindAfter (s : Stack τ ι) : Label τ → Nat → Option ι
  | .started t (some call) => Function.update s.behind call (s.inside t)
  | _ => s.behind

def step (s : Stack τ ι) : StackLabel τ ι → Option (Stack τ ι)
  | .enter t i =>
    match s.bridge.acts t with
    | .claimed .start _ =>
      if i ∈ s.used then none
      else (s.bridge.step (.enter t)).map fun bridge =>
        { s with bridge, inside := Function.update s.inside t (some i), used := insert i s.used }
    | _ => none
  | .startCall t label =>
    match s.inside t with
    | some i => if startsCall label then (s.native.step (.call i label)).map fun native => { s with native } else none
    | none => none
  | .bridge label =>
    if s.returns label then
      (s.bridge.step label).bind fun bridge => (s.called label).map fun native =>
        { s with bridge, native, inside := s.insideAfter label, behind := s.behindAfter label }
    else none
  | .native (.call i label) =>
    if startsCall label then none else (s.native.step (.call i label)).map fun native => { s with native }
  | .native .destroy => none
  | .native label => (s.native.step label).map fun native => { s with native }

def machine : Machine (Stack τ ι) (StackLabel τ ι) := ⟨step⟩

end Stack

structure Sound (c : Native.Call) : Prop where
  call : c.CallInv
  release : c.ReleaseInv
  posting : c.PostingInv

theorem sound_initial (url : String) (maxRedirects : Int) : Sound (.initial url maxRedirects) :=
  ⟨Native.Call.callInv_initial url maxRedirects, Native.Call.releaseInv_initial url maxRedirects,
    Native.Call.postingInv_initial url maxRedirects⟩

theorem Sound.step {c d : Native.Call} {label : Native.Label} (sound : Sound c) (unswept : label ≠ .cancel .engine)
    (stepped : c.step label = some d) : Sound d :=
  ⟨sound.call.step stepped, sound.release.step sound.call stepped,
    sound.posting.step (fun disturbed => unswept disturbed.2) stepped⟩

structure Later (c d : Native.Call) : Prop where
  starter : d.starter = c.starter
  requested : c.shared.destroyRequested = true → d.shared.destroyRequested = true
  released : c.shared.released = true → d.shared.released = true

theorem later_refl (c : Native.Call) : Later c c := ⟨rfl, id, id⟩

theorem later_cancel (c : Native.Call) : Later c c.cancel where
  starter := rfl
  requested := Native.Call.destroyRequest_keeps true
  released released := (@Native.Call.exec_released c (.destroyRequest true) nofun).trans released

theorem later_step {c d : Native.Call} {label : Native.Label} (sound : Sound c) (beside : startsCall label = false)
    (stepped : c.step label = some d) : Later c d where
  starter := by
    cases label with
    | rejectUrl | registerCall | construct | attachRequest | start => cases beside
    | cancel | read | resume | drain =>
      simp only [Native.Call.step, Option.ite_none_right_eq_some, Option.some.injEq] at stepped
      obtain ⟨_, rfl⟩ := stepped
      rfl
    | op =>
      simp only [Native.Call.step, Option.ite_none_left_eq_some, Option.some.injEq] at stepped
      obtain ⟨_, rfl⟩ := stepped
      exact Native.Call.perform_starter c c.net
    | task | callback =>
      simp only [Native.Call.step, Option.ite_none_right_eq_some, Option.map_eq_some_iff] at stepped
      obtain ⟨_, _, _, rfl⟩ := stepped
      exact Native.Call.perform_starter _ _
  requested := sound.call.teardown.keeps_requested stepped
  released released := (sound.release.released_step released stepped).2

def Activity.starts : Activity → Bool
  | .starting _ => true
  | _ => false

theorem apply_update {τ α β : Type} [DecidableEq τ] (f : α → β) {acts : τ → α} {t : τ} {act : α} (same : f act = f (acts t))
    (other : τ) : f (Function.update acts t act other) = f (acts other) := by
  by_cases mine : other = t
  · rw [mine, Function.update_self, same]
  · rw [Function.update_of_ne mine]

theorem destroying_update {τ : Type} [DecidableEq τ] {acts : τ → Activity} {t other : τ} {act : Activity}
    (busy : Function.update acts t act other = .destroying)
    (undestroying : act ≠ .destroying) : acts other = .destroying := by
  by_cases mine : other = t
  · rw [mine, Function.update_self] at busy
    exact absurd busy undestroying
  · rwa [Function.update_of_ne mine] at busy

namespace Stack

variable {τ ι : Type} [DecidableEq τ] [DecidableEq ι]

/-- Every call `StartCall` was entered for is some thread's, behind one address, refused or released. -/
structure Linked (s : Stack τ ι) : Prop where
  entered : ∀ t, (s.bridge.acts t).starts = (s.inside t).isSome
  apart : ∀ t t' i, s.inside t = some i → s.inside t' = some i → t = t'
  insideUsed : ∀ t i, s.inside t = some i → i ∈ s.used
  unused : ∀ i, i ∉ s.used → (s.native.calls i).starter = .begun
  stands : ∀ call, s.bridge.heap call ≠ none → ∃ i, s.behind call = some i ∧ i ∈ s.used ∧
    (s.native.calls i).starter = .returned ∧ ∀ t, s.inside t ≠ some i
  alone : ∀ call call', s.bridge.heap call ≠ none → s.bridge.heap call' ≠ none → s.behind call = s.behind call' →
    call = call'
  requested : ∀ call c i, s.bridge.heap call = some c → c.cancelled = true ∨ c.freeing = true → s.behind call = some i →
    (s.native.calls i).shared.destroyRequested = true
  settled : ∀ i, i ∈ s.used → (∃ t, s.inside t = some i) ∨ (∃ call, s.bridge.heap call ≠ none ∧ s.behind call = some i) ∨
    (s.native.calls i).starter = .refused ∨ (s.native.calls i).shared.released = true
  destroyed : s.native.destroyer ≠ .idle ↔ s.bridge.destroys ≠ 0
  destroying : ∀ t, s.bridge.acts t = .destroying → s.bridge.destroys ≠ 0
  shutting : s.native.isShuttingDown = true → s.native.destroyer ≠ .idle

omit [DecidableEq τ] [DecidableEq ι] in
theorem linked_initial (handle : Nat) (url : ι → String) (maxRedirects : ι → Int) :
    Linked (initial τ handle url maxRedirects) := by
  constructor <;> simp [initial, Engine.initial, Native.Engine.initial, Native.Call.initial, Activity.starts]

variable {s : Stack τ ι} {native : Native.Engine ι} {bridge : Engine τ}

omit [DecidableEq τ] [DecidableEq ι] in
theorem Linked.move (linked : Linked s) (destroyer : native.destroyer ≠ .idle ↔ s.native.destroyer ≠ .idle)
    (shutting : native.isShuttingDown = s.native.isShuttingDown)
    (later : ∀ i, Later (s.native.calls i) (native.calls i) ∨ ∃ t, s.inside t = some i) :
    Linked { s with native } := by
  have out : ∀ call i, s.bridge.heap call ≠ none → s.behind call = some i → Later (s.native.calls i) (native.calls i) := by
    intro call i allocated here
    rcases linked.stands call allocated with ⟨j, same, _, _, outside⟩
    cases here.symm.trans same
    exact (later i).resolve_right fun ⟨t, inside⟩ => outside t inside
  constructor
  · exact linked.entered
  · exact linked.apart
  · exact linked.insideUsed
  · intro i fresh
    have idle := (later i).resolve_right fun ⟨t, inside⟩ => fresh (linked.insideUsed t i inside)
    exact idle.starter.trans (linked.unused i fresh)
  · intro call allocated
    rcases linked.stands call allocated with ⟨i, here, used, returned, outside⟩
    exact ⟨i, here, used, (out call i allocated here).starter.trans returned, outside⟩
  · exact linked.alone
  · intro call c i allocated flag here
    have still := out call i (fun gone => absurd (gone.symm.trans allocated) nofun) here
    exact still.requested (linked.requested call c i allocated flag here)
  · intro i used
    rcases linked.settled i used with inside | behind | refused | released
    · exact .inl inside
    · exact .inr (.inl behind)
    · rcases later i with still | inside
      · exact .inr (.inr (.inl (still.starter.trans refused)))
      · exact .inl inside
    · rcases later i with still | inside
      · exact .inr (.inr (.inr (still.released released)))
      · exact .inl inside
  · exact destroyer.trans linked.destroyed
  · exact linked.destroying
  · intro shut
    exact destroyer.mpr (linked.shutting (shutting.symm.trans shut))

omit [DecidableEq τ] in
theorem cancelBehind_empty (s : Stack τ ι) : s.cancelBehind ∅ = s.native := by simp [cancelBehind]

omit [DecidableEq τ] in
theorem cancelBehind_later (s : Stack τ ι) (calls : Finset Nat) (i : ι) :
    Later (s.native.calls i) ((s.cancelBehind calls).calls i) := by
  simp only [cancelBehind]
  split
  · exact later_cancel _
  · exact later_refl _

omit [DecidableEq τ] in
theorem Linked.pass (linked : Linked s) (sound : ∀ i, Sound (s.native.calls i)) (calls : Finset Nat)
    (starts : ∀ t, (bridge.acts t).starts = (s.bridge.acts t).starts)
    (heap : ∀ call, bridge.heap call = none ↔ s.bridge.heap call = none)
    (flags : ∀ call c, bridge.heap call = some c → c.cancelled = true ∨ c.freeing = true → call ∈ calls ∨
      ∃ was, s.bridge.heap call = some was ∧ (was.cancelled = true ∨ was.freeing = true))
    (destroys : bridge.destroys = s.bridge.destroys)
    (destroying : ∀ t, bridge.acts t = .destroying → s.bridge.acts t = .destroying) :
    Linked { s with bridge, native := s.cancelBehind calls } := by
  have moved : Linked { s with native := s.cancelBehind calls } :=
    linked.move Iff.rfl rfl fun i => .inl (s.cancelBehind_later calls i)
  have allocated : ∀ call, bridge.heap call ≠ none ↔ s.bridge.heap call ≠ none := fun call => not_congr (heap call)
  constructor
  · intro t
    exact (starts t).trans (linked.entered t)
  · exact linked.apart
  · exact linked.insideUsed
  · exact moved.unused
  · intro call present
    exact moved.stands call ((allocated call).mp present)
  · intro call call' present present'
    exact linked.alone call call' ((allocated call).mp present) ((allocated call').mp present')
  · intro call c i present flag here
    rcases flags call c present flag with reached | ⟨was, before, flag⟩
    · rcases linked.stands call ((allocated call).mp fun gone => absurd (gone.symm.trans present) nofun) with
        ⟨j, same, _, returned, _⟩
      cases here.symm.trans same
      have hit : some i ∈ calls.image s.behind := Finset.mem_image.mpr ⟨call, reached, here⟩
      simp only [cancelBehind, if_pos hit]
      exact (sound i).call.teardown.cancel_requests (.inr returned)
    · exact moved.requested call was i before flag here
  · intro i used
    rcases moved.settled i used with inside | ⟨call, present, here⟩ | gone
    · exact .inl inside
    · exact .inr (.inl ⟨call, (allocated call).mpr present, here⟩)
    · exact .inr (.inr gone)
  · show (s.cancelBehind calls).destroyer ≠ .idle ↔ bridge.destroys ≠ 0
    rw [destroys]
    exact linked.destroyed
  · intro t busy
    exact destroys ▸ linked.destroying t (destroying t busy)
  · exact linked.shutting

theorem Linked.cancel (linked : Linked s) (sound : ∀ i, Sound (s.native.calls i)) {t : τ} {act : Activity}
    {calls : Finset Nat}
    (acts : bridge.acts = Function.update s.bridge.acts t act) (starts : act.starts = (s.bridge.acts t).starts)
    (undestroying : act ≠ .destroying) (heap : bridge.heap = cancelCalls s.bridge.heap calls)
    (destroys : bridge.destroys = s.bridge.destroys) : Linked { s with bridge, native := s.cancelBehind calls } := by
  apply linked.pass sound
  · intro other
    rw [acts]
    exact apply_update Activity.starts starts other
  · intro call
    rw [heap]
    exact cancelCalls_eq_none
  · intro call c present flag
    rw [heap, cancelCalls] at present
    split at present
    · exact .inl ‹_›
    · exact .inr ⟨c, present, flag⟩
  · exact destroys
  · intro other busy
    rw [acts] at busy
    exact destroying_update busy undestroying

theorem Linked.quiet (linked : Linked s) (sound : ∀ i, Sound (s.native.calls i)) {t : τ} {act : Activity}
    (acts : bridge.acts = Function.update s.bridge.acts t act) (starts : act.starts = (s.bridge.acts t).starts)
    (undestroying : act ≠ .destroying) (heap : bridge.heap = s.bridge.heap)
    (destroys : bridge.destroys = s.bridge.destroys) :
    Linked { s with bridge, native := s.cancelBehind ∅ } := by
  apply linked.cancel sound acts starts undestroying _ destroys
  rw [heap]
  funext call
  simp [cancelCalls]

theorem Linked.free (linked : Linked s) (sound : ∀ i, Sound (s.native.calls i)) {t : τ} {call : Nat}
    (discarded : s.bridge.acts t = .discarded call) :
    Linked { s with
      bridge := { s.bridge with
        heap := Function.update s.bridge.heap call ((s.bridge.heap call).map .passToFree) }.goto t (.freeing call)
      native := s.cancelBehind {call} } := by
  have kept : ∀ other, other ≠ call →
      Function.update s.bridge.heap call ((s.bridge.heap call).map .passToFree) other = s.bridge.heap other :=
    fun other ne => Function.update_of_ne ne ..
  apply linked.pass sound
  · intro other
    exact apply_update Activity.starts (by rw [discarded]; rfl) other
  · intro other
    by_cases same : other = call
    · simp [same, Engine.goto]
    · exact Eq.congr_left (kept other same)
  · intro other c present flag
    by_cases same : other = call
    · exact .inl (Finset.mem_singleton.mpr same)
    · exact .inr ⟨c, (kept other same).symm.trans present, flag⟩
  · rfl
  · intro other busy
    exact destroying_update busy (fun same => by cases same)

omit [DecidableEq ι] in
theorem Linked.finalize (linked : Linked s) {t : τ} (finalizing : s.bridge.acts t = .finalizing) :
    Linked { s with
      bridge := { s.bridge with finalizer := none, destroys := s.bridge.destroys + 1 }.goto t .destroying
      native := { s.native with isShuttingDown := true, destroyer := .sweeping s.native.liveCalls } } := by
  have once : s.bridge.destroys + 1 ≠ 0 := Nat.succ_ne_zero _
  constructor
  · intro other
    exact (apply_update Activity.starts (by rw [finalizing]; rfl) other).trans (linked.entered other)
  · exact linked.apart
  · exact linked.insideUsed
  · exact linked.unused
  · exact linked.stands
  · exact linked.alone
  · exact linked.requested
  · exact linked.settled
  · exact iff_of_true nofun once
  · intro other busy
    exact once
  · exact nofun

omit [DecidableEq ι] in
theorem inside_update {t other : τ} {i : ι} {value : Option ι} (holds : Function.update s.inside t value other = some i)
    (ne : value ≠ some i) : s.inside other = some i ∧ other ≠ t := by
  by_cases mine : other = t
  · rw [mine, Function.update_self] at holds
    exact absurd holds ne
  · exact ⟨by rwa [Function.update_of_ne mine] at holds, mine⟩

theorem Linked.enter (linked : Linked s) {t : τ} {i : ι} {handle : Nat} (outside : s.inside t = none) (fresh : i ∉ s.used)
    (starting : bridge.acts = Function.update s.bridge.acts t (.starting handle)) (heap : bridge.heap = s.bridge.heap)
    (destroys : bridge.destroys = s.bridge.destroys) :
    Linked { s with bridge, inside := Function.update s.inside t (some i), used := insert i s.used } := by
  have own : ∀ other j, Function.update s.inside t (some i) other = some j → (other = t ∧ j = i) ∨
    s.inside other = some j := by
    intro other j holds
    by_cases mine : other = t
    · rw [mine, Function.update_self] at holds
      exact .inl ⟨mine, (Option.some.inj holds).symm⟩
    · rw [Function.update_of_ne mine] at holds
      exact .inr holds
  have others : ∀ other j, s.inside other = some j → j ≠ i := fun other j holds same =>
    fresh (same ▸ linked.insideUsed other j holds)
  constructor
  · intro other
    rw [starting]
    by_cases mine : other = t
    · simp [mine, Activity.starts]
    · simpa [Function.update_of_ne mine] using linked.entered other
  · intro other other' j holds holds'
    rcases own other j holds with ⟨rfl, rfl⟩ | before
    · rcases own other' j holds' with ⟨rfl, _⟩ | before'
      · rfl
      · exact absurd rfl (others other' j before')
    · rcases own other' j holds' with ⟨rfl, rfl⟩ | before'
      · exact absurd rfl (others other j before)
      · exact linked.apart other other' j before before'
  · intro other j holds
    rcases own other j holds with ⟨_, rfl⟩ | before
    · exact Finset.mem_insert_self _ _
    · exact Finset.mem_insert_of_mem (linked.insideUsed other j before)
  · intro j unused
    exact linked.unused j fun used => unused (Finset.mem_insert_of_mem used)
  · intro call allocated
    rw [heap] at allocated
    rcases linked.stands call allocated with ⟨j, here, used, returned, outside⟩
    refine ⟨j, here, Finset.mem_insert_of_mem used, returned, fun other holds => ?_⟩
    rcases own other j holds with ⟨_, rfl⟩ | before
    · exact fresh used
    · exact outside other before
  · rw [heap]
    exact linked.alone
  · rw [heap]
    exact linked.requested
  · intro j used
    rcases Finset.mem_insert.mp used with rfl | used
    · exact .inl ⟨t, Function.update_self ..⟩
    · rcases linked.settled j used with ⟨other, holds⟩ | behind | gone
      · apply Or.inl
        apply Exists.intro other
        have mine : other ≠ t := fun same => absurd ((same ▸ outside).symm.trans holds) nofun
        exact (Function.update_of_ne mine ..).trans holds
      · exact .inr (.inl (heap ▸ behind))
      · exact .inr (.inr gone)
  · rw [destroys]
    exact linked.destroyed
  · intro other busy
    rw [starting] at busy
    exact destroys ▸ linked.destroying other (destroying_update busy nofun)
  · exact linked.shutting

omit [DecidableEq ι] in
theorem Linked.refused (linked : Linked s) {t : τ} {i : ι} (inside : s.inside t = some i)
    (refused : (s.native.calls i).starter = .refused) (acts : bridge.acts = Function.update s.bridge.acts t .releasing)
    (heap : bridge.heap = s.bridge.heap) (destroys : bridge.destroys = s.bridge.destroys) :
    Linked { s with bridge, inside := Function.update s.inside t none } := by
  constructor
  · intro other
    rw [acts]
    by_cases mine : other = t
    · simp [mine, Activity.starts]
    · simpa [Function.update_of_ne mine] using linked.entered other
  · intro other other' j holds holds'
    exact linked.apart other other' j (inside_update holds nofun).1 (inside_update holds' nofun).1
  · intro other j holds
    exact linked.insideUsed other j (inside_update holds nofun).1
  · exact linked.unused
  · intro call allocated
    rcases linked.stands call (heap ▸ allocated) with ⟨j, here, used, returned, outside⟩
    exact ⟨j, here, used, returned, fun other holds => outside other (inside_update holds nofun).1⟩
  · rw [heap]
    exact linked.alone
  · rw [heap]
    exact linked.requested
  · intro j used
    rcases linked.settled j used with ⟨other, holds⟩ | behind | gone
    · by_cases mine : other = t
      · rw [mine, inside] at holds
        cases holds
        exact .inr (.inr (.inl refused))
      · exact .inl ⟨other, (Function.update_of_ne mine ..).trans holds⟩
    · exact .inr (.inl (heap ▸ behind))
    · exact .inr (.inr gone)
  · rw [destroys]
    exact linked.destroyed
  · intro other busy
    rw [acts] at busy
    exact destroys ▸ linked.destroying other (destroying_update busy nofun)
  · exact linked.shutting

omit [DecidableEq ι] in
theorem Linked.started (linked : Linked s) {t : τ} {i : ι} {call : Nat} (inside : s.inside t = some i)
    (returned : (s.native.calls i).starter = .returned) (fresh : s.bridge.heap call = none)
    (acts : bridge.acts = Function.update s.bridge.acts t (.registering call))
    (heap : bridge.heap = Function.update s.bridge.heap call (some ⟨false, false⟩))
    (destroys : bridge.destroys = s.bridge.destroys) :
    Linked { s with
      bridge, inside := Function.update s.inside t none, behind := Function.update s.behind call (some i) } := by
  have old : ∀ other, bridge.heap other ≠ none → other ≠ call → s.bridge.heap other ≠ none := by
    intro other allocated ne
    rwa [heap, Function.update_of_ne ne] at allocated
  have free : ∀ other, s.bridge.heap other ≠ none → s.behind other ≠ some i := by
    intro other allocated here
    rcases linked.stands other allocated with ⟨j, same, _, _, outside⟩
    cases here.symm.trans same
    exact outside t inside
  constructor
  · intro other
    rw [acts]
    by_cases mine : other = t
    · simp [mine, Activity.starts]
    · simpa [Function.update_of_ne mine] using linked.entered other
  · intro other other' j holds holds'
    exact linked.apart other other' j (inside_update holds nofun).1 (inside_update holds' nofun).1
  · intro other j holds
    exact linked.insideUsed other j (inside_update holds nofun).1
  · exact linked.unused
  · intro other allocated
    by_cases same : other = call
    · subst same
      refine ⟨i, Function.update_self .., linked.insideUsed t i inside, returned, fun thread holds => ?_⟩
      have before := inside_update holds nofun
      exact before.2 (linked.apart thread t i before.1 inside)
    · rcases linked.stands other (old other allocated same) with ⟨j, here, used, out, outside⟩
      exact ⟨j, (Function.update_of_ne same ..).trans here, used, out,
        fun thread holds => outside thread (inside_update holds nofun).1⟩
  · intro first second allocated allocated' same
    by_cases new : first = call
    · by_cases new' : second = call
      · exact new.trans new'.symm
      · subst new
        simp only [Function.update_self, Function.update_of_ne new'] at same
        exact absurd same.symm (free second (old second allocated' new'))
    · by_cases new' : second = call
      · subst new'
        simp only [Function.update_self, Function.update_of_ne new] at same
        exact absurd same (free first (old first allocated new))
      · simp only [Function.update_of_ne new, Function.update_of_ne new'] at same
        exact linked.alone first second (old first allocated new) (old second allocated' new') same
  · intro other c j allocated flag here
    by_cases same : other = call
    · subst same
      simp only [heap, Function.update_self, Option.some.injEq] at allocated
      subst allocated
      simp at flag
    · simp only [heap, Function.update_of_ne same] at allocated here
      exact linked.requested other c j allocated flag here
  · intro j used
    rcases linked.settled j used with ⟨other, holds⟩ | ⟨other, allocated, here⟩ | gone
    · by_cases mine : other = t
      · rw [mine, inside] at holds
        cases holds
        exact .inr (.inl ⟨call, by simp [heap], Function.update_self ..⟩)
      · exact .inl ⟨other, (Function.update_of_ne mine ..).trans holds⟩
    · have ne : other ≠ call := fun same => allocated (same ▸ fresh)
      exact .inr (.inl ⟨other, by simpa [heap, Function.update_of_ne ne] using allocated,
        (Function.update_of_ne ne ..).trans here⟩)
    · exact .inr (.inr gone)
  · rw [destroys]
    exact linked.destroyed
  · intro other busy
    rw [acts] at busy
    exact destroys ▸ linked.destroying other (destroying_update busy nofun)
  · exact linked.shutting

omit [DecidableEq ι] in
theorem Linked.freed (linked : Linked s) {t : τ} {i : ι} {call : Nat} (here : s.behind call = some i)
    (released : (s.native.calls i).shared.released = true) (quiet : (s.bridge.acts t).starts = false)
    (acts : bridge.acts = Function.update s.bridge.acts t .releasing)
    (heap : bridge.heap = Function.update s.bridge.heap call none) (destroys : bridge.destroys = s.bridge.destroys) :
    Linked { s with bridge } := by
  have old : ∀ other c, bridge.heap other = some c → s.bridge.heap other = some c := by
    intro other c allocated
    by_cases same : other = call
    · subst same
      simp [heap] at allocated
    · rwa [heap, Function.update_of_ne same] at allocated
  have still : ∀ other, bridge.heap other ≠ none → s.bridge.heap other ≠ none := by
    intro other allocated
    rcases Option.ne_none_iff_exists'.mp allocated with ⟨c, present⟩
    exact Option.ne_none_iff_exists'.mpr ⟨c, old other c present⟩
  constructor
  · intro other
    rw [acts]
    have same : Activity.starts .releasing = (s.bridge.acts t).starts := quiet.symm
    exact (apply_update Activity.starts same other).trans (linked.entered other)
  · exact linked.apart
  · exact linked.insideUsed
  · exact linked.unused
  · intro other allocated
    exact linked.stands other (still other allocated)
  · intro first second allocated allocated'
    exact linked.alone first second (still first allocated) (still second allocated')
  · intro other c j allocated
    exact linked.requested other c j (old other c allocated)
  · intro j used
    rcases linked.settled j used with inside | ⟨other, allocated, there⟩ | gone
    · exact .inl inside
    · by_cases same : other = call
      · subst same
        cases here.symm.trans there
        exact .inr (.inr (.inr released))
      · exact .inr (.inl ⟨other, by simpa [heap, Function.update_of_ne same] using allocated, there⟩)
    · exact .inr (.inr gone)
  · rw [destroys]
    exact linked.destroyed
  · intro other busy
    rw [acts] at busy
    exact destroys ▸ linked.destroying other (destroying_update busy nofun)
  · exact linked.shutting

variable [Fintype τ]

structure Safe (s : Stack τ ι) : Prop where
  close : s.bridge.CloseInv
  live : s.native.LiveCalls
  sound : ∀ i, Sound (s.native.calls i)
  linked : Linked s

omit [DecidableEq τ] [DecidableEq ι] in
theorem safe_initial (handle : Nat) (url : ι → String) (maxRedirects : ι → Int) : Safe (initial τ handle url maxRedirects) :=
  ⟨Engine.closeInv_initial handle, Native.Engine.liveCalls_initial url maxRedirects,
    fun i => sound_initial (url i) (maxRedirects i), linked_initial handle url maxRedirects⟩

omit [DecidableEq τ] [DecidableEq ι] in
theorem Safe.freed (safe : Safe s) (destroying : s.native.destroyer ≠ .idle) (call : Nat) : s.bridge.heap call = none := by
  have quiet := safe.close.quiet (.inr (safe.linked.destroyed.mp destroying))
  by_contra allocated
  rcases (safe.close.own call).covered allocated with ⟨holder, held⟩
  cases holder with
  | none => simp [Engine.holds, quiet.2] at held
  | some t =>
    have unclaimed := quiet.1 t
    cases act : s.bridge.acts t <;> simp_all [Engine.holds, Activity.claims, Activity.call?]

omit [DecidableEq τ] [DecidableEq ι] in
/-- Once the native engine is being destroyed no thread is inside it and every call there was has been let go. -/
theorem Safe.drained (safe : Safe s) (destroying : s.native.destroyer ≠ .idle) :
    (∀ t, s.inside t = none) ∧ (∀ i, (s.native.calls i).registered = false) ∧ s.native.liveCalls = ∅ := by
  have ending : s.bridge.Ending := .inr (safe.linked.destroyed.mp destroying)
  have quiet := safe.close.quiet ending
  have outside : ∀ t, s.inside t = none := by
    intro t
    have entered := safe.linked.entered t
    have unclaimed := quiet.1 t
    rw [← Option.not_isSome_iff_eq_none, ← entered]
    cases act : s.bridge.acts t <;> simp_all [Activity.claims, Activity.starts]
  have unregistered : ∀ i, (s.native.calls i).registered = false := by
    intro i
    by_contra registered
    have accepted := (safe.live.alive i).accepted (by simpa using registered)
    by_cases used : i ∈ s.used
    · rcases safe.linked.settled i used with ⟨t, inside⟩ | ⟨call, allocated, _⟩ | refused | released
      · exact absurd ((outside t).symm.trans inside) (Option.some_ne_none _).symm
      · exact allocated (safe.freed destroying call)
      · exact accepted.2 refused
      · exact registered (((safe.sound i).release.rests released).1)
    · exact accepted.1 (safe.linked.unused i used)
  apply And.intro outside
  apply And.intro unregistered
  apply Finset.eq_empty_of_forall_notMem
  intro i live
  exact Bool.noConfusion ((unregistered i).symm.trans ((safe.live.live i).mp live))

omit [DecidableEq τ] [DecidableEq ι] in
theorem Safe.cancelled_stands (safe : Safe s) {label : Label τ} {call : Nat} (reached : call ∈ s.cancelled label) :
    s.bridge.heap call ≠ none := by
  cases label with
  | free t =>
    simp only [cancelled] at reached
    split at reached
    · rename_i mine discarded
      cases Finset.mem_singleton.mp reached
      rcases (safe.close.own call).allocated (some t) (congrArg Activity.call? discarded) with ⟨c, allocated, _⟩
      simp [allocated]
    · simp at reached
  | _ =>
    rcases safe.close.cancels_live reached with ⟨c, allocated, _⟩
    simp [allocated]

omit [DecidableEq τ] in
theorem Safe.sound_cancelBehind (safe : Safe s) (label : Label τ) (i : ι) :
    Sound ((s.cancelBehind (s.cancelled label)).calls i) := by
  simp only [cancelBehind]
  split
  · rename_i hit
    rcases Finset.mem_image.mp hit with ⟨call, reached, here⟩
    rcases safe.linked.stands call (safe.cancelled_stands reached) with ⟨j, same, _, returned, _⟩
    cases here.symm.trans same
    have stepped : (s.native.calls i).step (.cancel .handle) = some (s.native.calls i).cancel := by
      simp [Native.Call.step, Native.Call.mayCancel, returned]
    have byHandle : Native.Label.cancel .handle ≠ .cancel .engine := nofun
    exact (safe.sound i).step byHandle stepped
  · exact safe.sound i

omit [DecidableEq τ] [Fintype τ] in
theorem liveCalls_cancelBehind (live : s.native.LiveCalls) (calls : Finset Nat) : (s.cancelBehind calls).LiveCalls := by
  have same : ∀ i, ((s.cancelBehind calls).calls i).registered = (s.native.calls i).registered := by
    intro i
    simp only [cancelBehind]
    split <;> rfl
  constructor
  · intro i
    exact (live.live i).trans (by rw [same])
  · intro i
    simp only [cancelBehind]
    split
    · exact ⟨(live.alive i).accepted, (live.alive i).held, (live.alive i).unregistering⟩
    · exact live.alive i
  · exact live.sweeping
  · exact live.drained
  · exact live.shutting

omit [DecidableEq τ] [DecidableEq ι] [Fintype τ] in
theorem outside_of (linked : Linked s) {t : τ} (quiet : (s.bridge.acts t).starts = false) : s.inside t = none := by
  rw [← Option.not_isSome_iff_eq_none, ← linked.entered t, quiet]
  simp

omit [DecidableEq τ] in
theorem Safe.call (safe : Safe s) {i : ι} {label : Native.Label} (stepped : s.native.step (.call i label) = some native)
    (mover : startsCall label = false ∨ ∃ t, s.inside t = some i) : Safe { s with native } := by
  have live := safe.live.step stepped
  rcases Native.Engine.call_step stepped with ⟨c, allowed, moved, rfl⟩
  have unswept : label ≠ .cancel .engine := by
    intro same
    subst same
    cases allowed
  refine ⟨safe.close, live, ?_, ?_⟩
  · intro j
    by_cases same : j = i
    · subst same
      simpa using (safe.sound j).step unswept moved
    · simpa [Function.update_of_ne same] using safe.sound j
  · refine safe.linked.move ?_ ?_ fun j => ?_
    · exact Iff.rfl
    · rfl
    by_cases same : j = i
    · subst same
      rcases mover with beside | inside
      · apply Or.inl
        simpa using later_step (safe.sound j) beside moved
      · exact .inr inside
    · apply Or.inl
      simpa [Function.update_of_ne same] using later_refl (s.native.calls j)

omit [DecidableEq τ] in
theorem Safe.destroyer (safe : Safe s) {label : Native.EngineLabel ι} (begun : s.native.destroyer ≠ .idle)
    (beside : ∀ i inner, label ≠ .call i inner) (stepped : s.native.step label = some native) : Safe { s with native } := by
  have live := safe.live.step stepped
  have drained := safe.drained begun
  cases label with
  | call i inner => exact absurd rfl (beside i inner)
  | destroy =>
    simp only [Native.Engine.step, Option.ite_none_right_eq_some] at stepped
    exact absurd stepped.1 begun
  | sweep i =>
    rcases Native.Engine.sweep_step stepped with ⟨rest, sweeping, left, rfl⟩
    have member := safe.live.sweeping rest sweeping left
    simp [drained.2.2] at member
  | wait | wake | deleteContext =>
    simp only [Native.Engine.step, Option.ite_none_right_eq_some, Option.some.injEq] at stepped
    rcases stepped with ⟨_, rfl⟩
    refine ⟨safe.close, live, safe.sound, safe.linked.move ?_ ?_ fun i => .inl (later_refl _)⟩
    · simp [begun]
    · rfl

theorem Safe.book (safe : Safe s) {label : Label τ} (stepped : s.bridge.step label = some bridge)
    (linked : Linked { s with bridge, native := s.cancelBehind (s.cancelled label) }) :
    Safe { s with bridge, native := s.cancelBehind (s.cancelled label) } :=
  ⟨safe.close.step stepped, liveCalls_cancelBehind safe.live _, safe.sound_cancelBehind label, linked⟩

/-- What one step of the bridge does, the native functions it enters and leaves included. -/
theorem Safe.across (safe : Safe s) {label : Label τ} (returns : s.returns label = true)
    (stepped : s.bridge.step label = some bridge) (called : s.called label = some native) :
    Safe { s with bridge, native, inside := s.insideAfter label, behind := s.behindAfter label } := by
  have linked := safe.linked
  have sound := safe.sound
  have books := fun linked => safe.book stepped linked
  cases label with
  | claim t op =>
    cases called
    simp only [Engine.step, Option.ite_none_right_eq_some] at stepped
    rcases stepped with ⟨idle, stepped⟩
    split at stepped
    · cases stepped
      exact books (linked.pass sound _ (fun _ => rfl) (fun _ => Iff.rfl) (fun call c present flag => .inr ⟨c, present, flag⟩)
        rfl fun _ => id)
    · cases stepped
      exact books (linked.quiet sound rfl (by rw [idle]; rfl) (fun same => by cases same) rfl rfl)
  | enter t =>
    cases called
    simp only [Engine.step] at stepped
    split at stepped
    · rename_i handle claimed
      simp [Stack.returns, claimed] at returns
    · rename_i op handle _ claimed
      cases stepped
      exact books (linked.quiet sound rfl (by rw [claimed]; rfl) (fun same => by cases same) rfl rfl)
    · cases stepped
  | register t =>
    cases called
    simp only [Engine.step] at stepped
    split at stepped
    · rename_i call registering
      cases stepped
      exact books (linked.cancel sound rfl (by rw [registering]; rfl) (fun same => by cases same) rfl rfl)
    · cases stepped
  | started t call =>
    have entered : ∃ i, s.inside t = some i ∧
        (s.native.calls i).starter = if call.isSome then .returned else .refused := by
      simp only [Stack.returns] at returns
      split at returns
      · exact ⟨_, ‹_›, by simpa using returns⟩
      · cases returns
    rcases entered with ⟨i, inside, starter⟩
    cases called
    have close := safe.close.step stepped
    have still : s.cancelBehind (s.cancelled (.started t call)) = s.native := s.cancelBehind_empty
    rw [still]
    simp only [Engine.step] at stepped
    split at stepped
    · cases call with
      | none =>
        cases stepped
        exact ⟨close, safe.live, sound, linked.refused inside starter rfl rfl rfl⟩
      | some call =>
        simp only [Option.ite_none_right_eq_some, Option.some.injEq] at stepped
        rcases stepped with ⟨fresh, rfl⟩
        refine ⟨close, safe.live, sound, ?_⟩
        simp only [Stack.insideAfter, Stack.behindAfter, inside]
        exact linked.started inside starter fresh rfl rfl rfl
    · cases stepped
  | logged t =>
    cases called
    simp only [Engine.step] at stepped
    split at stepped
    · rename_i handle logging
      cases stepped
      exact books (linked.quiet sound rfl (by rw [logging]; rfl) (fun same => by cases same) rfl rfl)
    · cases stepped
  | closeCall t call =>
    cases called
    simp only [Engine.step, Option.ite_none_right_eq_some, Option.some.injEq] at stepped
    rcases stepped with ⟨⟨idle, _⟩, rfl⟩
    exact books (linked.quiet sound rfl (by rw [idle]; rfl) (fun same => by cases same) rfl rfl)
  | discard t =>
    cases called
    simp only [Engine.step] at stepped
    split at stepped
    · rename_i call discarding
      cases stepped
      exact books (linked.quiet sound rfl (by rw [discarding]; rfl) (fun same => by cases same) rfl rfl)
    · cases stepped
  | free t =>
    cases called
    simp only [Engine.step] at stepped
    split at stepped
    · rename_i call discarded
      cases stepped
      have frees : s.cancelled (.free t) = {call} := by simp [Stack.cancelled, discarded]
      apply books
      rw [frees]
      exact linked.free sound discarded
    · cases stepped
  | freed t =>
    cases called
    have close := safe.close.step stepped
    have still : s.cancelBehind (s.cancelled (.freed t)) = s.native := s.cancelBehind_empty
    rw [still]
    simp only [Engine.step] at stepped
    split at stepped
    · rename_i call freeing
      cases stepped
      simp only [Stack.returns, freeing] at returns
      split at returns
      · exact ⟨close, safe.live, sound, linked.freed ‹_› returns (by rw [freeing]; rfl) rfl rfl rfl⟩
      · cases returns
    · cases stepped
  | release t =>
    cases called
    simp only [Engine.step, Option.ite_none_right_eq_some, Option.some.injEq] at stepped
    rcases stepped with ⟨releasing, rfl⟩
    exact books (linked.quiet sound rfl (by rw [releasing]; rfl) (fun same => by cases same) rfl rfl)
  | close t =>
    cases called
    simp only [Engine.step, Option.ite_none_right_eq_some] at stepped
    rcases stepped with ⟨idle, stepped⟩
    split at stepped
    · rename_i closed
      cases stepped
      have nothing : s.cancelled (.close t) = ∅ := by simp [Stack.cancelled, Engine.cancels, closed]
      apply books
      rw [nothing]
      exact linked.pass sound _ (fun _ => rfl) (fun _ => Iff.rfl) (fun call c present flag => .inr ⟨c, present, flag⟩)
        rfl fun _ => id
    · cases stepped
      exact books (linked.cancel sound rfl (by rw [idle]; rfl) (fun same => by cases same) rfl rfl)
  | wake t =>
    cases called
    simp only [Engine.step, Option.ite_none_right_eq_some, Option.some.injEq] at stepped
    rcases stepped with ⟨⟨waiting, _⟩, rfl⟩
    exact books (linked.quiet sound rfl (by rw [waiting]; rfl) (fun same => by cases same) rfl rfl)
  | finalize t =>
    have close := safe.close.step stepped
    simp only [Engine.step, Option.ite_none_right_eq_some] at stepped
    rcases stepped with ⟨finalizing, stepped⟩
    split at stepped
    · rename_i gone
      exact absurd gone (safe.close.not_finalized (t := t) (congrArg Activity.closes finalizing))
    · rename_i handle held
      cases stepped
      have passes : (s.bridge.passes (.finalize t)).isSome = true := by simp [Engine.passes, finalizing, held]
      simp only [Stack.called, passes, if_true] at called
      have live := safe.live.step called
      simp only [Native.Engine.step, Option.ite_none_right_eq_some, Option.some.injEq] at called
      rcases called with ⟨_, rfl⟩
      exact ⟨close, live, sound, linked.finalize finalizing⟩
  | destroyed t =>
    cases called
    simp only [Engine.step, Option.ite_none_right_eq_some, Option.some.injEq] at stepped
    rcases stepped with ⟨destroying, rfl⟩
    exact books (linked.quiet sound rfl (by rw [destroying]; rfl) (fun same => by cases same) rfl rfl)

theorem Safe.step (safe : Safe s) {label : StackLabel τ ι} {u : Stack τ ι} (stepped : s.step label = some u) : Safe u := by
  cases label with
  | enter t i =>
    simp only [Stack.step] at stepped
    split at stepped
    · rename_i handle claimed
      simp only [Option.ite_none_left_eq_some, Option.map_eq_some_iff] at stepped
      rcases stepped with ⟨fresh, bridge, entered, rfl⟩
      have close := safe.close.step entered
      simp only [Engine.step, claimed, Option.some.injEq] at entered
      subst entered
      have outside := outside_of safe.linked (t := t) (by rw [claimed]; rfl)
      exact ⟨close, safe.live, safe.sound, safe.linked.enter outside fresh rfl rfl rfl⟩
    · cases stepped
  | startCall t label =>
    simp only [Stack.step] at stepped
    split at stepped
    · rename_i i inside
      simp only [Option.ite_none_right_eq_some, Option.map_eq_some_iff] at stepped
      rcases stepped with ⟨_, native, moved, rfl⟩
      exact safe.call moved (.inr ⟨t, inside⟩)
    · cases stepped
  | bridge label =>
    simp only [Stack.step, Option.ite_none_right_eq_some, Option.bind_eq_some_iff, Option.map_eq_some_iff] at stepped
    rcases stepped with ⟨returns, bridge, moved, native, called, rfl⟩
    exact safe.across returns moved called
  | native label =>
    cases label with
    | call i label =>
      simp only [Stack.step, Option.ite_none_left_eq_some, Option.map_eq_some_iff] at stepped
      rcases stepped with ⟨beside, native, moved, rfl⟩
      exact safe.call moved (.inl (by simpa using beside))
    | destroy => cases stepped
    | sweep i | wait | wake | deleteContext =>
      simp only [Stack.step, Option.map_eq_some_iff] at stepped
      rcases stepped with ⟨native, moved, rfl⟩
      apply safe.destroyer _ (by simp) moved
      intro idle
      simp [Native.Engine.step, idle] at moved

theorem safe_of_run {handle : Nat} {url : ι → String} {maxRedirects : ι → Int} {labels : List (StackLabel τ ι)}
    (ran : machine.run (initial τ handle url maxRedirects) labels = some s) : Safe s :=
  Machine.invariant Safe (safe_initial handle url maxRedirects) (fun _ _ _ safe stepped => safe.step stepped) ran

/-- The native engine of an `Engine` under any number of threads: the sweep of `Engine::Destroy` reaches no call, so every
    request is posted to as it must be; `RegisterCall` refuses nothing; and when the native engine goes, no thread is in
    `StartCall` and nothing is left to the network thread of any call that was let in. -/
theorem stack_safe {handle : Nat} {url : ι → String} {maxRedirects : ι → Int} {labels : List (StackLabel τ ι)}
    (ran : machine.run (initial τ handle url maxRedirects) labels = some s) :
    (∀ i, Native.Disciplined (s.native.calls i).request.posted) ∧
    (∀ i, s.step (.native (.sweep i)) = none) ∧
    (∀ t, s.step (.startCall t (.registerCall false)) = none) ∧
    (s.native.destroyer ≠ .idle → s.native.liveCalls = ∅ ∧ (∀ t, s.inside t = none) ∧
      ∀ i, (s.native.calls i).accepted → (s.native.calls i).shared.released = true ∧
        (s.native.calls i).step .op = none ∧ (∀ metrics, (s.native.calls i).step (.task metrics) = none) ∧
        ∀ cb, (s.native.calls i).step (.callback cb) = none) := by
  have safe := safe_of_run ran
  apply And.intro
  · intro i
    exact (safe.sound i).posting.guarded.disciplined
  apply And.intro
  · intro i
    by_contra swept
    rcases Option.ne_none_iff_exists'.mp swept with ⟨u, stepped⟩
    simp only [Stack.step, Option.map_eq_some_iff] at stepped
    rcases stepped with ⟨native, moved, _⟩
    rcases Native.Engine.sweep_step moved with ⟨rest, sweeping, left, _⟩
    have member := safe.live.sweeping rest sweeping left
    simp [(safe.drained (by simp [sweeping])).2.2] at member
  apply And.intro
  · intro t
    by_contra refused
    rcases Option.ne_none_iff_exists'.mp refused with ⟨u, stepped⟩
    simp only [Stack.step] at stepped
    split at stepped
    · rename_i i inside
      simp only [startsCall, if_true, Option.map_eq_some_iff] at stepped
      rcases stepped with ⟨native, moved, _⟩
      rcases Native.Engine.call_step moved with ⟨_, allowed, _, _⟩
      have shutting : s.native.isShuttingDown = true := by
        by_contra open'
        simp [Native.Engine.mayStep, open'] at allowed
      exact absurd (((safe.drained (safe.linked.shutting shutting)).1 t).symm.trans inside) (Option.some_ne_none _).symm
    · cases stepped
  · intro destroying
    have drained := safe.drained destroying
    apply And.intro drained.2.2
    apply And.intro drained.1
    intro i accepted
    have released : (s.native.calls i).shared.released = true := by
      have quiet := safe.close.quiet (.inr (safe.linked.destroyed.mp destroying))
      have used : i ∈ s.used := by
        by_contra fresh
        exact accepted.1 (safe.linked.unused i fresh)
      rcases safe.linked.settled i used with ⟨t, inside⟩ | ⟨call, allocated, _⟩ | refused | released
      · exact absurd ((drained.1 t).symm.trans inside) (Option.some_ne_none _).symm
      · exact absurd (safe.freed destroying call) allocated
      · exact absurd refused accepted.2
      · exact released
    exact ⟨released, ((safe.sound i).release.rests released).2.2.2⟩

/-- A call runs while another thread closes the engine, is freed and goes with it. -/
theorem stack_safe_closed :
    ∃ labels s, machine.run (initial Bool 7 (fun _ : Unit => "http://a/") fun _ => 20) labels = some s ∧
      s.native.destroyer ≠ .idle ∧ (s.native.calls ()).accepted ∧ (s.native.calls ()).shared.released = true := by
  let labels : List (StackLabel Bool Unit) :=
    [.bridge (.claim false .start), .enter false (), .startCall false (.registerCall true), .startCall false .construct,
      .startCall false .attachRequest, .startCall false .start, .bridge (.started false (some 40)),
      .bridge (.register false), .bridge (.close true), .bridge (.closeCall false 40), .bridge (.discard false),
      .bridge (.free false), .native (.call () (.task none)), .native (.call () (.task none))] ++
    List.replicate 11 (.native (.call () .op)) ++
    [.bridge (.freed false), .bridge (.release false), .bridge (.wake true), .bridge (.finalize true)]
  have ran : ∃ s, machine.run (initial Bool 7 (fun _ : Unit => "http://a/") fun _ => 20) labels = some s ∧
      s.native.destroyer ≠ .idle ∧ (s.native.calls ()).accepted := ⟨_, rfl, nofun, nofun, nofun⟩
  rcases ran with ⟨s, ran, destroying, accepted⟩
  exact ⟨labels, s, ran, destroying, accepted, (((stack_safe ran).2.2.2 destroying).2.2 () accepted).1⟩

end Stack

end Cronet.Bridge
