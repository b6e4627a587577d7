import Cronet.Lib.Machine
import Cronet.Lib.Tally

namespace Cronet.Bridge

inductive Op where
  | start
  | startNetLog
  | stopNetLog
  deriving DecidableEq

/-- Where a thread stands in a method of `Engine`, with the engine handle or the address of
    the call it has in hand. -/
inductive Activity where
  | idle
  | claimed (op : Op) (handle : Nat)
  | starting (handle : Nat)
  | logging (handle : Nat)
  | registering (call : Nat)
  | discarding (call : Nat)
  | discarded (call : Nat)
  | freeing (call : Nat)
  | releasing
  | waiting
  | finalizing
  | destroying
  deriving DecidableEq

namespace Activity

/-- The claim of `_claim` has not been given back by `_release`. -/
def claims : Activity → Bool
  | .idle | .waiting | .finalizing | .destroying => false
  | _ => true

def handle? : Activity → Option Nat
  | .claimed _ handle | .starting handle | .logging handle => some handle
  | _ => none

def call? : Activity → Option Nat
  | .registering call | .discarding call | .discarded call | .freeing call => some call
  | _ => none

/-- The thread has cleared `_handle` and not yet run the finalizer. -/
def closes : Activity → Bool
  | .waiting | .finalizing => true
  | _ => false

end Activity

/-- A `cronet_call` the native library has allocated; `freeing` once it has been passed to
    `cronet_call_free`. -/
structure NativeCall where
  cancelled : Bool
  freeing : Bool
  deriving DecidableEq

def NativeCall.cancel (c : NativeCall) : NativeCall := { c with cancelled := true }

def NativeCall.passToFree (c : NativeCall) : NativeCall := { c with freeing := true }

/-- An `Engine` with its threads and the native heap. `opened` are the calls `start` has returned
    and nobody has begun to close; `finalizer` is the handle it still holds; `destroys` counts
    the calls of `cronet_engine_destroy`. -/
structure Engine (τ : Type) where
  handle : Option Nat
  liveCalls : Finset Nat
  callsInFlight : Int
  finalizer : Option Nat
  opened : Finset Nat
  acts : τ → Activity
  heap : Nat → Option NativeCall
  destroys : Nat

inductive Label (τ : Type) where
  | claim (t : τ) (op : Op)
  | enter (t : τ)
  | started (t : τ) (call : Option Nat)
  | register (t : τ)
  | logged (t : τ)
  | closeCall (t : τ) (call : Nat)
  | discard (t : τ)
  | free (t : τ)
  | freed (t : τ)
  | release (t : τ)
  | close (t : τ)
  | wake (t : τ)
  | finalize (t : τ)
  | destroyed (t : τ)

/-- `cronet_call_cancel` on each of `calls`. -/
def cancelCalls (heap : Nat → Option NativeCall) (calls : Finset Nat) : Nat → Option NativeCall :=
  fun call => if call ∈ calls then (heap call).map .cancel else heap call

namespace Engine

variable {τ : Type}

def initial (τ : Type) (handle : Nat) : Engine τ where
  handle := some handle
  liveCalls := ∅
  callsInFlight := 0
  finalizer := some handle
  opened := ∅
  acts _ := .idle
  heap _ := none
  destroys := 0

/-- The calls a step cancels: `close` cancels what is live, `start` its own call when the
    engine was closed meanwhile. -/
def cancels (s : Engine τ) : Label τ → Finset Nat
  | .close t => if s.acts t = .idle ∧ s.handle.isSome then s.liveCalls else ∅
  | .register t =>
    match s.acts t with
    | .registering call => if s.handle = none then {call} else ∅
    | _ => ∅
  | _ => ∅

def passes (s : Engine τ) : Label τ → Option Nat
  | .enter t => (s.acts t).handle?
  | .finalize t => if s.acts t = .finalizing then s.finalizer else none
  | _ => none

variable [DecidableEq τ]

def goto (s : Engine τ) (t : τ) (act : Activity) : Engine τ := { s with acts := Function.update s.acts t act }

/-- One section under `_lock`, or the start or the end of one native call. -/
def step (s : Engine τ) : Label τ → Option (Engine τ)
  | .claim t op =>
    if s.acts t = .idle then
      match s.handle with
      | none => some s
      | some handle => some ({ s with callsInFlight := s.callsInFlight + 1 }.goto t (.claimed op handle))
    else none
  | .enter t =>
    match s.acts t with
    | .claimed .start handle => some (s.goto t (.starting handle))
    | .claimed _ handle => some (s.goto t (.logging handle))
    | _ => none
  | .started t call =>
    match s.acts t with
    | .starting _ =>
      match call with
      | none => some (s.goto t .releasing)
      | some call =>
        if s.heap call = none then
          some ({ s with heap := Function.update s.heap call (some ⟨false, false⟩) }.goto t (.registering call))
        else none
    | _ => none
  | .register t =>
    match s.acts t with
    | .registering call =>
      some ({ s with
        liveCalls := insert call s.liveCalls
        opened := insert call s.opened
        heap := cancelCalls s.heap (s.cancels (.register t)) }.goto t .idle)
    | _ => none
  | .logged t =>
    match s.acts t with
    | .logging _ => some (s.goto t .releasing)
    | _ => none
  | .closeCall t call =>
    if s.acts t = .idle ∧ call ∈ s.opened then
      some ({ s with opened := s.opened.erase call }.goto t (.discarding call))
    else none
  | .discard t =>
    match s.acts t with
    | .discarding call => some ({ s with liveCalls := s.liveCalls.erase call }.goto t (.discarded call))
    | _ => none
  | .free t =>
    match s.acts t with
    | .discarded call =>
      some ({ s with heap := Function.update s.heap call ((s.heap call).map .passToFree) }.goto t (.freeing call))
    | _ => none
  | .freed t =>
    match s.acts t with
    | .freeing call => some ({ s with heap := Function.update s.heap call none }.goto t .releasing)
    | _ => none
  | .release t =>
    if s.acts t = .releasing then some ({ s with callsInFlight := s.callsInFlight - 1 }.goto t .idle) else none
  | .close t =>
    if s.acts t = .idle then
      match s.handle with
      | none => some s
      | some _ =>
        some ({ s with handle := none, heap := cancelCalls s.heap (s.cancels (.close t)) }.goto t .waiting)
    else none
  | .wake t => if s.acts t = .waiting ∧ s.callsInFlight = 0 then some (s.goto t .finalizing) else none
  | .finalize t =>
    if s.acts t = .finalizing then
      match s.finalizer with
      | none => some (s.goto t .idle)
      | some _ => some ({ s with finalizer := none, destroys := s.destroys + 1 }.goto t .destroying)
    else none
  | .destroyed t => if s.acts t = .destroying then some (s.goto t .idle) else none

def machine : Machine (Engine τ) (Label τ) := ⟨step⟩

end Engine

end Cronet.Bridge
