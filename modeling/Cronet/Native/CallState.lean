import Cronet.Native.Body
import Cronet.Native.Response
import Mathlib.Algebra.Group.Nat.Defs

namespace Cronet.Native

/-- `cronet_call_state`. -/
inductive CallProgress where
  | started
  | headers
  | done
  deriving DecidableEq

def eventfdMax : Nat := 2 ^ 64 - 2

structure CallState where
  completionFd : Nat
  outcomeClaimed : Bool
  state : CallProgress
  finished : Bool
  released : Bool
  response : ResponseStorage
  headersPublished : Bool
  body : Body
  hasRequest : Bool
  destroyRequested : Bool
  deriving DecidableEq

inductive Task where
  | start
  | readData
  | followDeferredRedirect
  | destroy (sendOnCanceled : Bool)
  deriving DecidableEq

def Task.isDestroy : Task → Bool
  | .destroy _ => true
  | _ => false

namespace CallState

def initial (url : String) : CallState :=
  ⟨0, false, .started, false, false, .initial url, false, .initial, false, false⟩

/-- Whether `lock_` lets a task be posted. -/
def mayPost (s : CallState) : Bool := s.hasRequest && !s.destroyRequested

def readData (s : CallState) : List Task := if s.mayPost then [.readData] else []

def followRedirect (s : CallState) : List Task := if s.mayPost then [.followDeferredRedirect] else []

def destroyRequest (s : CallState) (sendOnCanceled : Bool) : CallState × List Task :=
  if s.mayPost then ({ s with destroyRequested := true }, [.destroy sendOnCanceled]) else (s, [])

def attachRequest (s : CallState) : CallState := { s with hasRequest := true }

def signalProgress (s : CallState) : CallState := { s with completionFd := min (s.completionFd + 1) eventfdMax }

/-- A nonblocking read of the eventfd, whose failure at zero the caller suppresses. -/
def drain (s : CallState) : CallState := { s with completionFd := 0 }

def setMetrics (s : CallState) (metrics : Metrics) : CallState :=
  if s.state = .done then s else { s with response.view.metrics := metrics }

/-- `CallState::response`. -/
def responsePointer (s : CallState) : Option ResponseView :=
  if s.state = .started then none else some s.response.view

section Frame

variable (s : CallState) (sendOnCanceled : Bool) (metrics : Metrics)

@[simp] theorem destroyRequest_outcomeClaimed :
    (s.destroyRequest sendOnCanceled).1.outcomeClaimed = s.outcomeClaimed := by
  unfold destroyRequest
  split <;> rfl

@[simp] theorem destroyRequest_body : (s.destroyRequest sendOnCanceled).1.body = s.body := by
  unfold destroyRequest
  split <;> rfl

@[simp] theorem destroyRequest_response : (s.destroyRequest sendOnCanceled).1.response = s.response := by
  unfold destroyRequest
  split <;> rfl

@[simp] theorem destroyRequest_hasRequest : (s.destroyRequest sendOnCanceled).1.hasRequest = s.hasRequest := by
  unfold destroyRequest
  split <;> rfl

@[simp] theorem setMetrics_outcomeClaimed : (s.setMetrics metrics).outcomeClaimed = s.outcomeClaimed := by
  unfold setMetrics
  split <;> rfl

@[simp] theorem setMetrics_body : (s.setMetrics metrics).body = s.body := by
  unfold setMetrics
  split <;> rfl

@[simp] theorem setMetrics_errorCode :
    (s.setMetrics metrics).response.view.errorCode = s.response.view.errorCode := by
  unfold setMetrics
  split <;> rfl

@[simp] theorem setMetrics_hasRequest : (s.setMetrics metrics).hasRequest = s.hasRequest := by
  unfold setMetrics
  split <;> rfl

@[simp] theorem setMetrics_destroyRequested : (s.setMetrics metrics).destroyRequested = s.destroyRequested := by
  unfold setMetrics
  split <;> rfl

end Frame

end CallState

end Cronet.Native
