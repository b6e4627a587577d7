namespace Cronet.Native

def CRONET_NO_TIME : Int := -1
def CRONET_ERROR_ABORTED : Int := -3
def CRONET_ERROR_TIMED_OUT : Int := -7
def CRONET_ERROR_TOO_MANY_REDIRECTS : Int := -31

/-- `cronet_metrics`. -/
structure Metrics where
  requestStartUs : Int
  dnsStartUs : Int
  dnsEndUs : Int
  connectStartUs : Int
  connectEndUs : Int
  sslStartUs : Int
  sslEndUs : Int
  sendStartUs : Int
  sendEndUs : Int
  responseStartUs : Int
  requestEndUs : Int
  sentBytes : Int
  receivedBytes : Int
  socketReused : Bool
  deriving DecidableEq

def Metrics.zero : Metrics := ⟨0, 0, 0, 0, 0, 0, 0, 0, 0, 0, 0, 0, 0, false⟩

/-- `cronet_response`; a pointer is `none` until it has been published. -/
structure ResponseView where
  statusCode : Int
  statusText : Option String
  headers : List (String × String)
  negotiatedProtocol : Option String
  proxyServer : Option String
  finalUrl : Option String
  redirectCount : Nat
  wasCached : Bool
  errorCode : Int
  errorMessage : Option String
  metrics : Metrics
  deriving DecidableEq

def ResponseView.zero : ResponseView := ⟨0, none, [], none, none, none, 0, false, 0, none, .zero⟩

structure ResponseStorage where
  view : ResponseView
  statusText : String
  negotiatedProtocol : String
  proxyServer : String
  finalUrl : String
  errorMessage : String
  headerPairs : List (String × String)
  deriving DecidableEq

/-- What `OnResponseStarted` and `OnReceivedRedirect` report of a response. -/
structure ResponseHead where
  statusCode : Int
  statusText : String
  headers : Option (List (String × String))
  wasCached : Bool
  negotiatedProtocol : String
  proxyServer : String
  deriving DecidableEq

namespace ResponseStorage

def initial (url : String) : ResponseStorage := ⟨.zero, "", "", "", url, "", []⟩

def publish (r : ResponseStorage) : ResponseStorage :=
  { r with view := { r.view with
      statusText := some r.statusText
      headers := r.headerPairs
      negotiatedProtocol := some r.negotiatedProtocol
      proxyServer := some r.proxyServer
      finalUrl := some r.finalUrl } }

/-- `CallState::OnResponse` up to the store of `state_`. -/
def onResponse (r : ResponseStorage) (head : ResponseHead) : ResponseStorage :=
  publish { r with
    view := { r.view with statusCode := head.statusCode, wasCached := head.wasCached }
    statusText := head.statusText
    negotiatedProtocol := head.negotiatedProtocol
    proxyServer := head.proxyServer
    headerPairs := head.headers.getD [] }

@[simp] theorem publish_errorCode (r : ResponseStorage) : r.publish.view.errorCode = r.view.errorCode := rfl

@[simp] theorem onResponse_errorCode (r : ResponseStorage) (head : ResponseHead) :
    (r.onResponse head).view.errorCode = r.view.errorCode := rfl

end ResponseStorage

end Cronet.Native
