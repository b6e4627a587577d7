import Cronet.Lib.Checked
import Cronet.Native.LastError
import Cronet.Request.Lockstep
import Cronet.Request.Utf8

namespace Cronet.Bridge

open Cronet.Native (Bytes CString ascii)
open Cronet.Request (CallSettings Library utf8 utf8_eq_nil mem_utf8 cString int32)
open Cronet.Url (Str Python)

/-- `value.encode("latin-1")` of what it can encode. -/
def latin1 (s : Str) : Bytes := s.map fun c => UInt8.ofNat c.toNat

def isLatin1 (s : Str) : Bool := s.all (·.toNat < 256)

def decodeLatin1 (bytes : Bytes) : Str := bytes.map fun b => Char.ofNat b.toNat

/-- What C reads where ctypes aims a `char*` at these bytes. -/
def CString.ofBytes (bytes : Bytes) : CString :=
  ⟨bytes.takeWhile (· ≠ 0), fun zero => by simpa using List.mem_takeWhile_imp zero⟩

theorem ofNat_ne_zero {n : Nat} (some : n % 256 ≠ 0) : (0 : UInt8) ≠ UInt8.ofNat n := by
  intro zero
  rw [← UInt8.toNat_inj, UInt8.toNat_ofNat'] at zero
  exact some zero.symm

theorem zero_mem_utf8 {s : Str} : 0 ∈ utf8 s ↔ '\x00' ∈ s := by
  have ascii : '\x00'.toNat < 128 := by decide
  exact mem_utf8 ascii

theorem ofBytes_whole {bytes : Bytes} : (CString.ofBytes bytes).1 = bytes ↔ 0 ∉ bytes := by
  constructor
  · intro whole zero
    rw [← whole] at zero
    exact (CString.ofBytes bytes).2 zero
  · intro free
    exact List.takeWhile_eq_self_iff.mpr fun b member => decide_eq_true fun zero => free (zero ▸ member)

theorem ofBytes_utf8 (s : Str) : (CString.ofBytes (utf8 s)).1 = utf8 (cString s) := by
  induction s with
  | nil => rfl
  | cons c rest ih =>
    by_cases nul : c = '\x00'
    · subst nul
      rfl
    · have kept : ∀ b ∈ String.utf8EncodeChar c, decide (b ≠ 0) = true := by
        intro b member
        rw [decide_eq_true_eq]
        rintro rfl
        have alone : 0 ∈ utf8 [c] := List.mem_append_left _ member
        exact nul (List.mem_singleton.mp (zero_mem_utf8.mp alone)).symm
      have head : cString (c :: rest) = c :: cString rest := List.takeWhile_cons_of_pos (decide_eq_true nul)
      rw [head]
      calc (CString.ofBytes (utf8 (c :: rest))).1
          = String.utf8EncodeChar c ++ (CString.ofBytes (utf8 rest)).1 := List.takeWhile_append_of_pos kept
        _ = utf8 (c :: cString rest) := by rw [ih]; rfl

theorem zero_mem_latin1 {s : Str} (narrow : isLatin1 s = true) : 0 ∈ latin1 s ↔ '\x00' ∈ s := by
  rw [latin1, List.mem_map]
  constructor
  · rintro ⟨c, member, zero⟩
    have bound := List.all_eq_true.mp narrow c member
    rw [decide_eq_true_eq] at bound
    have none : c.toNat = 0 := by
      by_contra some
      exact ofNat_ne_zero (by omega) zero.symm
    have nul : c = '\x00' := Char.ext (UInt32.toNat_inj.mp none)
    exact nul ▸ member
  · intro member
    exact ⟨'\x00', member, rfl⟩

theorem decodeLatin1_latin1 {s : Str} (narrow : isLatin1 s = true) : decodeLatin1 (latin1 s) = s := by
  rw [decodeLatin1, latin1, List.map_map]
  refine (List.map_congr_left fun c member => ?_).trans (List.map_id s)
  have bound := List.all_eq_true.mp narrow c member
  rw [decide_eq_true_eq] at bound
  rw [Function.comp_apply, UInt8.toNat_ofNat', Nat.mod_eq_of_lt bound, Char.ofNat_toNat, id]

theorem decodeLatin1_cut {s : Str} (narrow : isLatin1 s = true) :
    decodeLatin1 (CString.ofBytes (latin1 s)).1 = s ↔ '\x00' ∉ s := by
  rw [← zero_mem_latin1 narrow, ← ofBytes_whole]
  constructor
  · intro same
    have lengths := congrArg List.length same
    rw [decodeLatin1, List.length_map] at lengths
    exact (List.takeWhile_prefix _).eq_of_length (lengths.trans (List.length_map _).symm)
  · intro whole
    rw [whole, decodeLatin1_latin1 narrow]

/-- `start` raising: what stands between the caller and a call. -/
inductive NotStarted where
  | unicodeEncodeError (s : Str)
  | sessionClosed
  | requestError (message : String) (url : Str)
  deriving DecidableEq

def PRIORITY_MEDIUM : Int := 4

structure CronetHeader where
  name : Option CString
  value : Option CString

structure CronetRequest where
  url : Option CString
  method : Option CString
  headers : List CronetHeader
  body : Option Bytes
  priority : Int
  maxRedirects : Int
  disableCache : Bool

def cronetRequestInit : CronetRequest := ⟨none, none, [], none, PRIORITY_MEDIUM, -1, false⟩

def encodeLatin1 (s : Str) : Except NotStarted Bytes :=
  if isLatin1 s then .ok (latin1 s) else .error (.unicodeEncodeError s)

def buildHeader (header : Str × Str) : Except NotStarted CronetHeader := do
  let name ← encodeLatin1 header.1
  let value ← encodeLatin1 header.2
  return ⟨some (CString.ofBytes name), some (CString.ofBytes value)⟩

structure RequestSpec where
  url : Bytes
  method : Bytes
  headers : List (Bytes × Bytes)
  body : Bytes
  priority : Int
  maxRedirects : Int
  disableCache : Bool

def toRequestPriority (priority : Int) : Int := if priority < 0 ∨ 5 < priority then PRIORITY_MEDIUM else priority

/-- A request of Cronet's, as far as it has been configured; the URL is the text it was parsed from. -/
structure CronetURLRequest where
  url : Bytes
  method : Bytes
  headers : List (Bytes × Bytes)
  body : Bytes
  priority : Int
  disableCache : Bool
  maxRedirects : Int
  deriving DecidableEq

/-- What Chromium makes of what it is given: `GURL::is_valid`, `IsToken`, `IsValidHeaderValue`, which names are one
    to it and what entering a header does to those entered before. -/
structure Chromium where
  validUrl : Bytes → Bool
  isToken : Bytes → Bool
  isHeaderValue : Bytes → Bool
  sameName : Bytes → Bytes → Bool
  setHeader : List (Bytes × Bytes) → Bytes × Bytes → List (Bytes × Bytes)

/-- What a session's engine is in when a call is started: open, ready to register a call, and the last error of the
    thread. -/
structure EngineState where
  isOpen : Bool
  registers : Bool
  lastError : String

namespace Chromium

variable (c : Chromium)

/-- `GET` is a token, and a header comes after the others unless one of its name is there, whose place it takes. -/
structure Documented : Prop where
  get : c.isToken (ascii "GET") = true
  fresh : ∀ headers header, (∀ earlier ∈ headers, c.sameName earlier.1 header.1 = false) →
    c.setHeader headers header = headers ++ [header]
  again : ∀ headers header, (∃ earlier ∈ headers, c.sameName earlier.1 header.1 = true) →
    (c.setHeader headers header).length = headers.length

/-- A new request of Cronet's is a `GET` without headers. -/
def newRequest (spec : RequestSpec) : CronetURLRequest where
  url := spec.url
  method := ascii "GET"
  headers := []
  body := []
  priority := spec.priority
  disableCache := spec.disableCache
  maxRedirects := if spec.maxRedirects < 0 then 20 else spec.maxRedirects

def setHttpMethod (request : CronetURLRequest) (method : Bytes) : CronetURLRequest × Bool :=
  if c.isToken method then ({ request with method }, true) else (request, false)

def accepts (header : Bytes × Bytes) : Bool := c.isToken header.1 && c.isHeaderValue header.2

def addRequestHeader (request : CronetURLRequest) (header : Bytes × Bytes) : CronetURLRequest × Bool :=
  if c.accepts header then ({ request with headers := c.setHeader request.headers header }, true) else (request, false)

/-- What `StartCall` sets up between construction and `Start`; neither setter's answer is looked at. -/
def configured (spec : RequestSpec) : CronetURLRequest :=
  let request := (c.setHttpMethod (newRequest spec) spec.method).1
  let request := spec.headers.foldl (fun request header => (c.addRequestHeader request header).1) request
  if spec.body ≠ [] then { request with body := spec.body } else request

/-- `StartCall`, as far as the request it starts. -/
def startCall (registers : Bool) (spec : RequestSpec) : Option CronetURLRequest :=
  if c.validUrl spec.url = false then none
  else if registers = false then none
  else some (c.configured spec)

end Chromium

def CronetHeader.pair? (header : CronetHeader) : Option (Bytes × Bytes) :=
  match header.name, header.value with
  | some name, some value => some (name.1, value.1)
  | _, _ => none

def cronetCallStart (c : Chromium) (registers : Bool) (request : CronetRequest) : Option CronetURLRequest :=
  match request.url with
  | none => none
  | some url =>
    let method := CString.toBytes request.method
    c.startCall registers {
      url := url.1
      method := if method = [] then ascii "GET" else method
      headers := request.headers.filterMap CronetHeader.pair?
      body := request.body.getD []
      priority := toRequestPriority request.priority
      maxRedirects := request.maxRedirects
      disableCache := request.disableCache }

section

variable [Library]

def buildRequest (settings : CallSettings) : Except NotStarted CronetRequest := do
  let method := utf8 (Python.upper settings.method)
  let url := utf8 settings.url
  let headers ← settings.headers.mapM buildHeader
  return { cronetRequestInit with
    method := some (CString.ofBytes method)
    url := some (CString.ofBytes url)
    headers
    body := if settings.body ≠ [] then some settings.body else none
    priority := int32 settings.priority
    maxRedirects := int32 settings.maxRedirects
    disableCache := settings.disableCache }

/-- `Engine.start`: the request a call is made for, or what is raised instead. -/
def start (c : Chromium) (engine : EngineState) (settings : CallSettings) : Except NotStarted CronetURLRequest := do
  let request ← buildRequest settings
  if engine.isOpen = false then throw .sessionClosed
  match cronetCallStart c engine.registers request with
  | none =>
    throw (.requestError (if engine.lastError = "" then "the request could not be started" else engine.lastError)
      settings.url)
  | some request => return request

structure Carries (settings : CallSettings) (request : CronetURLRequest) : Prop where
  method : request.method = utf8 (Python.upper settings.method)
  url : request.url = utf8 settings.url
  headers : request.headers.map (fun header => (decodeLatin1 header.1, decodeLatin1 header.2)) = settings.headers
  body : request.body = settings.body

def Refused (c : Chromium) (engine : EngineState) (settings : CallSettings) : Prop :=
  (∃ header ∈ settings.headers, isLatin1 header.1 = false ∨ isLatin1 header.2 = false) ∨
    engine.isOpen = false ∨ c.validUrl (utf8 (cString settings.url)) = false ∨ engine.registers = false

/-- Nothing holds a NUL, the method and every name is a token, no value has what a value must not have, and no name
    comes twice. -/
structure Plain (c : Chromium) (settings : CallSettings) : Prop where
  methodWhole : '\x00' ∉ Python.upper settings.method
  methodToken : Python.upper settings.method ≠ [] ∧ c.isToken (utf8 (Python.upper settings.method)) = true
  urlWhole : '\x00' ∉ settings.url
  headersWhole : ∀ header ∈ settings.headers, '\x00' ∉ header.1 ∧ '\x00' ∉ header.2
  headersValid : ∀ header ∈ settings.headers, c.accepts (latin1 header.1, latin1 header.2) = true
  namesDistinct : settings.headers.Pairwise fun first second => c.sameName (latin1 first.1) (latin1 second.1) = false

variable {c : Chromium} {engine : EngineState} {settings : CallSettings}

def built (settings : CallSettings) : CronetRequest where
  url := some (CString.ofBytes (utf8 settings.url))
  method := some (CString.ofBytes (utf8 (Python.upper settings.method)))
  headers := settings.headers.map fun header =>
    ⟨some (CString.ofBytes (latin1 header.1)), some (CString.ofBytes (latin1 header.2))⟩
  body := if settings.body ≠ [] then some settings.body else none
  priority := int32 settings.priority
  maxRedirects := int32 settings.maxRedirects
  disableCache := settings.disableCache

/-- What `cronet_call_start` makes of that struct. -/
def spec (settings : CallSettings) : RequestSpec where
  url := utf8 (cString settings.url)
  method :=
    if cString (Python.upper settings.method) = [] then ascii "GET" else utf8 (cString (Python.upper settings.method))
  headers := settings.headers.map fun header =>
    ((CString.ofBytes (latin1 header.1)).1, (CString.ofBytes (latin1 header.2)).1)
  body := settings.body
  priority := toRequestPriority (int32 settings.priority)
  maxRedirects := int32 settings.maxRedirects
  disableCache := settings.disableCache

omit [Library] in
theorem buildHeader_ok {header : Str × Str} {built : CronetHeader} :
    buildHeader header = .ok built ↔ (isLatin1 header.1 = true ∧ isLatin1 header.2 = true) ∧
      built = ⟨some (CString.ofBytes (latin1 header.1)), some (CString.ofBytes (latin1 header.2))⟩ := by
  unfold buildHeader encodeLatin1
  by_cases name : isLatin1 header.1 = true
  · by_cases value : isLatin1 header.2 = true
    · simp [name, value, bind, Except.bind, pure, Except.pure, eq_comm]
    · simp [name, value, bind, Except.bind]
  · simp [name, bind, Except.bind]

omit [Library] in
theorem buildHeaders_ok {headers : List (Str × Str)} {built : List CronetHeader} :
    headers.mapM buildHeader = .ok built ↔
      (∀ header ∈ headers, isLatin1 header.1 = true ∧ isLatin1 header.2 = true) ∧
        built = headers.map fun header =>
          ⟨some (CString.ofBytes (latin1 header.1)), some (CString.ofBytes (latin1 header.2))⟩ := by
  induction headers generalizing built with
  | nil =>
    constructor
    · intro ok
      cases ok
      exact ⟨List.forall_mem_nil _, rfl⟩
    · rintro ⟨_, rfl⟩
      rfl
  | cons header rest ih =>
    rw [List.mapM_cons]
    constructor
    · intro ok
      obtain ⟨first, encoded, ok⟩ := Checked.bind_ok ok
      obtain ⟨others, encodedRest, ok⟩ := Checked.bind_ok ok
      cases ok
      obtain ⟨narrow, rfl⟩ := buildHeader_ok.mp encoded
      obtain ⟨narrowRest, rfl⟩ := ih.mp encodedRest
      exact ⟨List.forall_mem_cons.mpr ⟨narrow, narrowRest⟩, rfl⟩
    · rintro ⟨narrow, rfl⟩
      obtain ⟨first, others⟩ := List.forall_mem_cons.mp narrow
      rw [buildHeader_ok.mpr ⟨first, rfl⟩, ih.mpr ⟨others, rfl⟩]
      rfl

theorem cronetCallStart_built (registers : Bool) :
    cronetCallStart c registers (built settings) = c.startCall registers (spec settings) := by
  have method : (if CString.toBytes (some (CString.ofBytes (utf8 (Python.upper settings.method)))) = [] then ascii "GET"
      else CString.toBytes (some (CString.ofBytes (utf8 (Python.upper settings.method))))) = (spec settings).method := by
    rw [CString.toBytes, ofBytes_utf8, spec]
    simp only [utf8_eq_nil]
  have headers : (settings.headers.map fun header => CronetHeader.mk (some (CString.ofBytes (latin1 header.1)))
      (some (CString.ofBytes (latin1 header.2)))).filterMap CronetHeader.pair? = (spec settings).headers := by
    rw [List.filterMap_map, spec]
    exact congrFun List.filterMap_eq_map _
  have body : (if settings.body ≠ [] then some settings.body else none).getD [] = settings.body := by
    split
    · rfl
    · rename_i empty
      exact (not_not.mp empty).symm
  rw [cronetCallStart, built]
  dsimp only
  rw [method, headers, body, ofBytes_utf8]
  rfl

theorem buildRequest_ok {request : CronetRequest} :
    buildRequest settings = .ok request ↔
      (∀ header ∈ settings.headers, isLatin1 header.1 = true ∧ isLatin1 header.2 = true) ∧ request = built settings := by
  unfold buildRequest
  constructor
  · intro ok
    obtain ⟨headers, encoded, ok⟩ := Checked.bind_ok ok
    obtain ⟨narrow, rfl⟩ := buildHeaders_ok.mp encoded
    cases ok
    exact ⟨narrow, rfl⟩
  · rintro ⟨narrow, rfl⟩
    rw [buildHeaders_ok.mpr ⟨narrow, rfl⟩]
    rfl

omit [Library] in
theorem not_refused : ¬Refused c engine settings ↔
    (∀ header ∈ settings.headers, isLatin1 header.1 = true ∧ isLatin1 header.2 = true) ∧
      engine.isOpen = true ∧ c.validUrl (utf8 (cString settings.url)) = true ∧ engine.registers = true := by
  simp only [Refused, not_or, not_exists, not_and, Bool.not_eq_false]

omit [Library] in
theorem startCall_some {registers : Bool} {spec : RequestSpec} {request : CronetURLRequest} :
    c.startCall registers spec = some request ↔
      c.validUrl spec.url = true ∧ registers = true ∧ request = c.configured spec := by
  unfold Chromium.startCall
  cases c.validUrl spec.url <;> cases registers <;> simp [eq_comm]

theorem start_ok {request : CronetURLRequest} :
    start c engine settings = .ok request ↔ ¬Refused c engine settings ∧ request = c.configured (spec settings) := by
  rw [not_refused]
  unfold start
  constructor
  · intro ok
    obtain ⟨struct, encoded, ok⟩ := Checked.bind_ok ok
    obtain ⟨narrow, rfl⟩ := buildRequest_ok.mp encoded
    rw [cronetCallStart_built] at ok
    cases isOpen : engine.isOpen with
    | false =>
      rw [isOpen] at ok
      cases ok
    | true =>
      rw [isOpen] at ok
      cases called : c.startCall engine.registers (spec settings) with
      | none =>
        rw [called] at ok
        cases ok
      | some started =>
        rw [called] at ok
        cases ok
        obtain ⟨valid, registers, same⟩ := startCall_some.mp called
        exact ⟨⟨narrow, rfl, valid, registers⟩, same⟩
  · rintro ⟨⟨narrow, isOpen, valid, registers⟩, rfl⟩
    have called : cronetCallStart c engine.registers (built settings) = some (c.configured (spec settings)) := by
      rw [cronetCallStart_built]
      exact startCall_some.mpr ⟨valid, registers, rfl⟩
    rw [buildRequest_ok.mpr ⟨narrow, rfl⟩]
    simp [isOpen, called, bind, Except.bind, pure, Except.pure]

namespace Chromium

def enter (c : Chromium) (headers : List (Bytes × Bytes)) (header : Bytes × Bytes) : List (Bytes × Bytes) :=
  if c.accepts header then c.setHeader headers header else headers

omit [Library] in
theorem addRequestHeaders (request : CronetURLRequest) (headers : List (Bytes × Bytes)) :
    headers.foldl (fun request header => (c.addRequestHeader request header).1) request =
      { request with headers := headers.foldl c.enter request.headers } := by
  induction headers generalizing request with
  | nil => rfl
  | cons header rest ih =>
    have first : (c.addRequestHeader request header).1 =
        { request with headers := c.enter request.headers header } := by
      unfold addRequestHeader enter
      split <;> rfl
    rw [List.foldl_cons, List.foldl_cons, ih, first]

omit [Library] in
theorem configured_eq (spec : RequestSpec) :
    c.configured spec = { newRequest spec with
      method := if c.isToken spec.method then spec.method else ascii "GET"
      headers := spec.headers.foldl c.enter []
      body := spec.body } := by
  have body (request : CronetURLRequest) (none : request.body = []) :
      (if spec.body ≠ [] then { request with body := spec.body } else request) = { request with body := spec.body } := by
    split
    · rfl
    · rename_i empty
      rw [not_not.mp empty, ← none]
  rw [configured, addRequestHeaders, body]
  · unfold setHttpMethod
    split <;> rfl
  · unfold setHttpMethod
    split <;> rfl

/-- The headers can be added one after the other to those there are, and none is lost. -/
structure Apart (c : Chromium) (there headers : List (Bytes × Bytes)) : Prop where
  accepted : ∀ header ∈ headers, c.accepts header = true
  fresh : ∀ header ∈ headers, ∀ earlier ∈ there, c.sameName earlier.1 header.1 = false
  distinct : headers.Pairwise fun first second => c.sameName first.1 second.1 = false

variable (documented : c.Documented)
include documented

omit [Library] in
theorem enter_cases (there : List (Bytes × Bytes)) (header : Bytes × Bytes) :
    (c.accepts header = true ∧ (∀ earlier ∈ there, c.sameName earlier.1 header.1 = false) ∧
      c.enter there header = there ++ [header]) ∨ (c.enter there header).length = there.length := by
  unfold enter
  split
  · rename_i accepted
    by_cases fresh : ∀ earlier ∈ there, c.sameName earlier.1 header.1 = false
    · exact .inl ⟨accepted, fresh, documented.fresh there header fresh⟩
    · simp only [not_forall, Bool.not_eq_false] at fresh
      obtain ⟨earlier, member, same⟩ := fresh
      exact .inr (documented.again there header ⟨earlier, member, same⟩)
  · exact .inr rfl

omit [Library] in
theorem entered_length (there headers : List (Bytes × Bytes)) :
    (headers.foldl c.enter there).length ≤ there.length + headers.length := by
  induction headers generalizing there with
  | nil => exact le_rfl
  | cons header rest ih =>
    have later := ih (c.enter there header)
    rw [List.foldl_cons, List.length_cons]
    rcases enter_cases documented there header with ⟨_, _, added⟩ | kept
    · rw [added, List.length_append, List.length_singleton] at later
      rw [added]
      omega
    · omega

omit [Library] in
theorem apart_of_length (there headers : List (Bytes × Bytes))
    (whole : (headers.foldl c.enter there).length = there.length + headers.length) : c.Apart there headers := by
  induction headers generalizing there with
  | nil => exact ⟨List.forall_mem_nil _, List.forall_mem_nil _, .nil⟩
  | cons header rest ih =>
    rw [List.foldl_cons, List.length_cons] at whole
    have bound := entered_length documented (c.enter there header) rest
    rcases enter_cases documented there header with ⟨accepted, fresh, added⟩ | kept
    · have longer : (c.enter there header).length = there.length + 1 := by rw [added, List.length_append]; rfl
      have later := ih (c.enter there header) (by omega)
      rw [added] at later
      refine ⟨List.forall_mem_cons.mpr ⟨accepted, later.accepted⟩, List.forall_mem_cons.mpr ⟨fresh, ?_⟩,
        .cons (fun second member => ?_) later.distinct⟩
      · exact fun second member earlier before => later.fresh second member earlier (List.mem_append_left _ before)
      · exact later.fresh second member header (List.mem_append_right _ (List.mem_singleton_self _))
    · omega

omit [Library] in
theorem entered_apart (there headers : List (Bytes × Bytes)) (apart : c.Apart there headers) :
    headers.foldl c.enter there = there ++ headers := by
  induction headers generalizing there with
  | nil => exact (List.append_nil there).symm
  | cons header rest ih =>
    obtain ⟨accepted, others⟩ := List.forall_mem_cons.mp apart.accepted
    obtain ⟨fresh, freshRest⟩ := List.forall_mem_cons.mp apart.fresh
    obtain ⟨before, distinct⟩ := List.pairwise_cons.mp apart.distinct
    have added : c.enter there header = there ++ [header] := by
      rw [enter, if_pos accepted, documented.fresh there header fresh]
    rw [List.foldl_cons, added, ih, List.append_assoc, List.singleton_append]
    refine ⟨others, fun second member earlier among => ?_, distinct⟩
    rcases List.mem_append.mp among with old | new
    · exact freshRest second member earlier old
    · rw [List.mem_singleton.mp new]
      exact before second member

end Chromium

omit [Library] in
theorem method_sent (documented : c.Documented) (method : Str) {sent : Bytes}
    (read : sent = if cString method = [] then ascii "GET" else utf8 (cString method)) :
    (if c.isToken sent then sent else ascii "GET") = utf8 method ↔
      '\x00' ∉ method ∧ method ≠ [] ∧ c.isToken (utf8 method) = true := by
  have sentFree : 0 ∉ sent := by
    rw [read]
    split
    · decide
    · rw [← ofBytes_utf8]
      exact (CString.ofBytes (utf8 method)).2
  have free : 0 ∉ if c.isToken sent then sent else ascii "GET" := by
    split
    · exact sentFree
    · decide
  by_cases nul : '\x00' ∈ method
  · refine iff_of_false (fun same => ?_) fun plain => plain.1 nul
    rw [same] at free
    exact free (zero_mem_utf8.mpr nul)
  · have whole : utf8 (cString method) = utf8 method := by
      rw [← ofBytes_utf8, ofBytes_whole, zero_mem_utf8]
      exact nul
    have empty : cString method = [] ↔ method = [] := by rw [← utf8_eq_nil, whole, utf8_eq_nil]
    rw [whole] at read
    simp only [empty] at read
    by_cases none : method = []
    · rw [if_pos none] at read
      refine iff_of_false (fun same => ?_) fun plain => plain.2.1 none
      rw [read, if_pos documented.get, none] at same
      cases same
    · rw [if_neg none] at read
      rw [read]
      constructor
      · intro same
        refine ⟨nul, none, ?_⟩
        split at same
        · assumption
        · rw [← same]
          exact documented.get
      · rintro ⟨_, _, token⟩
        rw [if_pos token]

theorem method_kept (documented : c.Documented) :
    (c.configured (spec settings)).method = utf8 (Python.upper settings.method) ↔
      '\x00' ∉ Python.upper settings.method ∧ Python.upper settings.method ≠ [] ∧
        c.isToken (utf8 (Python.upper settings.method)) = true := by
  rw [Chromium.configured_eq]
  exact method_sent documented (Python.upper settings.method) rfl

theorem url_kept : (c.configured (spec settings)).url = utf8 settings.url ↔ '\x00' ∉ settings.url := by
  rw [Chromium.configured_eq]
  show utf8 (cString settings.url) = utf8 settings.url ↔ _
  rw [← ofBytes_utf8, ofBytes_whole, zero_mem_utf8]

def Narrow (settings : CallSettings) : Prop :=
  ∀ header ∈ settings.headers, isLatin1 header.1 = true ∧ isLatin1 header.2 = true

def HeadersWhole (settings : CallSettings) : Prop := ∀ header ∈ settings.headers, '\x00' ∉ header.1 ∧ '\x00' ∉ header.2

theorem spec_headers_decoded (narrow : Narrow settings) :
    (spec settings).headers.map (fun header => (decodeLatin1 header.1, decodeLatin1 header.2)) = settings.headers ↔
      HeadersWhole settings := by
  have cut (header : Str × Str) (member : header ∈ settings.headers) :
      (decodeLatin1 (CString.ofBytes (latin1 header.1)).1, decodeLatin1 (CString.ofBytes (latin1 header.2)).1) = header ↔
        '\x00' ∉ header.1 ∧ '\x00' ∉ header.2 := by
    rw [Prod.ext_iff, decodeLatin1_cut (narrow header member).1, decodeLatin1_cut (narrow header member).2]
  rw [spec, List.map_map]
  conv_lhs => rhs; rw [← List.map_id settings.headers]
  exact List.map_inj_left.trans (forall₂_congr cut)

theorem spec_headers_whole (narrow : Narrow settings) (whole : HeadersWhole settings) :
    (spec settings).headers = settings.headers.map fun header => (latin1 header.1, latin1 header.2) := by
  have uncut {s : Str} (fits : isLatin1 s = true) (free : '\x00' ∉ s) : (CString.ofBytes (latin1 s)).1 = latin1 s :=
    ofBytes_whole.mpr fun zero => free ((zero_mem_latin1 fits).mp zero)
  refine List.map_congr_left fun header member => ?_
  rw [uncut (narrow header member).1 (whole header member).1, uncut (narrow header member).2 (whole header member).2]

theorem spec_headers_apart (narrow : Narrow settings) (whole : HeadersWhole settings) :
    c.Apart [] (spec settings).headers ↔
      (∀ header ∈ settings.headers, c.accepts (latin1 header.1, latin1 header.2) = true) ∧
        settings.headers.Pairwise fun first second => c.sameName (latin1 first.1) (latin1 second.1) = false := by
  rw [spec_headers_whole narrow whole]
  constructor
  · exact fun apart => ⟨List.forall_mem_map.mp apart.accepted, List.pairwise_map.mp apart.distinct⟩
  · exact fun ⟨accepted, distinct⟩ => ⟨List.forall_mem_map.mpr accepted, fun _ _ => List.forall_mem_nil _,
      List.pairwise_map.mpr distinct⟩

theorem headers_kept (documented : c.Documented) (narrow : Narrow settings) :
    (c.configured (spec settings)).headers.map (fun header => (decodeLatin1 header.1, decodeLatin1 header.2)) =
        settings.headers ↔
      HeadersWhole settings ∧ (∀ header ∈ settings.headers, c.accepts (latin1 header.1, latin1 header.2) = true) ∧
        settings.headers.Pairwise fun first second => c.sameName (latin1 first.1) (latin1 second.1) = false := by
  rw [Chromium.configured_eq]
  show ((spec settings).headers.foldl c.enter []).map _ = settings.headers ↔ _
  constructor
  · intro kept
    have lengths : ((spec settings).headers.foldl c.enter []).length =
        ([] : List (Bytes × Bytes)).length + (spec settings).headers.length := by
      have count := congrArg List.length kept
      rw [List.length_map] at count
      rw [count, spec, List.length_map, List.length_nil, Nat.zero_add]
    have separate := Chromium.apart_of_length documented [] _ lengths
    rw [Chromium.entered_apart documented [] _ separate, List.nil_append, spec_headers_decoded narrow] at kept
    exact ⟨kept, (spec_headers_apart narrow kept).mp separate⟩
  · rintro ⟨whole, valid⟩
    rw [Chromium.entered_apart documented [] _ ((spec_headers_apart narrow whole).mpr valid), List.nil_append]
    exact (spec_headers_decoded narrow).mpr whole

/-- A call that is started carries the method, the URL, the headers and the body it was given exactly if none
    of them is one that is cut, replaced or left out on the way. -/
theorem start_carries_iff (documented : c.Documented) :
    (∀ request, start c engine settings = .ok request → Carries settings request) ↔
      Refused c engine settings ∨ Plain c settings := by
  by_cases refused : Refused c engine settings
  · refine iff_of_true (fun request ok => absurd refused (start_ok.mp ok).1) (.inl refused)
  · have body : (c.configured (spec settings)).body = settings.body := by rw [Chromium.configured_eq]; rfl
    have narrow : Narrow settings := (not_refused.mp refused).1
    constructor
    · intro carries
      obtain ⟨method, url, headers, _⟩ := carries _ (start_ok.mpr ⟨refused, rfl⟩)
      obtain ⟨methodWhole, methodToken⟩ := (method_kept documented).mp method
      obtain ⟨headersWhole, headersValid, namesDistinct⟩ := (headers_kept documented narrow).mp headers
      exact .inr ⟨methodWhole, methodToken, url_kept.mp url, headersWhole, headersValid, namesDistinct⟩
    · rintro (isRefused | plain) request ok
      · exact absurd isRefused refused
      · rw [(start_ok.mp ok).2]
        exact ⟨(method_kept documented).mpr ⟨plain.methodWhole, plain.methodToken⟩, url_kept.mpr plain.urlWhole,
          (headers_kept documented narrow).mpr ⟨plain.headersWhole, plain.headersValid, plain.namesDistinct⟩, body⟩

end

section

attribute [local instance] Request.asciiLibrary

def isTokenByte (b : UInt8) : Bool :=
  let c := Char.ofNat b.toNat
  c.isAlphanum || b = 0x27 || b = 0x60 || c ∈ ['!', '#', '$', '%', '&', '*', '+', '-', '.', '^', '_', '|', '~']

def sameIgnoringCase (first second : Bytes) : Bool :=
  first.map (fun b => (Char.ofNat b.toNat).toLower) = second.map fun b => (Char.ofNat b.toNat).toLower

/-- Tokens, values and names as HTTP has them, and every `http` URL. -/
def httpChromium : Chromium where
  validUrl url := (ascii "http").isPrefixOf url
  isToken s := s ≠ [] && s.all isTokenByte
  isHeaderValue s := s.all fun b => b ≠ 0 && b ≠ 10 && b ≠ 13
  sameName := sameIgnoringCase
  setHeader headers header :=
    if headers.any fun earlier => sameIgnoringCase earlier.1 header.1 then
      headers.map fun earlier => if sameIgnoringCase earlier.1 header.1 then (earlier.1, header.2) else earlier
    else headers ++ [header]

theorem httpChromium_documented : httpChromium.Documented where
  get := by decide
  fresh headers header new := by
    refine if_neg fun any => ?_
    obtain ⟨earlier, member, same⟩ := List.any_eq_true.mp any
    exact Bool.false_ne_true ((new earlier member).symm.trans same)
  again headers header old := by
    obtain ⟨earlier, member, same⟩ := old
    have any : (headers.any fun earlier => sameIgnoringCase earlier.1 header.1) = true :=
      List.any_eq_true.mpr ⟨earlier, member, same⟩
    show (if _ then _ else _ : List (Bytes × Bytes)).length = _
    rw [if_pos any, List.length_map]

def settingsWith (headers : List (Str × Str)) : CallSettings where
  method := "post".toList
  url := "https://a.test/".toList
  headers
  body := ascii "x"
  priority := PRIORITY_MEDIUM
  maxRedirects := -1
  disableCache := false

theorem start_carries_plain :
    ∃ request, start httpChromium ⟨true, true, ""⟩ (settingsWith [("X-Id".toList, "1".toList)]) = .ok request ∧
      Carries (settingsWith [("X-Id".toList, "1".toList)]) request := by
  have plain : Plain httpChromium (settingsWith [("X-Id".toList, "1".toList)]) := {
    methodWhole := by decide
    methodToken := by decide
    urlWhole := by decide
    headersWhole := by decide
    headersValid := by decide
    namesDistinct := by decide }
  have started : ∃ request,
      start httpChromium ⟨true, true, ""⟩ (settingsWith [("X-Id".toList, "1".toList)]) = .ok request := ⟨_, rfl⟩
  obtain ⟨request, started⟩ := started
  exact ⟨request, started, (start_carries_iff httpChromium_documented).mpr (.inr plain) request started⟩

/-- A header with a line break in its value is left out, and the request goes ahead. -/
theorem line_break_dropped :
    ∃ request, start httpChromium ⟨true, true, ""⟩
        (settingsWith [("X-Note".toList, "a\nb".toList), ("X-Id".toList, "1".toList)]) = .ok request ∧
      request.headers = [(ascii "X-Id", ascii "1")] ∧
      ¬Carries (settingsWith [("X-Note".toList, "a\nb".toList), ("X-Id".toList, "1".toList)]) request := by
  refine ⟨_, rfl, by decide, fun carries => ?_⟩
  have headers := congrArg List.length carries.headers
  revert headers
  decide

end

end Cronet.Bridge
