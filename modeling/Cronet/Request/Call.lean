import Cronet.Request.Options

namespace Cronet.Request

open Cronet.Native (Bytes)
open Cronet.Url (Str Python)

structure CallSettings where
  method : Str
  url : Str
  headers : List (Str × Str)
  body : Bytes
  priority : Int
  maxRedirects : Int
  disableCache : Bool
  deriving DecidableEq

/-- A cookie jar as a session uses it; the standard library's policy decides what both do. -/
class CookieJar (J : Type) where
  headerFor : J → Str → Option Str
  extractCookies : J → Str → Headers Str → J

def CookieJar.store [Python] {J : Type} [CookieJar J] (jar : J) (url : Str) (headers : Headers Str) : J :=
  if headers.contains "set-cookie".toList then CookieJar.extractCookies jar url headers else jar

inductive Source where
  | request
  | session
  | auth
  | implied
  | jar (url : Str)
  deriving DecidableEq

namespace Source

def byHand : Source → Bool
  | .request | .session | .auth => true
  | .implied | .jar _ => false

/-- Only a content type is implied, and a jar's cookies are those for the URL of the call. -/
def Fits (url name : Str) : Source → Prop
  | .implied => name = "content-type".toList
  | .jar u => u = url
  | .request | .session | .auth => True

end Source

abbrev TracedHeaders := Headers (Source × Str)

abbrev Entry := Str × Source × Str

theorem mem_tagged {h : Headers Str} {tag : Source} {c : Entry} :
    c ∈ (h.map (tag, ·)).pairs ↔ c.2.1 = tag ∧ (c.1, c.2.2) ∈ h.pairs := by
  obtain ⟨name, source, value⟩ := c
  simp only [Headers.map, List.mem_map, Prod.mk.injEq]
  constructor
  · rintro ⟨⟨n, v⟩, member, rfl, rfl, rfl⟩
    exact ⟨rfl, member⟩
  · rintro ⟨rfl, member⟩
    exact ⟨(name, value), member, rfl, rfl, rfl⟩

variable [Library]

section

variable {β γ : Type}

def addition (merged : Headers β) (name : Str) (value : Option β) : List (Str × β) :=
  if merged.contains name then [] else value.toList.map (name, ·)

def callHeaders (own defaults : Headers β) (impliedType credentials cookie : Option β) : Headers β :=
  let merged := own.withDefaults defaults
  ⟨merged.pairs ++ (addition merged "content-type".toList impliedType ++
    addition merged "authorization".toList credentials ++ addition merged "cookie".toList cookie)⟩

theorem mem_addition {β : Type} {merged : Headers β} {name : Str} {value : Option β} {p : Str × β} :
    p ∈ addition merged name value ↔ merged.contains name = false ∧ p.1 = name ∧ value = some p.2 := by
  unfold addition
  split
  · rename_i spoken
    simp [spoken]
  · rename_i free
    cases value with
    | none => simp
    | some v =>
      simp only [Option.toList_some, List.map_cons, List.map_nil, List.mem_singleton, free, Option.some.injEq,
        true_and]
      constructor
      · rintro rfl
        exact ⟨rfl, rfl⟩
      · rintro ⟨rfl, rfl⟩
        rfl

theorem addition_map (f : β → γ) (merged : Headers β) (name : Str) (value : Option β) :
    addition (merged.map f) name (value.map f) = (addition merged name value).map fun p => (p.1, f p.2) := by
  unfold addition
  rw [Headers.contains_map]
  split
  · rfl
  · cases value <;> rfl

theorem callHeaders_map (f : β → γ) (own defaults : Headers β) (impliedType credentials cookie : Option β) :
    callHeaders (own.map f) (defaults.map f) (impliedType.map f) (credentials.map f) (cookie.map f) =
      (callHeaders own defaults impliedType credentials cookie).map f := by
  simp only [callHeaders, Headers.withDefaults_map, addition_map]
  simp only [Headers.map, List.map_append]

end

/-- A Python value that an `if` takes for true. -/
def truthy (value : Option Str) : Option Str := value.filter (· ≠ [])

def priorityOf (options : RequestOptions) : Except Raised Int :=
  let name := options.priority.getD "medium".toList
  match PRIORITIES.lookup name with
  | some priority => .ok priority
  | none => .error (.valueError (Python.repr name ++ " is not a valid Priority"))

variable {J : Type} [CookieJar J]

def buildCall (method url : Str) (options : RequestOptions) (defaults : Headers Str) (cookies : Option J)
    (maxRedirects : Int) (boundary : Str) : Except Raised CallSettings := do
  let (body, impliedType) ← encodeBody options boundary
  let credentials ← authorization options
  let cookie := cookies.bind (CookieJar.headerFor · url)
  let headers := callHeaders ⟨options.headers.getD []⟩ defaults (truthy impliedType) credentials (truthy cookie)
  let priority ← priorityOf options
  return {
    method, url, headers := headers.pairs, body, priority, maxRedirects
    disableCache := options.disableCache.getD false }

def traceHeaders (url : Str) (options : RequestOptions) (defaults : Headers Str)
    (impliedType credentials cookie : Option Str) : TracedHeaders :=
  callHeaders ((Headers.mk (options.headers.getD [])).map (Source.request, ·)) (defaults.map (Source.session, ·))
    (impliedType.map (Source.implied, ·)) (credentials.map (Source.auth, ·)) (cookie.map (Source.jar url, ·))

theorem traceHeaders_erased (url : Str) (options : RequestOptions) (defaults : Headers Str)
    (impliedType credentials cookie : Option Str) :
    (traceHeaders url options defaults impliedType credentials cookie).map Prod.snd =
      callHeaders ⟨options.headers.getD []⟩ defaults impliedType credentials cookie := by
  rw [traceHeaders, ← callHeaders_map]
  simp [Headers.map, Function.comp_def]

def Placed (url : Str) (options : RequestOptions) (defaults : Headers Str) (impliedType credentials cookie : Option Str)
    (c : Entry) : Prop :=
  let own := Headers.mk (options.headers.getD [])
  let free := fun name : Str => (own.contains name || defaults.contains name) = false
  match c.2.1 with
  | .request => (c.1, c.2.2) ∈ own.pairs
  | .session => (c.1, c.2.2) ∈ defaults.pairs ∧ own.contains c.1 = false
  | .implied => c.1 = "content-type".toList ∧ impliedType = some c.2.2 ∧ free "content-type".toList
  | .auth => c.1 = "authorization".toList ∧ credentials = some c.2.2 ∧ free "authorization".toList
  | .jar u => c.1 = "cookie".toList ∧ u = url ∧ cookie = some c.2.2 ∧ free "cookie".toList

theorem mem_traceHeaders {url : Str} {options : RequestOptions} {defaults : Headers Str}
    {impliedType credentials cookie : Option Str} {c : Entry} :
    c ∈ (traceHeaders url options defaults impliedType credentials cookie).pairs ↔
      Placed url options defaults impliedType credentials cookie c := by
  obtain ⟨name, source, value⟩ := c
  simp only [traceHeaders, callHeaders, List.mem_append, Headers.mem_withDefaults, mem_tagged, mem_addition,
    Headers.contains_map, Headers.contains_withDefaults, Option.map_eq_some_iff, Prod.mk.injEq]
  cases source <;> simp only [Placed, reduceCtorEq, false_and, and_false, exists_false, false_or, or_false, true_and,
    exists_eq_right, Source.jar.injEq, exists_eq_right_right]
  all_goals tauto

theorem Placed.sourced {url : Str} {options : RequestOptions} {defaults : Headers Str}
    {impliedType credentials cookie : Option Str} {c : Entry}
    (placed : Placed url options defaults impliedType credentials cookie c) : c.2.1.Fits url c.1 := by
  obtain ⟨name, source, value⟩ := c
  cases source with
  | implied => exact placed.1
  | jar u => exact placed.2.1
  | request | session | auth => exact trivial

structure TracedCall where
  settings : CallSettings
  traced : TracedHeaders
  erases : settings.headers = (traced.map Prod.snd).pairs
  sourced : ∀ c ∈ traced.pairs, c.2.1.Fits settings.url c.1

def traceCall (method url : Str) (options : RequestOptions) (defaults : Headers Str) (cookies : Option J)
    (maxRedirects : Int) (boundary : Str) : Except Raised TracedCall := do
  let (body, impliedType) ← encodeBody options boundary
  let credentials ← authorization options
  let cookie := cookies.bind (CookieJar.headerFor · url)
  let traced := traceHeaders url options defaults (truthy impliedType) credentials (truthy cookie)
  let priority ← priorityOf options
  return {
    settings := {
      method, url, headers := (traced.map Prod.snd).pairs, body, priority, maxRedirects
      disableCache := options.disableCache.getD false }
    traced
    erases := rfl
    sourced := fun _ member => (mem_traceHeaders.mp member).sourced }

theorem traceCall_settings (method url : Str) (options : RequestOptions) (defaults : Headers Str) (cookies : Option J)
    (maxRedirects : Int) (boundary : Str) :
    (traceCall method url options defaults cookies maxRedirects boundary).map TracedCall.settings =
      buildCall method url options defaults cookies maxRedirects boundary := by
  unfold traceCall buildCall
  cases encodeBody options boundary with
  | error e => rfl
  | ok encoded =>
    cases authorization options with
    | error e => rfl
    | ok credentials =>
      cases priorityOf options with
      | error e => simp [bind, Except.bind, Except.map]
      | ok _ => simp [traceHeaders_erased, bind, Except.bind, Except.map, pure, Except.pure]

end Cronet.Request
