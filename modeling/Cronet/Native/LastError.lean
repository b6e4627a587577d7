import Cronet.Native.Body
import Mathlib.Data.List.Induction

namespace Cronet.Native

/-- What a `const char*` points at. -/
def CString : Type := { bytes : Bytes // 0 ∉ bytes }

def ascii (s : String) : Bytes := s.toList.map fun c => UInt8.ofNat c.toNat

/-- `ToString`. -/
def CString.toBytes : Option CString → Bytes
  | none => []
  | some s => s.1

/-- The fields of `cronet_engine_config` that an engine can be refused for. -/
structure EngineConfig where
  experimentalOptions : Option CString
  storagePath : Option CString
  cacheMode : Int
  proxyRules : Option CString

/-- What Cronet and Chromium make of the strings they are given: whether `Build` returns a config,
    whether `ParseFromString` leaves any rule, and `GURL::is_valid`. -/
structure Parsers where
  builds : Option Bytes → Bool
  parsesRules : Bytes → Bool
  validUrl : Bytes → Bool

def kLastErrorSize : Nat := 512

/-- A thread's `g_last_error`. It is kept beside how many calls the thread has made and which of
    them wrote the buffer last, neither of which the library knows. -/
structure Thread where
  lastError : Bytes
  calls : Nat
  writer : Option Nat

/-- The calls of the ABI; `started` is what `StartNetLog` returns and `registered` what
    `RegisterCall` does. A pointer that is only checked is whether it is there. -/
inductive AbiCall where
  | engineCreate (config : Option EngineConfig)
  | engineStartNetLog (engine path started : Bool)
  | callStart (engine : Bool) (request : Option (Option CString)) (registered : Bool)
  | other

namespace Thread

def initial : Thread := ⟨List.replicate kLastErrorSize 0, 0, none⟩

def called (t : Thread) : Thread := { t with calls := t.calls + 1 }

def setLastError (t : Thread) (message : Bytes) : Thread :=
  let length := min message.length (kLastErrorSize - 1)
  { t with lastError := message.take length ++ 0 :: t.lastError.drop (length + 1), writer := some t.calls }

/-- `cronet_last_error`. -/
def text (t : Thread) : Bytes := t.lastError.takeWhile (· ≠ 0)

def Fresh (t : Thread) : Prop := t.writer = some t.calls

/-- What `Engine.start` raises when it is given no call. -/
def startMessage (t : Thread) : Bytes := if t.text = [] then ascii "the request could not be started" else t.text

end Thread

namespace Parsers

variable (p : Parsers)

/-- `Engine::Create`, as far as it fails. -/
def create (config : EngineConfig) : Except Bytes Unit := do
  let options := CString.toBytes config.experimentalOptions
  let rules := CString.toBytes config.proxyRules
  if config.cacheMode = 2 then
    if CString.toBytes config.storagePath = [] then .error (ascii "an on-disk cache needs a storage_path")
  else if config.cacheMode ≠ 0 ∧ config.cacheMode ≠ 1 then
    .error (ascii "cache_mode must be 0 (off), 1 (in memory) or 2 (on disk)")
  if p.builds (if options = [] then none else some options) = false then
    .error (ascii "experimental_options is not a JSON object Cronet accepts")
  if rules ≠ [] ∧ p.parsesRules rules = false then
    .error (ascii "proxy_rules could not be parsed: " ++ rules)

/-- `cronet_engine_create`: whether an engine comes back. -/
def engineCreate (t : Thread) : Option EngineConfig → Thread × Bool
  | none => (t.setLastError (ascii "config must not be null"), false)
  | some config =>
    match p.create config with
    | .error failure => (t.setLastError failure, false)
    | .ok () => (t, true)

/-- `cronet_engine_start_net_log`. -/
def engineStartNetLog (t : Thread) (engine path started : Bool) : Thread × Bool :=
  if engine = false ∨ path = false then (t, false) else (t, started)

/-- `cronet_call_start`. -/
def callStart (t : Thread) (engine : Bool) (request : Option (Option CString)) (registered : Bool) : Thread × Bool :=
  match engine, request with
  | true, some (some url) => if p.validUrl url.1 = false then (t, false) else (t, registered)
  | _, _ => (t, false)

def perform (t : Thread) : AbiCall → Thread × Bool
  | .engineCreate config => p.engineCreate t.called config
  | .engineStartNetLog engine path started => engineStartNetLog t.called engine path started
  | .callStart engine request registered => p.callStart t.called engine request registered
  | .other => (t.called, true)

def after (calls : List AbiCall) : Thread := calls.foldl (fun t call => (p.perform t call).1) .initial

/-- The calls of a thread find their own failures described, and no start that fails is told of
    another's. -/
structure Describes (calls : List AbiCall) : Prop where
  fresh : ∀ past call later, calls = past ++ call :: later → (p.perform (p.after past) call).2 = false →
    (p.after (past ++ [call])).Fresh
  raised : ∀ past engine request registered later, calls = past ++ .callStart engine request registered :: later →
    (p.perform (p.after past) (.callStart engine request registered)).2 = false →
    (p.after (past ++ [.callStart engine request registered])).startMessage = ascii "the request could not be started" ∨
      (p.after (past ++ [.callStart engine request registered])).Fresh

def reason : AbiCall → Option Bytes
  | .engineCreate none => some (ascii "config must not be null")
  | .engineCreate (some config) =>
    match p.create config with
    | .error failure => some failure
    | .ok () => none
  | _ => none

def fails (call : AbiCall) : Prop := (p.perform .initial call).2 = false

end Parsers

namespace Thread

theorem text_setLastError {t : Thread} {message : Bytes} (free : 0 ∉ message) :
    (t.setLastError message).text = message.take (kLastErrorSize - 1) := by
  have kept : ∀ b ∈ message.take (kLastErrorSize - 1), b ≠ 0 := fun b member zero =>
    free (zero ▸ List.mem_of_mem_take member)
  have cut : message.take (min message.length (kLastErrorSize - 1)) = message.take (kLastErrorSize - 1) := by
    rw [List.take_eq_take_iff]
    omega
  rw [text, setLastError]
  simp only [cut]
  rw [List.takeWhile_append_of_pos (by simpa using kept)]
  simp

end Thread

namespace Parsers

variable {p : Parsers} {t : Thread} {call : AbiCall} {calls past : List AbiCall}

theorem after_snoc : p.after (past ++ [call]) = (p.perform (p.after past) call).1 := by
  rw [after, List.foldl_append]
  rfl

theorem engineStartNetLog_thread (engine path started : Bool) : (engineStartNetLog t engine path started).1 = t := by
  unfold engineStartNetLog
  split <;> rfl

theorem callStart_thread (engine : Bool) (request : Option (Option CString)) (registered : Bool) :
    (p.callStart t engine request registered).1 = t := by
  unfold callStart
  split
  · split <;> rfl
  · rfl

theorem engineStartNetLog_reports (other : Thread) (engine path started : Bool) :
    (engineStartNetLog t engine path started).2 = (engineStartNetLog other engine path started).2 := by
  unfold engineStartNetLog
  split <;> rfl

theorem callStart_reports (other : Thread) (engine : Bool) (request : Option (Option CString)) (registered : Bool) :
    (p.callStart t engine request registered).2 = (p.callStart other engine request registered).2 := by
  unfold callStart
  split
  · split <;> rfl
  · rfl

theorem perform_thread : (p.perform t call).1 = (p.reason call).elim t.called t.called.setLastError := by
  cases call with
  | engineCreate config =>
    cases config with
    | none => rfl
    | some config => cases made : p.create config <;> simp only [perform, engineCreate, reason, made, Option.elim]
  | engineStartNetLog engine path started => exact engineStartNetLog_thread ..
  | callStart engine request registered => exact callStart_thread ..
  | other => rfl

theorem perform_fails : (p.perform t call).2 = false ↔ p.fails call := by
  unfold fails
  cases call with
  | engineCreate config =>
    cases config with
    | none => rfl
    | some config => cases made : p.create config <;> simp only [perform, engineCreate, made]
  | engineStartNetLog engine path started => exact iff_of_eq (congrArg (· = false) (engineStartNetLog_reports ..))
  | callStart engine request registered => exact iff_of_eq (congrArg (· = false) (callStart_reports ..))
  | other => rfl

theorem reason_of_fails {config : Option EngineConfig} (failed : p.fails (.engineCreate config)) :
    ∃ message, p.reason (.engineCreate config) = some message := by
  cases config with
  | none => exact ⟨_, rfl⟩
  | some config =>
    cases made : p.create config with
    | error failure => exact ⟨failure, by simp only [reason, made]⟩
    | ok _ => simp [fails, perform, engineCreate, made] at failed

theorem reason_creates {message : Bytes} (given : p.reason call = some message) :
    p.fails call ∧ ∃ config, call = .engineCreate config := by
  cases call with
  | engineCreate config =>
    refine ⟨?_, config, rfl⟩
    cases config with
    | none => rfl
    | some config =>
      cases made : p.create config with
      | error failure => simp only [fails, perform, engineCreate, made]
      | ok _ => simp [reason, made] at given
  | engineStartNetLog engine path started => cases given
  | callStart engine request registered => cases given
  | other => cases given

theorem after_written (calls : List AbiCall) :
    (p.after calls).calls = calls.length ∧ ∀ writer, (p.after calls).writer = some writer → writer ≤ calls.length := by
  induction calls using List.reverseRecOn with
  | nil => exact ⟨rfl, fun _ none => by cases none⟩
  | append_singleton past call ih =>
    rw [after_snoc, perform_thread, List.length_append, List.length_singleton]
    cases p.reason call with
    | none =>
      refine ⟨congrArg (· + 1) ih.1, fun writer wrote => ?_⟩
      have before := ih.2 writer wrote
      omega
    | some message =>
      refine ⟨congrArg (· + 1) ih.1, fun writer wrote => ?_⟩
      have now : (p.after past).calls + 1 = writer := Option.some.inj wrote
      omega

theorem fresh_iff : (p.after (past ++ [call])).Fresh ↔ (p.reason call).isSome := by
  have counted := after_written (p := p) past
  rw [after_snoc, perform_thread]
  cases p.reason call with
  | none =>
    constructor
    · intro (fresh : (p.after past).writer = some ((p.after past).calls + 1))
      have before := counted.2 _ fresh
      omega
    · intro none
      cases none
  | some message => exact iff_of_true rfl rfl

/-- Every failure is described exactly if only engines fail to be made. -/
theorem describes_iff :
    p.Describes calls ↔ ∀ call ∈ calls, p.fails call → ∃ config, call = .engineCreate config := by
  constructor
  · intro describes call member failed
    obtain ⟨past, later, split⟩ := List.append_of_mem member
    have fresh := describes.fresh past call later split (perform_fails.mpr failed)
    obtain ⟨message, given⟩ := Option.isSome_iff_exists.mp (fresh_iff.mp fresh)
    exact (reason_creates given).2
  · intro creates
    have fresh : ∀ past call later, calls = past ++ call :: later → (p.perform (p.after past) call).2 = false →
        (p.after (past ++ [call])).Fresh := by
      intro past call later split failed
      have failed := perform_fails.mp failed
      have member : call ∈ calls := split ▸ List.mem_append_right past List.mem_cons_self
      obtain ⟨config, rfl⟩ := creates call member failed
      obtain ⟨message, given⟩ := reason_of_fails failed
      rw [fresh_iff, given]
      rfl
    exact ⟨fresh, fun past engine request registered later split failed => .inr (fresh past _ later split failed)⟩

theorem bytes_free (s : Option CString) : 0 ∉ CString.toBytes s := by
  cases s with
  | none => exact List.not_mem_nil
  | some s => exact s.2

theorem build_error {options : Option Bytes} {rules failure : Bytes} (free : 0 ∉ rules)
    (failed : (if p.builds options = false then
        .error (ascii "experimental_options is not a JSON object Cronet accepts")
      else if rules ≠ [] ∧ p.parsesRules rules = false then
        .error (ascii "proxy_rules could not be parsed: " ++ rules)
      else .ok () : Except Bytes Unit) = .error failure) : 0 ∉ failure ∧ failure ≠ [] := by
  split at failed
  · cases failed
    decide
  · split at failed
    · cases failed
      have text : 0 ∉ ascii "proxy_rules could not be parsed: " := by decide
      exact ⟨fun member => (List.mem_append.mp member).elim text free, List.cons_ne_nil _ _⟩
    · cases failed

theorem create_error {config : EngineConfig} {failure : Bytes} (failed : p.create config = .error failure) :
    0 ∉ failure ∧ failure ≠ [] := by
  unfold create at failed
  simp only [bind, Except.bind] at failed
  have free := bytes_free config.proxyRules
  split at failed
  · split at failed
    · cases failed
      decide
    · exact build_error free failed
  · split at failed
    · cases failed
      decide
    · exact build_error free failed

theorem reason_text {message : Bytes} (given : p.reason call = some message) : 0 ∉ message ∧ message ≠ [] := by
  cases call with
  | engineCreate config =>
    cases config with
    | none =>
      cases given
      decide
    | some config =>
      cases made : p.create config with
      | error failure =>
        simp only [reason, made, Option.some.injEq] at given
        exact given ▸ create_error made
      | ok _ => simp [reason, made] at given
  | engineStartNetLog engine path started => cases given
  | callStart engine request registered => cases given
  | other => cases given

/-- The buffer reads as the reason given last, whichever calls have failed since. -/
theorem text_after (calls : List AbiCall) :
    (p.after calls).text = (((calls.filterMap p.reason).getLast?).getD []).take (kLastErrorSize - 1) := by
  induction calls using List.reverseRecOn with
  | nil => rfl
  | append_singleton past call ih =>
    rw [after_snoc, perform_thread, List.filterMap_append]
    cases given : p.reason call with
    | none =>
      rw [List.filterMap_cons_none given, List.filterMap_nil, List.append_nil]
      exact ih
    | some message =>
      rw [List.filterMap_cons_some given, List.filterMap_nil, List.getLast?_concat]
      exact Thread.text_setLastError (reason_text given).1

theorem start_message {engine : Bool} {request : Option (Option CString)} {registered : Bool} :
    (p.after (past ++ [.callStart engine request registered])).startMessage =
      match (past.filterMap p.reason).getLast? with
      | some message => message.take (kLastErrorSize - 1)
      | none => ascii "the request could not be started" := by
  have silent : p.reason (.callStart engine request registered) = none := rfl
  rw [Thread.startMessage, text_after, List.filterMap_append, List.filterMap_cons_none silent, List.filterMap_nil,
    List.append_nil]
  cases last : (past.filterMap p.reason).getLast? with
  | none => rfl
  | some message =>
    obtain ⟨call, _, given⟩ := List.mem_filterMap.mp (List.mem_of_getLast? last)
    have some_text : message.take (kLastErrorSize - 1) ≠ [] := by
      rw [Ne, List.take_eq_nil_iff]
      exact not_or_intro (by decide) (reason_text given).2
    exact if_neg some_text

def letters : Parsers where
  builds _ := true
  parsesRules rules := (rules.head?.map fun b => 97 ≤ b && b ≤ 122).getD false
  validUrl url := (url.head?.map fun b => 97 ≤ b && b ≤ 122).getD false

def noProxy : EngineConfig := ⟨none, none, 0, some ⟨ascii "=", by decide⟩⟩

/-- A call that cannot be started is told why an engine was refused before it. -/
theorem refusal_retold :
    ¬letters.Describes [.engineCreate (some noProxy), .callStart true (some (some ⟨ascii "//", by decide⟩)) true] ∧
      (letters.after [.engineCreate (some noProxy), .callStart true (some (some ⟨ascii "//", by decide⟩)) true]).startMessage =
        ascii "proxy_rules could not be parsed: =" := by
  refine ⟨fun describes => ?_, rfl⟩
  have fresh := describes.fresh [.engineCreate (some noProxy)] _ [] rfl rfl
  cases fresh_iff.mp fresh

end Parsers

end Cronet.Native
