import Cronet.Tls.ClientHello

namespace Cronet.Tls

def codePoint? : Json → Option Nat
  | .int n => if IsCodePoint n then some n.toNat else none
  | _ => none

/-- What the members of a profile are to be, `none` for a value that is malformed. -/
def points? : Json → Option (List Nat)
  | .list elements => elements.mapM codePoint?
  | _ => none

def version? : Json → Option (Option Nat)
  | .string text =>
    if text = "1.2" then some (some SSL_PROTOCOL_VERSION_TLS1_2)
    else if text = "1.3" then some (some SSL_PROTOCOL_VERSION_TLS1_3)
    else none
  | _ => none

def flag? : Json → Option (Option Bool)
  | .bool b => some (some b)
  | _ => none

def protocols? (stack : Stack) : Json → Option (List stack.NextProto)
  | .list elements => elements.mapM stack.parseProto
  | _ => none

inductive Kind where
  | points
  | version
  | protocols
  | flag
  deriving DecidableEq

def members : List (String × Kind) :=
  [("cipher_suites", .points), ("extension_order", .points), ("supported_groups", .points), ("key_share_groups", .points),
    ("signature_algorithms", .points), ("min_version", .version), ("max_version", .version), ("alpn", .protocols),
    ("grease", .flag), ("permute_extensions", .flag)]

def isList : Json → Bool
  | .list _ => true
  | _ => false

def isString : Json → Bool
  | .string _ => true
  | _ => false

namespace Kind

/-- Whether a value is found by the lookup that its kind of member has: a flag is found whatever it is. -/
def found : Kind → Json → Bool
  | points, value | protocols, value => isList value
  | version, value => isString value
  | flag, _ => true

def wellFormed (stack : Stack) : Kind → Json → Bool
  | points, value => (points? value).isSome
  | version, value => (version? value).isSome
  | protocols, value => (protocols? stack value).isSome
  | flag, value => (flag? value).isSome

end Kind

def Malformed (stack : Stack) (args : List (String × Json)) : Prop :=
  ∃ m ∈ members, ∃ value, args.lookup m.1 = some value ∧ m.2.wellFormed stack value = false

def Mistyped (args : List (String × Json)) : Prop :=
  ∃ m ∈ members, ∃ value, args.lookup m.1 = some value ∧ m.2.found value = false

def Refused (stack : Stack) (args : List (String × Json)) : Prop :=
  ∃ m ∈ members, ∃ value, args.lookup m.1 = some value ∧ m.2.found value = true ∧ m.2.wellFormed stack value = false

def Given {α : Type} (read : Json → Option α) (absent : α) (field : α) : Option Json → Prop
  | none => field = absent
  | some value => read value = some field

/-- The profile holds exactly the values given, but for the extensions whose position is not BoringSSL's to choose. -/
structure Holds (stack : Stack) (args : List (String × Json)) (net : NetTlsProfile stack.NextProto) : Prop where
  cipherSuites : Given points? [] net.cipherSuites (args.lookup "cipher_suites")
  extensionOrder : ∃ order, Given points? [] order (args.lookup "extension_order") ∧
    net.extensionOrder = order.filter stack.extensionOrderSupported
  supportedGroups : Given points? [] net.supportedGroups (args.lookup "supported_groups")
  keyShareGroups : Given points? [] net.keyShareGroups (args.lookup "key_share_groups")
  signatureAlgorithms : Given points? [] net.signatureAlgorithms (args.lookup "signature_algorithms")
  minVersion : Given version? none net.minVersion (args.lookup "min_version")
  maxVersion : Given version? none net.maxVersion (args.lookup "max_version")
  alpn : Given (protocols? stack) [] net.alpn (args.lookup "alpn")
  grease : Given flag? none net.grease (args.lookup "grease")
  permuteExtensions : Given flag? none net.permuteExtensions (args.lookup "permute_extensions")

structure ParsedRightly (stack : Stack) (args : List (String × Json)) : Prop where
  refuses : Malformed stack args → stack.parseTlsProfile args = none
  accepts : ¬Malformed stack args → ∃ net, stack.parseTlsProfile args = some net ∧ Holds stack args net

section

variable {α : Type} {found : Json → Bool} {read : Json → Option α} {absent : α} {entry : Option Json}

def lookedUp (found : Json → Bool) (read : Json → Option α) (absent : α) : Option Json → Option α
  | none => some absent
  | some value => if found value then read value else some absent

theorem lookedUp_none : lookedUp found read absent entry = none ↔
    ∃ value, entry = some value ∧ found value = true ∧ (read value).isSome = false := by
  cases entry with
  | none => simp [lookedUp]
  | some value => simp [lookedUp, ite_eq_iff]

theorem lookedUp_given {field : α} (typed : ∀ value, (read value).isSome = true → found value = true)
    (proper : ∀ value, entry = some value → (read value).isSome = true)
    (ran : lookedUp found read absent entry = some field) : Given read absent field entry := by
  cases entry with
  | none => exact (Option.some.inj ran).symm
  | some value =>
    rw [lookedUp, if_pos (typed value (proper value rfl))] at ran
    exact ran

end

section

variable {stack : Stack} {args : List (String × Json)}

theorem parseCodePoint_eq : stack.parseCodePoint = codePoint? := by
  funext value
  cases value with
  | int n => exact parseCodePoint_int n
  | _ => rfl

theorem parseTlsCodePointList_eq (key : String) :
    stack.parseTlsCodePointList args key = lookedUp isList points? [] (args.lookup key) := by
  rw [Stack.parseTlsCodePointList, parseCodePoint_eq]
  cases args.lookup key with
  | none => rfl
  | some value => cases value <;> rfl

theorem parseTlsVersion_eq (key : String) :
    Stack.parseTlsVersion args key = lookedUp isString version? none (args.lookup key) := by
  rw [Stack.parseTlsVersion]
  cases args.lookup key with
  | none => rfl
  | some value => cases value <;> rfl

theorem parseAlpn_eq : stack.parseAlpn args = lookedUp isList (protocols? stack) [] (args.lookup "alpn") := by
  rw [Stack.parseAlpn]
  cases args.lookup "alpn" with
  | none => rfl
  | some value => cases value <;> rfl

theorem parseTlsBool_eq (key : String) :
    Stack.parseTlsBool args key = lookedUp (fun _ => true) flag? none (args.lookup key) := by
  rw [Stack.parseTlsBool]
  cases args.lookup key with
  | none => rfl
  | some value => cases value <;> rfl

theorem points_found (value : Json) (proper : (points? value).isSome = true) : isList value = true := by
  cases value <;> first | rfl | cases proper

theorem version_found (value : Json) (proper : (version? value).isSome = true) : isString value = true := by
  cases value <;> first | rfl | cases proper

theorem protocols_found (value : Json) (proper : (protocols? stack value).isSome = true) : isList value = true := by
  cases value <;> first | rfl | cases proper

theorem malformed_of_unfound {kind : Kind} {value : Json} (unfound : kind.found value = false) :
    kind.wellFormed stack value = false := by
  by_contra proper
  rw [Bool.not_eq_false] at proper
  cases kind with
  | points => cases unfound.symm.trans (points_found value proper)
  | version => cases unfound.symm.trans (version_found value proper)
  | protocols => cases unfound.symm.trans (protocols_found value proper)
  | flag => cases unfound

theorem bind_none {β γ : Type} {x : Option β} {f : β → Option γ} {here later : Prop} (refused : x = none ↔ here)
    (next : ∀ b, f b = none ↔ later) : x >>= f = none ↔ here ∨ later := by
  cases x with
  | none => exact iff_of_true rfl (.inl (refused.mp rfl))
  | some b =>
    have accepted : ¬here := fun held => Option.some_ne_none b (refused.mpr held)
    rw [or_iff_right accepted]
    exact next b

/-- The profile is dropped exactly if a value that is found is malformed. -/
theorem parse_none_iff : stack.parseTlsProfile args = none ↔ Refused stack args := by
  simp only [Refused, members, List.exists_mem_cons_iff, List.not_mem_nil, false_and, exists_false]
  rw [Stack.parseTlsProfile]
  simp only [parseTlsCodePointList_eq, parseTlsVersion_eq, parseAlpn_eq, parseTlsBool_eq]
  -- the members stand in the order in which they are read
  iterate 10
    apply bind_none lookedUp_none
    intro _
  exact iff_of_false (Option.some_ne_none _) id

theorem parse_holds {net : NetTlsProfile stack.NextProto} (proper : ¬Malformed stack args)
    (parsed : stack.parseTlsProfile args = some net) : Holds stack args net := by
  have readable {key : String} {kind : Kind} (member : (key, kind) ∈ members) :
      ∀ value, args.lookup key = some value → kind.wellFormed stack value = true := by
    intro value present
    by_contra malformed
    exact proper ⟨_, member, value, present, eq_false_of_ne_true malformed⟩
  rw [Stack.parseTlsProfile] at parsed
  simp only [parseTlsCodePointList_eq, parseTlsVersion_eq, parseAlpn_eq, parseTlsBool_eq] at parsed
  obtain ⟨_, suites, parsed⟩ := Option.bind_eq_some_iff.mp parsed
  obtain ⟨order, extensions, parsed⟩ := Option.bind_eq_some_iff.mp parsed
  obtain ⟨_, groups, parsed⟩ := Option.bind_eq_some_iff.mp parsed
  obtain ⟨_, shares, parsed⟩ := Option.bind_eq_some_iff.mp parsed
  obtain ⟨_, algorithms, parsed⟩ := Option.bind_eq_some_iff.mp parsed
  obtain ⟨_, min, parsed⟩ := Option.bind_eq_some_iff.mp parsed
  obtain ⟨_, max, parsed⟩ := Option.bind_eq_some_iff.mp parsed
  obtain ⟨_, protos, parsed⟩ := Option.bind_eq_some_iff.mp parsed
  obtain ⟨_, grease, parsed⟩ := Option.bind_eq_some_iff.mp parsed
  obtain ⟨_, permute, parsed⟩ := Option.bind_eq_some_iff.mp parsed
  cases parsed
  constructor
  · exact lookedUp_given points_found (@readable _ .points (by decide)) suites
  · exact ⟨order, lookedUp_given points_found (@readable _ .points (by decide)) extensions, rfl⟩
  · exact lookedUp_given points_found (@readable _ .points (by decide)) groups
  · exact lookedUp_given points_found (@readable _ .points (by decide)) shares
  · exact lookedUp_given points_found (@readable _ .points (by decide)) algorithms
  · exact lookedUp_given version_found (@readable _ .version (by decide)) min
  · exact lookedUp_given version_found (@readable _ .version (by decide)) max
  · exact lookedUp_given protocols_found (@readable _ .protocols (by decide)) protos
  · exact lookedUp_given (fun _ _ => rfl) (@readable _ .flag (by decide)) grease
  · exact lookedUp_given (fun _ _ => rfl) (@readable _ .flag (by decide)) permute

end

/-- A profile is parsed rightly unless it is malformed in nothing but the type of a list or of a version. -/
theorem parsed_rightly_iff (stack : Stack) (args : List (String × Json)) :
    ParsedRightly stack args ↔ (Mistyped args → Refused stack args) := by
  constructor
  · rintro rightly ⟨m, member, value, present, unfound⟩
    apply parse_none_iff.mp
    apply rightly.refuses
    exact ⟨m, member, value, present, malformed_of_unfound unfound⟩
  · intro checked
    constructor
    · rintro ⟨m, member, value, present, malformed⟩
      apply parse_none_iff.mpr
      cases typed : m.2.found value with
      | true => exact ⟨m, member, value, present, typed, malformed⟩
      | false => exact checked ⟨m, member, value, present, typed⟩
    · intro proper
      cases parsed : stack.parseTlsProfile args with
      | none =>
        obtain ⟨m, member, value, present, _, malformed⟩ := parse_none_iff.mp parsed
        exact absurd ⟨m, member, value, present, malformed⟩ proper
      | some net => exact ⟨net, rfl, parse_holds proper parsed⟩

/-- A list of cipher suites that is a string: the profile is served as though it named none. -/
theorem mistyped_accepted :
    Malformed smallStack [("cipher_suites", .string "0x1301")] ∧
      smallStack.parseTlsProfile [("cipher_suites", .string "0x1301")] = some (NetTlsProfile.default String) ∧
      ¬ParsedRightly smallStack [("cipher_suites", .string "0x1301")] := by
  have malformed : Malformed smallStack [("cipher_suites", .string "0x1301")] :=
    ⟨("cipher_suites", .points), by decide, .string "0x1301", rfl, rfl⟩
  have served : smallStack.parseTlsProfile [("cipher_suites", .string "0x1301")] = some (NetTlsProfile.default String) :=
    rfl
  refine ⟨malformed, served, fun rightly => ?_⟩
  cases served.symm.trans (rightly.refuses malformed)

end Cronet.Tls
