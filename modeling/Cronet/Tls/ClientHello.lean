import Cronet.Lib.Checked
import Cronet.Tls.Profile

namespace Cronet.Tls

namespace TlsProfile

def versionCode (version : String) : Nat :=
  if version = "1.2" then SSL_PROTOCOL_VERSION_TLS1_2 else SSL_PROTOCOL_VERSION_TLS1_3

def allPoints (p : TlsProfile) : List Int :=
  p.cipherSuites ++ p.extensionOrder ++ p.supportedGroups ++ p.keyShareGroups ++ p.signatureAlgorithms

end TlsProfile

/-- A TLS code point is a `uint16_t`. -/
def IsCodePoint (n : Int) : Prop := 0 ≤ n ∧ n ≤ 0xffff

instance : DecidablePred IsCodePoint := fun n => inferInstanceAs (Decidable (0 ≤ n ∧ n ≤ 0xffff))

/-- What reaches the handshake is what the profile says, but for the extensions BoringSSL
    cannot position. -/
structure Carries (stack : Stack) (p : TlsProfile) (net : NetTlsProfile stack.NextProto) : Prop where
  cipherSuites : net.cipherSuites.map Int.ofNat = p.cipherSuites
  extensionOrder : net.extensionOrder.map Int.ofNat =
    p.extensionOrder.filter fun n => stack.extensionOrderSupported n.toNat
  supportedGroups : net.supportedGroups.map Int.ofNat = p.supportedGroups
  keyShareGroups : net.keyShareGroups.map Int.ofNat = p.keyShareGroups
  signatureAlgorithms : net.signatureAlgorithms.map Int.ofNat = p.signatureAlgorithms
  alpn : net.alpn.map stack.nextProtoToString = p.alpn
  minVersion : net.minVersion = p.minVersion.map TlsProfile.versionCode
  maxVersion : net.maxVersion = p.maxVersion.map TlsProfile.versionCode
  grease : net.grease = p.grease
  permuteExtensions : net.permuteExtensions = p.permute

structure Served (stack : Stack) (p : TlsProfile) : Prop where
  silent : p.toOptions = [] → p = .empty
  accepted : p.toOptions ≠ [] → ∃ net, stack.configured p.toOptions = some net ∧ Carries stack p net ∧
    (stack.setExtensionOrder net.extensionOrder).isSome = true

theorem lookup_absent {entries : List (String × Option Json)} {key : String} (absent : key ∉ entries.map Prod.fst) :
    (entries.filterMap fun m => m.2.map (m.1, ·)).lookup key = none := by
  rw [List.lookup_eq_none_iff]
  intro p member
  obtain ⟨m, inside, kept⟩ := List.mem_filterMap.mp member
  obtain ⟨_, _, rfl⟩ := Option.map_eq_some_iff.mp kept
  have differs : key ≠ m.1 := fun same => absent (same ▸ List.mem_map_of_mem inside)
  simpa using differs

theorem lookup_members {entries : List (String × Option Json)} {key : String} {value : Option Json}
    (found : entries.lookup key = some value) (distinct : (entries.map Prod.fst).Nodup) :
    (entries.filterMap fun m => m.2.map (m.1, ·)).lookup key = value := by
  induction entries with
  | nil => cases found
  | cons entry rest ih =>
    obtain ⟨name, content⟩ := entry
    obtain ⟨fresh, others⟩ := List.nodup_cons.mp distinct
    by_cases here : key = name
    · subst here
      have same : content = value := by simpa using found
      subst same
      cases content with
      | some json => simp
      | none => exact (lookup_absent fresh :)
    · have differs : (key == name) = false := beq_eq_false_iff_ne.mpr here
      have later : rest.lookup key = some value := by simpa only [List.lookup_cons, differs] using found
      cases content with
      | none => exact ih later others
      | some json => simpa [List.lookup_cons, differs] using ih later others

section

variable {stack : Stack}

theorem parseCodePoint_int (n : Int) :
    stack.parseCodePoint (.int n) = if IsCodePoint n then some n.toNat else none := by
  rw [Stack.parseCodePoint]
  by_cases range : -2 ^ 31 ≤ n ∧ n < 2 ^ 31
  · rw [stack.int32 n range.1 range.2, Option.bind_some]
    by_cases point : IsCodePoint n
    · have inside := point
      unfold IsCodePoint at inside
      rw [if_pos point, if_neg (by omega)]
    · have outside := point
      unfold IsCodePoint at outside
      rw [if_neg point, if_pos (by omega)]
  · have outside : ¬IsCodePoint n := by
      unfold IsCodePoint
      omega
    rw [stack.wider n (by omega), if_neg outside]
    rfl

theorem mapM_codePoints (points : List Int) :
    (points.map Json.int).mapM stack.parseCodePoint =
      if ∀ n ∈ points, IsCodePoint n then some (points.map Int.toNat) else none := by
  induction points with
  | nil => rfl
  | cons n rest ih =>
    rw [List.map_cons, List.mapM_cons, parseCodePoint_int, ih]
    by_cases here : IsCodePoint n
    · by_cases later : ∀ m ∈ rest, IsCodePoint m
      · rw [if_pos here, if_pos later, if_pos (List.forall_mem_cons.mpr ⟨here, later⟩)]
        rfl
      · rw [if_pos here, if_neg later, if_neg fun all => later (List.forall_mem_cons.mp all).2]
        rfl
    · rw [if_neg here, if_neg fun all => here (List.forall_mem_cons.mp all).1]
      rfl

theorem parseTlsCodePointList_of {args : List (String × Json)} {key : String} {points : List Int}
    (found : args.lookup key = TlsProfile.codePoints points) :
    stack.parseTlsCodePointList args key =
      if ∀ n ∈ points, IsCodePoint n then some (points.map Int.toNat) else none := by
  rw [Stack.parseTlsCodePointList, found, TlsProfile.codePoints]
  by_cases none : points = []
  · subst none
    rfl
  · rw [if_neg none]
    exact mapM_codePoints points

theorem mapM_alpn (stack : Stack) {protocols : List String} (known : ∀ s ∈ protocols, s ∈ ALPN_PROTOCOLS) :
    ∃ protos, (protocols.map Json.string).mapM stack.parseProto = some protos ∧
      protos.map stack.nextProtoToString = protocols := by
  induction protocols with
  | nil => exact ⟨[], rfl, rfl⟩
  | cons s rest ih =>
    obtain ⟨here, later⟩ := List.forall_mem_cons.mp known
    obtain ⟨proto, found, named⟩ := stack.known s here
    obtain ⟨protos, all, names⟩ := ih later
    refine ⟨proto :: protos, ?_, by rw [List.map_cons, named, names]⟩
    rw [List.map_cons, List.mapM_cons, all]
    simp [Stack.parseProto, found]

theorem parseTlsVersion_of {args : List (String × Json)} {key : String} {version : Option String}
    (found : args.lookup key = version.map .string) (known : ∀ v, version = some v → v ∈ VERSIONS) :
    Stack.parseTlsVersion args key = some (version.map TlsProfile.versionCode) := by
  rw [Stack.parseTlsVersion, found]
  cases version with
  | none => rfl
  | some v =>
    have listed := known v rfl
    simp only [VERSIONS, List.mem_cons, List.not_mem_nil, or_false] at listed
    rcases listed with rfl | rfl
    · rfl
    · rfl

theorem parseTlsBool_of {args : List (String × Json)} {key : String} (flag : Option Bool)
    (found : args.lookup key = flag.map .bool) : Stack.parseTlsBool args key = some flag := by
  rw [Stack.parseTlsBool, found]
  cases flag <;> rfl

theorem place_some {order placed : List Nat} (supported : ∀ e ∈ order, stack.extensionOrderSupported e = true)
    (distinct : order.Nodup) (fresh : ∀ e ∈ order, ∀ i ∈ placed, stack.extensions.idxOf? e ≠ some i) :
    (stack.place order placed).isSome = true := by
  induction order generalizing placed with
  | nil => rfl
  | cons e rest ih =>
    obtain ⟨here, later⟩ := List.forall_mem_cons.mp supported
    obtain ⟨single, others⟩ := List.nodup_cons.mp distinct
    obtain ⟨unplaced, unplacedLater⟩ := List.forall_mem_cons.mp fresh
    obtain ⟨i, found⟩ := Option.isSome_iff_exists.mp (List.isSome_idxOf?.mpr (of_decide_eq_true here))
    have free : i ∉ placed := fun member => unplaced i member found
    simp only [Stack.place, found, free, if_false]
    apply ih later others
    intro f member j taken same
    rcases List.mem_append.mp taken with taken | last
    · exact unplacedLater f member j taken same
    · rw [List.mem_singleton.mp last] at same
      obtain ⟨_, atE, _⟩ := List.idxOf?_eq_some_iff.mp found
      obtain ⟨_, atF, _⟩ := List.idxOf?_eq_some_iff.mp same
      exact single ((atE.symm.trans atF) ▸ member)

theorem setExtensionOrder_some {order : List Nat} (supported : ∀ e ∈ order, stack.extensionOrderSupported e = true)
    (distinct : order.Nodup) : (stack.setExtensionOrder order).isSome = true := by
  rw [Stack.setExtensionOrder]
  split
  · rfl
  · rw [Option.isSome_map]
    exact place_some supported distinct fun e member i none => absurd none List.not_mem_nil

end

namespace TlsProfile

variable {p : TlsProfile}

theorem checkVersion_ok {name : String} {value : Option String} (ok : checkVersion name value = .ok ()) :
    ∀ v, value = some v → v ∈ VERSIONS := by
  rintro v rfl
  by_contra unlisted
  rw [checkVersion] at ok
  simp only [unlisted, if_false, reduceCtorEq] at ok

theorem postInit_ok (accepted : p.postInit = .ok ()) :
    (∀ v, p.minVersion = some v → v ∈ VERSIONS) ∧ (∀ v, p.maxVersion = some v → v ∈ VERSIONS) ∧
      (∀ s ∈ p.alpn, s ∈ ALPN_PROTOCOLS) ∧ p.extensionOrder.Nodup := by
  obtain ⟨_, min, accepted⟩ := Checked.bind_ok accepted
  obtain ⟨_, max, accepted⟩ := Checked.bind_ok accepted
  refine ⟨checkVersion_ok min, checkVersion_ok max, ?_, ?_⟩
  · intro s member
    by_contra foreign
    have unknown : p.alpn.filter (· ∉ ALPN_PROTOCOLS) ≠ [] :=
      List.ne_nil_of_mem (List.mem_filter.mpr ⟨member, by simpa using foreign⟩)
    rw [if_pos unknown] at accepted
    cases accepted
  · dsimp only at accepted
    split at accepted
    · cases accepted
    · split at accepted
      · cases accepted
      · split at accepted
        · cases accepted
        · rename_i unique
          rw [not_not] at unique
          rw [← List.dedup_eq_self]
          exact (List.dedup_sublist _).eq_of_length unique

theorem members_distinct (p : TlsProfile) : (p.members.map Prod.fst).Nodup := by
  simp only [members, List.map_cons, List.map_nil]
  decide

theorem profile_lookup {key : String} {value : Option Json} (found : p.members.lookup key = some value) :
    p.profile.lookup key = value := lookup_members found p.members_distinct

end TlsProfile

theorem configured_some {stack : Stack} {p : TlsProfile} (asks : p.toOptions ≠ []) :
    stack.configured p.toOptions = stack.parseTlsProfile p.profile := by
  have nonempty : p.profile ≠ [] := by
    intro none
    rw [TlsProfile.toOptions, if_pos none] at asks
    exact asks rfl
  rw [Stack.configured, TlsProfile.toOptions, if_neg nonempty]
  rfl

section

variable {stack : Stack} {p : TlsProfile}

theorem toNat_ofNat {points : List Int} (inside : ∀ n ∈ points, IsCodePoint n) :
    (points.map Int.toNat).map Int.ofNat = points := by
  rw [List.map_map]
  conv_rhs => rw [← List.map_id points]
  apply List.map_congr_left
  intro n member
  exact Int.toNat_of_nonneg (inside n member).1

theorem forall_allPoints {P : Int → Prop} : (∀ n ∈ p.allPoints, P n) ↔
    (∀ n ∈ p.cipherSuites, P n) ∧ (∀ n ∈ p.extensionOrder, P n) ∧ (∀ n ∈ p.supportedGroups, P n) ∧
      (∀ n ∈ p.keyShareGroups, P n) ∧ (∀ n ∈ p.signatureAlgorithms, P n) := by
  simp only [TlsProfile.allPoints, List.forall_mem_append, and_assoc]

/-- Each list of code points is read back from the dictionary as a whole. -/
theorem parse_points {key : String} (points : List Int)
    (named : p.members.lookup key = some (TlsProfile.codePoints points)) :
    stack.parseTlsCodePointList p.profile key =
      if ∀ n ∈ points, IsCodePoint n then some (points.map Int.toNat) else none :=
  parseTlsCodePointList_of (TlsProfile.profile_lookup named)

theorem parseTlsProfile_some (accepted : p.postInit = .ok ()) (inside : ∀ n ∈ p.allPoints, IsCodePoint n) :
    ∃ net, stack.parseTlsProfile p.profile = some net ∧ Carries stack p net ∧
      (stack.setExtensionOrder net.extensionOrder).isSome = true := by
  obtain ⟨min, max, protocols, unique⟩ := TlsProfile.postInit_ok accepted
  obtain ⟨suites, order, groups, shares, algorithms⟩ := forall_allPoints.mp inside
  obtain ⟨protos, read, names⟩ := mapM_alpn stack protocols
  have alpn : stack.parseAlpn p.profile = some protos := by
    rw [Stack.parseAlpn, TlsProfile.profile_lookup (show p.members.lookup "alpn" = some _ from rfl)]
    by_cases none : p.alpn = []
    · rw [none] at read
      rw [if_pos none]
      exact read
    · rw [if_neg none]
      exact read
  have unsigned : (p.extensionOrder.map Int.toNat).Nodup := by
    apply List.Nodup.of_map Int.ofNat
    rwa [toNat_ofNat order]
  refine ⟨{
    cipherSuites := p.cipherSuites.map Int.toNat
    extensionOrder := stack.removeUnorderableExtensions (p.extensionOrder.map Int.toNat)
    supportedGroups := p.supportedGroups.map Int.toNat
    keyShareGroups := p.keyShareGroups.map Int.toNat
    signatureAlgorithms := p.signatureAlgorithms.map Int.toNat
    alpn := protos
    minVersion := p.minVersion.map TlsProfile.versionCode
    maxVersion := p.maxVersion.map TlsProfile.versionCode
    grease := p.grease
    permuteExtensions := p.permute }, ?_, ?_, ?_⟩
  · rw [Stack.parseTlsProfile, parse_points p.cipherSuites rfl, if_pos suites,
      parse_points p.extensionOrder rfl, if_pos order, parse_points p.supportedGroups rfl,
      if_pos groups, parse_points p.keyShareGroups rfl, if_pos shares,
      parse_points p.signatureAlgorithms rfl, if_pos algorithms,
      parseTlsVersion_of (TlsProfile.profile_lookup rfl) min, parseTlsVersion_of (TlsProfile.profile_lookup rfl) max,
      alpn, parseTlsBool_of p.grease (TlsProfile.profile_lookup rfl),
      parseTlsBool_of p.permute (TlsProfile.profile_lookup rfl)]
    rfl
  · refine ⟨toNat_ofNat suites, ?_, toNat_ofNat groups, toNat_ofNat shares, toNat_ofNat algorithms, names, rfl, rfl,
      rfl, rfl⟩
    dsimp only [Stack.removeUnorderableExtensions]
    rw [List.filter_map, toNat_ofNat fun n member => order n (List.mem_filter.mp member).1]
    rfl
  · exact setExtensionOrder_some (fun e member => (List.mem_filter.mp member).2) (unsigned.filter _)

theorem parse_points_inside {key : String} {points : List Int} {read : List Nat}
    (named : p.members.lookup key = some (TlsProfile.codePoints points))
    (parsed : stack.parseTlsCodePointList p.profile key = some read) : ∀ n ∈ points, IsCodePoint n := by
  by_contra outside
  rw [parse_points points named, if_neg outside] at parsed
  cases parsed

theorem parseTlsProfile_inside {net : NetTlsProfile stack.NextProto} (parsed : stack.parseTlsProfile p.profile = some net) :
    ∀ n ∈ p.allPoints, IsCodePoint n := by
  obtain ⟨_, suites, parsed⟩ := Option.bind_eq_some_iff.mp parsed
  obtain ⟨_, order, parsed⟩ := Option.bind_eq_some_iff.mp parsed
  obtain ⟨_, groups, parsed⟩ := Option.bind_eq_some_iff.mp parsed
  obtain ⟨_, shares, parsed⟩ := Option.bind_eq_some_iff.mp parsed
  obtain ⟨_, algorithms, _⟩ := Option.bind_eq_some_iff.mp parsed
  exact forall_allPoints.mpr ⟨parse_points_inside rfl suites, parse_points_inside rfl order,
    parse_points_inside rfl groups, parse_points_inside rfl shares, parse_points_inside rfl algorithms⟩

theorem toOptions_empty (none : p.toOptions = []) : p = .empty := by
  have bare : p.profile = [] := by
    by_contra nonempty
    rw [TlsProfile.toOptions, if_neg nonempty] at none
    cases none
  have gone : ∀ {key value}, p.members.lookup key = some value → value = .none := by
    intro key value named
    rw [← TlsProfile.profile_lookup named, bare]
    rfl
  have points : ∀ {xs}, TlsProfile.codePoints xs = .none → xs = [] := by
    intro xs absent
    by_contra nonempty
    rw [TlsProfile.codePoints, if_neg nonempty] at absent
    cases absent
  have suites : p.cipherSuites = [] := points (gone (show p.members.lookup "cipher_suites" = some _ from rfl))
  have order : p.extensionOrder = [] := points (gone (show p.members.lookup "extension_order" = some _ from rfl))
  have groups : p.supportedGroups = [] := points (gone (show p.members.lookup "supported_groups" = some _ from rfl))
  have shares : p.keyShareGroups = [] := points (gone (show p.members.lookup "key_share_groups" = some _ from rfl))
  have algorithms : p.signatureAlgorithms = [] :=
    points (gone (show p.members.lookup "signature_algorithms" = some _ from rfl))
  have alpn : p.alpn = [] := by
    by_contra nonempty
    have absent := gone (show p.members.lookup "alpn" = some _ from rfl)
    rw [if_neg nonempty] at absent
    cases absent
  have min : p.minVersion = .none :=
    Option.map_eq_none_iff.mp (gone (show p.members.lookup "min_version" = some _ from rfl))
  have max : p.maxVersion = .none :=
    Option.map_eq_none_iff.mp (gone (show p.members.lookup "max_version" = some _ from rfl))
  have grease : p.grease = .none := Option.map_eq_none_iff.mp (gone (show p.members.lookup "grease" = some _ from rfl))
  have shuffled : p.permute = .none :=
    Option.map_eq_none_iff.mp (gone (show p.members.lookup "permute_extensions" = some _ from rfl))
  have permute : p.permuteExtensions = .none := by
    rwa [TlsProfile.permute, if_neg fun asked => asked.2 order] at shuffled
  cases p
  simp only at suites order groups shares algorithms alpn min max grease permute
  subst suites order groups shares algorithms alpn min max grease permute
  rfl

end

/-- An accepted profile reaches the handshake as it is exactly if every number in it is a code point. -/
theorem profile_served_iff (stack : Stack) (p : AcceptedProfile) :
    Served stack p.1 ↔ ∀ n ∈ p.1.allPoints, IsCodePoint n := by
  by_cases asks : p.1.toOptions = []
  · have bare := toOptions_empty asks
    refine iff_of_true ⟨fun _ => bare, fun nonempty => absurd asks nonempty⟩ fun n member => ?_
    rw [bare] at member
    cases member
  · constructor
    · intro served
      obtain ⟨net, parsed, _⟩ := served.accepted asks
      rw [configured_some asks] at parsed
      exact parseTlsProfile_inside parsed
    · intro inside
      refine ⟨fun none => absurd none asks, fun _ => ?_⟩
      rw [configured_some asks]
      exact parseTlsProfile_some p.2 inside

/-- JSON integers as they are, three protocols, and the table of one extension. -/
def smallStack : Stack where
  getIfInt n := if -2 ^ 31 ≤ n ∧ n < 2 ^ 31 then some n else none
  int32 n low high := if_pos ⟨low, high⟩
  wider n out := if_neg (by omega)
  NextProto := String
  nextProtoFromString s := if s ∈ ALPN_PROTOCOLS then some s else none
  nextProtoToString s := s
  known s member := ⟨s, if_pos member, rfl⟩
  extensions := [16]

def oversized : AcceptedProfile := ⟨{ TlsProfile.empty with cipherSuites := [0x1301, 0x11301] }, rfl⟩

/-- A number too large for a code point costs the session its whole profile. -/
theorem oversized_dropped :
    oversized.1.toOptions ≠ [] ∧ smallStack.configured oversized.1.toOptions = none ∧ ¬Served smallStack oversized.1 := by
  have asks : oversized.1.toOptions ≠ [] := List.cons_ne_nil _ _
  have dropped : smallStack.configured oversized.1.toOptions = none := rfl
  refine ⟨asks, dropped, fun served => ?_⟩
  obtain ⟨net, parsed, _⟩ := served.accepted asks
  cases dropped.symm.trans parsed

end Cronet.Tls
