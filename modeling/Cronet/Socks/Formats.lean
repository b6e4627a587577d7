import Cronet.Socks.Probe
import Cronet.Socks.Relaying

namespace Cronet.Socks

open Cronet.Native (Bytes)

namespace Probe

/-- What `ipaddress.ip_address` makes of a host that is an address. -/
structure IPAddress where
  packed : Bytes
  version : packed.length = 4 ∨ packed.length = 16

def IPAddress.endpoint (address : IPAddress) (port : UInt16) : Destination :=
  ⟨⟨address.packed, port.toNat⟩, address.version⟩

/-- `struct.pack("!H", port)`, which raises for what is no `uint16_t`. -/
def packShort (port : Int) : Option Bytes :=
  if 0 ≤ port ∧ port < 2 ^ 16 then some (u16ToBigEndian port.toNat) else none

def encapsulate (address : IPAddress) (targetPort : Int) (payload : Bytes) : Option Bytes := do
  let kind := if address.packed.length = 4 then ADDRESS_IPV4 else ADDRESS_IPV6
  let port ← packShort targetPort
  return [0x00, 0x00, 0x00, kind] ++ address.packed ++ port ++ payload

def stripHeader (datagram : Bytes) : Except Raised Bytes :=
  if few : datagram.length < 10 then
    .error (.probeFailed ("the relay returned " ++ toString datagram.length ++ " bytes, too few to be wrapped"))
  else
    let addressType := datagram[3]
    if addressType = ADDRESS_IPV4 then .ok (datagram.drop 10)
    else if addressType = ADDRESS_IPV6 then .ok (datagram.drop 22)
    else if addressType = ADDRESS_DOMAIN then .ok (datagram.drop (5 + datagram[4].toNat + 2))
    else .error (.probeFailed ("the relay used an unreadable address type: " ++ toString addressType))

end Probe

open Probe (IPAddress encapsulate stripHeader)

def announced : Bytes → Option Nat
  | _ :: _ :: _ :: type :: rest =>
    if type = kAddressTypeIPv4 then some kUdpHeaderSizeIPv4
    else if type = kAddressTypeIPv6 then some kUdpHeaderSizeIPv6
    else if type = kAddressTypeDomain then rest.head?.map fun length => 5 + length.toNat + 2
    else none
  | _ => none

/-- Ten bytes are as good a measure of the datagram as the size its header announces. -/
def MeasuredAlike (datagram : Bytes) : Prop :=
  ∀ size, announced datagram = some size → (size ≤ datagram.length ↔ 10 ≤ datagram.length)

/-- The probe takes a payload out of a datagram exactly when the client does, and then the same one; it wraps one as the
    client does, and takes it out again. -/
structure OneFormat (datagram : Bytes) (address : IPAddress) (port : UInt16) (payload : Bytes) : Prop where
  strips : ∀ stripped, stripHeader datagram = .ok stripped ↔
    ∃ offset, udpPayloadOffset datagram = .ok offset ∧ offset ≠ 0 ∧ stripped = datagram.drop offset
  wraps : ∃ header, writeUdpHeader (address.endpoint port) (List.replicate (udpHeaderSize (address.endpoint port)) 0) = .ok header ∧
    encapsulate address port.toNat payload = some (header ++ payload)
  undone : ∃ wrapped, encapsulate address port.toNat payload = some wrapped ∧ stripHeader wrapped = .ok payload

theorem client_offset (datagram : Bytes) :
    udpPayloadOffset datagram = match announced datagram with
      | some size => .ok (if size ≤ datagram.length then size else 0)
      | none => if CutAtDomain datagram then .error .outOfBounds else .ok 0 := by
  unfold udpPayloadOffset
  match datagram with
  | [] | [_] | [_, _] | [_, _, _] => rfl
  | first :: second :: third :: type :: rest =>
    have kind : Span.get (first :: second :: third :: type :: rest) 3 = .ok type := rfl
    rw [if_neg (by simp), kind, Checked.ok_bind, announced]
    split
    · rfl
    split
    · rfl
    split
    · rename_i domain
      cases rest with
      | nil =>
        have cut : CutAtDomain [first, second, third, type] := ⟨rfl, congrArg some domain⟩
        simp only [List.head?_nil, Option.map_none, if_pos cut]
        rfl
      | cons length rest => rfl
    · rename_i other
      have whole : ¬CutAtDomain (first :: second :: third :: type :: rest) := fun cut => other (Option.some.inj cut.2)
      simp only [if_neg whole]
      rfl

theorem probe_strips (datagram stripped : Bytes) :
    stripHeader datagram = .ok stripped ↔
      10 ≤ datagram.length ∧ ∃ size, announced datagram = some size ∧ stripped = datagram.drop size := by
  unfold stripHeader
  by_cases few : datagram.length < 10
  · rw [dif_pos few]
    apply iff_of_false
    · intro read
      cases read
    · intro long
      omega
  rw [dif_neg few, and_iff_right (show 10 ≤ datagram.length by omega)]
  match datagram, few with
  | [], few | [_], few | [_, _], few | [_, _, _], few | [_, _, _, _], few => simp at few
  | first :: second :: third :: type :: length :: rest, few =>
    have types : Probe.ADDRESS_IPV4 = kAddressTypeIPv4 ∧ Probe.ADDRESS_IPV6 = kAddressTypeIPv6 ∧
        Probe.ADDRESS_DOMAIN = kAddressTypeDomain := ⟨rfl, rfl, rfl⟩
    simp only [types, List.getElem_cons_succ, List.getElem_cons_zero, announced, List.head?_cons, Option.map_some]
    split
    · simp [kUdpHeaderSizeIPv4, eq_comm]
    split
    · simp [kUdpHeaderSizeIPv6, eq_comm]
    split
    · simp [eq_comm]
    · simp

theorem announced_pos {datagram : Bytes} {size : Nat} (found : announced datagram = some size) : 0 < size := by
  match datagram with
  | [] | [_] | [_, _] | [_, _, _] => cases found
  | first :: second :: third :: type :: rest =>
    rw [announced] at found
    split at found
    · cases found
      decide
    split at found
    · cases found
      decide
    split at found
    · obtain ⟨length, _, rfl⟩ := Option.map_eq_some_iff.mp found
      omega
    · cases found

theorem client_strips (datagram stripped : Bytes) :
    (∃ offset, udpPayloadOffset datagram = .ok offset ∧ offset ≠ 0 ∧ stripped = datagram.drop offset) ↔
      ∃ size, announced datagram = some size ∧ size ≤ datagram.length ∧ stripped = datagram.drop size := by
  rw [client_offset]
  cases found : announced datagram with
  | none =>
    apply iff_of_false
    · rintro ⟨offset, none, positive, _⟩
      dsimp only at none
      split at none
      · cases none
      · exact positive (Except.ok.inj none).symm
    · rintro ⟨size, some, _⟩
      cases some
  | some size =>
    have positive := announced_pos found
    constructor
    · rintro ⟨offset, at_, positive, rest⟩
      obtain ⟨within, rfl⟩ := whole_of_found (Except.ok.inj at_) positive
      exact ⟨offset, rfl, within, rest⟩
    · rintro ⟨_, same, within, rest⟩
      cases same
      exact ⟨size, congrArg Except.ok (if_pos within), by omega, rest⟩

theorem strips_iff (datagram : Bytes) :
    (∀ stripped, stripHeader datagram = .ok stripped ↔
      ∃ offset, udpPayloadOffset datagram = .ok offset ∧ offset ≠ 0 ∧ stripped = datagram.drop offset) ↔
      MeasuredAlike datagram := by
  simp only [probe_strips, client_strips, MeasuredAlike]
  constructor
  · intro alike size found
    have same := alike (datagram.drop size)
    constructor
    · intro within
      exact (same.mpr ⟨size, found, within, rfl⟩).1
    · intro long
      obtain ⟨_, again, within, _⟩ := same.mp ⟨long, size, found, rfl⟩
      cases found.symm.trans again
      exact within
  · intro alike stripped
    constructor
    · rintro ⟨long, size, found, rest⟩
      exact ⟨size, found, (alike size found).mpr long, rest⟩
    · rintro ⟨size, found, within, rest⟩
      exact ⟨(alike size found).mp within, size, found, rest⟩

theorem encapsulate_ok (address : IPAddress) (port : UInt16) (payload : Bytes) :
    encapsulate address port.toNat payload =
      some ((address.endpoint port).named.datagram (address.endpoint port).port payload) := by
  have short : (0 : Int) ≤ port.toNat ∧ (port.toNat : Int) < 2 ^ 16 := by
    have bound := port.toNat_lt
    omega
  rw [encapsulate, Probe.packShort, if_pos short, Address.datagram, named_header]
  unfold Destination.isIPv4 IPAddress.endpoint
  by_cases four : address.packed.length = 4
  · simp [four, Probe.ADDRESS_IPV4, kAddressTypeIPv4]
  · simp [four, Probe.ADDRESS_IPV6, kAddressTypeIPv6]

theorem announced_named (destination : Destination) (port : Nat) (payload : Bytes) :
    announced (destination.named.datagram port payload) = some (destination.named.header port).length := by
  rw [named_header_length]
  unfold Destination.named udpHeaderSize Destination.isIPv4
  by_cases four : destination.address.length = 4
  · simp [four, Address.datagram, Address.header, Address.encoded, announced]
  · simp [four, Address.datagram, Address.header, Address.encoded, announced, kAddressTypeIPv4, kAddressTypeIPv6]

/-- Probe and client speak one format exactly where ten bytes are the right measure. -/
theorem formats_agree_iff (datagram : Bytes) (address : IPAddress) (port : UInt16) (payload : Bytes) :
    OneFormat datagram address port payload ↔ MeasuredAlike datagram := by
  constructor
  · intro one
    exact (strips_iff datagram).mp one.strips
  · intro alike
    have size := named_header_length (address.endpoint port) (address.endpoint port).port
    have room : udpHeaderSize (address.endpoint port) ≤ 22 ∧ 10 ≤ udpHeaderSize (address.endpoint port) := by
      unfold udpHeaderSize
      split <;> decide
    constructor
    · exact (strips_iff datagram).mpr alike
    · have written := @writeUdpHeader_ok (address.endpoint port)
        (List.replicate (udpHeaderSize (address.endpoint port)) 0) (Nat.le_of_eq List.length_replicate.symm)
      rw [List.drop_eq_nil_of_le (Nat.le_of_eq List.length_replicate), List.append_nil] at written
      exact ⟨_, written, encapsulate_ok address port payload⟩
    · refine ⟨_, encapsulate_ok address port payload, ?_⟩
      rw [probe_strips]
      have whole : ((address.endpoint port).named.datagram (address.endpoint port).port payload).length =
          udpHeaderSize (address.endpoint port) + payload.length := by
        rw [Address.datagram, List.length_append, size]
      refine ⟨by omega, _, announced_named _ _ _, ?_⟩
      exact List.drop_left.symm

def probed : IPAddress := ⟨[127, 0, 0, 1], .inl rfl⟩

/-- A header of a name of one byte, which the probe takes for too short, and one of an IPv6 address cut off after ten
    bytes, which it takes for whole. -/
theorem short_header_refused :
    udpPayloadOffset [0, 0, 0, 3, 1, 97, 1, 187, 7] = .ok 8 ∧
      stripHeader [0, 0, 0, 3, 1, 97, 1, 187, 7] =
        .error (.probeFailed ("the relay returned " ++ toString 9 ++ " bytes, too few to be wrapped")) ∧
      ¬OneFormat [0, 0, 0, 3, 1, 97, 1, 187, 7] probed 443 [7] ∧
      udpPayloadOffset [0, 0, 0, 4, 0, 0, 0, 0, 0, 0] = .ok 0 ∧ stripHeader [0, 0, 0, 4, 0, 0, 0, 0, 0, 0] = .ok [] ∧
      ¬OneFormat [0, 0, 0, 4, 0, 0, 0, 0, 0, 0] probed 443 [7] := by
  have found : udpPayloadOffset [0, 0, 0, 3, 1, 97, 1, 187, 7] = .ok 8 := by decide
  have refused : stripHeader [0, 0, 0, 3, 1, 97, 1, 187, 7] =
      .error (.probeFailed ("the relay returned " ++ toString 9 ++ " bytes, too few to be wrapped")) := rfl
  have malformed : udpPayloadOffset [0, 0, 0, 4, 0, 0, 0, 0, 0, 0] = .ok 0 := by decide
  have empty : stripHeader [0, 0, 0, 4, 0, 0, 0, 0, 0, 0] = .ok [] := rfl
  refine ⟨found, refused, fun one => ?_, malformed, empty, fun one => ?_⟩
  · have stripped := (one.strips [7]).mpr ⟨8, found, by decide, rfl⟩
    rw [refused] at stripped
    cases stripped
  · obtain ⟨offset, nonzero, positive, _⟩ := (one.strips []).mp empty
    rw [malformed] at nonzero
    exact positive (Except.ok.inj nonzero).symm

end Cronet.Socks
