import Cronet.Socks.Datagram

namespace Cronet.Socks

open Cronet.Native (Bytes)

inductive Address where
  | ipv4 (address : Bytes) (four : address.length = 4)
  | ipv6 (address : Bytes) (sixteen : address.length = 16)
  | domain (name : Bytes) (short : name.length ≤ 255)

def Address.encoded : Address → Bytes
  | ipv4 address _ => kAddressTypeIPv4 :: address
  | ipv6 address _ => kAddressTypeIPv6 :: address
  | domain name _ => kAddressTypeDomain :: UInt8.ofNat name.length :: name

/-- A datagram whose address and port are complete, the reserved bytes and the fragment byte as they may be. -/
structure Packet where
  reserved : UInt8 × UInt8
  fragment : UInt8
  source : Address
  port : UInt8 × UInt8
  payload : Bytes

namespace Packet

def header (p : Packet) : Bytes :=
  p.reserved.1 :: p.reserved.2 :: p.fragment :: (p.source.encoded ++ [p.port.1, p.port.2])

def bytes (p : Packet) : Bytes := p.header ++ p.payload

theorem bytes_length (p : Packet) : p.bytes.length = p.header.length + p.payload.length := List.length_append

theorem drop_header (p : Packet) : p.bytes.drop p.header.length = p.payload := List.drop_left

theorem payloadOffset (p : Packet) : udpPayloadOffset p.bytes = .ok p.header.length := by
  obtain ⟨reserved, fragment, source, port, payload⟩ := p
  generalize whole : Packet.mk reserved fragment source port payload = p
  have within : p.header.length ≤ p.bytes.length := by
    rw [bytes_length]
    omega
  subst whole
  unfold udpPayloadOffset
  cases source with
  | ipv4 address four =>
    have size : (Packet.mk reserved fragment (.ipv4 address four) port payload).header.length = kUdpHeaderSizeIPv4 := by
      simp [header, Address.encoded, four, kUdpHeaderSizeIPv4]
    rw [if_neg (by simp [bytes, header, Address.encoded])]
    rw [size] at within ⊢
    show Except.ok (if kUdpHeaderSizeIPv4 ≤ _ then kUdpHeaderSizeIPv4 else 0) = _
    rw [if_pos within]
  | ipv6 address sixteen =>
    have size : (Packet.mk reserved fragment (.ipv6 address sixteen) port payload).header.length = kUdpHeaderSizeIPv6 := by
      simp [header, Address.encoded, sixteen, kUdpHeaderSizeIPv6]
    rw [if_neg (by simp [bytes, header, Address.encoded])]
    rw [size] at within ⊢
    show Except.ok (if kUdpHeaderSizeIPv6 ≤ _ then kUdpHeaderSizeIPv6 else 0) = _
    rw [if_pos within]
  | domain name short =>
    have size : (Packet.mk reserved fragment (.domain name short) port payload).header.length =
        5 + (UInt8.ofNat name.length).toNat + 2 := by
      simp [header, Address.encoded]
      omega
    rw [if_neg (by simp [bytes, header, Address.encoded])]
    rw [size] at within ⊢
    show Except.ok (if 5 + (UInt8.ofNat name.length).toNat + 2 ≤ _ then _ else 0) = _
    rw [if_pos within]

end Packet

theorem whole_of_found {size length offset : Nat} (found : (if size ≤ length then size else 0) = offset)
    (positive : offset ≠ 0) : size ≤ length ∧ offset = size := by
  split at found
  · exact ⟨by assumption, found.symm⟩
  · exact absurd found.symm positive

theorem packet_of_source {first second fragment : UInt8} {front rest : Bytes} {size : Nat} (source : Address)
    (encoded : source.encoded = front ++ rest.take size) (complete : size + 2 ≤ rest.length) :
    ∃ p : Packet, p.bytes = first :: second :: fragment :: (front ++ rest) ∧ p.header.length = front.length + size + 5 := by
  have taken : (rest.take size).length = size := by
    rw [List.length_take]
    omega
  have behind : 2 ≤ (rest.drop size).length := by
    rw [List.length_drop]
    omega
  match port : rest.drop size with
  | [] => simp [port] at behind
  | [_] => simp [port] at behind
  | high :: low :: payload =>
    apply Exists.intro ⟨(first, second), fragment, source, (high, low), payload⟩
    constructor
    · have split : rest = rest.take size ++ high :: low :: payload := by
        rw [← port, List.take_append_drop]
      simp only [Packet.bytes, Packet.header, encoded, List.cons_append, List.append_assoc, List.nil_append]
      rw [← split]
    · simp only [Packet.header, encoded, List.length_cons, List.length_append, List.length_nil, taken]

/-- The offset that is found, if it is one, is behind a header that is complete. -/
theorem packet_of_payloadOffset {datagram : Bytes} {offset : Nat} (found : udpPayloadOffset datagram = .ok offset)
    (positive : offset ≠ 0) : ∃ p : Packet, p.bytes = datagram ∧ p.header.length = offset := by
  unfold udpPayloadOffset at found
  match datagram with
  | [] | [_] | [_, _] | [_, _, _] =>
    cases found
    exact absurd rfl positive
  | first :: second :: fragment :: type :: rest =>
    rw [if_neg (by simp)] at found
    have kind : Span.get (first :: second :: fragment :: type :: rest) 3 = .ok type := rfl
    rw [kind, Checked.ok_bind] at found
    split at found
    · rename_i ipv4
      subst ipv4
      obtain ⟨within, rfl⟩ := whole_of_found (Except.ok.inj found) positive
      have complete : 4 + 2 ≤ rest.length := by
        simp only [kUdpHeaderSizeIPv4, List.length_cons] at within
        omega
      have four : (rest.take 4).length = 4 := List.length_take_of_le (by omega)
      have encoded : (Address.ipv4 (rest.take 4) four).encoded = [kAddressTypeIPv4] ++ rest.take 4 := rfl
      exact packet_of_source _ encoded complete
    split at found
    · rename_i ipv6
      subst ipv6
      obtain ⟨within, rfl⟩ := whole_of_found (Except.ok.inj found) positive
      have complete : 16 + 2 ≤ rest.length := by
        simp only [kUdpHeaderSizeIPv6, List.length_cons] at within
        omega
      have sixteen : (rest.take 16).length = 16 := List.length_take_of_le (by omega)
      have encoded : (Address.ipv6 (rest.take 16) sixteen).encoded = [kAddressTypeIPv6] ++ rest.take 16 := rfl
      exact packet_of_source _ encoded complete
    split at found
    · rename_i domain
      subst domain
      cases rest with
      | nil => cases found
      | cons length rest =>
        have count : Span.get (first :: second :: fragment :: kAddressTypeDomain :: length :: rest) 4 = .ok length := rfl
        rw [count, Checked.ok_bind] at found
        obtain ⟨within, rfl⟩ := whole_of_found (Except.ok.inj found) positive
        have complete : length.toNat + 2 ≤ rest.length := by
          simp only [List.length_cons] at within
          omega
        have named : (rest.take length.toNat).length = length.toNat := List.length_take_of_le (by omega)
        have short : (rest.take length.toNat).length ≤ 255 := by
          have bound := length.toNat_lt
          omega
        have encoded : (Address.domain (rest.take length.toNat) short).encoded =
            [kAddressTypeDomain, length] ++ rest.take length.toNat := by
          rw [Address.encoded, named, UInt8.ofNat_toNat]
          rfl
        obtain ⟨p, bytes, size⟩ := packet_of_source _ encoded complete
        refine ⟨p, bytes, ?_⟩
        rw [size]
        simp only [List.length_cons, List.length_nil]
        omega
    · cases found
      exact absurd rfl positive

theorem read_ok {userBuf after datagram : Bytes} {bufLen : Nat} {rv : Int}
    (ran : read userBuf bufLen datagram = .ok (rv, after)) :
    rv ≤ 0 ∧ after = userBuf ∨ ∃ p : Packet, p.bytes = datagram ∧ p.payload.length ≤ bufLen ∧
      datagram.length ≤ bufLen + kUdpHeaderSizeIPv6 ∧ rv = p.payload.length ∧
        after = p.payload ++ userBuf.drop p.payload.length := by
  unfold read at ran
  obtain ⟨wrappedLen, int, ran⟩ := Checked.bind_ok ran
  rw [Checked.int32_of_lt (Checked.lt_of_int32 int)] at int
  cases int
  unfold udpSocketRead at ran
  by_cases short : datagram.length ≤ bufLen + kUdpHeaderSizeIPv6
  · rw [if_pos short] at ran
    unfold unwrap at ran
    dsimp only at ran
    by_cases empty : (datagram.length : Int) ≤ 0
    · rw [if_pos empty] at ran
      cases ran
      exact .inl ⟨empty, rfl⟩
    rw [if_neg empty, Int.toNat_natCast, Span.first_of_le (by simp), List.take_left, Checked.ok_bind] at ran
    obtain ⟨offset, found, ran⟩ := Checked.bind_ok ran
    by_cases malformed : offset = 0
    · rw [if_pos malformed] at ran
      cases ran
      exact .inl ⟨by decide, rfl⟩
    obtain ⟨p, rfl, rfl⟩ := packet_of_payloadOffset found malformed
    rw [if_neg malformed, Span.subspan_of_le (by rw [p.bytes_length]; omega), p.drop_header, Checked.ok_bind] at ran
    by_cases long : bufLen < p.payload.length
    · rw [if_pos long] at ran
      cases ran
      exact .inl ⟨by decide, rfl⟩
    rw [if_neg long] at ran
    obtain ⟨_, _, ran⟩ := Checked.bind_ok ran
    cases ran
    exact .inr ⟨p, rfl, by omega, short, rfl, rfl⟩
  · rw [if_neg short] at ran
    cases ran
    exact .inl ⟨by decide, rfl⟩

theorem read_packet {userBuf : Bytes} {bufLen : Nat} (fits : bufLen ≤ userBuf.length) (p : Packet)
    (room : p.payload.length ≤ bufLen) (int : bufLen + kUdpHeaderSizeIPv6 < 2 ^ 31)
    (short : p.bytes.length ≤ bufLen + kUdpHeaderSizeIPv6) :
    read userBuf bufLen p.bytes = .ok (p.payload.length, p.payload ++ userBuf.drop p.payload.length) := by
  have whole := p.bytes_length
  have header : 0 < p.header.length := Nat.zero_lt_succ _
  unfold read
  rw [Checked.int32_of_lt int, Checked.ok_bind, udpSocketRead, if_pos short]
  unfold unwrap
  dsimp only
  have positive : ¬(p.bytes.length : Int) ≤ 0 := by omega
  rw [if_neg positive, Int.toNat_natCast, Span.first_of_le (by simp), List.take_left, Checked.ok_bind, p.payloadOffset,
    Checked.ok_bind, if_neg (by omega), Span.subspan_of_le (by omega), p.drop_header, Checked.ok_bind, if_neg (by omega),
    Span.first_of_le (by omega), Checked.ok_bind]
  rfl

end Cronet.Socks
