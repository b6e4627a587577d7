import Cronet.Socks.Packet
import Cronet.Socks.Udp

namespace Cronet.Socks

open Cronet.Native (Bytes)

def ERR_FAILED : Int := -2

def u16ToBigEndian (port : Nat) : Bytes := [UInt8.ofNat (port / 2 ^ 8), UInt8.ofNat port]

namespace Address

def header (source : Address) (port : Nat) : Bytes := 0x00 :: 0x00 :: 0x00 :: (source.encoded ++ u16ToBigEndian port)

def datagram (source : Address) (port : Nat) (payload : Bytes) : Bytes := source.header port ++ payload

def packet (source : Address) (port : Nat) (payload : Bytes) : Packet :=
  ⟨(0x00, 0x00), 0x00, source, (UInt8.ofNat (port / 2 ^ 8), UInt8.ofNat port), payload⟩

end Address

/-- An `IPEndPoint` of either family. -/
structure Destination extends IPEndPoint where
  family : address.length = 4 ∨ address.length = 16

namespace Destination

def isIPv4 (destination : Destination) : Bool := destination.address.length = 4

def named (destination : Destination) : Address :=
  if four : destination.address.length = 4 then .ipv4 destination.address four
  else .ipv6 destination.address (destination.family.resolve_left four)

end Destination

def udpHeaderSize (endpoint : Destination) : Nat :=
  if endpoint.isIPv4 then kUdpHeaderSizeIPv4 else kUdpHeaderSizeIPv6

def writeUdpHeader (destination : Destination) (out : Bytes) : Checked Bytes := do
  let out ← Span.put out 0 [0x00]
  let out ← Span.put out 1 [0x00]
  let out ← Span.put out 2 [0x00]
  let out ← Span.put out 3 [if destination.isIPv4 then kAddressTypeIPv4 else kAddressTypeIPv6]
  let out ← Span.put out 4 destination.address
  Span.put out (4 + destination.address.length) (u16ToBigEndian destination.port)

/-- The lambda of `Write`. -/
def toPayloadLength (result : Int) (headerSize : Nat) : Int :=
  if result < 0 then result else if result < headerSize then ERR_FAILED else result - headerSize

/-- `SOCKS5UDPClientSocket::Write`: what is put on the wire, and what the caller is told. The UDP socket returns
    `result`, or completes with it after `ERR_IO_PENDING`. -/
def write (destination : Destination) (buf : Bytes) (bufLen : Nat) (result : Int) : Checked (Bytes × Int) := do
  let headerSize := udpHeaderSize destination
  let size ← Checked.int32 (headerSize + bufLen)
  let wrapped ← writeUdpHeader destination (List.replicate size 0)
  let payload ← Span.first buf bufLen
  let wrapped ← Span.put wrapped headerSize payload
  return (wrapped, if result = ERR_IO_PENDING then result else toPayloadLength result headerSize)

/-- The caller has the payload in front of what its buffer held, and its length. -/
def Delivers (userBuf : Bytes) (bufLen : Nat) (datagram payload : Bytes) : Prop :=
  read userBuf bufLen datagram = .ok (payload.length, payload ++ userBuf.drop payload.length)

def ReadsBack (userBuf : Bytes) (bufLen : Nat) (destination : Destination) (payload beyond : Bytes) (result : Int) :
    Prop :=
  ∃ wire told, write destination (payload ++ beyond) payload.length result = .ok (wire, told) ∧
    Delivers userBuf bufLen wire payload

/-- The payload goes out behind its header, and its length is reported where all of the datagram is sent and an error
    where it is not. -/
def ReportsSent (destination : Destination) (payload beyond : Bytes) (result : Int) : Prop :=
  ∃ told, write destination (payload ++ beyond) payload.length result =
      .ok (destination.named.datagram destination.port payload, told) ∧
    if result = (destination.named.datagram destination.port payload).length then told = payload.length
    else told = ERR_FAILED ∨ result < 0 ∧ told = result

theorem read_fits {userBuf payload : Bytes} {bufLen : Nat} (fits : bufLen ≤ userBuf.length)
    (room : payload.length ≤ bufLen) (int : bufLen + kUdpHeaderSizeIPv6 < 2 ^ 31) (source : Address) (port : Nat)
    (short : (source.datagram port payload).length ≤ bufLen + kUdpHeaderSizeIPv6) :
    Delivers userBuf bufLen (source.datagram port payload) payload :=
  read_packet fits (source.packet port payload) room int short

theorem read_long {userBuf datagram : Bytes} {bufLen : Nat} (int : bufLen + kUdpHeaderSizeIPv6 < 2 ^ 31)
    (long : bufLen + kUdpHeaderSizeIPv6 < datagram.length) :
    read userBuf bufLen datagram = .ok (ERR_MSG_TOO_BIG, userBuf) := by
  unfold read
  rw [Checked.int32_of_lt int, Checked.ok_bind, udpSocketRead, if_neg (by omega)]
  rfl

theorem delivers_int {userBuf datagram payload : Bytes} {bufLen : Nat}
    (delivers : Delivers userBuf bufLen datagram payload) : bufLen + kUdpHeaderSizeIPv6 < 2 ^ 31 := by
  obtain ⟨size, int, _⟩ := Checked.bind_ok delivers
  exact Checked.lt_of_int32 int

theorem delivers_iff {userBuf payload : Bytes} {bufLen : Nat} (fits : bufLen ≤ userBuf.length)
    (room : payload.length ≤ bufLen) (source : Address) (port : Nat) :
    Delivers userBuf bufLen (source.datagram port payload) payload ↔
      (source.datagram port payload).length ≤ bufLen + kUdpHeaderSizeIPv6 ∧ bufLen + kUdpHeaderSizeIPv6 < 2 ^ 31 := by
  constructor
  · intro delivers
    have int := delivers_int delivers
    refine ⟨?_, int⟩
    by_contra long
    rw [Delivers, read_long int (by omega)] at delivers
    have told := (Prod.mk.inj (Except.ok.inj delivers)).1
    unfold ERR_MSG_TOO_BIG at told
    omega
  · rintro ⟨short, int⟩
    exact read_fits fits room int source port short

theorem named_header_length (destination : Destination) (port : Nat) :
    (destination.named.header port).length = udpHeaderSize destination := by
  unfold udpHeaderSize Destination.isIPv4 Destination.named
  by_cases four : destination.address.length = 4
  · simp [four, Address.header, Address.encoded, u16ToBigEndian, kUdpHeaderSizeIPv4]
  · have sixteen := destination.family.resolve_left four
    simp [sixteen, Address.header, Address.encoded, u16ToBigEndian, kUdpHeaderSizeIPv6]

theorem udpHeaderSize_eq (destination : Destination) :
    udpHeaderSize destination = 6 + destination.address.length := by
  unfold udpHeaderSize Destination.isIPv4
  rcases destination.family with four | sixteen
  · simp [four, kUdpHeaderSizeIPv4]
  · simp [sixteen, kUdpHeaderSizeIPv6]

theorem named_header (destination : Destination) :
    destination.named.header destination.port =
      [0x00, 0x00, 0x00, if destination.isIPv4 then kAddressTypeIPv4 else kAddressTypeIPv6] ++ destination.address ++
        u16ToBigEndian destination.port := by
  unfold Destination.named Destination.isIPv4
  split <;> rename_i four <;> simp [four, Address.header, Address.encoded]

theorem writeUdpHeader_ok {destination : Destination} {out : Bytes} (room : udpHeaderSize destination ≤ out.length) :
    writeUdpHeader destination out =
      .ok (destination.named.header destination.port ++ out.drop (udpHeaderSize destination)) := by
  rw [udpHeaderSize_eq] at room ⊢
  have room : 4 + destination.address.length + 2 ≤ out.length := by omega
  rw [named_header]
  unfold writeUdpHeader
  generalize (if destination.isIPv4 then kAddressTypeIPv4 else kAddressTypeIPv6) = type
  have first : Span.put out 0 [0x00] = _ := @Span.put_written _ [] [0x00] out 0 rfl (by simp; omega)
  have second := @Span.put_written _ [0x00] [0x00] out 1 rfl (by simp; omega)
  have third := @Span.put_written _ [0x00, 0x00] [0x00] out 2 rfl (by simp; omega)
  have fourth := @Span.put_written _ [0x00, 0x00, 0x00] [type] out 3 rfl (by simp; omega)
  have address := @Span.put_written _ [0x00, 0x00, 0x00, type] destination.address out 4 rfl (by omega)
  have port := @Span.put_written _ ([0x00, 0x00, 0x00, type] ++ destination.address) (u16ToBigEndian destination.port) out
    (4 + destination.address.length) (by simp; omega) room
  rw [first, Checked.ok_bind]
  show (Span.put ([0x00] ++ out.drop 1) 1 [0x00] >>= _) = _
  rw [second, Checked.ok_bind]
  show (Span.put ([0x00, 0x00] ++ out.drop 2) 2 [0x00] >>= _) = _
  rw [third, Checked.ok_bind]
  show (Span.put ([0x00, 0x00, 0x00] ++ out.drop 3) 3 [type] >>= _) = _
  rw [fourth, Checked.ok_bind]
  show (Span.put ([0x00, 0x00, 0x00, type] ++ out.drop 4) 4 destination.address >>= _) = _
  rw [address, Checked.ok_bind, port]
  congr 3
  simp only [u16ToBigEndian, List.length_cons, List.length_nil]
  omega

theorem write_ok {destination : Destination} {payload beyond : Bytes} (result : Int)
    (int : udpHeaderSize destination + payload.length < 2 ^ 31) :
    write destination (payload ++ beyond) payload.length result =
      .ok (destination.named.datagram destination.port payload,
        if result = ERR_IO_PENDING then result else toPayloadLength result (udpHeaderSize destination)) := by
  have size := named_header_length destination destination.port
  have room : (List.replicate (udpHeaderSize destination + payload.length) (0 : UInt8)).length =
      udpHeaderSize destination + payload.length := List.length_replicate
  have fits : payload.length ≤ (payload ++ beyond).length := by
    rw [List.length_append]
    exact Nat.le_add_right _ _
  have copied := Span.put_written size (Nat.le_of_eq room.symm)
  rw [List.drop_eq_nil_of_le (Nat.le_of_eq room), List.append_nil] at copied
  unfold write
  dsimp only
  rw [Checked.int32_of_lt int, Checked.ok_bind, writeUdpHeader_ok (by omega), Checked.ok_bind, Span.first_of_le fits,
    List.take_left, Checked.ok_bind, copied]
  rfl

theorem write_int {destination : Destination} {buf wire : Bytes} {bufLen : Nat} {result told : Int}
    (written : write destination buf bufLen result = .ok (wire, told)) :
    udpHeaderSize destination + bufLen < 2 ^ 31 := by
  obtain ⟨size, int, _⟩ := Checked.bind_ok written
  exact Checked.lt_of_int32 int

theorem readsBack_iff {userBuf payload beyond : Bytes} {bufLen : Nat} (fits : bufLen ≤ userBuf.length)
    (room : payload.length ≤ bufLen) (destination : Destination) (result : Int) :
    ReadsBack userBuf bufLen destination payload beyond result ↔ bufLen + kUdpHeaderSizeIPv6 < 2 ^ 31 := by
  constructor
  · rintro ⟨wire, told, _, delivers⟩
    exact delivers_int delivers
  · intro int
    have size := named_header_length destination destination.port
    have largest : udpHeaderSize destination ≤ kUdpHeaderSizeIPv6 := by
      unfold udpHeaderSize
      split <;> decide
    have written := @write_ok destination payload beyond result (by omega)
    refine ⟨_, _, written, (delivers_iff fits room _ _).mpr ⟨?_, int⟩⟩
    rw [Address.datagram, List.length_append, size]
    omega

theorem reportsSent_iff {payload beyond : Bytes} (destination : Destination) (result : Int) :
    ReportsSent destination payload beyond result ↔ udpHeaderSize destination + payload.length < 2 ^ 31 ∧
      (result < udpHeaderSize destination ∨ result = (udpHeaderSize destination + payload.length : Nat)) := by
  have whole : (destination.named.datagram destination.port payload).length =
      udpHeaderSize destination + payload.length := by
    rw [Address.datagram, List.length_append, named_header_length]
  unfold ReportsSent
  rw [whole]
  constructor
  · rintro ⟨told, written, right⟩
    have int := write_int written
    refine ⟨int, ?_⟩
    rw [write_ok result int] at written
    have same := (Prod.mk.inj (Except.ok.inj written)).2
    unfold toPayloadLength ERR_FAILED ERR_IO_PENDING at same
    unfold ERR_FAILED at right
    grind
  · rintro ⟨int, sent⟩
    refine ⟨_, write_ok result int, ?_⟩
    unfold toPayloadLength ERR_FAILED ERR_IO_PENDING
    grind

/-- A datagram of the relay is delivered exactly when it is no longer than the room there is, a written one is always
    read back, and its length is reported exactly when the socket sends all of it or less than its header. -/
theorem datagrams_exact_iff {userBuf payload beyond : Bytes} {bufLen : Nat} (fits : bufLen ≤ userBuf.length)
    (room : payload.length ≤ bufLen) (source : Address) (port : Nat) (destination : Destination) (result : Int) :
    (Delivers userBuf bufLen (source.datagram port payload) payload ↔
        (source.datagram port payload).length ≤ bufLen + kUdpHeaderSizeIPv6 ∧ bufLen + kUdpHeaderSizeIPv6 < 2 ^ 31) ∧
      (ReadsBack userBuf bufLen destination payload beyond result ↔ bufLen + kUdpHeaderSizeIPv6 < 2 ^ 31) ∧
      (ReportsSent destination payload beyond result ↔ udpHeaderSize destination + payload.length < 2 ^ 31 ∧
        (result < udpHeaderSize destination ∨ result = (udpHeaderSize destination + payload.length : Nat))) :=
  ⟨delivers_iff fits room source port, readsBack_iff fits room destination result, reportsSent_iff destination result⟩

def localhost : Destination := ⟨⟨[127, 0, 0, 1], 443⟩, .inl rfl⟩

theorem datagrams_exact_named :
    Delivers [0, 0] 2 ((Address.domain [97, 46, 98] (by decide)).datagram 443 [7, 8]) [7, 8] ∧
      ReadsBack [0, 0] 2 localhost [7, 8] [] 12 ∧ ReportsSent localhost [7, 8] [] 12 := by
  obtain ⟨delivers, back, reports⟩ :=
    @datagrams_exact_iff [0, 0] [7, 8] [] 2 (by decide) (by decide) (.domain [97, 46, 98] (by decide)) 443 localhost 12
  exact ⟨delivers.mpr (by decide), back.mpr (by decide), reports.mpr (by decide)⟩

/-- A name of sixteen bytes in front of a payload that fills the buffer, and a write that ends within the payload. -/
theorem long_header_lost :
    read [0] 1 ((Address.domain (List.replicate 16 97) (by decide)).datagram 443 [7]) = .ok (ERR_MSG_TOO_BIG, [0]) ∧
      ¬Delivers [0] 1 ((Address.domain (List.replicate 16 97) (by decide)).datagram 443 [7]) [7] ∧
      ¬ReportsSent localhost [7, 8] [] 11 := by
  have lost : read [0] 1 ((Address.domain (List.replicate 16 97) (by decide)).datagram 443 [7]) =
      .ok (ERR_MSG_TOO_BIG, [0]) := by decide
  refine ⟨lost, fun delivers => ?_, fun reports => ?_⟩
  · rw [Delivers, lost] at delivers
    revert delivers
    decide
  · have sent := ((reportsSent_iff localhost 11).mp reports).2
    revert sent
    decide

end Cronet.Socks
