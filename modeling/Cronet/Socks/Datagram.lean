import Cronet.Lib.Checked
import Cronet.Native.Body

namespace Cronet.Socks

open Cronet.Native (Bytes)

def kAddressTypeIPv4 : UInt8 := 0x01
def kAddressTypeDomain : UInt8 := 0x03
def kAddressTypeIPv6 : UInt8 := 0x04

def kUdpHeaderSizeIPv4 : Nat := 2 + 1 + 1 + 4 + 2
def kUdpHeaderSizeIPv6 : Nat := 2 + 1 + 1 + 16 + 2

def ERR_SOCKS_CONNECTION_FAILED : Int := -120
def ERR_MSG_TOO_BIG : Int := -142

def udpPayloadOffset (datagram : Bytes) : Checked Nat := do
  if datagram.length < 4 then return 0
  let addressType ← Span.get datagram 3
  if addressType = kAddressTypeIPv4 then
    return if kUdpHeaderSizeIPv4 ≤ datagram.length then kUdpHeaderSizeIPv4 else 0
  else if addressType = kAddressTypeIPv6 then
    return if kUdpHeaderSizeIPv6 ≤ datagram.length then kUdpHeaderSizeIPv6 else 0
  else if addressType = kAddressTypeDomain then
    let nameLength ← Span.get datagram 4
    let length := 5 + nameLength.toNat + 2
    return if length ≤ datagram.length then length else 0
  else return 0

/-- The lambda of `Read`: the result handed to the caller, and the buffer it leaves. -/
def unwrap (wrapped userBuf : Bytes) (userBufLen : Nat) (result : Int) : Checked (Int × Bytes) := do
  if result ≤ 0 then return (result, userBuf)
  let datagram ← Span.first wrapped result.toNat
  let offset ← udpPayloadOffset datagram
  if offset = 0 then return (ERR_SOCKS_CONNECTION_FAILED, userBuf)
  let payload ← Span.subspan datagram offset
  if userBufLen < payload.length then return (ERR_MSG_TOO_BIG, userBuf)
  let _ ← Span.first userBuf payload.length
  return (payload.length, payload ++ userBuf.drop payload.length)

/-- A read of the UDP socket into a new buffer: one that is too short takes nothing. -/
def udpSocketRead (datagram : Bytes) (bufLen : Nat) : Int × Bytes :=
  if datagram.length ≤ bufLen then (datagram.length, datagram ++ List.replicate (bufLen - datagram.length) 0)
  else (ERR_MSG_TOO_BIG, List.replicate bufLen 0)

/-- `SOCKS5UDPClientSocket::Read` of one datagram from the relay. -/
def read (userBuf : Bytes) (bufLen : Nat) (datagram : Bytes) : Checked (Int × Bytes) := do
  let wrappedLen ← Checked.int32 (bufLen + kUdpHeaderSizeIPv6)
  let (result, wrapped) := udpSocketRead datagram wrappedLen
  unwrap wrapped userBuf bufLen result

def CutAtDomain (datagram : Bytes) : Prop := datagram.length = 4 ∧ datagram[3]? = some kAddressTypeDomain

instance (datagram : Bytes) : Decidable (CutAtDomain datagram) := inferInstanceAs (Decidable (_ ∧ _))

theorem whole_or_zero (size length : Nat) :
    (if size ≤ length then size else 0) = 0 ∨ (if size ≤ length then size else 0) ≤ length := by
  split <;> omega

theorem udpPayloadOffset_iff {datagram : Bytes} :
    (∃ offset, udpPayloadOffset datagram = .ok offset ∧ (offset = 0 ∨ offset ≤ datagram.length)) ↔
      ¬CutAtDomain datagram := by
  unfold udpPayloadOffset CutAtDomain
  by_cases short : datagram.length < 4
  · simp only [short, ↓reduceIte]
    exact iff_of_true ⟨0, rfl, .inl rfl⟩ fun cut => by omega
  · have third : 3 < datagram.length := by omega
    simp only [short, ↓reduceIte, Span.get_of_lt third, List.getElem?_eq_getElem third, Option.some.injEq]
    show (∃ offset, (if datagram[3] = kAddressTypeIPv4 then _ else _) = Except.ok offset ∧ _) ↔ _
    split
    · rename_i ipv4
      rw [ipv4]
      exact iff_of_true ⟨_, rfl, whole_or_zero _ _⟩ fun cut => absurd cut.2 (by decide)
    split
    · rename_i ipv6
      rw [ipv6]
      exact iff_of_true ⟨_, rfl, whole_or_zero _ _⟩ fun cut => absurd cut.2 (by decide)
    split
    · rename_i domain
      by_cases cut : datagram.length = 4
      · rw [Span.get_of_le (by omega)]
        apply iff_of_false
        · rintro ⟨offset, found, _⟩
          cases found
        · exact fun whole => whole ⟨cut, domain⟩
      · rw [Span.get_of_lt (show 4 < datagram.length by omega)]
        exact iff_of_true ⟨_, rfl, whole_or_zero _ _⟩ fun short => cut short.1
    · rename_i other
      exact iff_of_true ⟨0, rfl, .inl rfl⟩ fun cut => other cut.2

/-- What a call of `Read` comes to when it indexes nothing that is not there: an offset within the
    datagram, and nothing stored behind the caller's `buf_len` bytes. -/
structure InBounds (userBuf : Bytes) (bufLen : Nat) (datagram : Bytes) : Prop where
  offset : ∃ offset, udpPayloadOffset datagram = .ok offset ∧ (offset = 0 ∨ offset ≤ datagram.length)
  copied : ∃ rv after, read userBuf bufLen datagram = .ok (rv, after) ∧ after.length = userBuf.length ∧
    after.drop bufLen = userBuf.drop bufLen

theorem unwrap_copies {wrapped userBuf datagram : Bytes} {bufLen offset : Nat} {result : Int}
    (fits : bufLen ≤ userBuf.length) (taken : 0 < result → Span.first wrapped result.toNat = .ok datagram)
    (found : udpPayloadOffset datagram = .ok offset) (within : offset = 0 ∨ offset ≤ datagram.length) :
    ∃ rv after, unwrap wrapped userBuf bufLen result = .ok (rv, after) ∧ after.length = userBuf.length ∧
      after.drop bufLen = userBuf.drop bufLen := by
  unfold unwrap
  by_cases failed : result ≤ 0
  · rw [if_pos failed]
    exact ⟨result, userBuf, rfl, rfl, rfl⟩
  rw [if_neg failed, taken (by omega)]
  show ∃ rv after, (udpPayloadOffset datagram >>= _) = _ ∧ _
  rw [found]
  show ∃ rv after, (if offset = 0 then _ else _) = Except.ok (rv, after) ∧ _
  by_cases malformed : offset = 0
  · rw [if_pos malformed]
    exact ⟨_, userBuf, rfl, rfl, rfl⟩
  rw [if_neg malformed, Span.subspan_of_le (within.resolve_left malformed)]
  generalize datagram.drop offset = payload
  show ∃ rv after, (if bufLen < payload.length then _ else _) = Except.ok (rv, after) ∧ _
  by_cases long : bufLen < payload.length
  · rw [if_pos long]
    exact ⟨_, userBuf, rfl, rfl, rfl⟩
  rw [if_neg long, Span.first_of_le (by omega)]
  refine ⟨_, _, rfl, ?_, ?_⟩
  · rw [List.length_append, List.length_drop]
    omega
  · rw [List.drop_append, List.drop_eq_nil_of_le (by omega), List.nil_append, List.drop_drop]
    congr 1
    omega

/-- Reading a datagram stays in bounds exactly when its header is not cut off at a domain, and the
    length of the buffer behind it is an `int`. -/
theorem read_inBounds_iff {userBuf : Bytes} {bufLen : Nat} (fits : bufLen ≤ userBuf.length) (datagram : Bytes) :
    InBounds userBuf bufLen datagram ↔ ¬CutAtDomain datagram ∧ bufLen + kUdpHeaderSizeIPv6 < 2 ^ 31 := by
  constructor
  · rintro ⟨offset, rv, after, ran, _⟩
    obtain ⟨wrappedLen, int, _⟩ := Checked.bind_ok ran
    exact ⟨udpPayloadOffset_iff.mp offset, Checked.lt_of_int32 int⟩
  · rintro ⟨whole, int⟩
    have offset := udpPayloadOffset_iff.mpr whole
    refine ⟨offset, ?_⟩
    obtain ⟨offset, found, within⟩ := offset
    unfold read
    rw [Checked.int32_of_lt int]
    show ∃ rv after, unwrap (udpSocketRead datagram (bufLen + kUdpHeaderSizeIPv6)).2 userBuf bufLen
      (udpSocketRead datagram (bufLen + kUdpHeaderSizeIPv6)).1 = _ ∧ _
    refine unwrap_copies fits (fun positive => ?_) found within
    unfold udpSocketRead at positive ⊢
    split
    · rw [Span.first_of_le (by simp)]
      simp
    · rename_i long
      rw [if_neg long] at positive
      exact absurd (show 0 < ERR_MSG_TOO_BIG from positive) (by decide)

theorem read_inBounds_ipv4 : InBounds [0, 0] 2 [0, 0, 0, 1, 127, 0, 0, 1, 0, 53, 7] :=
  (read_inBounds_iff (by decide) _).mpr (by decide)

/-- Four bytes that announce a domain: the length byte behind them is not there. -/
theorem read_cut_at_domain : ¬InBounds [0, 0] 2 [0, 0, 0, 3] := by
  intro ⟨⟨_, found, _⟩, _⟩
  rw [show udpPayloadOffset [0, 0, 0, 3] = .error .outOfBounds by decide] at found
  cases found

end Cronet.Socks
