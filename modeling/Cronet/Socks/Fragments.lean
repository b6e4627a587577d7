import Cronet.Socks.Packet

namespace Cronet.Socks

open Cronet.Native (Bytes)

/-- What RFC 1928 has a client without reassembly take: a packet that is no fragment. -/
def Packet.WellFormed (p : Packet) : Prop := p.fragment = 0x00

instance (p : Packet) : Decidable p.WellFormed := inferInstanceAs (Decidable (_ = _))

/-- Bytes are handed on only of a well-formed packet, and then what follows its header; of anything else, no byte
    reaches the caller's buffer. -/
def Unwraps (userBuf : Bytes) (bufLen : Nat) (datagram : Bytes) : Prop :=
  ∀ rv after, read userBuf bufLen datagram = .ok (rv, after) →
    if 0 < rv then
      ∃ p : Packet, p.bytes = datagram ∧ p.WellFormed ∧ rv = p.payload.length ∧
        after = p.payload ++ userBuf.drop p.payload.length
    else after = userBuf

def Slips (bufLen : Nat) (datagram : Bytes) : Prop :=
  ∃ p : Packet, p.bytes = datagram ∧ ¬p.WellFormed ∧ p.payload ≠ [] ∧ p.payload.length ≤ bufLen ∧
    datagram.length ≤ bufLen + kUdpHeaderSizeIPv6 ∧ bufLen + kUdpHeaderSizeIPv6 < 2 ^ 31

theorem Packet.fragment_eq {p q : Packet} (same : p.bytes = q.bytes) : p.fragment = q.fragment := by
  injection same with _ same
  injection same with _ same
  injection same

/-- A read hands on what a well-formed packet carries and nothing else, unless it is given a fragment. -/
theorem unwraps_iff {userBuf : Bytes} {bufLen : Nat} (fits : bufLen ≤ userBuf.length) (datagram : Bytes) :
    Unwraps userBuf bufLen datagram ↔ ¬Slips bufLen datagram := by
  constructor
  · rintro unwraps ⟨p, rfl, fragment, carries, room, short, int⟩
    have delivered := unwraps _ _ (read_packet fits p room int short)
    have positive : (0 : Int) < p.payload.length := by
      have nonempty := List.length_pos_iff.mpr carries
      omega
    rw [if_pos positive] at delivered
    obtain ⟨q, same, whole, _⟩ := delivered
    apply fragment
    rw [Packet.WellFormed, ← Packet.fragment_eq same]
    exact whole
  · intro taken rv after ran
    rcases read_ok ran with ⟨nothing, kept⟩ | ⟨p, rfl, room, short, told, copied⟩
    · rwa [if_neg (by omega)]
    · by_cases positive : 0 < rv
      · rw [if_pos positive]
        refine ⟨p, rfl, ?_, told, copied⟩
        by_contra fragment
        apply taken
        have carries : p.payload ≠ [] := by
          intro empty
          have none : p.payload.length = 0 := List.length_eq_zero_iff.mpr empty
          omega
        unfold read at ran
        obtain ⟨wrappedLen, int, _⟩ := Checked.bind_ok ran
        exact ⟨p, rfl, fragment, carries, room, short, Checked.lt_of_int32 int⟩
      · rw [if_neg positive]
        have empty : p.payload = [] := by
          apply List.length_eq_zero_iff.mp
          omega
        rw [copied, empty]
        rfl

theorem unwraps_unfragmented : Unwraps [0, 0] 2 [0, 0, 0, 1, 127, 0, 0, 1, 1, 187, 7] := by
  apply (unwraps_iff (by decide) _).mpr
  rintro ⟨p, same, fragment, _⟩
  apply fragment
  exact @Packet.fragment_eq p ⟨(0, 0), 0, .ipv4 [127, 0, 0, 1] rfl, (1, 187), [7]⟩ same

/-- The second fragment of something, of which the payload is handed on as a datagram of its own. -/
theorem fragment_delivered :
    read [0, 0] 2 [0, 0, 2, 1, 127, 0, 0, 1, 1, 187, 7] = .ok (1, [7, 0]) ∧
      ¬Unwraps [0, 0] 2 [0, 0, 2, 1, 127, 0, 0, 1, 1, 187, 7] := by
  have delivered : read [0, 0] 2 [0, 0, 2, 1, 127, 0, 0, 1, 1, 187, 7] = .ok (1, [7, 0]) := by decide
  refine ⟨delivered, fun unwraps => ?_⟩
  have whole := unwraps _ _ delivered
  rw [if_pos (by decide)] at whole
  obtain ⟨p, same, unfragmented, _⟩ := whole
  have fragment := @Packet.fragment_eq p ⟨(0, 0), 2, .ipv4 [127, 0, 0, 1] rfl, (1, 187), [7]⟩ same
  rw [unfragmented] at fragment
  cases fragment

end Cronet.Socks
