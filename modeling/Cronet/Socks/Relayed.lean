import Cronet.Socks.Relay

namespace Cronet.Socks

open Cronet.Native (Bytes)

namespace Server

theorem fromBytes_u16 {port : Nat} (short : port < 2 ^ 16) : fromBytes (u16ToBigEndian port) = port := by
  simp only [fromBytes, u16ToBigEndian, List.foldl_cons, List.foldl_nil, UInt8.toNat_ofNat']
  omega

theorem slice_middle {front middle rest : Bytes} {i j : Nat} (start : front.length = i) (stop : i + middle.length = j) :
    slice (front ++ (middle ++ rest)) i j = middle := by
  rw [slice, ← stop, ← start, List.take_length_add_append, List.take_left, List.drop_left]

theorem slices {type : UInt8} {address payload : Bytes} {port size : Nat} (sized : address.length = size) :
    slice ([0x00, 0x00, 0x00, type] ++ (address ++ (u16ToBigEndian port ++ payload))) 4 (4 + size) = address ∧
      slice ([0x00, 0x00, 0x00, type] ++ (address ++ (u16ToBigEndian port ++ payload))) (4 + size) (4 + size + 2) =
        u16ToBigEndian port ∧
      ([0x00, 0x00, 0x00, type] ++ (address ++ (u16ToBigEndian port ++ payload))).drop (4 + size + 2) = payload := by
  refine ⟨slice_middle rfl (by rw [sized]), ?_, ?_⟩
  · rw [← List.append_assoc]
    exact slice_middle (by simp [sized]; omega) rfl
  · rw [← List.append_assoc, ← List.append_assoc]
    exact List.drop_left' (by simp [sized, u16ToBigEndian]; omega)

theorem parseUdpHeader_named {destination : Destination} {payload : Bytes} (short : destination.port < 2 ^ 16) :
    parseUdpHeader (destination.named.datagram destination.port payload) =
      .ok (some (destination.toIPEndPoint, payload)) := by
  have port := fromBytes_u16 short
  rw [Address.datagram, named_header, List.append_assoc, List.append_assoc]
  rcases destination.family with four | sixteen
  · have isIPv4 : destination.isIPv4 = true := decide_eq_true four
    rcases @slices kAddressTypeIPv4 destination.address payload destination.port 4 four with ⟨host, ports, rest⟩
    rw [isIPv4, if_pos rfl, parseUdpHeader, if_neg (by simp [four, u16ToBigEndian]; omega)]
    show (do
      let host ← inetNtop 4 (slice _ 4 (4 + 4))
      return some (IPEndPoint.mk host (fromBytes (slice _ (4 + 4) (4 + 4 + 2))), List.drop (4 + 4 + 2) _)) = _
    rw [host, ports, rest, port, inetNtop, if_pos four]
    rfl
  · have isIPv4 : destination.isIPv4 = false := decide_eq_false (by omega)
    rcases @slices kAddressTypeIPv6 destination.address payload destination.port 16 sixteen with ⟨host, ports, rest⟩
    rw [isIPv4, if_neg Bool.false_ne_true, parseUdpHeader, if_neg (by simp [sixteen, u16ToBigEndian]; omega)]
    show (do
      let host ← inetNtop 16 (slice _ 4 (4 + 16))
      return some (IPEndPoint.mk host (fromBytes (slice _ (4 + 16) (4 + 16 + 2))), List.drop (4 + 16 + 2) _)) = _
    rw [host, ports, rest, port, inetNtop, if_pos sixteen]
    rfl

end Server

open Server (parseUdpHeader udpHeader parseUdpHeader_named)

def found (datagram : Bytes) : Option (IPEndPoint × Bytes) :=
  match parseUdpHeader datagram with
  | .ok target => target
  | .error _ => none

def wrapped (entry : IPEndPoint × Bytes) : Bytes := udpHeader entry.1 ++ entry.2

/-- What a read gives for an answer: all of it if there is room, and else an error. -/
def ReadCall.Gives (call : ReadCall) (answer : Bytes) : Prop :=
  call.outcome = if answer.length ≤ call.bufLen then .ok (answer.length, answer ++ call.userBuf.drop answer.length)
    else .ok (ERR_MSG_TOO_BIG, call.userBuf)

theorem found_named {destination : Destination} {payload : Bytes} (short : destination.port < 2 ^ 16) :
    found (destination.named.datagram destination.port payload) = some (destination.toIPEndPoint, payload) := by
  rw [found, parseUdpHeader_named short]

theorem wrapped_eq {source : IPEndPoint} (four : source.address.length = 4) (answer : Bytes) :
    wrapped (source, answer) = (Address.ipv4 source.address four).datagram source.port answer := rfl

theorem wrapped_drop {entry : IPEndPoint × Bytes} (four : entry.1.address.length = 4) :
    (wrapped entry).drop kUdpHeaderSizeIPv4 = entry.2 := by
  rw [wrapped_eq four]
  apply List.drop_left'
  simp [Address.header, Address.encoded, four, u16ToBigEndian, kUdpHeaderSizeIPv4]

theorem read_packet_long {userBuf : Bytes} {bufLen : Nat} (p : Packet) (int : bufLen + kUdpHeaderSizeIPv6 < 2 ^ 31)
    (long : bufLen < p.payload.length) : read userBuf bufLen p.bytes = .ok (ERR_MSG_TOO_BIG, userBuf) := by
  have whole := p.bytes_length
  have header : 0 < p.header.length := Nat.zero_lt_succ _
  by_cases short : p.bytes.length ≤ bufLen + kUdpHeaderSizeIPv6
  · have positive : ¬(p.bytes.length : Int) ≤ 0 := by omega
    unfold read
    rw [Checked.int32_of_lt int, Checked.ok_bind, udpSocketRead, if_pos short]
    unfold unwrap
    dsimp only
    rw [if_neg positive, Int.toNat_natCast, Span.first_of_le (by simp), List.take_left, Checked.ok_bind, p.payloadOffset,
      Checked.ok_bind, if_neg (by omega), Span.subspan_of_le (by omega), p.drop_header, Checked.ok_bind, if_pos long]
    rfl
  · exact read_long int (by omega)

theorem gives_wrapped {call : ReadCall} {entry : IPEndPoint × Bytes} (four : entry.1.address.length = 4)
    (datagram : call.datagram = wrapped entry) (fits : call.bufLen ≤ call.userBuf.length)
    (int : call.bufLen + kUdpHeaderSizeIPv6 < 2 ^ 31) : call.Gives entry.2 := by
  have size : (wrapped entry).length = kUdpHeaderSizeIPv4 + entry.2.length := by
    simp [wrapped, udpHeader, four, u16ToBigEndian, kUdpHeaderSizeIPv4]
    omega
  rw [ReadCall.Gives, ReadCall.outcome, datagram]
  by_cases room : entry.2.length ≤ call.bufLen
  · rw [if_pos room]
    have short : (wrapped entry).length ≤ call.bufLen + kUdpHeaderSizeIPv6 := by
      rw [size, kUdpHeaderSizeIPv4, kUdpHeaderSizeIPv6]
      omega
    rw [wrapped_eq four] at short ⊢
    exact read_fits fits room int _ _ short
  · rw [if_neg room, wrapped_eq four]
    exact read_packet_long (Address.packet (.ipv4 entry.1.address four) entry.1.port entry.2) int (by
      show call.bufLen < entry.2.length
      omega)

namespace Relay

variable {me : IPEndPoint} {s t : Relay}

/-- What holds of an association while nobody else has sent anything to the relay. -/
structure Alone (me : IPEndPoint) (s : Relay) : Prop where
  sent : ∀ entry ∈ s.toRelay.sent, entry.1 = me ∧ ∃ target, parseUdpHeader entry.2 = .ok (some target)
  stage : s.stage ≠ .raised
  address : ∀ address ∈ s.clientAddress, address = me
  returned : ∀ entry ∈ s.toClient.sent, entry.1 = me

structure Sound (me : IPEndPoint) (s : Relay) : Prop where
  origin : (s.toRelay.sent.map Prod.snd).filterMap found = s.written + s.strange.filterMap found
  outbound : (s.toRelay.taken.map Prod.snd).filterMap found = s.toHosts.sent + s.unsent
  logged : (s.datagramsRelayed : Multiset IPEndPoint) = (s.toHosts.sent + s.unsent).map Prod.fst
  answers : ∀ entry ∈ s.fromHosts.sent, isIPv4 entry.1 = true
  dropped : ∀ entry ∈ s.dropped, entry ∈ s.fromHosts.sent
  inbound : s.fromHosts.taken.map wrapped = s.toClient.sent.map Prod.snd + s.dropped.map wrapped
  reads : (s.reads.map ReadCall.datagram : Multiset Bytes) = s.toClient.taken.map Prod.snd
  room : ∀ call ∈ s.reads, call.bufLen ≤ call.userBuf.length ∧ call.bufLen + kUdpHeaderSizeIPv6 < 2 ^ 31
  alone : s.strange = 0 → s.Alone me

theorem initial_sound : (initial).Sound me where
  origin := rfl
  outbound := rfl
  logged := rfl
  answers := nofun
  dropped := nofun
  inbound := rfl
  reads := rfl
  room := nofun
  alone _ := ⟨nofun, nofun, nofun, nofun⟩

theorem write_sound {destination : Destination} {payload beyond : Bytes} {result : Int} (sound : s.Sound me)
    (stepped : step me s (.write destination payload beyond result) = some t) : t.Sound me := by
  simp only [step] at stepped
  split at stepped
  · cases stepped
  · rename_i wire told written
    split at stepped
    · rename_i port
      have sent := @write_ok destination payload beyond result (write_int written)
      rw [written] at sent
      cases sent
      split at stepped
      · cases stepped
        refine { sound with origin := ?_, alone := ?_ }
        · rw [Datagrams.send_sent, Multiset.map_cons, Multiset.filterMap_cons_some _ _ _ (found_named port), sound.origin,
            Multiset.cons_add]
        · intro strange
          have alone := sound.alone strange
          refine { alone with sent := ?_ }
          intro entry member
          rcases Multiset.mem_cons.mp member with rfl | before
          · exact ⟨rfl, _, parseUdpHeader_named port⟩
          · exact alone.sent entry before
      · split at stepped
        · cases stepped
          exact sound
        · cases stepped
    · cases stepped

theorem intrude_sound {source : IPEndPoint} {datagram : Bytes} (sound : s.Sound me)
    (stepped : step me s (.intrude source datagram) = some t) : t.Sound me := by
  simp only [step] at stepped
  split at stepped
  · cases stepped
    refine { sound with origin := ?_, alone := ?_ }
    · rw [Datagrams.send_sent, Multiset.map_cons, Multiset.filterMap_cons, Multiset.filterMap_cons, sound.origin]
      exact add_left_comm _ _ _
    · intro none
      exact absurd none (Multiset.cons_ne_zero)
  · cases stepped

theorem forward_sound {source : IPEndPoint} {datagram : Bytes} {sent : Bool} (sound : s.Sound me)
    (stepped : step me s (.forward source datagram sent) = some t) : t.Sound me := by
  simp only [step] at stepped
  split at stepped
  · rename_i there
    split at stepped
    · cases stepped
      have alone (strange : s.strange = 0) : source = me ∧ ∃ target, parseUdpHeader datagram = .ok (some target) :=
        (sound.alone strange).sent (source, datagram) (Datagrams.mem_sent_of_flying there)
      unfold forward
      dsimp only
      split
      · rename_i failure raised
        have nothing : found datagram = none := by rw [found, raised]
        refine { sound with outbound := ?_, alone := ?_ }
        · rw [Datagrams.take_taken, Multiset.map_cons, Multiset.filterMap_cons_none _ _ nothing, sound.outbound]
        · intro strange
          rcases (alone strange).2 with ⟨target, parsed⟩
          rw [raised] at parsed
          cases parsed
      · rename_i parsed
        have nothing : found datagram = none := by rw [found, parsed]
        refine { sound with outbound := ?_, alone := ?_ }
        · rw [Datagrams.take_taken, Multiset.map_cons, Multiset.filterMap_cons_none _ _ nothing, sound.outbound]
        · intro strange
          refine { sound.alone strange with address := ?_ }
          rintro address ⟨⟩
          exact (alone strange).1
      · rename_i destination payload parsed
        have target : found datagram = some (destination, payload) := by rw [found, parsed]
        have taken : (((s.toRelay.take (source, datagram) there).taken).map Prod.snd).filterMap found =
            (destination, payload) ::ₘ (s.toHosts.sent + s.unsent) := by
          rw [Datagrams.take_taken, Multiset.map_cons, Multiset.filterMap_cons_some _ _ _ target, sound.outbound]
        have logged : ((s.datagramsRelayed ++ [destination] : List IPEndPoint) : Multiset IPEndPoint) =
            ((destination, payload) ::ₘ (s.toHosts.sent + s.unsent)).map Prod.fst := by
          rw [← Multiset.coe_add, sound.logged, Multiset.map_cons, add_comm]
          rfl
        have alone' (strange : s.strange = 0) : ∀ address ∈ some source, address = me := by
          rintro address ⟨⟩
          exact (alone strange).1
        split
        · refine { sound with outbound := ?_, logged := ?_, alone := ?_ }
          · rw [taken, Datagrams.send_sent, Multiset.cons_add]
          · rw [logged, Datagrams.send_sent, Multiset.cons_add]
          · exact fun strange => { sound.alone strange with address := alone' strange }
        · refine { sound with outbound := ?_, logged := ?_, alone := ?_ }
          · rw [taken, Multiset.add_cons]
          · rw [logged, Multiset.add_cons]
          · exact fun strange => { sound.alone strange with address := alone' strange }
    · cases stepped
  · cases stepped

theorem giveBack_sound {source : IPEndPoint} {answer : Bytes} {sent : Bool} (sound : s.Sound me)
    (stepped : step me s (.giveBack source answer sent) = some t) : t.Sound me := by
  simp only [step] at stepped
  split at stepped
  · rename_i there
    split at stepped
    · cases stepped
      have taken : (s.fromHosts.take (source, answer) there).taken.map wrapped =
          wrapped (source, answer) ::ₘ (s.toClient.sent.map Prod.snd + s.dropped.map wrapped) := by
        rw [Datagrams.take_taken, Multiset.map_cons, sound.inbound]
      have dropped : (s.fromHosts.take (source, answer) there).taken.map wrapped =
          s.toClient.sent.map Prod.snd + ((source, answer) ::ₘ s.dropped).map wrapped := by
        rw [taken, Multiset.map_cons, Multiset.add_cons]
      have genuine : ∀ entry ∈ (source, answer) ::ₘ s.dropped, entry ∈ s.fromHosts.sent := by
        intro entry member
        rcases Multiset.mem_cons.mp member with rfl | before
        · exact Datagrams.mem_sent_of_flying there
        · exact sound.dropped entry before
      unfold giveBack
      dsimp only
      split
      · rename_i address known
        split
        · refine { sound with inbound := ?_, alone := ?_ }
          · rw [taken, Datagrams.send_sent, Multiset.map_cons, Multiset.cons_add]
            rfl
          · intro strange
            have alone := sound.alone strange
            refine { alone with returned := ?_ }
            intro entry member
            rcases Multiset.mem_cons.mp member with rfl | before
            · exact alone.address address known
            · exact alone.returned entry before
        · exact { sound with dropped := genuine, inbound := dropped, alone := fun strange => { sound.alone strange with } }
      · exact { sound with dropped := genuine, inbound := dropped, alone := fun strange => { sound.alone strange with } }
    · cases stepped
  · cases stepped

theorem read_sound {datagram userBuf : Bytes} {bufLen : Nat} (sound : s.Sound me)
    (stepped : step me s (.read datagram userBuf bufLen) = some t) : t.Sound me := by
  simp only [step] at stepped
  split at stepped
  · split at stepped
    · rename_i room
      cases stepped
      refine { sound with reads := ?_, room := ?_, alone := ?_ }
      · rw [Datagrams.take_taken, Multiset.map_cons, ← sound.reads, List.map_append, ← Multiset.coe_add, add_comm]
        rfl
      · intro call member
        rcases List.mem_append.mp member with before | last
        · exact sound.room call before
        · rw [List.mem_singleton.mp last]
          exact room
      · exact fun strange => { sound.alone strange with }
    · cases stepped
  · cases stepped

theorem suffer_sound {route : Route} {entry : IPEndPoint × Bytes} {fate : Datagrams.Fate} (sound : s.Sound me)
    (stepped : step me s (.suffer route entry fate) = some t) : t.Sound me := by
  cases route with
  | toRelay =>
    simp only [step] at stepped
    split at stepped
    · cases stepped
      refine { sound with origin := ?_, outbound := ?_, alone := ?_ }
      · rw [Datagrams.suffer_sent, sound.origin]
      · rw [Datagrams.suffer_taken, sound.outbound]
      · intro strange
        refine { sound.alone strange with sent := ?_ }
        rw [Datagrams.suffer_sent]
        exact (sound.alone strange).sent
    · cases stepped
  | toHosts =>
    simp only [step] at stepped
    split at stepped
    · cases stepped
      refine { sound with outbound := ?_, logged := ?_, alone := fun strange => { sound.alone strange with } }
      · rw [Datagrams.suffer_sent, sound.outbound]
      · rw [Datagrams.suffer_sent, sound.logged]
    · cases stepped
  | fromHosts =>
    simp only [step] at stepped
    split at stepped
    · cases stepped
      refine { sound with answers := ?_, dropped := ?_, inbound := ?_, alone := fun strange => { sound.alone strange with } }
      · rw [Datagrams.suffer_sent]
        exact sound.answers
      · rw [Datagrams.suffer_sent]
        exact sound.dropped
      · rw [Datagrams.suffer_taken, sound.inbound]
    · cases stepped
  | toClient =>
    simp only [step] at stepped
    split at stepped
    · cases stepped
      refine { sound with inbound := ?_, reads := ?_, alone := ?_ }
      · rw [Datagrams.suffer_sent, sound.inbound]
      · rw [Datagrams.suffer_taken, sound.reads]
      · intro strange
        refine { sound.alone strange with returned := ?_ }
        rw [Datagrams.suffer_sent]
        exact (sound.alone strange).returned
    · cases stepped

theorem step_sound {label : RelayLabel} (sound : s.Sound me) (stepped : step me s label = some t) : t.Sound me := by
  cases label with
  | write destination payload beyond result => exact write_sound sound stepped
  | intrude source datagram => exact intrude_sound sound stepped
  | forward source datagram sent => exact forward_sound sound stepped
  | giveBack source answer sent => exact giveBack_sound sound stepped
  | read datagram userBuf bufLen => exact read_sound sound stepped
  | suffer route entry fate => exact suffer_sound sound stepped
  | arrive destination payload =>
    simp only [step] at stepped
    split at stepped
    · cases stepped
      exact { sound with alone := fun strange => { sound.alone strange with } }
    · cases stepped
  | answer source payload =>
    simp only [step] at stepped
    split at stepped
    · rename_i four
      cases stepped
      refine { sound with answers := ?_, dropped := ?_, alone := fun strange => { sound.alone strange with } }
      · intro entry member
        rcases Multiset.mem_cons.mp member with rfl | before
        · exact four
        · exact sound.answers entry before
      · exact fun entry member => Multiset.mem_cons_of_mem (sound.dropped entry member)
    · cases stepped
  | hangUp =>
    simp only [step] at stepped
    split at stepped
    · cases stepped
      exact { sound with alone := fun strange => { sound.alone strange with stage := nofun } }
    · cases stepped

theorem run_sound {labels : List RelayLabel} (ran : (machine me).run initial labels = some s) : s.Sound me :=
  Machine.invariant (Sound me) initial_sound (fun _ _ _ sound stepped => step_sound sound stepped) ran

def outgoing (s : Relay) : Multiset (IPEndPoint × Bytes) := s.written + s.strange.filterMap found

namespace Sound

theorem mem_outgoing (sound : s.Sound me) {target : IPEndPoint × Bytes} (passed : target ∈ s.toHosts.sent + s.unsent) :
    target ∈ s.outgoing := by
  rw [← sound.outbound] at passed
  rcases (Multiset.mem_filterMap _ _).mp passed with ⟨datagram, there, parsed⟩
  rcases Multiset.mem_map.mp there with ⟨entry, taken, rfl⟩
  rw [outgoing, ← sound.origin]
  apply (Multiset.mem_filterMap _ _).mpr
  exact ⟨entry.2, Multiset.mem_map_of_mem Prod.snd (Datagrams.mem_sent_of_taken taken), parsed⟩

theorem four (sound : s.Sound me) {entry : IPEndPoint × Bytes} (sent : entry ∈ s.fromHosts.sent) :
    entry.1.address.length = 4 := by
  have isIPv4 := sound.answers entry sent
  rw [Relay.isIPv4, Bool.and_eq_true, decide_eq_true_iff] at isIPv4
  exact isIPv4.1

theorem gives (sound : s.Sound me) {call : ReadCall} (member : call ∈ s.reads) :
    ∃ entry ∈ s.fromHosts.sent, call.Gives entry.2 := by
  have listed : call.datagram ∈ s.toClient.taken.map Prod.snd := by
    rw [← sound.reads]
    exact Multiset.mem_coe.mpr (List.mem_map_of_mem member)
  rcases Multiset.mem_map.mp listed with ⟨handed, taken, same⟩
  have passed : call.datagram ∈ s.fromHosts.taken.map wrapped := by
    rw [sound.inbound, ← same]
    exact Multiset.mem_add.mpr (.inl (Multiset.mem_map_of_mem Prod.snd (Datagrams.mem_sent_of_taken taken)))
  rcases Multiset.mem_map.mp passed with ⟨entry, there, written⟩
  have sent := Datagrams.mem_sent_of_taken there
  rcases sound.room call member with ⟨fits, int⟩
  exact ⟨entry, sent, gives_wrapped (sound.four sent) written.symm fits int⟩

/-- Behind the header that the relay has put in front of an answer there is the answer. -/
theorem unwrapped (sound : s.Sound me) {entries : Multiset (IPEndPoint × Bytes)}
    (genuine : ∀ entry ∈ entries, entry ∈ s.fromHosts.sent) :
    (entries.map wrapped).map (List.drop kUdpHeaderSizeIPv4) = entries.map Prod.snd := by
  rw [Multiset.map_map]
  apply Multiset.map_congr rfl
  intro entry member
  exact wrapped_drop (sound.four (genuine entry member))

end Sound

structure Faithful (me : IPEndPoint) (s : Relay) : Prop where
  /-- Hosts get what was sent to them, and the log names where it went. -/
  arrived : ∀ target ∈ s.toHosts.taken, target ∈ s.outgoing
  logged : ∀ destination ∈ s.datagramsRelayed, ∃ payload, (destination, payload) ∈ s.outgoing
  /-- The client gets what a host has answered, or nothing of it. -/
  heard : ∀ call ∈ s.reads, ∃ entry ∈ s.fromHosts.sent, call.Gives entry.2
  /-- Over networks that neither lose nor copy, each of it once. -/
  outward : s.toRelay.Quiet → s.toHosts.Quiet → s.toHosts.taken + s.unsent = s.outgoing ∧
    (s.datagramsRelayed : Multiset IPEndPoint) = s.outgoing.map Prod.fst
  inward : s.fromHosts.Quiet → s.toClient.Quiet → s.fromHosts.sent.map Prod.snd =
    (s.reads.map fun call => call.datagram.drop kUdpHeaderSizeIPv4 : Multiset Bytes) + s.dropped.map Prod.snd
  /-- Nobody but a stranger ends the association or takes the answers. -/
  undisturbed : s.strange = 0 → s.outgoing = s.written ∧ s.stage ≠ .raised ∧ ∀ entry ∈ s.toClient.sent, entry.1 = me

/-- However the networks treat the datagrams, and whoever else sends to the relay. -/
theorem relay_faithful {labels : List RelayLabel} (ran : (machine me).run initial labels = some s) : s.Faithful me := by
  have sound := run_sound ran
  constructor
  case arrived =>
    intro target taken
    exact sound.mem_outgoing (Multiset.mem_add.mpr (.inl (Datagrams.mem_sent_of_taken taken)))
  case logged =>
    intro destination member
    rw [← Multiset.mem_coe, sound.logged] at member
    rcases Multiset.mem_map.mp member with ⟨⟨_, payload⟩, passed, rfl⟩
    exact ⟨payload, sound.mem_outgoing passed⟩
  case heard => exact fun call member => sound.gives member
  case outward =>
    intro relay hosts
    have passed : s.toHosts.sent + s.unsent = s.outgoing := by
      rw [← sound.outbound, relay.taken_eq, sound.origin, outgoing]
    rw [hosts.taken_eq, ← passed]
    exact ⟨rfl, sound.logged⟩
  case inward =>
    intro hosts client
    have inbound := congrArg (Multiset.map (List.drop kUdpHeaderSizeIPv4)) sound.inbound
    rw [hosts.taken_eq, sound.unwrapped fun _ member => member, Multiset.map_add, sound.unwrapped sound.dropped,
      ← client.taken_eq, ← sound.reads, Multiset.map_coe, List.map_map] at inbound
    exact inbound
  case undisturbed =>
    intro strange
    have alone := sound.alone strange
    refine ⟨?_, alone.stage, alone.returned⟩
    rw [outgoing, strange]
    exact add_zero s.written

def asked : List RelayLabel :=
  let wire := [0, 0, 0, 1, 127, 0, 0, 1, 1, 187, 7, 8]
  let client := ⟨[127, 0, 0, 1], 9000⟩
  let host := ⟨[127, 0, 0, 1], 443⟩
  [.write localhost [7, 8] [] 12, .suffer .toRelay (client, wire) .copy, .forward client wire true,
    .forward client wire true, .arrive host [7, 8], .answer host [9], .giveBack host [9] true,
    .read [0, 0, 0, 1, 127, 0, 0, 1, 1, 187, 9] [0, 0] 2]

theorem relay_faithful_asked : ∃ s, (machine ⟨[127, 0, 0, 1], 9000⟩).run initial asked = some s ∧
    s.Faithful ⟨[127, 0, 0, 1], 9000⟩ := by
  have runs : ((machine ⟨[127, 0, 0, 1], 9000⟩).run initial asked).isSome = true := by decide
  rcases Option.isSome_iff_exists.mp runs with ⟨s, ran⟩
  exact ⟨s, ran, relay_faithful ran⟩

end Relay

end Cronet.Socks
