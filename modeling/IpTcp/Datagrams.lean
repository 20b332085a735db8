import IpTcp.IpNode

/-!
Datagrams from outside. A header that is shorter than 20 bytes passes the checksum test
without a sum over its fields: over no bytes at all the sum is what it started with.
A packet that is delivered ends the program if no handler is registered for its protocol,
if a segment is shorter than its handler reads, if a routing message announces more
entries than the buffer could hold, or if it asks for routes from an address that the
node has no interface to. A routing update with more than 114 routes is such a message.
-/
namespace IpTcp

open Rip BigEndian InternetChecksum Runs

def Action.Acts : Action → Prop
  | .drop => False
  | .deliver _ _ | .forward _ _ _ => True

instance (action : Action) : Decidable action.Acts :=
  match action with
  | .drop => .isFalse id
  | .deliver _ _ | .forward _ _ _ => .isTrue trivial

structure Intact (b : List UInt8) : Prop where
  low : 20 ≤ IPv4Header.hdrlen b
  high : IPv4Header.hdrlen b ≤ b.length
  verifies : checksum (b.take (IPv4Header.hdrlen b)) 0 = 0xffff

theorem acts_valid {visit : Visit} {buffer : Slice} (h : (packetAction visit buffer).Acts) :
    ∃ header, validHeader buffer.bytes = some header := by
  unfold packetAction at h
  cases hparsed : validHeader buffer.bytes with
  | none =>
    rw [hparsed] at h
    exact h.elim
  | some header => exact ⟨header, rfl⟩

/-- The first byte of a header with a length is not zero. -/
theorem wordSum_header_pos {b : List UInt8} (hlow : 20 ≤ IPv4Header.hdrlen b) :
    0 < wordSum (b.take (IPv4Header.hdrlen b)) := by
  cases b with
  | nil => simp [IPv4Header.hdrlen, field, BigEndian.get] at hlow
  | cons byte rest =>
    have hfield : field (byte :: rest) 0 1 = byte.toNat := by simp [field, BigEndian.get]
    obtain ⟨k, hk⟩ : ∃ k, IPv4Header.hdrlen (byte :: rest) = k + 1 :=
      ⟨IPv4Header.hdrlen (byte :: rest) - 1, by omega⟩
    have hhead := head_le_wordSum byte (rest.take k)
    rw [hk, List.take_succ_cons]
    unfold IPv4Header.hdrlen at hlow
    omega

/-- A packet that is acted on has an intact header exactly if its header length is at least
20 bytes. -/
theorem acted_on_intact_iff (visit : Visit) (buffer : Slice)
    (h : (packetAction visit buffer).Acts) :
    Intact buffer.bytes ↔ 20 ≤ IPv4Header.hdrlen buffer.bytes := by
  refine ⟨Intact.low, fun hlow => ?_⟩
  obtain ⟨header, hparsed⟩ := acts_valid h
  obtain ⟨hlength, hhigh, -, hvalid, -⟩ := validHeader_eq_some hparsed
  have hcheck : field buffer.bytes 10 2 < 65536 := field_lt buffer.bytes 10 2
  have hle : field buffer.bytes 10 2 ≤ maxWord := Nat.le_of_lt_succ hcheck
  have hpos := wordSum_header_pos hlow
  refine ⟨hlow, hhigh, ?_⟩
  -- the sum is started with the checksum, and comes back to it if the words add up to zero
  rw [ValidateChecksum, checksum_eq _ hle, fold_add_eq_self_iff (by decide) hle] at hvalid
  rw [checksum_eq _ (Nat.zero_le _), Nat.zero_add]
  refine (fold_eq_max_iff (by decide)).mpr ⟨hpos, ?_⟩
  rcases hvalid with hzero | hmod
  · omega
  · exact hmod.2

def pingDatagram : List UInt8 :=
  [69, 0, 0, 22, 0, 0, 0, 0, 16, 0, 150, 230, 10, 0, 0, 2, 10, 0, 0, 1, 104, 105]

theorem acted_on_intact_ping : Intact (received pingDatagram).bytes :=
  (acted_on_intact_iff hostVisit (received pingDatagram) (by decide)).mpr (by decide)

/-- A datagram for 10.0.0.1 whose header length is 0 is delivered, with any checksum. -/
theorem empty_header_delivered :
    ¬ ∀ (config : IPConfig) (node : Node) (sent : List Sent) (visit : Visit)
      (datagram : List UInt8), Initialize config = .ok (node, sent) → node.Visits visit →
      (packetAction visit (received datagram)).Acts → Intact (received datagram).bytes := by
  intro hclaim
  have hintact := hclaim hostConfig hostConfig.node [] hostVisit
    [64, 0, 0, 20, 0, 0, 0, 0, 16, 0, 18, 52, 10, 0, 0, 2, 10, 0, 0, 1] rfl
    ⟨.refl _, .refl _, .refl _⟩ (by decide)
  exact absurd hintact.low (by decide)

structure Digestible (node : Node) (header : IPv4Header) (message : Slice) : Prop where
  registered : header.Protocol = 0 ∨ header.Protocol = 6 ∨ header.Protocol = 200
  segment : header.Protocol = 6 → InBounds header.Src header.Dst message.bytes
  entries : header.Protocol = 200 →
    4 + 12 * field (message.bytes ++ message.spare) 2 2 ≤ message.cap
  reply : header.Protocol = 200 → field (message.bytes ++ message.spare) 0 2 = 1 →
    node.Linked header.Src

theorem Digestible.of_test {node : Node} {header : IPv4Header} {message : Slice}
    (h : header.Protocol = 0) : Digestible node header message :=
  ⟨Or.inl h, by omega, by omega, by omega⟩

def Harmless (node : Node) (visit : Visit) (buffer : Slice) : Prop :=
  ∀ header, validHeader buffer.bytes = some header → checkDest visit.interfaces header.Dst = true →
    Digestible node header (buffer.behind header.Len)

namespace Node

variable {node : Node} {now : ℕ} {header : IPv4Header} {message : Slice}

theorem protocol200_of_extract {src : Addr} {rip_packet : RipMessage}
    (h : ExtractRIP message = some rip_packet) :
    (∃ result, node.protocol200 now src message = .ok result) ↔
      ∀ update ∈ (Rip.protocol200 now node.ripNeighbors node.forwardingTable src
        rip_packet.packet).2, node.Linked update.1 := by
  rw [← sendAll_ok_iff, protocol200, h]
  cases hsend : node.sendAll (Rip.protocol200 now node.ripNeighbors node.forwardingTable src
    rip_packet.packet).2 with
  | error fault => simp [hsend]
  | ok sent => simp [hsend]

/-- Updates go to the RIP neighbours, and answers to whoever asked. -/
theorem linked_updates_iff (hlinked : ∀ neighbor ∈ node.ripNeighbors, node.Linked neighbor)
    (src : Addr) (packet : RipPacket) :
    (∀ update ∈ (Rip.protocol200 now node.ripNeighbors node.forwardingTable src packet).2,
      node.Linked update.1) ↔ (packet = .request → node.Linked src) := by
  cases packet with
  | request => simp [Rip.protocol200]
  | response entries =>
    refine iff_of_true (fun update hupdate => ?_) (by simp)
    simp only [Rip.protocol200] at hupdate
    split at hupdate
    · obtain ⟨neighbor, hneighbor, rfl⟩ := List.mem_map.mp hupdate
      exact hlinked neighbor hneighbor
    · simp at hupdate

/-- A routing message is handled if its entries can be read and a request can be answered. -/
theorem protocol200_ok_iff (hlinked : ∀ neighbor ∈ node.ripNeighbors, node.Linked neighbor)
    (hcap : 4 ≤ message.cap) {src : Addr} :
    (∃ result, node.protocol200 now src message = .ok result) ↔
      4 + 12 * field (message.bytes ++ message.spare) 2 2 ≤ message.cap ∧
        (field (message.bytes ++ message.spare) 0 2 = 1 → node.Linked src) := by
  have hextract := extractRIP_eq hcap
  simp only at hextract
  split at hextract
  · next hentries =>
    rw [protocol200_of_extract hextract, linked_updates_iff hlinked,
      RipMessage.packet_eq_request_iff, and_iff_right hentries]
  · next hentries => simp [protocol200, hextract, hentries]

theorem deliver_ok_iff (hlinked : ∀ neighbor ∈ node.ripNeighbors, node.Linked neighbor)
    (hcap : 4 ≤ message.cap) :
    (∃ result, node.perform now (.deliver header message) = .ok result) ↔
      Digestible node header message := by
  simp only [perform]
  split
  · next hzero =>
    exact iff_of_true ⟨_, rfl⟩ (.of_test hzero)
  · split
    · next hsix =>
      have hbounds := protocol6_ok_iff node.IpAddr header.Src header.Dst message.bytes
      have hdigest : Digestible node header message ↔
          InBounds header.Src header.Dst message.bytes :=
        ⟨fun h => h.segment hsix, fun h => ⟨Or.inr (Or.inl hsix), fun _ => h, by omega, by omega⟩⟩
      rw [hdigest, ← hbounds]
      cases protocol6 node.IpAddr message.bytes header.Src header.Dst with
      | error fault => simp
      | ok info => simp
    · split
      · next hrip =>
        rw [protocol200_ok_iff hlinked hcap]
        exact ⟨fun h => ⟨Or.inr (Or.inr hrip), by omega, fun _ => h.1, fun _ => h.2⟩,
          fun h => ⟨h.entries hrip, h.reply hrip⟩⟩
      · next h₀ h₆ h₂₀₀ =>
        refine iff_of_false (by simp) fun h => ?_
        rcases h.registered with h | h | h <;> contradiction

/-- The addresses of a header that was read are there, so the packet can be built again. -/
theorem forward_ok {b : List UInt8} (hparsed : validHeader b = some header) (next : Addr)
    (data : List UInt8) :
    ∃ result, node.perform now (.forward header next data) = .ok result := by
  obtain ⟨-, -, -, -, rfl⟩ := validHeader_eq_some hparsed
  simp only [perform, IPv4Header.fields, makePacket_eq]
  exact ⟨_, rfl⟩

theorem handlePackets_ok_iff (hlinked : ∀ neighbor ∈ node.ripNeighbors, node.Linked neighbor)
    (visit : Visit) (datagram : List UInt8) :
    (∃ result, node.handlePackets now visit (received datagram) = .ok result) ↔
      Harmless node visit (received datagram) := by
  unfold handlePackets packetAction Harmless
  cases hparsed : validHeader (received datagram).bytes with
  | none => exact iff_of_true ⟨_, rfl⟩ (by simp)
  | some header =>
    have hcap : 4 ≤ ((received datagram).behind header.Len).cap := by
      obtain ⟨-, hhigh, -, -, rfl⟩ := validHeader_eq_some hparsed
      have hbyte : field (received datagram).bytes 0 1 < 256 := field_lt _ 0 1
      simp only [Slice.cap, Slice.behind, received, IPv4Header.fields, List.length_drop,
        List.length_take, List.length_replicate, maxMessageSize] at hhigh ⊢
      unfold IPv4Header.hdrlen at hhigh ⊢
      omega
    by_cases hdest : checkDest visit.interfaces header.Dst = true
    · simp [hdest, deliver_ok_iff hlinked hcap]
    · refine iff_of_true ?_ (by simp [hdest])
      simp only [hdest, Bool.false_eq_true, if_false]
      split
      · split
        · exact ⟨_, rfl⟩
        · exact forward_ok hparsed _ _
      · exact ⟨_, rfl⟩

end Node

/-- A node in any state that it can reach survives a datagram exactly if the datagram is not
delivered or its handler can digest it. -/
theorem datagram_survived_iff (config : IPConfig) (start node : Node) (sent : List Sent)
    (hstart : Initialize config = .ok (start, sent))
    (hreach : Reach Node.step (fun _ _ => True) start node) (now : ℕ) (visit : Visit)
    (datagram : List UInt8) :
    (∃ result, node.handlePackets now visit (received datagram) = .ok result) ↔
      Harmless node visit (received datagram) := by
  have hlinked := (initialize_linked hstart).2
  obtain ⟨table, rfl, -⟩ := Node.reach_routes hreach
  refine Node.handlePackets_ok_iff ?_ visit datagram
  exact hlinked

/-- A test packet does no harm. -/
theorem datagram_survived_ping :
    ∃ result, hostConfig.node.handlePackets 0 hostVisit (received pingDatagram) = .ok result := by
  refine (datagram_survived_iff hostConfig hostConfig.node hostConfig.node [] rfl .refl 0 hostVisit
    pingDatagram).mpr ?_
  intro header hparsed _
  obtain ⟨-, -, -, -, rfl⟩ := validHeader_eq_some hparsed
  exact Digestible.of_test (by decide)

/-- A datagram for 10.0.0.1 with protocol 17, for which no handler is registered. -/
theorem unregistered_protocol_panics :
    ¬ ∀ (config : IPConfig) (start node : Node) (sent : List Sent) (now : ℕ) (visit : Visit)
      (datagram : List UInt8), Initialize config = .ok (start, sent) →
      Reach Node.step (fun _ _ => True) start node → node.Visits visit →
      datagram.length ≤ 1400 →
      ∃ result, node.handlePackets now visit (received datagram) = .ok result := by
  intro hclaim
  obtain ⟨result, hresult⟩ := hclaim hostConfig hostConfig.node hostConfig.node [] 0 hostVisit
    [69, 0, 0, 20, 0, 0, 0, 0, 16, 17, 150, 215, 10, 0, 0, 2, 10, 0, 0, 1] rfl .refl
    ⟨.refl _, .refl _, .refl _⟩ (by decide)
  have hpanic : hostConfig.node.handlePackets 0 hostVisit (received
      [69, 0, 0, 20, 0, 0, 0, 0, 16, 17, 150, 215, 10, 0, 0, 2, 10, 0, 0, 1]) =
      .error .nilCall := rfl
  rw [hpanic] at hresult
  contradiction

structure ArrivesWhole (packet : List UInt8) (entries : List RipUpdate) : Prop where
  fits : packet.length ≤ maxMessageSize
  decoded : ∃ message, ExtractRIP ((received packet).behind 20) = some message ∧
    message.Entries = entries

theorem makePacket_split {src dst : Addr} {protocolNum ttl : ℕ} {data packet : List UInt8}
    (h : makePacket src dst protocolNum ttl data = .ok packet) :
    ∃ header, header.length = 20 ∧ packet = header ++ data := by
  obtain ⟨hsrc, hdst⟩ := (Node.makePacket_ok_iff ..).mp ⟨packet, h⟩
  cases src with
  | zero => contradiction
  | v4 src =>
    cases dst with
    | zero => contradiction
    | v4 dst =>
      rw [makePacket_eq] at h
      exact ⟨_, length_built .., (Except.ok.inj h).symm⟩

theorem sendRIP_pack {node : Node} {dst : Addr} {entries : List RipUpdate} {out : Sent}
    (h : node.sendRIP dst entries = .ok out) :
    ∃ header, header.length = 20 ∧
      out.pack = header ++ MarshalRIP ⟨2, entries.length, entries⟩ := by
  unfold Node.sendRIP Node.sendMessage at h
  simp only at h
  split at h
  · contradiction
  · next packet hpacket =>
    split at h
    · cases h
      exact makePacket_split hpacket
    · contradiction

theorem length_sendRIP_pack {node : Node} {dst : Addr} {entries : List RipUpdate} {out : Sent}
    (h : node.sendRIP dst entries = .ok out) : out.pack.length = 24 + 12 * entries.length := by
  obtain ⟨header, hheader, hpack⟩ := sendRIP_pack h
  rw [hpack, List.length_append, hheader, length_marshalRIP]
  change 20 + (4 + 12 * entries.length) = 24 + 12 * entries.length
  omega

/-- A routing update arrives whole exactly if it has at most 114 routes. -/
theorem update_arrives_iff (config : IPConfig) (start : Node) (sent : List Sent)
    (hstart : Initialize config = .ok (start, sent)) (dst : Addr)
    (hdst : dst ∈ start.ripNeighbors) (table : Table Addr) :
    ∃ out, start.sendRIP dst (Rip.sendRIP dst table) = .ok out ∧
      (ArrivesWhole out.pack (Rip.sendRIP dst table) ↔ table.entries.length ≤ 114) := by
  have hentries : (Rip.sendRIP dst table).length = table.entries.length := List.length_map _
  obtain ⟨out, hout⟩ := (Node.sendMessage_ok_iff _).mpr ((initialize_linked hstart).2 dst hdst)
  obtain ⟨header, hheader, hpack⟩ := sendRIP_pack hout
  have hlength := length_sendRIP_pack hout
  refine ⟨out, hout, fun h => ?_, fun hfew => ?_⟩
  · have hfits := h.fits
    simp only [maxMessageSize] at hfits
    omega
  · have hfits : out.pack.length ≤ maxMessageSize := by
      simp only [maxMessageSize]
      omega
    have hbytes : ((received out.pack).behind 20).bytes =
        MarshalRIP ⟨2, (Rip.sendRIP dst table).length, Rip.sendRIP dst table⟩ := by
      rw [Slice.behind, received, List.take_of_length_le hfits, hpack]
      exact List.drop_left' hheader
    have hcount : (Rip.sendRIP dst table).length < 65536 := by omega
    exact ⟨hfits, _, extract_marshal hbytes (show 2 < 65536 by decide) rfl hcount, rfl⟩

def routerConfig : IPConfig := { hostConfig with RipNeighbors := [.v4 167772162] }

theorem update_arrives_start :
    ∃ out, routerConfig.node.sendRIP (.v4 167772162)
        (Rip.sendRIP (.v4 167772162) (initialTable routerConfig.routing)) = .ok out ∧
      ArrivesWhole out.pack (Rip.sendRIP (.v4 167772162) (initialTable routerConfig.routing)) := by
  obtain ⟨out, hout, harrives⟩ := update_arrives_iff routerConfig routerConfig.node _ rfl
    (.v4 167772162) (by decide) (initialTable routerConfig.routing)
  exact ⟨out, hout, harrives.mpr (by decide)⟩

theorem crowded_nodupKeys : ((List.range 115).map fun i =>
    (⟨.slash (UInt32.ofNat (256 * i)) 24,
      ⟨.R, .v4 167772161, .slash (UInt32.ofNat (256 * i)) 24, 1, 0⟩⟩ :
      (_ : Prefix) × ForwardingInfo Addr)).NodupKeys := by
  rw [List.NodupKeys, List.keys, List.map_map]
  refine List.Nodup.map_on (fun i hi j hj h => ?_) List.nodup_range
  have haddr := congrArg (fun pre : Prefix => pre.addr.toNat) h
  simp only [Function.comp_apply, Prefix.slash_addr, UInt32.toNat_ofNat'] at haddr
  rw [List.mem_range] at hi hj
  omega

def crowdedTable : Table Addr where
  entries := (List.range 115).map fun i =>
    ⟨.slash (UInt32.ofNat (256 * i)) 24,
      ⟨.R, .v4 167772161, .slash (UInt32.ofNat (256 * i)) 24, 1, 0⟩⟩
  nodupKeys := crowded_nodupKeys

/-- An update with 115 routes does not fit. -/
theorem crowded_update_cut :
    ¬ ∀ (config : IPConfig) (start : Node) (sent : List Sent) (dst : Addr) (table : Table Addr)
      (out : Sent), Initialize config = .ok (start, sent) → dst ∈ start.ripNeighbors →
      start.sendRIP dst (Rip.sendRIP dst table) = .ok out →
      ArrivesWhole out.pack (Rip.sendRIP dst table) := by
  intro hclaim
  have hlinked : routerConfig.node.Linked (.v4 167772162) := by decide
  have hcount : (Rip.sendRIP (.v4 167772162) crowdedTable).length = 115 := by
    simp [Rip.sendRIP, crowdedTable]
  obtain ⟨out, hout⟩ : ∃ out, routerConfig.node.sendRIP (.v4 167772162)
      (Rip.sendRIP (.v4 167772162) crowdedTable) = .ok out :=
    (Node.sendMessage_ok_iff _).mpr hlinked
  have hfits := (hclaim routerConfig routerConfig.node _ (.v4 167772162) crowdedTable out rfl
    (by decide) hout).fits
  rw [length_sendRIP_pack hout, hcount] at hfits
  exact absurd hfits (by decide)

end IpTcp
