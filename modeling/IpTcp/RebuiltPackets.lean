import IpTcp.IpNode

/-!
How a packet looks that is sent on. The node does not patch the bytes that it received.
It parses the header and builds a new packet from the addresses, the protocol, the time
to live and the data, so that everything else is written as for a packet of its own: no
service type, identification, flags, fragment offset or options, and the length of what
was received. Only a header that was written like that survives.
-/
namespace IpTcp

open BigEndian IPv4Header

/-- A packet with another time to live and another header checksum. -/
def patched (b : List UInt8) (ttl check : ℕ) : List UInt8 :=
  b.take 8 ++ (put 1 ttl ++ ((b.drop 9).take 1 ++ (put 2 check ++ b.drop 12)))

/-- The packets differ in the time to live, which is one less, and in the header checksum. -/
def OnlyTTL (old new : List UInt8) : Prop := ∃ check, new = patched old (field old 8 1 - 1) check

/-- The header has no options and says nothing that a packet of the node's own would not. -/
structure PlainHeader (b : List UInt8) : Prop where
  version : (fields b).Version = 4
  noOptions : (fields b).Len = 20
  tos : (fields b).TOS = 0
  totalLen : (fields b).TotalLen = b.length
  id : (fields b).ID = 0
  flags : (fields b).Flags = 0
  fragOff : (fields b).FragOff = 0

def rebuilt (b : List UInt8) (ttl check : ℕ) : List UInt8 :=
  put 1 69 ++ (put 1 0 ++ (put 2 (20 + (b.drop (hdrlen b)).length) ++ (put 2 0 ++ (put 2 0 ++
    (put 1 ttl ++ (put 1 (field b 9 1) ++ (put 2 check ++ (put 4 (field b 12 4) ++
      (put 4 (field b 16 4) ++ b.drop (hdrlen b))))))))))

theorem exists_rebuilt {b packet : List UInt8} {ttl : ℕ}
    (h : makePacket (fields b).Src (fields b).Dst (fields b).Protocol ttl (b.drop (hdrlen b)) =
      .ok packet) : ∃ check, packet = rebuilt b ttl check := by
  unfold fields at h
  simp only [makePacket_eq, Except.ok.injEq] at h
  generalize ComputeChecksum _ = check at h
  refine ⟨check, h.symm.trans ?_⟩
  have hword : ∀ off, field b off 4 % 4294967296 = field b off 4 :=
    fun off => Nat.mod_eq_of_lt (field_lt b off 4)
  simp [rebuilt, builtHeader, IPv4Header.bytes, Addr.word, IPv4Header.HeaderLen, hword]

section Slices

variable (b : List UInt8) (i m n : ℕ)

theorem slice_append_slice (rest : List UInt8) :
    (b.drop i).take m ++ ((b.drop (i + m)).take n ++ rest) = (b.drop i).take (m + n) ++ rest := by
  rw [List.take_add, List.drop_drop, List.append_assoc]

theorem slice_append_drop : (b.drop i).take m ++ b.drop (i + m) = b.drop i := by
  rw [← List.drop_drop, List.take_append_drop]

end Slices

/-- A plain header is rebuilt as it was, but for the time to live and the checksum. -/
theorem rebuilt_eq_patched {b : List UInt8} (hlength : 20 ≤ b.length) (h : PlainHeader b)
    (ttl check : ℕ) : rebuilt b ttl check = patched b ttl check := by
  have hlen : hdrlen b = 20 := h.noOptions
  have hversion : field b 0 1 / 16 = 4 := h.version
  have hfirst : field b 0 1 = 69 := by
    unfold hdrlen at hlen
    omega
  have htos : field b 1 1 = 0 := h.tos
  have htotal : field b 2 2 = b.length := h.totalLen
  have hid : field b 4 2 = 0 := h.id
  have hflags : field b 6 2 / 8192 = 0 := h.flags
  have hfrag : field b 6 2 % 8192 = 0 := h.fragOff
  have hoff : field b 6 2 = 0 := by omega
  have hsize : 20 + (b.drop 20).length = field b 2 2 := by
    rw [List.length_drop, htotal]
    omega
  have hput : ∀ off width, off + width ≤ 20 →
      put width (field b off width) = (b.drop off).take width :=
    fun off width hle => put_field (by omega)
  -- each constant of the new header is the field that was received
  have hhead : put 1 69 = (b.drop 0).take 1 := by rw [← hfirst, hput 0 1 (by omega)]
  have hservice : put 1 0 = (b.drop 1).take 1 := by rw [← htos, hput 1 1 (by omega)]
  have hident : put 2 0 = (b.drop 4).take 2 := by rw [← hid, hput 4 2 (by omega)]
  have hfragment : put 2 0 = (b.drop 6).take 2 := by rw [← hoff, hput 6 2 (by omega)]
  unfold rebuilt patched
  rw [hlen, hsize, hput 2 2 (by omega), hput 9 1 (by omega), hput 12 4 (by omega),
    hput 16 4 (by omega), hhead, hservice, slice_append_drop b 16 4, slice_append_drop b 12 4]
  nth_rewrite 1 [hident]
  rw [hfragment, slice_append_slice b 0 1 1, slice_append_slice b 0 2 2,
    slice_append_slice b 0 4 2, slice_append_slice b 0 6 2, List.drop_zero]

/-- The fields in front of the time to live are those of the packet that was patched. -/
theorem field_patched {b : List UInt8} (hlength : 8 ≤ b.length) {off width : ℕ}
    (hle : off + width ≤ 8) (ttl check : ℕ) :
    field (patched b ttl check) off width = field b off width := by
  have hfront : (b.take 8).length = 8 := by
    rw [List.length_take]
    omega
  unfold patched
  rw [field_append_left (by omega)]
  conv_rhs => rw [← List.take_append_drop 8 b]
  rw [field_append_left (by omega)]

/-- A packet that is rebuilt as it was has a plain header. -/
theorem plain_of_rebuilt {b : List UInt8} (hlength : 20 ≤ b.length) (hmax : b.length ≤ 1400)
    {ttl check ttl' check' : ℕ} (h : rebuilt b ttl check = patched b ttl' check') :
    PlainHeader b := by
  have hfield : ∀ off width, off + width ≤ 8 →
      field (rebuilt b ttl check) off width = field b off width := by
    intro off width hle
    rw [h, field_patched (by omega) hle]
  have hfirst : field b 0 1 = 69 := by
    rw [← hfield 0 1 (by omega)]
    simp [rebuilt]
  have hlen : hdrlen b = 20 := by
    unfold hdrlen
    omega
  have htos : field b 1 1 = 0 := by
    rw [← hfield 1 1 (by omega)]
    simp [rebuilt]
  have htotal : field b 2 2 = (20 + (b.length - 20)) % 65536 := by
    rw [← hfield 2 2 (by omega)]
    simp [rebuilt, hlen]
  have hid : field b 4 2 = 0 := by
    rw [← hfield 4 2 (by omega)]
    simp [rebuilt]
  have hoff : field b 6 2 = 0 := by
    rw [← hfield 6 2 (by omega)]
    simp [rebuilt]
  refine ⟨?_, hlen, htos, ?_, hid, ?_, ?_⟩
  · change field b 0 1 / 16 = 4
    omega
  · change field b 2 2 = b.length
    omega
  · change field b 6 2 / 8192 = 0
    omega
  · change field b 6 2 % 8192 = 0
    omega

/-- A packet that is sent on is the one received, with one off its time to live and another
checksum, exactly if its header was plain. -/
theorem forwarded_unchanged_iff (node node' : Node) (now : ℕ) (visit : Visit)
    (datagram : List UInt8) (effects : List Effect) (udp : AddrPort) (packet : List UInt8)
    (h : node.handlePackets now visit (received datagram) = .ok (node', effects))
    (hwrite : .write udp packet ∈ effects) :
    OnlyTTL (received datagram).bytes packet ↔ PlainHeader (received datagram).bytes := by
  obtain ⟨header, next, data, hforward, hpacket⟩ := Node.perform_write h hwrite
  obtain ⟨hvalid, -, -, rfl, -⟩ := packetAction_forward hforward
  obtain ⟨hlength, -, -, -, rfl⟩ := validHeader_eq_some hvalid
  have hmax : (received datagram).bytes.length ≤ 1400 := List.length_take_le _ _
  obtain ⟨check, rfl⟩ := exists_rebuilt hpacket
  constructor
  · rintro ⟨check', hsame⟩
    exact plain_of_rebuilt hlength hmax hsame
  · intro hplain
    exact ⟨check, rebuilt_eq_patched hlength hplain _ _⟩

def transitDatagram (tos ttl high low : UInt8) : List UInt8 :=
  [69, tos, 0, 20, 0, 0, 0, 0, ttl, 0, high, low, 10, 0, 0, 3, 8, 8, 8, 8]

theorem forwarded_unchanged_transit :
    OnlyTTL (received (transitDatagram 0 16 144 216)).bytes (transitDatagram 0 15 145 216) := by
  have hplain : PlainHeader (received (transitDatagram 0 16 144 216)).bytes :=
    ⟨by decide, by decide, by decide, by decide, by decide, by decide, by decide⟩
  have hhandled : hostConfig.node.handlePackets 0 hostVisit
      (received (transitDatagram 0 16 144 216)) = .ok (hostConfig.node,
        [.write ⟨2130706433, 5001⟩ (transitDatagram 0 15 145 216)]) := rfl
  exact (forwarded_unchanged_iff _ _ 0 hostVisit _ _ _ _ hhandled
    (List.mem_singleton_self _)).mpr hplain

/-- The service type of a datagram on its way from 10.0.0.3 to 8.8.8.8 is lost. -/
theorem service_type_lost :
    ¬ ∀ (config : IPConfig) (node node' : Node) (sent : List Sent) (now : ℕ) (visit : Visit)
      (datagram : List UInt8) (effects : List Effect) (udp : AddrPort) (packet : List UInt8),
      Initialize config = .ok (node, sent) → node.Visits visit →
      node.handlePackets now visit (received datagram) = .ok (node', effects) →
      .write udp packet ∈ effects → OnlyTTL (received datagram).bytes packet := by
  intro hclaim
  have hhandled : hostConfig.node.handlePackets 0 hostVisit
      (received (transitDatagram 16 16 144 200)) = .ok (hostConfig.node,
        [.write ⟨2130706433, 5001⟩ (transitDatagram 0 15 145 216)]) := rfl
  obtain ⟨check, hsame⟩ := hclaim hostConfig hostConfig.node hostConfig.node [] 0 hostVisit _ _ _ _
    rfl ⟨.refl _, .refl _, .refl _⟩ hhandled (List.mem_singleton_self _)
  have htos := congrArg (fun packet => field packet 1 1) hsame
  simp only [field_patched (show 8 ≤ (received (transitDatagram 16 16 144 200)).bytes.length
    by decide) (show 1 + 1 ≤ 8 by decide)] at htos
  exact absurd htos (by decide)

end IpTcp
