import IpTcp.Ipv4Header

/-!
TCP segments on the wire. The receiver does not sum the bytes it got: it reads the
fields that the stack uses, builds a header of 20 bytes from them, and computes the
checksum of that header and the bytes behind the data offset. For the segments of this
stack this is the checksum of the segment. It is another one as soon as the segment has
options, an urgent pointer or reserved bits.
-/
namespace IpTcp

open BigEndian InternetChecksum

abbrev TcpHeaderLen : ℕ := 20

structure TCPFields where
  SrcPort : UInt16
  DstPort : UInt16
  SeqNum : UInt32
  AckNum : UInt32
  DataOffset : UInt8
  Flags : UInt8
  WindowSize : UInt16
  Checksum : UInt16
  UrgentPointer : UInt16
  deriving DecidableEq, Repr

def TCPFields.Encode (t : TCPFields) : List UInt8 :=
  put 2 t.SrcPort.toNat ++ (put 2 t.DstPort.toNat ++ (put 4 t.SeqNum.toNat ++
    (put 4 t.AckNum.toNat ++ (put 1 (t.DataOffset.toNat / 4 * 16) ++ (put 1 t.Flags.toNat ++
      (put 2 t.WindowSize.toNat ++ (put 2 t.Checksum.toNat ++ put 2 t.UrgentPointer.toNat)))))))

def dataOffset (b : List UInt8) : ℕ := field b 12 1 / 16 * 4

/-- The fields that the stack uses; the urgent pointer is not among them. -/
def headerFields (b : List UInt8) : TCPFields where
  SrcPort := UInt16.ofNat (field b 0 2)
  DstPort := UInt16.ofNat (field b 2 2)
  SeqNum := UInt32.ofNat (field b 4 4)
  AckNum := UInt32.ofNat (field b 8 4)
  DataOffset := UInt8.ofNat (dataOffset b)
  Flags := UInt8.ofNat (field b 13 1)
  WindowSize := UInt16.ofNat (field b 14 2)
  Checksum := UInt16.ofNat (field b 16 2)
  UrgentPointer := 0

/-- The last byte that an accessor reads is the second of the checksum. -/
def ParseTCPHeader (b : List UInt8) : Option TCPFields :=
  if 18 ≤ b.length then some (headerFields b) else none

def pseudoHeader (sourceIP destIP : Addr) (totalLength : ℕ) : List UInt8 :=
  put 4 sourceIP.word ++ (put 4 destIP.word ++ (put 1 0 ++ (put 1 6 ++ put 2 totalLength)))

/-- The sums of the three parts, each started with the one before. -/
def chainedChecksum (tcpHdr : TCPFields) (sourceIP destIP : Addr) (payload : List UInt8) : ℕ :=
  let pseudoHeaderChecksum :=
    checksum (pseudoHeader sourceIP destIP (TcpHeaderLen + payload.length)) 0
  let headerChecksum := checksum tcpHdr.Encode pseudoHeaderChecksum
  checksum payload headerChecksum

def ComputeTCPChecksum (tcpHdr : TCPFields) (sourceIP destIP : Addr) (payload : List UInt8) :
    UInt16 :=
  UInt16.ofNat (maxWord - chainedChecksum tcpHdr sourceIP destIP payload)

namespace TCPPacket

def header (p : TCPPacket) : TCPFields where
  SrcPort := p.sourcePort
  DstPort := p.destPort
  SeqNum := p.seqNum
  AckNum := p.ackNum
  DataOffset := 20
  Flags := p.flags
  WindowSize := p.window
  Checksum := 0
  UrgentPointer := 0

def marshallTCPPacket (p : TCPPacket) : List UInt8 :=
  let check := ComputeTCPChecksum p.header p.sourceIp p.destIp p.payload
  { p.header with Checksum := check }.Encode ++ p.payload

end TCPPacket

/-- What the handler of TCP passes up. The payload is cut behind a header of 20 bytes,
whatever the data offset is. -/
def protocol6 (IpAddr : Addr) (message : List UInt8) (src dst : Addr) :
    Except Fault (Option TCPInfo) :=
  match ParseTCPHeader message with
  | none => .error .bounds
  | some tcpHdr =>
      if message.length < tcpHdr.DataOffset.toNat then .error .bounds
      else
        let tcpPayload := message.drop tcpHdr.DataOffset.toNat
        if ComputeTCPChecksum { tcpHdr with Checksum := 0 } src dst tcpPayload ≠ tcpHdr.Checksum
        then .ok none
        else if message.length < 20 then .error .bounds
        else .ok (some
          { key := ⟨src, tcpHdr.SrcPort, IpAddr, tcpHdr.DstPort⟩
            Flag := tcpHdr.Flags
            SeqNum := tcpHdr.SeqNum
            AckNum := tcpHdr.AckNum
            Payload := message.drop 20
            WindowSize := tcpHdr.WindowSize })

/-- Whatever its destination was, a segment is passed up under the address of the node. -/
theorem protocol6_key {IpAddr src dst : Addr} {m : List UInt8} {info : TCPInfo}
    (h : protocol6 IpAddr m src dst = .ok (some info)) : info.key.RemoteAddr = IpAddr := by
  unfold protocol6 at h
  split at h
  · contradiction
  · split at h
    · contradiction
    · simp only at h
      split at h
      · cases h
      · split at h
        · contradiction
        · cases h
          rfl

section Sums

theorem length_encode (t : TCPFields) : t.Encode.length = 20 := by
  simp [TCPFields.Encode]

theorem wordSum_encode (t : TCPFields) :
    wordSum t.Encode = t.SrcPort.toNat + t.DstPort.toNat +
      (t.SeqNum.toNat / 65536 + t.SeqNum.toNat % 65536) +
      (t.AckNum.toNat / 65536 + t.AckNum.toNat % 65536) +
      (256 * (t.DataOffset.toNat / 4 * 16 % 256) + t.Flags.toNat) + t.WindowSize.toNat +
      t.Checksum.toNat + t.UrgentPointer.toNat := by
  have hsrc := t.SrcPort.toNat_lt
  have hdst := t.DstPort.toNat_lt
  have hseq := t.SeqNum.toNat_lt
  have hack := t.AckNum.toNat_lt
  have hflags := t.Flags.toNat_lt
  have hwindow := t.WindowSize.toNat_lt
  have hcheck := t.Checksum.toNat_lt
  have hurgent := t.UrgentPointer.toNat_lt
  have hlast := wordSum_put_two t.UrgentPointer.toNat []
  rw [List.append_nil, wordSum_nil] at hlast
  simp only [TCPFields.Encode, wordSum_put_two, wordSum_put_four, wordSum_put_one_one, hlast]
  omega

theorem length_pseudoHeader (src dst : Addr) (total : ℕ) :
    (pseudoHeader src dst total).length = 12 := by
  simp [pseudoHeader]

theorem wordSum_pseudoHeader (src dst : Addr) (total : ℕ) :
    wordSum (pseudoHeader src dst total) =
      wordSum (put 4 src.word) + wordSum (put 4 dst.word) + 6 + total % 65536 := by
  have hlast := wordSum_put_two total []
  have hsrc := wordSum_put_four src.word []
  have hdst := wordSum_put_four dst.word []
  rw [List.append_nil, wordSum_nil] at hlast hsrc hdst
  simp only [pseudoHeader, wordSum_put_four, wordSum_put_one_one, hlast, hsrc, hdst]
  omega

/-- The chained sums are the sum of the parts put together. -/
theorem chainedChecksum_eq (t : TCPFields) (src dst : Addr) (payload : List UInt8) :
    chainedChecksum t src dst payload = checksum
      (pseudoHeader src dst (TcpHeaderLen + payload.length) ++ (t.Encode ++ payload)) 0 := by
  have hpseudo := length_pseudoHeader src dst (TcpHeaderLen + payload.length)
  rw [checksum_append (by rw [hpseudo]) _ (Nat.zero_le _),
    checksum_append (by rw [length_encode]) _ (checksum_le _ (Nat.zero_le _))]
  rfl

end Sums

theorem dataOffset_le (m : List UInt8) : dataOffset m ≤ 60 := by
  have hbyte : field m 12 1 < 256 := field_lt m 12 1
  unfold dataOffset
  omega

theorem toNat_dataOffset (m : List UInt8) :
    (headerFields m).DataOffset.toNat = dataOffset m := by
  have hle := dataOffset_le m
  rw [headerFields, UInt8.toNat_ofNat']
  omega

/-- The handler on a segment that is long enough for its header. -/
theorem protocol6_eq (IpAddr src dst : Addr) {m : List UInt8} (hlength : 20 ≤ m.length)
    (hoff : dataOffset m ≤ m.length) :
    protocol6 IpAddr m src dst =
      if ComputeTCPChecksum { headerFields m with Checksum := 0 } src dst (m.drop (dataOffset m)) ≠
          (headerFields m).Checksum then .ok none
      else .ok (some
        { key := ⟨src, (headerFields m).SrcPort, IpAddr, (headerFields m).DstPort⟩
          Flag := (headerFields m).Flags
          SeqNum := (headerFields m).SeqNum
          AckNum := (headerFields m).AckNum
          Payload := m.drop 20
          WindowSize := (headerFields m).WindowSize }) := by
  have hnat := toNat_dataOffset m
  rw [protocol6, ParseTCPHeader, if_pos (by omega)]
  simp only [hnat]
  rw [if_neg (by omega), if_neg (by omega : ¬ m.length < 20)]

/-- What the handler reads of a segment is there: the checksum field, the bytes up to the data
offset, and 20 bytes if the checksum is right. -/
structure InBounds (src dst : Addr) (m : List UInt8) : Prop where
  checksum : 18 ≤ m.length
  offset : dataOffset m ≤ m.length
  payload : 20 ≤ m.length ∨
    ComputeTCPChecksum { headerFields m with Checksum := 0 } src dst (m.drop (dataOffset m)) ≠
      (headerFields m).Checksum

theorem protocol6_ok_iff (IpAddr src dst : Addr) (m : List UInt8) :
    (∃ info, protocol6 IpAddr m src dst = .ok info) ↔ InBounds src dst m := by
  have hnat := toNat_dataOffset m
  unfold protocol6 ParseTCPHeader
  by_cases hlength : 18 ≤ m.length
  · rw [if_pos hlength]
    simp only [hnat]
    by_cases hoff : m.length < dataOffset m
    · rw [if_pos hoff]
      exact iff_of_false (by simp) fun h => absurd h.offset (by omega)
    · rw [if_neg hoff]
      split
      · next hne => exact iff_of_true ⟨_, rfl⟩ ⟨hlength, by omega, Or.inr hne⟩
      · next heq =>
        split
        · next hshort =>
          refine iff_of_false (by simp) fun h => ?_
          rcases h.payload with hlong | hne
          · omega
          · exact heq hne
        · next hlong => exact iff_of_true ⟨_, rfl⟩ ⟨hlength, by omega, Or.inl (by omega)⟩
  · rw [if_neg hlength]
    exact iff_of_false (by simp) fun h => hlength h.checksum

/-- What was encoded is read back, the urgent pointer apart. -/
theorem headerFields_encode (t : TCPFields) (hoff : t.DataOffset = 20) (payload : List UInt8) :
    headerFields (t.Encode ++ payload) = { t with UrgentPointer := 0 } := by
  simp [headerFields, dataOffset, TCPFields.Encode, hoff]

theorem dataOffset_encode (t : TCPFields) (hoff : t.DataOffset = 20) (payload : List UInt8) :
    dataOffset (t.Encode ++ payload) = 20 := by
  simp [dataOffset, TCPFields.Encode, hoff]

theorem toNat_computeTCPChecksum (t : TCPFields) (src dst : Addr) (payload : List UInt8) :
    (ComputeTCPChecksum t src dst payload).toNat =
      maxWord - chainedChecksum t src dst payload := by
  rw [ComputeTCPChecksum, UInt16.toNat_ofNat']
  simp only [maxWord]
  omega

def segmentSum (t : TCPFields) (src dst : Addr) (payload : List UInt8) : ℕ :=
  wordSum (pseudoHeader src dst (TcpHeaderLen + payload.length)) + wordSum t.Encode +
    wordSum payload

theorem segmentSum_pos (t : TCPFields) (src dst : Addr) (payload : List UInt8) :
    0 < segmentSum t src dst payload := by
  rw [segmentSum, wordSum_pseudoHeader]
  omega

theorem checksum_segment (t : TCPFields) (src dst : Addr) (payload : List UInt8) :
    checksum (pseudoHeader src dst (TcpHeaderLen + payload.length) ++ (t.Encode ++ payload)) 0 =
      fold maxWord (segmentSum t src dst payload) := by
  rw [checksum_eq _ (Nat.zero_le _), wordSum_append (by rw [length_pseudoHeader]),
    wordSum_append (by rw [length_encode]), Nat.zero_add, segmentSum, Nat.add_assoc]

theorem segmentSum_checksum (t : TCPFields) (hzero : t.Checksum = 0) (src dst : Addr)
    (payload : List UInt8) (check : UInt16) :
    segmentSum { t with Checksum := check } src dst payload =
      segmentSum t src dst payload + check.toNat := by
  simp only [segmentSum, wordSum_encode, hzero, UInt16.toNat_zero]
  omega

namespace TCPPacket

variable (p : TCPPacket)

def passedUp (IpAddr : Addr) : TCPInfo where
  key := ⟨p.sourceIp, p.sourcePort, IpAddr, p.destPort⟩
  Flag := p.flags
  SeqNum := p.seqNum
  AckNum := p.ackNum
  WindowSize := p.window
  Payload := p.payload

theorem checksum_marshall :
    checksum (pseudoHeader p.sourceIp p.destIp (TcpHeaderLen + p.payload.length) ++
      p.marshallTCPPacket) 0 = 0xffff := by
  rw [marshallTCPPacket, checksum_segment, segmentSum_checksum _ rfl, toNat_computeTCPChecksum,
    chainedChecksum_eq, checksum_segment]
  refine (fold_eq_max_iff (by decide)).mpr ⟨?_, add_complement_mod (by decide) _⟩
  exact Nat.add_pos_left (segmentSum_pos ..) _

theorem length_marshall : p.marshallTCPPacket.length = 20 + p.payload.length := by
  rw [marshallTCPPacket, List.length_append, length_encode]

theorem protocol6_marshall (IpAddr : Addr) :
    protocol6 IpAddr p.marshallTCPPacket p.sourceIp p.destIp = .ok (some (p.passedUp IpAddr)) := by
  have hlength : 20 ≤ p.marshallTCPPacket.length := by
    rw [length_marshall]
    omega
  have hoff : dataOffset p.marshallTCPPacket = 20 := dataOffset_encode _ rfl _
  have hdrop : p.marshallTCPPacket.drop 20 = p.payload := List.drop_left' (length_encode _)
  have hfields : headerFields p.marshallTCPPacket = _ := headerFields_encode _ rfl _
  rw [protocol6_eq IpAddr _ _ hlength (hoff ▸ hlength), hoff, hdrop, hfields]
  exact if_neg (not_not_intro rfl)

end TCPPacket

/-- A segment that the stack builds verifies, the sums that it is checked with are those of
the whole segment, and its receiver passes it up as it was sent. -/
theorem segment_round_trip (p : TCPPacket) (src dst : UInt32) (IpAddr : Addr)
    (hsrc : p.sourceIp = .v4 src) (hdst : p.destIp = .v4 dst)
    (hsize : p.payload.length ≤ 65515) :
    let pseudo := pseudoHeader (.v4 src) (.v4 dst) (TcpHeaderLen + p.payload.length)
    TcpHeaderLen + p.payload.length < 65536 ∧
      checksum (pseudo ++ p.marshallTCPPacket) 0 = 0xffff ∧
      (∀ check : UInt16, let tcpHdr := { p.header with Checksum := check }
        chainedChecksum tcpHdr (.v4 src) (.v4 dst) p.payload =
          checksum (pseudo ++ (tcpHdr.Encode ++ p.payload)) 0) ∧
      protocol6 IpAddr p.marshallTCPPacket (.v4 src) (.v4 dst) =
        .ok (some (p.passedUp IpAddr)) := by
  refine ⟨?_, ?_, ?_, ?_⟩
  · simp only [TcpHeaderLen]
    omega
  · rw [← hsrc, ← hdst]
    exact p.checksum_marshall
  · exact fun check => chainedChecksum_eq ..
  · rw [← hsrc, ← hdst]
    exact p.protocol6_marshall IpAddr

def samplePacket : TCPPacket where
  sourceIp := .v4 167772161
  destIp := .v4 167772162
  payload := [104, 101, 121]
  flags := tcpFlagAck
  sourcePort := 80
  destPort := 90
  seqNum := 5
  ackNum := 6
  window := 100

theorem segment_round_trip_odd :
    protocol6 (.v4 167772162) samplePacket.marshallTCPPacket (.v4 167772161) (.v4 167772162) =
      .ok (some (samplePacket.passedUp (.v4 167772162))) :=
  (segment_round_trip samplePacket 167772161 167772162 (.v4 167772162) rfl rfl (by decide)).2.2.2

def Verifies (src dst : Addr) (m : List UInt8) : Prop :=
  checksum (pseudoHeader src dst m.length ++ m) 0 = 0xffff

def PassesUp (IpAddr src dst : Addr) (m : List UInt8) : Prop :=
  ∃ info, protocol6 IpAddr m src dst = .ok (some info)

/-- The handler passes a segment up exactly if its checksum verifies, with the bytes behind
the data offset as its payload. -/
def HandledExactly (IpAddr src dst : Addr) (m : List UInt8) : Prop :=
  (PassesUp IpAddr src dst m ↔ Verifies src dst m) ∧
    ∀ info, protocol6 IpAddr m src dst = .ok (some info) → info.Payload = m.drop (dataOffset m)

/-- No options, nothing that the parser skips, and not the second form of zero as checksum.
Reserved bits and an urgent pointer do no harm if they add up to zero again. -/
def Plain (m : List UInt8) : Prop :=
  dataOffset m = 20 ∧ (256 * (field m 12 1 % 16) + field m 18 2) % 65535 = 0 ∧
    field m 16 2 ≠ 0xffff

/-- The words of a byte string and of a pseudo header for it. -/
def wireSum (src dst : Addr) (m : List UInt8) : ℕ :=
  wordSum (pseudoHeader src dst m.length ++ m)

/-- The bytes that the handler sums: a segment without its reserved bits, its urgent pointer
and its options. -/
def stripped (m : List UInt8) : List UInt8 :=
  m.take 12 ++ (put 1 (field m 12 1 / 16 * 16) ++ ((m.drop 13).take 5 ++
    (put 2 0 ++ m.drop (dataOffset m))))

/-- The words of a segment do not cancel out, and those of its stripped bytes do not either,
or its checksum is the second form of zero. -/
def Damaged (src dst : Addr) (m : List UInt8) : Prop :=
  wireSum src dst m % maxWord ≠ 0 ∧
    (field m 16 2 = 0xffff ∨ wireSum src dst (stripped m) % maxWord ≠ 0)

section Segment

variable {m : List UInt8}

/-- What the header that is built again lacks. -/
theorem wordSum_segment (hlength : 20 ≤ m.length) :
    wordSum m = wordSum (headerFields m).Encode + (256 * (field m 12 1 % 16) + field m 18 2) +
      wordSum (m.drop 20) := by
  have hbyte : field m 12 1 < 256 := field_lt m 12 1
  have hwords : wordSum m =
      field m 0 2 + (field m 2 2 + (field m 4 4 / 65536 + field m 4 4 % 65536 +
      (field m 8 4 / 65536 + field m 8 4 % 65536 + (256 * field m 12 1 + field m 13 1 +
        (field m 14 2 + (field m 16 2 + (field m 18 2 + wordSum (m.drop 20)))))))) := by
    rw [wordSum_field_two (by omega), wordSum_field_two (by rw [List.length_drop]; omega),
      List.drop_drop, wordSum_field_four (by rw [List.length_drop]; omega), List.drop_drop,
      wordSum_field_four (by rw [List.length_drop]; omega), List.drop_drop,
      wordSum_field_one_one (by rw [List.length_drop]; omega), List.drop_drop,
      wordSum_field_two (by rw [List.length_drop]; omega), List.drop_drop,
      wordSum_field_two (by rw [List.length_drop]; omega), List.drop_drop,
      wordSum_field_two (by rw [List.length_drop]; omega), List.drop_drop]
    simp only [field_drop, Nat.reduceAdd]
  have hencode : wordSum (headerFields m).Encode = field m 0 2 + field m 2 2 +
      (field m 4 4 / 65536 + field m 4 4 % 65536) + (field m 8 4 / 65536 + field m 8 4 % 65536) +
      (256 * (field m 12 1 / 16 * 16) + field m 13 1) + field m 14 2 + field m 16 2 := by
    have h₀ : field m 0 2 < 65536 := field_lt m 0 2
    have h₂ : field m 2 2 < 65536 := field_lt m 2 2
    have h₄ : field m 4 4 < 4294967296 := field_lt m 4 4
    have h₈ : field m 8 4 < 4294967296 := field_lt m 8 4
    have h₁₃ : field m 13 1 < 256 := field_lt m 13 1
    have h₁₄ : field m 14 2 < 65536 := field_lt m 14 2
    have h₁₆ : field m 16 2 < 65536 := field_lt m 16 2
    rw [wordSum_encode]
    simp only [headerFields, dataOffset, UInt16.toNat_ofNat', UInt32.toNat_ofNat',
      UInt8.toNat_ofNat', UInt16.toNat_zero]
    omega
  omega

theorem toNat_checksum_fields (m : List UInt8) :
    (headerFields m).Checksum.toNat = field m 16 2 := by
  have hlt : field m 16 2 < 65536 := field_lt m 16 2
  rw [headerFields, UInt16.toNat_ofNat']
  omega

/-- The header that is built again is that of the stripped segment. -/
theorem encode_headerFields (hlength : 20 ≤ m.length) :
    (headerFields m).Encode ++ m.drop (dataOffset m) = stripped m := by
  have hoffset : (headerFields m).DataOffset.toNat / 4 * 16 = field m 12 1 / 16 * 16 := by
    rw [toNat_dataOffset, dataOffset, Nat.mul_div_cancel _ (by decide)]
  have htwo : ∀ off, (UInt16.ofNat (field m off 2)).toNat = field m off 2 := fun off =>
    UInt16.toNat_ofNat_of_lt' (field_lt m off 2)
  have hfour : ∀ off, (UInt32.ofNat (field m off 4)).toNat = field m off 4 := fun off =>
    UInt32.toNat_ofNat_of_lt' (field_lt m off 4)
  have hflags : (UInt8.ofNat (field m 13 1)).toNat = field m 13 1 :=
    UInt8.toNat_ofNat_of_lt' (field_lt m 13 1)
  -- the fields lie next to each other on both sides of byte 12
  have h₀ : m.take (2 + 10) = _ := List.take_add
  have h₂ : (m.drop 2).take (2 + 8) = _ := List.take_add
  have h₄ : (m.drop 4).take (4 + 4) = _ := List.take_add
  have h₁₃ : (m.drop 13).take (1 + 4) = _ := List.take_add
  have h₁₄ : (m.drop 14).take (2 + 2) = _ := List.take_add
  simp only [List.drop_drop, Nat.reduceAdd] at h₀ h₂ h₄ h₁₃ h₁₄
  unfold TCPFields.Encode
  rw [hoffset]
  simp only [headerFields, htwo, hfour, hflags]
  rw [put_field (by omega), put_field (by omega), put_field (by omega), put_field (by omega),
    put_field (by omega), put_field (by omega), put_field (by omega), stripped, h₀, h₂, h₄,
    h₁₃, h₁₄]
  simp only [List.drop_zero, List.append_assoc, UInt16.toNat_zero]

theorem segmentSum_stripped (hlength : 20 ≤ m.length) (src dst : Addr) :
    segmentSum (headerFields m) src dst (m.drop (dataOffset m)) =
      wireSum src dst (stripped m) := by
  have htotal : (stripped m).length = TcpHeaderLen + (m.drop (dataOffset m)).length := by
    rw [← encode_headerFields hlength, List.length_append, length_encode]
  unfold wireSum
  rw [wordSum_append (by rw [length_pseudoHeader]), htotal, ← encode_headerFields hlength,
    wordSum_append (by rw [length_encode]), segmentSum, Nat.add_assoc]

theorem wireSum_pos (src dst : Addr) (m : List UInt8) : 0 < wireSum src dst m := by
  rw [wireSum, wordSum_append (by rw [length_pseudoHeader]), wordSum_pseudoHeader]
  omega

theorem passesUp_iff {IpAddr src dst : Addr} (hlength : 20 ≤ m.length)
    (hoff : dataOffset m ≤ m.length) :
    PassesUp IpAddr src dst m ↔ field m 16 2 ≠ 0xffff ∧
      wireSum src dst (stripped m) % maxWord = 0 := by
  have hcheck := toNat_checksum_fields m
  have hlt : field m 16 2 < 65536 := field_lt m 16 2
  have hle : field m 16 2 ≤ maxWord := Nat.le_of_lt_succ hlt
  have hsum := segmentSum_checksum { headerFields m with Checksum := 0 } rfl src dst
    (m.drop (dataOffset m)) (headerFields m).Checksum
  rw [hcheck] at hsum
  unfold PassesUp
  rw [protocol6_eq IpAddr src dst hlength hoff, ← segmentSum_stripped hlength, hsum,
    ← complement_eq_iff (by decide) (segmentSum_pos ..) hle, ← hcheck, ← checksum_segment,
    ← chainedChecksum_eq, ← toNat_computeTCPChecksum, UInt16.toNat_inj]
  split
  · next hne => exact iff_of_false (by simp) hne
  · next heq => exact iff_of_true ⟨_, rfl⟩ (not_not.mp heq)

theorem verifies_iff (src dst : Addr) (m : List UInt8) :
    Verifies src dst m ↔ wireSum src dst m % maxWord = 0 := by
  unfold Verifies
  rw [checksum_eq _ (Nat.zero_le _), Nat.zero_add]
  exact (fold_eq_max_iff (by decide)).trans (and_iff_right (wireSum_pos src dst m))

/-- Without options the stripped bytes lack the reserved bits and the urgent pointer. -/
theorem wireSum_without_options (src dst : Addr) (hlength : 20 ≤ m.length)
    (hoff : dataOffset m = 20) :
    wireSum src dst m =
      wireSum src dst (stripped m) + (256 * (field m 12 1 % 16) + field m 18 2) := by
  have htotal : TcpHeaderLen + (m.drop (dataOffset m)).length = m.length := by
    rw [hoff, List.length_drop, TcpHeaderLen]
    omega
  rw [← segmentSum_stripped hlength, segmentSum, htotal, wireSum,
    wordSum_append (by rw [length_pseudoHeader]), wordSum_segment hlength, hoff]
  omega

theorem payload_of_passed {IpAddr src dst : Addr} {info : TCPInfo} (hlength : 20 ≤ m.length)
    (hoff : dataOffset m ≤ m.length) (h : protocol6 IpAddr m src dst = .ok (some info)) :
    info.Payload = m.drop 20 := by
  rw [protocol6_eq IpAddr src dst hlength hoff] at h
  split at h
  · simp at h
  · cases h
    rfl

end Segment

/-- The handler treats a segment as its checksum demands exactly if the segment is plain, or
is damaged in what the handler sums as well. -/
theorem handled_exactly_iff (IpAddr src dst : Addr) (m : List UInt8) (hlength : 20 ≤ m.length)
    (hlow : 20 ≤ dataOffset m) (hhigh : dataOffset m ≤ m.length) :
    HandledExactly IpAddr src dst m ↔ Plain m ∨ Damaged src dst m := by
  have hpasses : PassesUp IpAddr src dst m ↔ _ := passesUp_iff hlength hhigh
  have hverifies := verifies_iff src dst m
  constructor
  · intro ⟨hiff, hpayload⟩
    by_cases hpass : PassesUp IpAddr src dst m
    · obtain ⟨info, hinfo⟩ := hpass
      have hdrop : m.drop 20 = m.drop (dataOffset m) :=
        (payload_of_passed hlength hhigh hinfo).symm.trans (hpayload info hinfo)
      have hoff : dataOffset m = 20 := by
        have hlen := congrArg List.length hdrop
        simp only [List.length_drop] at hlen
        omega
      have hsum := hverifies.mp (hiff.mp ⟨info, hinfo⟩)
      obtain ⟨hcheck, hbuilt⟩ := hpasses.mp ⟨info, hinfo⟩
      rw [wireSum_without_options src dst hlength hoff] at hsum
      simp only [maxWord] at hsum hbuilt
      exact Or.inl ⟨hoff, by omega, hcheck⟩
    · refine Or.inr ⟨fun hsum => hpass (hiff.mpr (hverifies.mpr hsum)), ?_⟩
      by_contra hneither
      rw [not_or, not_not] at hneither
      exact hpass (hpasses.mpr hneither)
  · rintro (⟨hoff, hskipped, hcheck⟩ | ⟨hsum, hbuilt⟩)
    · refine ⟨?_, fun info hinfo => ?_⟩
      · rw [hpasses, hverifies, and_iff_right hcheck,
          wireSum_without_options src dst hlength hoff]
        simp only [maxWord]
        omega
      · rw [payload_of_passed hlength hhigh hinfo, hoff]
    · have hrejected : ¬ PassesUp IpAddr src dst m := by
        rw [hpasses, not_and_or, not_not]
        exact hbuilt
      exact ⟨iff_of_false hrejected (mt hverifies.mp hsum),
        fun info hinfo => absurd ⟨info, hinfo⟩ hrejected⟩

/-- A segment of this stack. -/
theorem handled_exactly_sample :
    HandledExactly (.v4 167772162) (.v4 167772161) (.v4 167772162)
      samplePacket.marshallTCPPacket :=
  (handled_exactly_iff (.v4 167772162) (.v4 167772161) (.v4 167772162)
    samplePacket.marshallTCPPacket (by decide) (by decide) (by decide)).mpr
    (Or.inl (by unfold Plain; decide))

/-- An urgent segment from 10.0.0.1 to 10.0.0.2 whose checksum verifies is not passed up. -/
theorem urgent_segment_rejected :
    ¬ ∀ (IpAddr : Addr) (src dst : UInt32) (m : List UInt8), 20 ≤ m.length →
      20 ≤ dataOffset m → dataOffset m ≤ m.length →
      HandledExactly IpAddr (.v4 src) (.v4 dst) m := by
  intro hclaim
  have hhandled := hclaim (.v4 167772162) 167772161 167772162
    [0, 80, 0, 90, 0, 0, 0, 5, 0, 0, 0, 6, 80, 48, 0, 100, 154, 152, 0, 1] (by decide) (by decide)
    (by decide)
  obtain ⟨info, hinfo⟩ := hhandled.1.mpr (by unfold Verifies; decide)
  have hnone : protocol6 (.v4 167772162)
      [0, 80, 0, 90, 0, 0, 0, 5, 0, 0, 0, 6, 80, 48, 0, 100, 154, 152, 0, 1]
      (.v4 167772161) (.v4 167772162) = .ok none := by decide
  rw [hnone] at hinfo
  simp at hinfo

end IpTcp
