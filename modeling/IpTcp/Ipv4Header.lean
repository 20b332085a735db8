import IpTcp.InternetChecksum
import IpTcp.Socket

/-!
IPv4 headers as the node writes and reads them, and the first half of handlePackets:
parse, take one off the time to live, and compare a sum over the header that starts
with the header's own checksum with that checksum. The sum comes back to the value it
started with if what was added is a multiple of 0xffff, except from zero: a checksum of
zero, which is the one of a header that adds up to 0xffff, is never taken for valid.
-/
namespace IpTcp

open BigEndian InternetChecksum

inductive Fault
  | bounds
  | nilCall
  | invalidAddr
  | nilChannel
  | fatal
  deriving DecidableEq, Repr

/-- The number that the bytes of an address stand for. The zero address has no bytes, and
those that it would be copied to stay zero. -/
def Addr.word : Addr → ℕ
  | .zero => 0
  | .v4 bits => bits.toNat

structure IPv4Header where
  Version : ℕ
  Len : ℕ
  TOS : ℕ
  TotalLen : ℕ
  ID : ℕ
  Flags : ℕ
  FragOff : ℕ
  TTL : ℕ
  Protocol : ℕ
  Checksum : ℕ
  Src : Addr
  Dst : Addr
  Options : List UInt8
  deriving DecidableEq, Repr

inductive HeaderError
  | headerTooShort
  | extHeaderTooShort
  | missingAddress
  deriving DecidableEq, Repr

namespace IPv4Header

abbrev HeaderLen : ℕ := 20

def bytes (h : IPv4Header) : List UInt8 :=
  put 1 (64 + (HeaderLen + h.Options.length) / 4 % 16) ++ (put 1 h.TOS ++ (put 2 h.TotalLen ++
    (put 2 h.ID ++ (put 2 (h.FragOff % 8192 + 8192 * h.Flags) ++ (put 1 h.TTL ++
      (put 1 h.Protocol ++ (put 2 h.Checksum ++ (put 4 h.Src.word ++ (put 4 h.Dst.word ++
        h.Options)))))))))

def Marshal (h : IPv4Header) : Except HeaderError (List UInt8) :=
  if h.Len < HeaderLen then .error .headerTooShort
  else if h.Dst = .zero then .error .missingAddress
  else .ok h.bytes

def hdrlen (b : List UInt8) : ℕ := field b 0 1 % 16 * 4

/-- The fields of a header. Nothing bounds the header length from below. -/
def fields (b : List UInt8) : IPv4Header where
  Version := field b 0 1 / 16
  Len := hdrlen b
  TOS := field b 1 1
  TotalLen := field b 2 2
  ID := field b 4 2
  Flags := field b 6 2 / 8192
  FragOff := field b 6 2 % 8192
  TTL := field b 8 1
  Protocol := field b 9 1
  Checksum := field b 10 2
  Src := .v4 (UInt32.ofNat (field b 12 4))
  Dst := .v4 (UInt32.ofNat (field b 16 4))
  Options := (b.drop HeaderLen).take (hdrlen b - HeaderLen)

def Parse (b : List UInt8) : Except HeaderError IPv4Header :=
  if b.length < HeaderLen then .error .headerTooShort
  else if b.length < hdrlen b then .error .extHeaderTooShort
  else .ok (fields b)

theorem parse_eq_ok_iff {b : List UInt8} {h : IPv4Header} :
    Parse b = .ok h ↔ HeaderLen ≤ b.length ∧ hdrlen b ≤ b.length ∧ h = fields b := by
  unfold Parse
  split
  · exact iff_of_false (by simp) (by omega)
  · split
    · exact iff_of_false (by simp) (by omega)
    · rw [Except.ok.injEq, eq_comm]
      exact ⟨fun h => ⟨by omega, by omega, h⟩, fun h => h.2.2⟩

end IPv4Header

def ValidateChecksum (b : List UInt8) (fromHeader : ℕ) : ℕ := checksum b fromHeader

def ComputeChecksum (b : List UInt8) : ℕ := maxWord - checksum b 0

def builtHeader (src dst : Addr) (protocolNum ttl size check : ℕ) : IPv4Header where
  Version := 4
  Len := 20
  TOS := 0
  TotalLen := IPv4Header.HeaderLen + size
  ID := 0
  Flags := 0
  FragOff := 0
  TTL := ttl
  Protocol := protocolNum
  Checksum := check
  Src := src
  Dst := dst
  Options := []

/-- An address that is not set has no text that could be parsed. -/
def makePacket (src dst : Addr) (protocolNum ttl : ℕ) (data : List UInt8) :
    Except Fault (List UInt8) :=
  if src = .zero ∨ dst = .zero then .error .invalidAddr
  else
    let hdr := builtHeader src dst protocolNum ttl data.length
    match (hdr 0).Marshal with
    | .error _ => .error .fatal
    | .ok headerBytes =>
        match (hdr (ComputeChecksum headerBytes)).Marshal with
        | .error _ => .error .fatal
        | .ok headerBytes => .ok (headerBytes ++ data)

/-- What interfaceRoutine passes on: the bytes that fit, in a zeroed buffer. -/
def received (datagram : List UInt8) : Slice where
  bytes := datagram.take maxMessageSize
  spare := List.replicate (maxMessageSize - datagram.length) 0

/-- The header that handlePackets goes on with, if it does not drop the packet. -/
def validHeader (buffer : List UInt8) : Option IPv4Header :=
  match IPv4Header.Parse buffer with
  | .error _ => none
  | .ok header =>
      if header.TTL = 0 then none
      else
        let headerBytes := buffer.take header.Len
        if ValidateChecksum headerBytes header.Checksum = header.Checksum then
          some { header with TTL := header.TTL - 1 }
        else none

theorem validHeader_of_parse {b : List UInt8} {h : IPv4Header}
    (hparse : IPv4Header.Parse b = .ok h) :
    validHeader b = if h.TTL ≠ 0 ∧ ValidateChecksum (b.take h.Len) h.Checksum = h.Checksum then
      some { h with TTL := h.TTL - 1 } else none := by
  simp only [validHeader, hparse, ite_and, ite_not]

theorem validHeader_eq_some {b : List UInt8} {header : IPv4Header}
    (h : validHeader b = some header) :
    IPv4Header.HeaderLen ≤ b.length ∧ IPv4Header.hdrlen b ≤ b.length ∧
      (IPv4Header.fields b).TTL ≠ 0 ∧
      ValidateChecksum (b.take (IPv4Header.hdrlen b)) (field b 10 2) = field b 10 2 ∧
      header = { IPv4Header.fields b with TTL := (IPv4Header.fields b).TTL - 1 } := by
  cases hparse : IPv4Header.Parse b with
  | error e => simp [validHeader, hparse] at h
  | ok fields =>
    rw [validHeader_of_parse hparse] at h
    obtain ⟨hlength, hlen, rfl⟩ := IPv4Header.parse_eq_ok_iff.mp hparse
    split at h
    · next hvalid => exact ⟨hlength, hlen, hvalid.1, hvalid.2, (Option.some.inj h).symm⟩
    · contradiction

/-- A built header as a number: the sum of its words, without the checksum. -/
def headerSum (src dst : UInt32) (protocolNum ttl size : ℕ) : ℕ :=
  17664 + (20 + size) + (256 * ttl + protocolNum) + (src.toNat / 65536 + src.toNat % 65536) +
    (dst.toNat / 65536 + dst.toNat % 65536)

section Built

variable {src dst : UInt32} {protocolNum ttl : ℕ} {data : List UInt8}

theorem wordSum_built (hproto : protocolNum < 256) (httl : ttl < 256) {size check : ℕ}
    (hsize : size ≤ 1380) (hcheck : check ≤ maxWord) :
    wordSum (builtHeader (.v4 src) (.v4 dst) protocolNum ttl size check).bytes =
      headerSum src dst protocolNum ttl size + check := by
  have hsrc := src.toNat_lt
  have hdst := dst.toNat_lt
  simp only [maxWord] at hcheck
  simp only [IPv4Header.bytes, builtHeader, Addr.word, IPv4Header.HeaderLen, List.length_nil,
    wordSum_put_one_one, wordSum_put_two, wordSum_put_four, wordSum_nil, headerSum]
  omega

theorem length_built (src dst : Addr) (protocolNum ttl size check : ℕ) :
    (builtHeader src dst protocolNum ttl size check).bytes.length = 20 := by
  simp [IPv4Header.bytes, builtHeader]

/-- What the node writes into a header it reads from it. -/
theorem parse_built (hproto : protocolNum < 256) (httl : ttl < 256) {check : ℕ}
    (hsize : data.length ≤ 1380) (hcheck : check ≤ maxWord) :
    IPv4Header.Parse ((builtHeader (.v4 src) (.v4 dst) protocolNum ttl data.length check).bytes ++
      data) = .ok (builtHeader (.v4 src) (.v4 dst) protocolNum ttl data.length check) := by
  have hsrc := src.toNat_lt
  have hdst := dst.toNat_lt
  simp only [maxWord] at hcheck
  have hlen : IPv4Header.hdrlen
      ((builtHeader (.v4 src) (.v4 dst) protocolNum ttl data.length check).bytes ++ data) = 20 := by
    simp [IPv4Header.hdrlen, IPv4Header.bytes, builtHeader, IPv4Header.HeaderLen]
  rw [IPv4Header.parse_eq_ok_iff, hlen, List.length_append, length_built, IPv4Header.fields, hlen]
  refine ⟨by simp, by omega, ?_⟩
  simp [IPv4Header.bytes, builtHeader, Addr.word, IPv4Header.HeaderLen,
    Nat.mod_eq_of_lt hproto, Nat.mod_eq_of_lt httl,
    Nat.mod_eq_of_lt (show check < 65536 by omega),
    Nat.mod_eq_of_lt (show 20 + data.length < 65536 by omega)]

theorem makePacket_eq (src dst : UInt32) (protocolNum ttl : ℕ) (data : List UInt8) :
    makePacket (.v4 src) (.v4 dst) protocolNum ttl data =
      .ok ((builtHeader (.v4 src) (.v4 dst) protocolNum ttl data.length (ComputeChecksum
        (builtHeader (.v4 src) (.v4 dst) protocolNum ttl data.length 0).bytes)).bytes ++ data) := by
  simp [makePacket, IPv4Header.Marshal, builtHeader]

theorem received_built {protocolNum ttl check : ℕ} (hsize : data.length ≤ 1380) :
    (received ((builtHeader (.v4 src) (.v4 dst) protocolNum ttl data.length check).bytes ++
      data)).bytes =
      (builtHeader (.v4 src) (.v4 dst) protocolNum ttl data.length check).bytes ++ data := by
  refine List.take_of_length_le ?_
  rw [List.length_append, length_built]
  simp only [maxMessageSize]
  omega

/-- The receiver of a packet finds the addresses and the data that the node put into it. -/
theorem makePacket_received (src dst : UInt32) (protocolNum ttl : ℕ) (hproto : protocolNum < 256)
    (httl : ttl < 256) (hsize : data.length ≤ 1380) :
    ∃ packet header, makePacket (.v4 src) (.v4 dst) protocolNum ttl data = .ok packet ∧
      IPv4Header.Parse (received packet).bytes = .ok header ∧ header.Src = .v4 src ∧
      header.Dst = .v4 dst ∧ (received packet).bytes.drop header.Len = data := by
  have hmake := makePacket_eq src dst protocolNum ttl data
  have hcheck : ComputeChecksum
      (builtHeader (.v4 src) (.v4 dst) protocolNum ttl data.length 0).bytes ≤ maxWord :=
    Nat.sub_le ..
  generalize ComputeChecksum _ = check at hmake hcheck
  refine ⟨_, builtHeader (.v4 src) (.v4 dst) protocolNum ttl data.length check, hmake, ?_, rfl,
    rfl, ?_⟩
  · rw [received_built hsize]
    exact parse_built hproto httl hsize hcheck
  · rw [received_built hsize]
    exact List.drop_left' (length_built ..)

theorem computeChecksum_built (hproto : protocolNum < 256) (httl : ttl < 256) {size : ℕ}
    (hsize : size ≤ 1380) :
    ComputeChecksum (builtHeader (.v4 src) (.v4 dst) protocolNum ttl size 0).bytes =
      maxWord - fold maxWord (headerSum src dst protocolNum ttl size) := by
  rw [ComputeChecksum, checksum_eq _ (Nat.zero_le _),
    wordSum_built hproto httl hsize (Nat.zero_le _), Nat.zero_add, Nat.add_zero]

variable (src dst) in
/-- The header is taken for valid exactly if its checksum is not zero. -/
theorem validHeader_built (hproto : protocolNum < 256) (httl : ttl < 256) (hpos : 0 < ttl)
    (hsize : data.length ≤ 1380) {check : ℕ}
    (hcheck : check = maxWord - fold maxWord (headerSum src dst protocolNum ttl data.length)) :
    validHeader
        ((builtHeader (.v4 src) (.v4 dst) protocolNum ttl data.length check).bytes ++ data) =
      if headerSum src dst protocolNum ttl data.length % maxWord ≠ 0 then
        some (builtHeader (.v4 src) (.v4 dst) protocolNum (ttl - 1) data.length check)
      else none := by
  have hle : check ≤ maxWord := hcheck ▸ Nat.sub_le _ _
  have hsum : 0 < headerSum src dst protocolNum ttl data.length := by
    unfold headerSum
    omega
  have htake : ((builtHeader (.v4 src) (.v4 dst) protocolNum ttl data.length check).bytes ++
      data).take 20 = (builtHeader (.v4 src) (.v4 dst) protocolNum ttl data.length check).bytes :=
    List.take_left' (length_built ..)
  have hvalid : ValidateChecksum
      (builtHeader (.v4 src) (.v4 dst) protocolNum ttl data.length check).bytes check = check ↔
      headerSum src dst protocolNum ttl data.length % maxWord ≠ 0 := by
    rw [ValidateChecksum, checksum_eq _ hle, wordSum_built hproto httl hsize hle,
      fold_add_eq_self_iff (by decide) hle, hcheck, add_complement_mod (by decide),
      complement_pos_iff (by decide) hsum]
    simp only [and_true, or_iff_right_iff_imp]
    omega
  rw [validHeader_of_parse (parse_built hproto httl hsize hle)]
  refine if_congr ?_ rfl rfl
  change ttl ≠ 0 ∧ ValidateChecksum ((_ ++ data).take 20) check = check ↔ _
  rw [htake, hvalid]
  exact and_iff_right (by omega)

end Built

def Accepted (buffer : List UInt8) (src dst : UInt32) (protocolNum ttl : ℕ)
    (data : List UInt8) : Prop :=
  ∃ header, validHeader buffer = some header ∧ header.Src = .v4 src ∧ header.Dst = .v4 dst ∧
    header.Protocol = protocolNum ∧ header.TTL = ttl ∧ buffer.drop header.Len = data

/-- The next node accepts a packet that the node builds exactly if the words of its header,
without the checksum, do not add up to 0xffff. -/
theorem built_packet_accepted_iff (src dst : UInt32) (protocolNum ttl : ℕ) (data : List UInt8)
    (hproto : protocolNum ≤ 255) (hpos : 1 ≤ ttl) (httl : ttl ≤ 255)
    (hdata : data.length ≤ 1380) :
    ∃ packet, makePacket (.v4 src) (.v4 dst) protocolNum ttl data = .ok packet ∧
      (Accepted (received packet).bytes src dst protocolNum (ttl - 1) data ↔
        fold maxWord (headerSum src dst protocolNum ttl data.length) ≠ 0xffff) := by
  have hvalid := validHeader_built src dst (Nat.lt_succ_of_le hproto)
    (Nat.lt_succ_of_le httl) hpos hdata rfl
  have hsum : 0 < headerSum src dst protocolNum ttl data.length := by
    unfold headerSum
    omega
  refine ⟨_, makePacket_eq src dst protocolNum ttl data, ?_⟩
  rw [computeChecksum_built (Nat.lt_succ_of_le hproto) (Nat.lt_succ_of_le httl) hdata]
  rw [received_built hdata, Accepted, hvalid]
  have hmax : fold maxWord (headerSum src dst protocolNum ttl data.length) ≠ 0xffff ↔
      headerSum src dst protocolNum ttl data.length % maxWord ≠ 0 :=
    not_congr ((fold_eq_max_iff (by decide)).trans (and_iff_right hsum))
  rw [hmax]
  constructor
  · rintro ⟨header, hheader, -⟩ hzero
    rw [if_neg (not_not_intro hzero)] at hheader
    contradiction
  · intro hne
    rw [if_pos hne]
    exact ⟨_, rfl, rfl, rfl, rfl, rfl, List.drop_left' (length_built ..)⟩

/-- A test packet from 10.0.0.1 to 10.0.0.2. -/
theorem built_packet_accepted_ping :
    ∃ packet, makePacket (.v4 167772161) (.v4 167772162) 0 16 [104, 105] = .ok packet ∧
      Accepted (received packet).bytes 167772161 167772162 0 15 [104, 105] := by
  obtain ⟨packet, hpacket, haccepted⟩ := built_packet_accepted_iff 167772161 167772162 0 16
    [104, 105] (by decide) (by decide) (by decide) (by decide)
  exact ⟨packet, hpacket, haccepted.mpr (by decide)⟩

/-- An empty test packet from 10.0.0.1 to 10.0.150.234 has checksum zero. -/
theorem zero_checksum_dropped :
    ¬ ∀ (src dst : UInt32) (protocolNum ttl : ℕ) (data : List UInt8), protocolNum ≤ 255 →
      1 ≤ ttl → ttl ≤ 255 → data.length ≤ 1380 → ∀ packet,
      makePacket (.v4 src) (.v4 dst) protocolNum ttl data = .ok packet →
      Accepted (received packet).bytes src dst protocolNum (ttl - 1) data := by
  intro hclaim
  have hpacket : makePacket (.v4 167772161) (.v4 167810794) 0 16 [] =
      .ok [69, 0, 0, 20, 0, 0, 0, 0, 16, 0, 0, 0, 10, 0, 0, 1, 10, 0, 150, 234] := by decide
  obtain ⟨header, hheader, -⟩ := hclaim 167772161 167810794 0 16 [] (by decide) (by decide)
    (by decide) (by decide) _ hpacket
  have hdropped : validHeader (received [69, 0, 0, 20, 0, 0, 0, 0, 16, 0, 0, 0, 10, 0, 0, 1, 10, 0,
      150, 234]).bytes = none := by decide
  rw [hdropped] at hheader
  contradiction

end IpTcp
