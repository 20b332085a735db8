import IpTcp.Bytes
import IpTcp.Rip

/-!
RIP messages on the wire: a command, the number of entries, and twelve bytes for each
of them. The reader takes the number of entries at its word. It reads them through
slice expressions that are checked against the capacity of the buffer, so that a short
message is read on into the zeros behind it, and one that announces more than the
buffer could hold ends the program.
-/
namespace IpTcp

open BigEndian Rip

structure RipMessage where
  Command : ℕ
  Num_entries : ℕ
  Entries : List RipUpdate
  deriving DecidableEq, Repr

/-- Command 1 asks for the table; every other one is an update. -/
def RipMessage.packet (message : RipMessage) : RipPacket :=
  if message.Command = 1 then .request else .response message.Entries

theorem RipMessage.packet_eq_request_iff (message : RipMessage) :
    message.packet = .request ↔ message.Command = 1 := by
  unfold packet
  split
  · next h => exact iff_of_true rfl h
  · next h => exact iff_of_false (by simp) h

def entryBytes (entry : RipUpdate) : List UInt8 :=
  put 4 entry.Cost.toNat ++ (put 4 entry.Address.toNat ++ put 4 entry.Mask.toNat)

def MarshalRIP (packet : RipMessage) : List UInt8 :=
  put 2 packet.Command ++ (put 2 packet.Num_entries ++ packet.Entries.flatMap entryBytes)

def extractEntries (message : Slice) : ℕ → ℕ → Option (List RipUpdate)
  | _, 0 => some []
  | iter, n + 1 =>
      match message.number iter (iter + 4), message.number (iter + 4) (iter + 8),
        message.number (iter + 8) (iter + 12) with
      | some cost, some address, some mask =>
          (extractEntries message (iter + 12) n).map fun entries =>
            ⟨UInt32.ofNat cost, UInt32.ofNat address, UInt32.ofNat mask⟩ :: entries
      | _, _, _ => none

def ExtractRIP (message : Slice) : Option RipMessage :=
  match message.number 0 2, message.number 2 4 with
  | some command, some num_entries =>
      (extractEntries message 4 num_entries).map fun entries => ⟨command, num_entries, entries⟩
  | _, _ => none

def entriesAt (bytes : List UInt8) : ℕ → ℕ → List RipUpdate
  | _, 0 => []
  | iter, n + 1 =>
      ⟨UInt32.ofNat (field bytes iter 4), UInt32.ofNat (field bytes (iter + 4) 4),
        UInt32.ofNat (field bytes (iter + 8) 4)⟩ :: entriesAt bytes (iter + 12) n

/-- Entries can be read as far as the capacity goes. -/
theorem extractEntries_eq (message : Slice) (iter n : ℕ) :
    extractEntries message iter n = if n = 0 ∨ iter + 12 * n ≤ message.cap then
      some (entriesAt (message.bytes ++ message.spare) iter n) else none := by
  induction n generalizing iter with
  | zero => simp [extractEntries, entriesAt]
  | succ n ih =>
    by_cases hcap : iter + 12 ≤ message.cap
    · simp only [extractEntries, Slice.number_eq, ih]
      rw [if_pos ⟨by omega, by omega⟩, if_pos ⟨by omega, by omega⟩, if_pos ⟨by omega, by omega⟩]
      by_cases hfits : iter + 12 * (n + 1) ≤ message.cap
      · rw [if_pos (Or.inr hfits), if_pos (by omega)]
        simp only [entriesAt, Option.map_some, Nat.add_sub_cancel_left]
        congr 5 <;> omega
      · rw [if_neg (by omega), if_neg (by omega)]
        rfl
    · rw [if_neg (by omega)]
      simp only [extractEntries, Slice.number_eq]
      rw [if_neg (show ¬ (iter + 8 ≤ iter + 12 ∧ iter + 12 ≤ message.cap) by omega)]
      split
      · contradiction
      · rfl

theorem extractRIP_eq {message : Slice} (hcap : 4 ≤ message.cap) :
    ExtractRIP message =
      let bytes := message.bytes ++ message.spare
      if 4 + 12 * field bytes 2 2 ≤ message.cap then
        some ⟨field bytes 0 2, field bytes 2 2, entriesAt bytes 4 (field bytes 2 2)⟩
      else none := by
  simp only [ExtractRIP, Slice.number_eq]
  rw [if_pos ⟨by omega, by omega⟩, if_pos ⟨by omega, by omega⟩]
  simp only [extractEntries_eq, Nat.sub_zero, Nat.reduceSub]
  split
  · next h => rw [if_pos (by omega)]; rfl
  · next h => rw [if_neg (by omega)]; rfl

@[simp] theorem length_entryBytes (entry : RipUpdate) : (entryBytes entry).length = 12 := by
  simp [entryBytes]

theorem length_flatMap_entryBytes (entries : List RipUpdate) :
    (entries.flatMap entryBytes).length = 12 * entries.length := by
  induction entries with
  | nil => rfl
  | cons entry entries ih =>
    rw [List.flatMap_cons, List.length_append, length_entryBytes, ih, List.length_cons]
    omega

theorem length_marshalRIP (packet : RipMessage) :
    (MarshalRIP packet).length = 4 + 12 * packet.Entries.length := by
  simp only [MarshalRIP, List.length_append, length_put, length_flatMap_entryBytes]
  omega

/-- Entries are read where they were written. -/
theorem entriesAt_flatMap (front : List UInt8) (entries : List RipUpdate) (rest : List UInt8) :
    entriesAt (front ++ (entries.flatMap entryBytes ++ rest)) front.length entries.length =
      entries := by
  induction entries generalizing front with
  | nil => rfl
  | cons entry entries ih =>
    have hnext := ih (front ++ entryBytes entry)
    rw [List.length_append, length_entryBytes, List.append_assoc] at hnext
    have hzero := field_append front
      (entryBytes entry ++ (entries.flatMap entryBytes ++ rest)) 0 4
    rw [Nat.add_zero] at hzero
    rw [List.flatMap_cons, List.append_assoc, List.length_cons, entriesAt, hnext, hzero,
      field_append, field_append]
    simp [entryBytes]

/-- What is written into a message the receiver reads from it, whatever is behind it. -/
theorem extract_marshal {packet : RipMessage} {message : Slice}
    (hbytes : message.bytes = MarshalRIP packet) (hcommand : packet.Command < 65536)
    (hnum : packet.Num_entries = packet.Entries.length) (hlength : packet.Entries.length < 65536) :
    ExtractRIP message = some packet := by
  have hcap : 4 + 12 * packet.Entries.length ≤ message.cap := by
    rw [Slice.cap, hbytes, length_marshalRIP]
    omega
  have hfront : message.bytes ++ message.spare = (put 2 packet.Command ++
      put 2 packet.Num_entries) ++ (packet.Entries.flatMap entryBytes ++ message.spare) := by
    simp [hbytes, MarshalRIP]
  have hentries := entriesAt_flatMap (put 2 packet.Command ++ put 2 packet.Num_entries)
    packet.Entries message.spare
  rw [← hfront, List.length_append, length_put, length_put] at hentries
  have hfields : field (message.bytes ++ message.spare) 0 2 = packet.Command ∧
      field (message.bytes ++ message.spare) 2 2 = packet.Num_entries := by
    rw [hfront, List.append_assoc]
    simp only [field_put, field_put_skip, le_refl, Nat.sub_self]
    omega
  rw [extractRIP_eq (by omega)]
  simp only [hfields, hnum, hentries]
  rw [if_pos hcap, ← hnum]

end IpTcp
