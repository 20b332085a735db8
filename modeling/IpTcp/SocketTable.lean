import IpTcp.Runs
import IpTcp.Socket
import Mathlib.Logic.Function.Basic

/-!
The socket table of a TCP stack and its index by socket number. VListen, VConnect
and VAccept enter a socket under the next number, deleteTCB finds the key of a
socket through the index. The numbers wrap around, VConnect tests its random port
against listening keys only, and VAccept does not test its key at all. As long as
the number and the key of a new socket are free, the index and the table stay in
bijection.
-/
namespace IpTcp

/-- A socket object. `id` tells objects apart that were given the same number. -/
structure TableSocket where
  id : ℕ
  SID : UInt16
  key : SocketTableKey
  deriving DecidableEq, Repr

/-- `live` are the sockets that were created and not deleted, and `nextId` counts the
objects made. -/
structure TCPStack where
  ip : Addr
  SocketTable : SocketTableKey → Option TableSocket
  SID_to_sk : UInt16 → Option SocketTableKey
  SID : UInt16
  live : List TableSocket
  nextId : ℕ

inductive StackEvent
  | vListen (port : UInt16)
  | vConnect (destAddr : Addr) (destPort randSrcPort : UInt16)
  | vAccept (sk : SocketTableKey)
  | deleteTCB (sock : TableSocket)

def listenKey (port : UInt16) : SocketTableKey := ⟨.zero, port, .zero, 0⟩

/-- The key that a map lookup gives for a missing number. -/
def zeroKey : SocketTableKey := listenKey 0

namespace TCPStack

open Runs

def start (ip : Addr) : TCPStack where
  ip := ip
  SocketTable _ := none
  SID_to_sk _ := none
  SID := 0
  live := []
  nextId := 0

def newSock (t : TCPStack) (sk : SocketTableKey) : TableSocket := ⟨t.nextId, t.SID, sk⟩

def enter (t : TCPStack) (sk : SocketTableKey) : TCPStack :=
  { t with
    SocketTable := Function.update t.SocketTable sk (some (t.newSock sk))
    SID_to_sk := Function.update t.SID_to_sk t.SID (some sk)
    SID := t.SID + 1
    live := t.live ++ [t.newSock sk]
    nextId := t.nextId + 1 }

def vListen (t : TCPStack) (port : UInt16) : Option TCPStack :=
  if (t.SocketTable (listenKey port)).isSome then none else some (t.enter (listenKey port))

def connectKey (t : TCPStack) (destAddr : Addr) (destPort randSrcPort : UInt16) :
    SocketTableKey := ⟨t.ip, randSrcPort, destAddr, destPort⟩

/-- VConnect with the first random port that passes its test. -/
def vConnect (t : TCPStack) (destAddr : Addr) (destPort randSrcPort : UInt16) :
    Option TCPStack :=
  if 20000 ≤ randSrcPort ∧ randSrcPort < 65535 ∧ t.SocketTable (listenKey randSrcPort) = none
  then some (t.enter (t.connectKey destAddr destPort randSrcPort)) else none

def vAccept (t : TCPStack) (sk : SocketTableKey) : TCPStack := t.enter sk.flip

/-- deleteTCB, which VClose, the timer of TIME_WAIT and a failing VConnect call. -/
def deleteTCB (t : TCPStack) (sock : TableSocket) : TCPStack :=
  let sk := (t.SID_to_sk sock.SID).getD zeroKey
  { t with
    SocketTable := Function.update t.SocketTable sk none
    SID_to_sk := Function.update t.SID_to_sk sock.SID none
    live := t.live.filter (· ≠ sock) }

def step (t : TCPStack) : StackEvent → Option TCPStack
  | .vListen port => t.vListen port
  | .vConnect destAddr destPort randSrcPort => t.vConnect destAddr destPort randSrcPort
  | .vAccept sk => some (t.vAccept sk)
  | .deleteTCB sock => some (t.deleteTCB sock)

def Entered (t : TCPStack) (sock : TableSocket) : Prop :=
  t.SocketTable sock.key = some sock ∧ t.SID_to_sk sock.SID = some sock.key

/-- The numbers of the live sockets are mapped one-to-one onto the keys of the table, where
each key has the socket with that number. -/
structure Bijective (t : TCPStack) : Prop where
  numbers : ∀ id, (t.SID_to_sk id).isSome ↔ ∃ sock ∈ t.live, sock.SID = id
  injective : ∀ id id' sk, t.SID_to_sk id = some sk → t.SID_to_sk id' = some sk → id = id'
  keys : ∀ sk, (t.SocketTable sk).isSome ↔ ∃ id, t.SID_to_sk id = some sk
  getSID : ∀ id sk, t.SID_to_sk id = some sk →
    ∃ sock, t.SocketTable sk = some sock ∧ sock.SID = id

/-- A new socket takes nobody's place, and deleting it at once, as a failing VConnect does,
restores both maps. A deleted socket takes only its own entries with it. -/
def Local (t t' : TCPStack) : StackEvent → Prop
  | .vListen _ | .vConnect _ _ _ | .vAccept _ =>
      (∀ sock ∈ t.live, t'.Entered sock) ∧
        ∀ sock, t'.live = t.live ++ [sock] →
          (t'.deleteTCB sock).SocketTable = t.SocketTable ∧
          (t'.deleteTCB sock).SID_to_sk = t.SID_to_sk
  | .deleteTCB sock =>
      (sock ∈ t.live → t'.SocketTable sock.key = none ∧ t'.SID_to_sk sock.SID = none) ∧
        ∀ other ∈ t.live, other ≠ sock → t'.Entered other

def Free (t : TCPStack) (sk : SocketTableKey) : Prop :=
  t.SID_to_sk t.SID = none ∧ t.SocketTable sk = none

instance (t : TCPStack) (sk : SocketTableKey) : Decidable (t.Free sk) :=
  inferInstanceAs (Decidable (_ ∧ _))

/-- The entries of a socket that is deleted a second time are gone, and nobody listens on
port 0, whose key a lookup of a missing number gives. -/
def Absent (t : TCPStack) (sock : TableSocket) : Prop :=
  t.SID_to_sk sock.SID = none ∧ t.SocketTable zeroKey = none

def Fresh (t : TCPStack) : StackEvent → Prop
  | .vListen _ => t.SID_to_sk t.SID = none
  | .vConnect destAddr destPort randSrcPort => t.Free (t.connectKey destAddr destPort randSrcPort)
  | .vAccept sk => t.Free sk.flip
  | .deleteTCB sock => sock ∈ t.live ∨ t.Absent sock

instance (t : TCPStack) (e : StackEvent) : Decidable (Fresh t e) :=
  match e with
  | .vListen _ => inferInstanceAs (Decidable (_ = none))
  | .vConnect _ _ _ => inferInstanceAs (Decidable (t.Free _))
  | .vAccept _ => inferInstanceAs (Decidable (t.Free _))
  | .deleteTCB sock => inferInstanceAs (Decidable (sock ∈ t.live ∨ _ ∧ _))

/-- Every live socket has its two entries, and the maps hold nothing else. -/
structure Inv (t : TCPStack) : Prop where
  entered : ∀ sock ∈ t.live, t.Entered sock
  numbers : ∀ id sk, t.SID_to_sk id = some sk → ∃ sock ∈ t.live, sock.SID = id ∧ sock.key = sk
  table : ∀ sk sock, t.SocketTable sk = some sock → sock ∈ t.live ∧ sock.key = sk

namespace Inv

variable {t : TCPStack}

theorem start (ip : Addr) : (TCPStack.start ip).Inv where
  entered := by simp [TCPStack.start]
  numbers := by simp [TCPStack.start]
  table := by simp [TCPStack.start]

theorem bijective (h : t.Inv) : t.Bijective where
  numbers := by
    intro id
    constructor
    · intro hsome
      obtain ⟨sk, hsk⟩ := Option.isSome_iff_exists.mp hsome
      obtain ⟨sock, hlive, hid, -⟩ := h.numbers id sk hsk
      exact ⟨sock, hlive, hid⟩
    · rintro ⟨sock, hlive, rfl⟩
      rw [(h.entered sock hlive).2]
      rfl
  injective := by
    intro id id' sk hid hid'
    obtain ⟨sock, hlive, rfl, rfl⟩ := h.numbers id sk hid
    obtain ⟨sock', hlive', rfl, hkey⟩ := h.numbers id' _ hid'
    have hsame := (h.entered sock' hlive').1
    rw [hkey, (h.entered sock hlive).1] at hsame
    rw [Option.some.inj hsame]
  keys := by
    intro sk
    constructor
    · intro hsome
      obtain ⟨sock, hsock⟩ := Option.isSome_iff_exists.mp hsome
      obtain ⟨hlive, rfl⟩ := h.table sk sock hsock
      exact ⟨sock.SID, (h.entered sock hlive).2⟩
    · rintro ⟨id, hid⟩
      obtain ⟨sock, hlive, -, rfl⟩ := h.numbers id sk hid
      rw [(h.entered sock hlive).1]
      rfl
  getSID := by
    intro id sk hid
    obtain ⟨sock, hlive, hsid, rfl⟩ := h.numbers id sk hid
    exact ⟨sock, (h.entered sock hlive).1, hsid⟩

/-- A live socket keeps its entries when a socket with a free number and key is entered. -/
theorem entered_enter (h : t.Inv) {sk : SocketTableKey} (hfree : t.Free sk) {sock : TableSocket}
    (hlive : sock ∈ t.live) : (t.enter sk).Entered sock := by
  obtain ⟨htable, hindex⟩ := h.entered sock hlive
  have hkey : sock.key ≠ sk := by
    rintro rfl
    rw [hfree.2] at htable
    contradiction
  have hsid : sock.SID ≠ t.SID := by
    intro heq
    rw [heq, hfree.1] at hindex
    contradiction
  exact ⟨(Function.update_of_ne hkey _ _).trans htable,
    (Function.update_of_ne hsid _ _).trans hindex⟩

theorem enter (h : t.Inv) {sk : SocketTableKey} (hfree : t.Free sk) : (t.enter sk).Inv := by
  refine ⟨?_, ?_, ?_⟩
  · intro sock hsock
    rcases List.mem_append.mp hsock with hold | hnew
    · exact h.entered_enter hfree hold
    · rw [List.mem_singleton.mp hnew]
      exact ⟨Function.update_self .., Function.update_self ..⟩
  · intro id sk' hid
    simp only [TCPStack.enter, Function.update_apply] at hid
    split at hid
    · rename_i hsid
      cases hid
      exact ⟨t.newSock sk, by simp [TCPStack.enter], hsid.symm, rfl⟩
    · obtain ⟨sock, hlive, hsid⟩ := h.numbers id sk' hid
      exact ⟨sock, List.mem_append_left _ hlive, hsid⟩
  · intro sk' sock hsock
    simp only [TCPStack.enter, Function.update_apply] at hsock
    split at hsock
    · rename_i hkey
      cases hsock
      exact ⟨by simp [TCPStack.enter], hkey.symm⟩
    · obtain ⟨hlive, hkey⟩ := h.table sk' sock hsock
      exact ⟨List.mem_append_left _ hlive, hkey⟩

/-- Entering a socket with a free number and key, and deleting it again. -/
theorem enter_deleteTCB {sk : SocketTableKey} (hfree : t.Free sk) :
    ((t.enter sk).deleteTCB (t.newSock sk)).SocketTable = t.SocketTable ∧
      ((t.enter sk).deleteTCB (t.newSock sk)).SID_to_sk = t.SID_to_sk := by
  have hindex : (t.enter sk).SID_to_sk (t.newSock sk).SID = some sk := Function.update_self ..
  constructor
  · unfold TCPStack.deleteTCB
    rw [hindex, Option.getD_some]
    change Function.update (Function.update t.SocketTable sk _) sk none = t.SocketTable
    rw [Function.update_idem, ← hfree.2, Function.update_eq_self]
  · change Function.update (Function.update t.SID_to_sk t.SID _) t.SID none = t.SID_to_sk
    rw [Function.update_idem, ← hfree.1, Function.update_eq_self]

theorem created (h : t.Inv) {sk : SocketTableKey} (hfree : t.Free sk) :
    (∀ sock ∈ t.live, (t.enter sk).Entered sock) ∧
      ∀ sock, (t.enter sk).live = t.live ++ [sock] →
        ((t.enter sk).deleteTCB sock).SocketTable = t.SocketTable ∧
        ((t.enter sk).deleteTCB sock).SID_to_sk = t.SID_to_sk := by
  refine ⟨fun sock hlive => h.entered_enter hfree hlive, ?_⟩
  intro sock hsock
  have hnew : t.newSock sk = sock := by simpa using List.append_cancel_left hsock
  exact hnew ▸ enter_deleteTCB hfree

/-- The entries of another live socket stay. -/
theorem entered_deleteTCB (h : t.Inv) {sock other : TableSocket} (hsock : sock ∈ t.live)
    (hother : other ∈ t.live) (hne : other ≠ sock) : (t.deleteTCB sock).Entered other := by
  obtain ⟨htable, hindex⟩ := h.entered sock hsock
  obtain ⟨htable', hindex'⟩ := h.entered other hother
  have hkey : other.key ≠ sock.key := by
    intro heq
    rw [heq, htable] at htable'
    exact hne (Option.some.inj htable').symm
  have hsid : other.SID ≠ sock.SID := by
    intro heq
    rw [heq, hindex] at hindex'
    exact hkey (Option.some.inj hindex').symm
  refine ⟨?_, (Function.update_of_ne hsid _ _).trans hindex'⟩
  unfold TCPStack.deleteTCB
  rw [hindex, Option.getD_some]
  exact (Function.update_of_ne hkey _ _).trans htable'

theorem deleted (h : t.Inv) {sock : TableSocket} (hsock : sock ∈ t.live) :
    (t.deleteTCB sock).SocketTable sock.key = none ∧
      (t.deleteTCB sock).SID_to_sk sock.SID = none := by
  obtain ⟨-, hindex⟩ := h.entered sock hsock
  refine ⟨?_, Function.update_self ..⟩
  unfold TCPStack.deleteTCB
  rw [hindex, Option.getD_some]
  exact Function.update_self ..

theorem deleteTCB (h : t.Inv) {sock : TableSocket} (hsock : sock ∈ t.live) :
    (t.deleteTCB sock).Inv := by
  obtain ⟨htable, hindex⟩ := h.entered sock hsock
  obtain ⟨hgone, hgone'⟩ := h.deleted hsock
  refine ⟨?_, ?_, ?_⟩
  · intro other hother
    obtain ⟨hlive, hne⟩ := List.mem_filter.mp hother
    exact h.entered_deleteTCB hsock hlive (by simpa using hne)
  · intro id sk hid
    have hne : id ≠ sock.SID := by
      rintro rfl
      rw [hgone'] at hid
      contradiction
    have hold : t.SID_to_sk id = some sk := (Function.update_of_ne hne _ _).symm.trans hid
    obtain ⟨other, hlive, hsid, hkey⟩ := h.numbers id sk hold
    refine ⟨other, List.mem_filter.mpr ⟨hlive, ?_⟩, hsid, hkey⟩
    rw [decide_eq_true_eq]
    rintro rfl
    exact hne hsid.symm
  · intro sk other hother
    have hne : sk ≠ sock.key := by
      rintro rfl
      rw [hgone] at hother
      contradiction
    have hold : t.SocketTable sk = some other := by
      unfold TCPStack.deleteTCB at hother
      rw [hindex, Option.getD_some] at hother
      exact (Function.update_of_ne hne _ _).symm.trans hother
    obtain ⟨hlive, hkey⟩ := h.table sk other hold
    refine ⟨List.mem_filter.mpr ⟨hlive, ?_⟩, hkey⟩
    rw [decide_eq_true_eq]
    rintro rfl
    exact hne hkey.symm

theorem not_live (h : t.Inv) {sock : TableSocket} (habsent : t.Absent sock) :
    sock ∉ t.live := by
  intro hlive
  have hindex := (h.entered sock hlive).2
  rw [habsent.1] at hindex
  contradiction

/-- Deleting a socket a second time changes nothing. -/
theorem deleteTCB_absent (h : t.Inv) {sock : TableSocket} (habsent : t.Absent sock) :
    (t.deleteTCB sock).Inv := by
  have hlive : t.live.filter (· ≠ sock) = t.live := by
    rw [List.filter_eq_self]
    intro other hother
    rw [decide_eq_true_eq]
    rintro rfl
    exact h.not_live habsent hother
  have htable : Function.update t.SocketTable zeroKey none = t.SocketTable := by
    rw [← habsent.2, Function.update_eq_self]
  have hindex : Function.update t.SID_to_sk sock.SID none = t.SID_to_sk := by
    rw [← habsent.1, Function.update_eq_self]
  have hsame : t.deleteTCB sock = t := by
    unfold TCPStack.deleteTCB
    simp only [habsent.1, Option.getD_none, htable, hindex, hlive]
  rwa [hsame]

end Inv

variable {t t' : TCPStack} {e : StackEvent}

/-- What a step does that meets the condition. -/
theorem Inv.step (h : t.Inv) (hok : Fresh t e) (hstep : t.step e = some t') :
    t'.Inv ∧ Local t t' e := by
  cases e with
  | vListen port =>
    simp only [TCPStack.step, vListen] at hstep
    split at hstep
    · contradiction
    · rename_i hlisten
      cases hstep
      have hfree : t.Free (listenKey port) := ⟨hok, by simpa using hlisten⟩
      exact ⟨h.enter hfree, h.created hfree⟩
  | vConnect destAddr destPort randSrcPort =>
    simp only [TCPStack.step, vConnect] at hstep
    split at hstep
    · cases hstep
      exact ⟨h.enter hok, h.created hok⟩
    · contradiction
  | vAccept sk =>
    cases hstep
    exact ⟨h.enter hok, h.created hok⟩
  | deleteTCB sock =>
    cases hstep
    rcases hok with hlive | habsent
    · exact ⟨h.deleteTCB hlive, fun _ => h.deleted hlive,
        fun _ hother hne => h.entered_deleteTCB hlive hother hne⟩
    · have hinv := h.deleteTCB_absent habsent
      have hdead := h.not_live habsent
      exact ⟨hinv, fun hlive => absurd hlive hdead,
        fun other hother hne => hinv.entered other (by simp [TCPStack.deleteTCB, hother, hne])⟩

/-- In every run whose new sockets get a free number and a free key, the index and the table
are in bijection, and every further such step is local. -/
theorem fresh_runs_bijective (ip : Addr) (t : TCPStack)
    (h : Reach step Fresh (start ip) t) :
    t.Bijective ∧ ∀ e t', Fresh t e → t.step e = some t' → Local t t' e := by
  have hinv : t.Inv := h.invariant Inv (Inv.start ip)
    (fun _ _ _ hinv hok hnext => (hinv.step hok hnext).1)
  exact ⟨hinv.bijective, fun e t' hok hstep => (hinv.step hok hstep).2⟩

/-- A listener, an accepted connection and one of its own, with the connection deleted. -/
theorem fresh_runs_bijective_three :
    ∃ t, Reach step Fresh (start (.v4 1)) t ∧ t.live.length = 2 ∧ t.Bijective := by
  obtain ⟨t, hreach, hlive⟩ := exists_reach step Fresh (start (.v4 1))
    (fun t => t.live.length = 2)
    [.vListen 9999, .vAccept ⟨.v4 2, 20000, .v4 1, 9999⟩, .vConnect (.v4 3) 80 30000,
      .deleteTCB ⟨1, 1, ⟨.v4 1, 9999, .v4 2, 20000⟩⟩] (by decide)
  exact ⟨t, hreach, hlive, (fresh_runs_bijective (.v4 1) t hreach).1⟩

/-- Two connections to one destination get the same random port: both numbers lead to the
one key. -/
theorem connect_replaces_live :
    ¬ ∀ ip t, Reach step (fun _ _ => True) (start ip) t → t.Bijective := by
  intro hall
  obtain ⟨t, hreach, h0, h1⟩ := exists_reach step (fun _ _ => True) (start (.v4 1))
    (fun t => t.SID_to_sk 0 = some ⟨.v4 1, 30000, .v4 2, 80⟩ ∧
      t.SID_to_sk 1 = some ⟨.v4 1, 30000, .v4 2, 80⟩)
    [.vConnect (.v4 2) 80 30000, .vConnect (.v4 2) 80 30000] (by decide)
  have hsame := (hall (.v4 1) t hreach).injective 0 1 _ h0 h1
  contradiction

end TCPStack

end IpTcp
