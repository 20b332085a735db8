import IpTcp.Traces
import Mathlib.Data.List.Infix
import Mathlib.Data.List.Nodup
import Mathlib.Logic.Function.Basic

/-!
Reliable streams in several directions, as the specification of a transport. What was stored
on one side of a direction arrives on the other side in order, without loss or repetition, at
any pace; it is read in order; and the end is seen only when everything has arrived. A side of
an implementation is looked at through a view, and two conditions on how the views of a sender
and a receiver change make the changes visible steps of a stream.
-/
namespace IpTcp.ReliableStream

open Traces

variable {α ι : Type*}

/-- One direction. Nothing is taken before it arrived, nothing arrives that was not written,
and the end is seen only behind everything. -/
structure Channel (α : Type*) where
  written : List α
  arrived : ℕ
  taken : ℕ
  ended : Bool
  seen : Bool
  taken_le : taken ≤ arrived
  arrived_le : arrived ≤ written.length
  seen_all : seen = true → ended = true ∧ arrived = written.length

/-- What can be seen of a direction: data is stored, data is read, the writer ends the stream,
the reader sees the end. -/
inductive StreamAction (α : Type*)
  | stored (data : List α)
  | read (data : List α)
  | finished
  | endSeen
  deriving DecidableEq, Repr

namespace Channel

def empty : Channel α := ⟨[], 0, 0, false, false, Nat.le_refl 0, Nat.le_refl 0, by simp⟩

def store (ch : Channel α) (data : List α) (hopen : ch.ended = false) : Channel α where
  written := ch.written ++ data
  arrived := ch.arrived
  taken := ch.taken
  ended := ch.ended
  seen := ch.seen
  taken_le := ch.taken_le
  arrived_le := by
    rw [List.length_append]
    exact ch.arrived_le.trans (Nat.le_add_right _ _)
  seen_all hseen := by simp [(ch.seen_all hseen).1] at hopen

def carry (ch : Channel α) (n : ℕ) (hle : ch.arrived + n ≤ ch.written.length) : Channel α where
  written := ch.written
  arrived := ch.arrived + n
  taken := ch.taken
  ended := ch.ended
  seen := ch.seen
  taken_le := ch.taken_le.trans (Nat.le_add_right _ _)
  arrived_le := hle
  seen_all hseen := by
    obtain ⟨hended, hall⟩ := ch.seen_all hseen
    exact ⟨hended, by omega⟩

def read (ch : Channel α) (n : ℕ) (hle : ch.taken + n ≤ ch.arrived) : Channel α where
  written := ch.written
  arrived := ch.arrived
  taken := ch.taken + n
  ended := ch.ended
  seen := ch.seen
  taken_le := hle
  arrived_le := ch.arrived_le
  seen_all := ch.seen_all

def finish (ch : Channel α) : Channel α where
  written := ch.written
  arrived := ch.arrived
  taken := ch.taken
  ended := true
  seen := ch.seen
  taken_le := ch.taken_le
  arrived_le := ch.arrived_le
  seen_all hseen := ⟨rfl, (ch.seen_all hseen).2⟩

def notice (ch : Channel α) (hended : ch.ended = true) (hall : ch.arrived = ch.written.length) :
    Channel α where
  written := ch.written
  arrived := ch.arrived
  taken := ch.taken
  ended := ch.ended
  seen := true
  taken_le := ch.taken_le
  arrived_le := ch.arrived_le
  seen_all _ := ⟨hended, hall⟩

/-- The steps of a direction. Only the transfer is silent. -/
inductive Next (ch : Channel α) : Option (StreamAction α) → Channel α → Prop
  | store (data : List α) (hopen : ch.ended = false) :
      Next ch (some (.stored data)) (ch.store data hopen)
  | carry (n : ℕ) (hle : ch.arrived + n ≤ ch.written.length) : Next ch none (ch.carry n hle)
  | read (n : ℕ) (hle : ch.taken + n ≤ ch.arrived) :
      Next ch (some (.read ((ch.written.drop ch.taken).take n))) (ch.read n hle)
  | finish (hopen : ch.ended = false) : Next ch (some .finished) ch.finish
  | notice (hended : ch.ended = true) (hall : ch.arrived = ch.written.length)
      (hseen : ch.seen = false) : Next ch (some .endSeen) (ch.notice hended hall)

end Channel

/-- One direction takes a step, and the others stay. -/
inductive Next [DecidableEq ι] (d : ι → Channel α) :
    Option (ι × StreamAction α) → (ι → Channel α) → Prop
  | at (i : ι) {l : Option (StreamAction α)} {ch : Channel α} : (d i).Next l ch →
      Next d (l.map (i, ·)) (Function.update d i ch)

/-- A direction goes on by itself. -/
theorem explains_update [DecidableEq ι] {d : ι → Channel α} {i : ι} {trace : List (StreamAction α)}
    {ch : Channel α} (h : Explains Channel.Next (d i) trace ch) :
    Explains Next d (trace.map (i, ·)) (Function.update d i ch) := by
  have hlift := h.lift (Function.update d i) (fun a => (i, a)) fun a l b hnext => by
    have hstep := Next.at (d := Function.update d i a) i
      (show (Function.update d i a i).Next l b by rw [Function.update_self]; exact hnext)
    rw [Function.update_idem] at hstep
    exact hstep
  rw [Function.update_eq_self] at hlift
  exact hlift

/-- What can be seen of one side: what was stored there, what was read there, what could be
read, whether it ended its direction and whether it saw the end of the other one. -/
structure View (α : Type*) where
  stored : List α
  output : List α
  unread : List α
  ended : Bool
  seen : Bool

namespace View

def empty : View α := ⟨[], [], [], false, false⟩

def raised (old new : Bool) (a : StreamAction α) : List (StreamAction α) :=
  if new && !old then [a] else []

def storing (v v' : View α) : List (StreamAction α) :=
  if v'.stored.length = v.stored.length then []
  else [.stored (v'.stored.drop v.stored.length)]

def reading (w w' : View α) : List (StreamAction α) :=
  if w'.output.length = w.output.length then []
  else [.read (w'.output.drop w.output.length)]

def sends (v v' : View α) : List (StreamAction α) :=
  v.storing v' ++ raised v.ended v'.ended .finished

def receives (w w' : View α) : List (StreamAction α) :=
  w.reading w' ++ raised w.seen w'.seen .endSeen

def held (w : View α) : List α := w.output ++ w.unread

end View

/-- The changes of all sides. Direction `i` goes from side `i` to side `peer i`. -/
def actions (peer : ι → ι) (sides : List ι) (v v' : ι → View α) : List (ι × StreamAction α) :=
  sides.flatMap fun i =>
    ((v i).sends (v' i) ++ (v (peer i)).receives (v' (peer i))).map (i, ·)

/-- How the views of the sender and the receiver of a direction may change. -/
structure Advance (v v' w w' : View α) : Prop where
  stored : v'.stored = v.stored ∨ v.ended = false ∧ v.stored <+: v'.stored
  ended : v.ended = true → v'.ended = true
  output : w.output <+: w'.output
  grows : w.held.length ≤ w'.held.length
  content : w'.held <+: v'.stored
  seen : w.seen = true → w'.seen = true
  all : w'.seen = true → v'.ended = true ∧ w'.held = v'.stored

/-- The state of a direction, as its two sides show it. -/
structure Shows (v w : View α) (ch : Channel α) : Prop where
  written : ch.written = v.stored
  arrived : ch.arrived = w.held.length
  taken : ch.taken = w.output.length
  ended : ch.ended = v.ended
  seen : ch.seen = w.seen

namespace Shows

variable {v v' w w' : View α} {ch : Channel α}

theorem empty : Shows (View.empty : View α) View.empty Channel.empty := ⟨rfl, rfl, rfl, rfl, rfl⟩

theorem storing (h : Shows v w ch)
    (hstored : v'.stored = v.stored ∨ v.ended = false ∧ v.stored <+: v'.stored) :
    ∃ ch', Explains Channel.Next ch (v.storing v') ch' ∧
      Shows { v with stored := v'.stored } w ch' := by
  unfold View.storing
  split
  · next hlength =>
    have hsame : v'.stored = v.stored := by
      rcases hstored with hsame | ⟨-, hpre⟩
      · exact hsame
      · exact (hpre.eq_of_length hlength.symm).symm
    exact ⟨ch, .refl ch, h.written.trans hsame.symm, h.arrived, h.taken, h.ended, h.seen⟩
  · next hlength =>
    rcases hstored with hsame | ⟨hopen, more, hmore⟩
    · exact absurd (congrArg List.length hsame) hlength
    · have hdata : v'.stored.drop v.stored.length = more := by
        rw [← hmore]
        exact List.drop_left
      refine ⟨ch.store more (h.ended.trans hopen), ?_, ?_, h.arrived, h.taken, h.ended, h.seen⟩
      · rw [hdata]
        exact .visible (.store more _) (.refl _)
      · change ch.written ++ more = _
        rw [h.written, hmore]

theorem finishing (h : Shows v w ch) {ended : Bool} (hended : v.ended = true → ended = true) :
    ∃ ch', Explains Channel.Next ch (View.raised v.ended ended .finished) ch' ∧
      Shows { v with ended := ended } w ch' := by
  unfold View.raised
  cases hold : v.ended with
  | true =>
    rw [hended hold]
    exact ⟨ch, .refl ch, h.written, h.arrived, h.taken, h.ended.trans hold, h.seen⟩
  | false =>
    cases ended with
    | true =>
      exact ⟨ch.finish, .visible (.finish (h.ended.trans hold)) (.refl _), h.written, h.arrived,
        h.taken, rfl, h.seen⟩
    | false => exact ⟨ch, .refl ch, h.written, h.arrived, h.taken, h.ended.trans hold, h.seen⟩

/-- Data arrives, and is or is not read at once. -/
theorem reading (h : Shows v w ch) (houtput : w.output <+: w'.output)
    (hgrows : w.held.length ≤ w'.held.length) (hcontent : w'.held <+: v.stored) :
    ∃ ch', Explains Channel.Next ch (w.reading w') ch' ∧
      Shows v { w' with seen := w.seen } ch' := by
  have hle : ch.arrived + (w'.held.length - ch.arrived) ≤ ch.written.length := by
    have hlength := hcontent.length_le
    rw [h.arrived, h.written]
    omega
  have harrived : (ch.carry _ hle).arrived = w'.held.length := by
    change ch.arrived + (w'.held.length - ch.arrived) = _
    rw [h.arrived]
    omega
  suffices hread : ∃ ch', Explains Channel.Next (ch.carry _ hle) (w.reading w') ch' ∧
      Shows v { w' with seen := w.seen } ch' by
    obtain ⟨ch', hexplains, hshows⟩ := hread
    exact ⟨ch', .silent (.carry _ hle) hexplains, hshows⟩
  unfold View.reading
  split
  · next hlength =>
    exact ⟨_, .refl _, h.written, harrived, h.taken.trans hlength.symm, h.ended, h.seen⟩
  · next hlength =>
    have hshort := houtput.length_le
    have hheld : w'.output <+: w'.held := List.prefix_append _ _
    have hsum : ch.taken + (w'.output.length - ch.taken) = w'.output.length := by
      rw [h.taken]
      omega
    have hroom : ch.taken + (w'.output.length - ch.taken) ≤ (ch.carry _ hle).arrived := by
      rw [hsum, harrived]
      exact hheld.length_le
    have hdata : w'.output.drop w.output.length =
        (ch.written.drop ch.taken).take (w'.output.length - ch.taken) := by
      rw [h.written, h.taken, ← List.drop_take,
        ← List.prefix_iff_eq_take.mp (hheld.trans hcontent)]
    refine ⟨(ch.carry _ hle).read _ hroom, ?_, h.written, harrived, hsum, h.ended, h.seen⟩
    rw [hdata]
    exact .visible (.read _ hroom) (.refl _)

theorem noticing (h : Shows v w ch) {seen : Bool} (hseen : w.seen = true → seen = true)
    (hall : seen = true → v.ended = true ∧ w.held = v.stored) :
    ∃ ch', Explains Channel.Next ch (View.raised w.seen seen .endSeen) ch' ∧
      Shows v { w with seen := seen } ch' := by
  unfold View.raised
  cases hold : w.seen with
  | true =>
    rw [hseen hold]
    exact ⟨ch, .refl ch, h.written, h.arrived, h.taken, h.ended, h.seen.trans hold⟩
  | false =>
    cases seen with
    | true =>
      obtain ⟨hended, hwhole⟩ := hall rfl
      have hevery : ch.arrived = ch.written.length := by rw [h.arrived, h.written, hwhole]
      exact ⟨ch.notice (h.ended.trans hended) hevery,
        .visible (.notice _ _ (h.seen.trans hold)) (.refl _), h.written, h.arrived, h.taken,
        h.ended, rfl⟩
    | false => exact ⟨ch, .refl ch, h.written, h.arrived, h.taken, h.ended, h.seen.trans hold⟩

theorem advance (h : Shows v w ch) (hadvance : Advance v v' w w') :
    ∃ ch', Explains Channel.Next ch (v.sends v' ++ w.receives w') ch' ∧ Shows v' w' ch' := by
  obtain ⟨ch₁, hstore, h₁⟩ := h.storing hadvance.stored
  obtain ⟨ch₂, hfinish, h₂⟩ := h₁.finishing hadvance.ended
  obtain ⟨ch₃, hread, h₃⟩ := h₂.reading hadvance.output hadvance.grows hadvance.content
  obtain ⟨ch₄, hnotice, h₄⟩ := h₃.noticing hadvance.seen hadvance.all
  exact ⟨ch₄, (hstore.append hfinish).append (hread.append hnotice),
    h₄.written, h₄.arrived, h₄.taken, h₄.ended, h₄.seen⟩

end Shows

/-- Where every direction advances, the changes are explained by the streams. -/
theorem actions_explained [DecidableEq ι] (peer : ι → ι) (sides : List ι)
    (hnodup : sides.Nodup) {v v' : ι → View α} (d : ι → Channel α)
    (hshows : ∀ i ∈ sides, Shows (v i) (v (peer i)) (d i))
    (hadvance : ∀ i ∈ sides, Advance (v i) (v' i) (v (peer i)) (v' (peer i))) :
    ∃ d', Explains Next d (actions peer sides v v') d' ∧
      (∀ i ∈ sides, Shows (v' i) (v' (peer i)) (d' i)) ∧ ∀ i ∉ sides, d' i = d i := by
  induction sides generalizing d with
  | nil => exact ⟨d, .refl d, by simp, by simp⟩
  | cons i rest ih =>
    obtain ⟨hi, hrest⟩ := List.nodup_cons.mp hnodup
    rw [List.forall_mem_cons] at hshows hadvance
    obtain ⟨ch, hexplains, hch⟩ := hshows.1.advance hadvance.1
    have hother : ∀ j ∈ rest, Function.update d i ch j = d j := by
      intro j hj
      refine Function.update_of_ne ?_ _ _
      rintro rfl
      exact hi hj
    obtain ⟨d', hmore, hd', hkept⟩ := ih hrest (Function.update d i ch)
      (fun j hj => by rw [hother j hj]; exact hshows.2 j hj) hadvance.2
    refine ⟨d', (explains_update hexplains).append hmore, ?_, fun j hj => ?_⟩
    · refine List.forall_mem_cons.mpr ⟨?_, hd'⟩
      rw [hkept i hi, Function.update_self]
      exact hch
    · obtain ⟨hne, hnot⟩ := not_or.mp (mt List.mem_cons.mpr hj)
      rw [hkept j hnot, Function.update_of_ne hne]

end IpTcp.ReliableStream
