import Mathlib.Data.List.Basic

/-!
The lock operations of one thread. A thread that asks for a mutex it holds waits
for ever, and one that unlocks a mutex it does not hold crashes; otherwise the
operations determine what it holds in the end.
-/
namespace IpTcp.LockTrace

variable {M : Type*} [DecidableEq M]

inductive Op (M : Type*)
  | lock (m : M)
  | unlock (m : M)
  deriving DecidableEq, Repr

def heldAfter (held : List M) : List (Op M) → Option (List M)
  | [] => some held
  | .lock m :: ops => if m ∈ held then none else heldAfter (m :: held) ops
  | .unlock m :: ops => if m ∈ held then heldAfter (held.erase m) ops else none

variable {held held' : List M} {ops : List (Op M)} {m : M}

theorem heldAfter_append (held : List M) (a b : List (Op M)) :
    heldAfter held (a ++ b) = (heldAfter held a).bind (fun held' => heldAfter held' b) := by
  induction a generalizing held with
  | nil => rfl
  | cons op a ih =>
    cases op with
    | lock m =>
      simp only [List.cons_append, heldAfter]
      split
      · rfl
      · exact ih _
    | unlock m =>
      simp only [List.cons_append, heldAfter]
      split
      · exact ih _
      · rfl

theorem heldAfter_lock (h : m ∉ held) :
    heldAfter held (.lock m :: ops) = heldAfter (m :: held) ops := by
  rw [heldAfter, if_neg h]

theorem heldAfter_unlock : heldAfter (m :: held) (.unlock m :: ops) = heldAfter held ops := by
  rw [heldAfter, if_pos List.mem_cons_self, List.erase_cons_head]

/-- A section that is entered and left. -/
theorem heldAfter_section (h : m ∉ held) :
    heldAfter held (.lock m :: .unlock m :: ops) = heldAfter held ops := by
  rw [heldAfter_lock h, heldAfter_unlock]

/-- A mutex that is not unlocked stays. -/
theorem mem_heldAfter (h : m ∈ held) (hops : .unlock m ∉ ops)
    (hhold : heldAfter held ops = some held') : m ∈ held' := by
  induction ops generalizing held with
  | nil =>
    cases hhold
    exact h
  | cons op ops ih =>
    have hrest : .unlock m ∉ ops := fun hmem => hops (List.mem_cons_of_mem _ hmem)
    cases op with
    | lock m' =>
      simp only [heldAfter] at hhold
      split at hhold
      · contradiction
      · exact ih (List.mem_cons_of_mem _ h) hrest hhold
    | unlock m' =>
      have hne : m ≠ m' := by
        rintro rfl
        exact hops List.mem_cons_self
      simp only [heldAfter] at hhold
      split at hhold
      · exact ih ((List.mem_erase_of_ne hne).mpr h) hrest hhold
      · contradiction

end IpTcp.LockTrace
