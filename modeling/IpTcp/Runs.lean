import Mathlib.Data.Option.Basic

/-!
Runs of a machine whose step is a partial function of a state and an event. A
guard says which events the environment may choose in which state. States are
reached one guarded step after another, and a property that a start state has
and every guarded step keeps holds in all of them.
-/
namespace IpTcp.Runs

variable {S E : Type*}

inductive Reach (step : S → E → Option S) (ok : S → E → Prop) (start : S) : S → Prop
  | refl : Reach step ok start start
  | tail {s s' : S} (e : E) : Reach step ok start s → ok s e → step s e = some s' →
      Reach step ok start s'

variable {step : S → E → Option S} {ok ok' : S → E → Prop} {start s t : S}

theorem Reach.invariant (I : S → Prop) (hstart : I start)
    (hstep : ∀ s e s', I s → ok s e → step s e = some s' → I s')
    (h : Reach step ok start s) : I s := by
  induction h with
  | refl => exact hstart
  | tail e _ hok hnext ih => exact hstep _ e _ ih hok hnext

theorem Reach.mono (hok : ∀ s e, ok s e → ok' s e) (h : Reach step ok start s) :
    Reach step ok' start s := by
  induction h with
  | refl => exact Reach.refl
  | tail e _ he hnext ih => exact Reach.tail e ih (hok _ e he) hnext

theorem Reach.trans (h : Reach step ok start s) (h' : Reach step ok s t) :
    Reach step ok start t := by
  induction h' with
  | refl => exact h
  | tail e _ he hnext ih => exact Reach.tail e ih he hnext

/-- Follow a list of events, checking the guard at each of them. -/
def follow (step : S → E → Option S) (ok : S → E → Prop) [∀ s e, Decidable (ok s e)] :
    S → List E → Option S
  | s, [] => some s
  | s, e :: rest => if ok s e then (step s e).bind (fun s' => follow step ok s' rest) else none

theorem reach_of_follow [∀ s e, Decidable (ok s e)] (events : List E)
    (hreach : Reach step ok start s) (h : follow step ok s events = some t) :
    Reach step ok start t := by
  induction events generalizing s with
  | nil =>
    cases h
    exact hreach
  | cons e rest ih =>
    unfold follow at h
    split at h
    · rename_i hok
      cases hnext : step s e with
      | none => simp [hnext] at h
      | some s' =>
        simp only [hnext, Option.bind_some] at h
        exact ih (Reach.tail e hreach hok hnext) h
    · contradiction

/-- A relabelling that commutes with every guarded step takes runs to runs. -/
theorem follow_map [∀ s e, Decidable (ok s e)] (f : S → S) (g : E → E)
    (hstep : ∀ s e, ok s e → step (f s) (g e) = (step s e).map f) (events : List E)
    (h : follow step ok s events = some t) :
    follow step (fun _ _ => True) (f s) (events.map g) = some (f t) := by
  induction events generalizing s with
  | nil =>
    cases h
    rfl
  | cons e rest ih =>
    unfold follow at h
    split at h
    · rename_i hok
      obtain ⟨s', hnext, hrest⟩ := Option.bind_eq_some_iff.mp h
      rw [List.map_cons, follow, if_pos trivial, hstep s e hok, hnext]
      exact ih hrest
    · contradiction

/-- A list of events whose run ends in a state with a property that can be evaluated. -/
theorem exists_follow (step : S → E → Option S) (ok : S → E → Prop) (start : S)
    [∀ s e, Decidable (ok s e)] (P : S → Prop) [DecidablePred P] (events : List E)
    (h : (follow step ok start events).any (fun s => decide (P s)) = true) :
    ∃ t, follow step ok start events = some t ∧ P t := by
  cases hend : follow step ok start events with
  | none => simp [hend] at h
  | some t =>
    rw [hend] at h
    exact ⟨t, rfl, by simpa using h⟩

theorem exists_reach (step : S → E → Option S) (ok : S → E → Prop) (start : S)
    [∀ s e, Decidable (ok s e)] (P : S → Prop) [DecidablePred P] (events : List E)
    (h : (follow step ok start events).any (fun s => decide (P s)) = true) :
    ∃ t, Reach step ok start t ∧ P t := by
  obtain ⟨t, hend, ht⟩ := exists_follow step ok start P events h
  exact ⟨t, reach_of_follow events Reach.refl hend, ht⟩

end IpTcp.Runs
