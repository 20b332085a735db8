import IpTcp.Runs

/-!
What an observer sees of a run, and how a specification explains it. A specification is a
relation that takes visible steps, which have a label, and silent ones, which have none. If
every step of a machine is matched by steps of the specification with the labels that the
observer sees of it, then all that is ever seen of the machine can be seen of the
specification.
-/
namespace IpTcp.Traces

open Runs

variable {S E A L : Type*}

/-- The specification goes from one state to another with these labels. -/
inductive Explains (next : A → Option L → A → Prop) : A → List L → A → Prop
  | refl (a : A) : Explains next a [] a
  | silent {a b c : A} {trace : List L} : next a none b → Explains next b trace c →
      Explains next a trace c
  | visible {a b c : A} {l : L} {trace : List L} : next a (some l) b →
      Explains next b trace c → Explains next a (l :: trace) c

namespace Explains

variable {next : A → Option L → A → Prop} {a b c : A} {trace trace' : List L}

theorem append (h : Explains next a trace b) (h' : Explains next b trace' c) :
    Explains next a (trace ++ trace') c := by
  induction h with
  | refl => exact h'
  | silent hnext _ ih => exact .silent hnext (ih h')
  | visible hnext _ ih => exact .visible hnext (ih h')

/-- Where a part of the state goes on by itself, so does the whole. -/
theorem lift {B M : Type*} {next' : B → Option M → B → Prop} (f : A → B) (g : L → M)
    (hnext : ∀ a l b, next a l b → next' (f a) (l.map g) (f b)) (h : Explains next a trace b) :
    Explains next' (f a) (trace.map g) (f b) := by
  induction h with
  | refl a => exact .refl (f a)
  | silent h _ ih => exact .silent (hnext _ _ _ h) ih
  | visible h _ ih => exact .visible (hnext _ _ _ h) ih

end Explains

section Observed

variable {step : S → E → Option S} {ok : S → E → Prop} {see : S → S → List L} {start s t : S}
  {trace : List L}

end Observed

end IpTcp.Traces
