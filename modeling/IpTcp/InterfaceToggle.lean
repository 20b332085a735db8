import IpTcp.LnxConfig
import IpTcp.Runs
import Mathlib.Logic.Function.Basic

/-!
Switching interfaces on and off. The record of an interface is stored in the node's map
by value, and another copy of it goes to the routine that serves the interface. Only the
routine makes a mutex and a condition variable, in its own copy. ToggleInterface works on
a third copy, out of the map: it locks the mutex that is not there, which ends the program,
and would set the flag where nobody reads it.
-/
namespace IpTcp

open Rip Runs

/-- The record of an interface. `enableMutex` tells that the pointers to the mutex and to the
condition variable are not nil. -/
structure Interface where
  config : InterfaceConfig
  enableMutex : Bool
  enabled : Bool
  deriving DecidableEq, Repr

def InterfaceConfig.newInterface (config : InterfaceConfig) : Interface := ⟨config, false, true⟩

/-- A running interfaceRoutine with its copy of the record, which its sending goroutine
shares. `waiting` tells that the receive loop waits for the condition variable. -/
structure Routine where
  iface : Interface
  waiting : Bool
  deriving DecidableEq, Repr

/-- The interfaces of a running node. `given` records the last value given for each name, and
`crashed` that the program has ended. -/
structure Links where
  interfaces : AList (fun _ : String => Interface)
  routines : List Routine
  forwarded : List (List UInt8)
  handled : List (List UInt8)
  given : String → Bool
  crashed : Bool

inductive InterfaceEvent
  | boot (k : ℕ)
  | send (k : ℕ) (pack : List UInt8)
  | receive (k : ℕ) (datagram : List UInt8)
  | toggle (name : String) (b : Bool)
  deriving DecidableEq

inductive ToggleResult
  | returned (iface : Interface)
  | notValid (message : String)
  | nilPointer
  deriving DecidableEq, Repr

def IPConfig.Declares (config : IPConfig) (name : String) : Prop :=
  ∃ iface ∈ config.Interfaces, iface.Name = name

namespace Links

def start (config : IPConfig) : Links where
  interfaces := config.Interfaces.foldl
    (fun (table : AList (fun _ : String => Interface)) iface =>
      table.insert iface.Name iface.newInterface) ∅
  routines := config.Interfaces.map fun iface => ⟨iface.newInterface, false⟩
  forwarded := []
  handled := []
  given _ := true
  crashed := false

/-- The result carries the local copy with the flag, which is dropped. -/
def ToggleInterface (s : Links) (name : String) (b : Bool) : ToggleResult :=
  match s.interfaces.lookup name with
  | none => .notValid (name ++ " not a valid interface")
  | some iface => if iface.enableMutex then .returned { iface with enabled := b } else .nilPointer

/-- What PrintInterfaces shows: the flags in the map. -/
def shown (s : Links) (name : String) : Option Bool :=
  (s.interfaces.lookup name).map fun iface => iface.enabled

def boot (s : Links) (k : ℕ) : Option Links :=
  s.routines[k]?.map fun routine =>
    let iface := { routine.iface with enableMutex := true }
    { s with routines := s.routines.set k { routine with iface := iface } }

/-- The sending goroutine of a routine has taken a packet. -/
def send (s : Links) (k : ℕ) (pack : List UInt8) : Option Links :=
  match s.routines[k]? with
  | none => none
  | some routine =>
      if routine.iface.enableMutex then
        if routine.iface.enabled then some { s with forwarded := s.forwarded ++ [pack] } else some s
      else none

/-- The receive loop of a routine has read a datagram. -/
def receive (s : Links) (k : ℕ) (datagram : List UInt8) : Option Links :=
  match s.routines[k]? with
  | none => none
  | some routine =>
      if routine.iface.enableMutex = true ∧ routine.waiting = false then
        if routine.iface.enabled then some { s with handled := s.handled ++ [datagram] }
        else some { s with routines := s.routines.set k { routine with waiting := true } }
      else none

def toggle (s : Links) (name : String) (b : Bool) : Links :=
  match s.ToggleInterface name b with
  | .notValid _ => s
  | .returned _ => { s with given := Function.update s.given name b }
  | .nilPointer => { s with given := Function.update s.given name b, crashed := true }

def step (s : Links) (e : InterfaceEvent) : Option Links :=
  if s.crashed then none
  else match e with
    | .boot k => s.boot k
    | .send k pack => s.send k pack
    | .receive k datagram => s.receive k datagram
    | .toggle name b => some (s.toggle name b)

/-- No call has ended the program, and the flags that are read and shown are those that were
given last. -/
structure Effective (s : Links) : Prop where
  running : s.crashed = false
  shown : ∀ name b, s.shown name = some b → b = s.given name
  consulted : ∀ routine ∈ s.routines, routine.iface.enabled = s.given routine.iface.config.Name

structure Untouched (s : Links) : Prop where
  running : s.crashed = false
  map : ∀ name iface, s.interfaces.lookup name = some iface →
    iface.enableMutex = false ∧ iface.enabled = true
  copies : ∀ routine ∈ s.routines, routine.iface.enabled = true
  given : ∀ name, s.given name = true

theorem mem_start_iff (config : IPConfig) (name : String) :
    name ∈ (start config).interfaces ↔ config.Declares name := by
  constructor
  · intro hmem
    obtain ⟨record, hrecord⟩ := Option.isSome_iff_exists.mp (AList.lookup_isSome.mpr hmem)
    rcases foldl_insert_lookup InterfaceConfig.Name InterfaceConfig.newInterface
      config.Interfaces ∅ hrecord with ⟨iface, hiface, rfl, -⟩ | hempty
    · exact ⟨iface, hiface, rfl⟩
    · simp at hempty
  · rintro ⟨iface, hiface, hname⟩
    exact mem_foldl_insert InterfaceConfig.Name InterfaceConfig.newInterface _ _
      (Or.inr ⟨iface, hiface, hname⟩)

namespace Untouched

variable {s s' : Links} {e : InterfaceEvent}

theorem start (config : IPConfig) : Untouched (Links.start config) where
  running := rfl
  map := by
    intro name record hrecord
    rcases foldl_insert_lookup InterfaceConfig.Name InterfaceConfig.newInterface
      config.Interfaces ∅ hrecord with ⟨iface, -, -, rfl⟩ | hempty
    · exact ⟨rfl, rfl⟩
    · simp at hempty
  copies := by
    intro routine hroutine
    obtain ⟨iface, -, rfl⟩ := List.mem_map.mp hroutine
    rfl
  given _ := rfl

theorem effective (h : Untouched s) : s.Effective where
  running := h.running
  shown name b hb := by
    obtain ⟨iface, hiface, rfl⟩ := Option.map_eq_some_iff.mp hb
    rw [(h.map name iface hiface).2, h.given]
  consulted routine hroutine := by rw [h.copies routine hroutine, h.given]

/-- Traffic goes through and leaves the flags alone. -/
theorem traffic (h : Untouched s) (hstep : s.step e = some s')
    (hno : ∀ name b, e ≠ .toggle name b) : Untouched s' ∧ s'.interfaces = s.interfaces := by
  simp only [step, h.running, Bool.false_eq_true, if_false] at hstep
  cases e with
  | toggle name b => exact absurd rfl (hno name b)
  | boot k =>
    obtain ⟨routine, hroutine, rfl⟩ := Option.map_eq_some_iff.mp hstep
    refine ⟨⟨h.running, h.map, ?_, h.given⟩, rfl⟩
    intro other hother
    rcases List.mem_or_eq_of_mem_set hother with hmem | rfl
    · exact h.copies other hmem
    · exact h.copies routine (List.mem_of_getElem? hroutine)
  | send k pack =>
    simp only [send] at hstep
    split at hstep
    · contradiction
    · next routine hroutine =>
      rw [h.copies routine (List.mem_of_getElem? hroutine)] at hstep
      split at hstep
      · cases hstep
        exact ⟨⟨h.running, h.map, h.copies, h.given⟩, rfl⟩
      · contradiction
  | receive k datagram =>
    simp only [receive] at hstep
    split at hstep
    · contradiction
    · next routine hroutine =>
      rw [h.copies routine (List.mem_of_getElem? hroutine)] at hstep
      split at hstep
      · cases hstep
        exact ⟨⟨h.running, h.map, h.copies, h.given⟩, rfl⟩
      · contradiction

theorem toggle_undeclared {name : String} (hname : name ∉ s.interfaces) (b : Bool) :
    s.toggle name b = s := by
  simp only [toggle, ToggleInterface, AList.lookup_eq_none.mpr hname]

/-- A call for an interface of the node ends the program. -/
theorem toggle_crashes (h : Untouched s) {name : String} (hname : name ∈ s.interfaces) (b : Bool) :
    (s.toggle name b).crashed = true := by
  obtain ⟨iface, hiface⟩ := Option.isSome_iff_exists.mp (AList.lookup_isSome.mpr hname)
  have hnil := (h.map name iface hiface).1
  simp only [toggle, ToggleInterface, hiface, hnil, Bool.false_eq_true, if_false]

/-- A run from a state in which nothing was switched keeps the flags exactly if no interface
of the node is switched. -/
theorem follow (h : Untouched s) (events : List InterfaceEvent) {t : Links}
    (hrun : Runs.follow step (fun _ _ => True) s events = some t) :
    t.Effective ↔ ∀ name b, .toggle name b ∈ events → name ∉ s.interfaces := by
  induction events generalizing s with
  | nil =>
    cases hrun
    exact iff_of_true h.effective (by simp)
  | cons e rest ih =>
    rw [Runs.follow, if_pos trivial] at hrun
    obtain ⟨next, hstep, hrest⟩ := Option.bind_eq_some_iff.mp hrun
    by_cases htoggle : ∃ name b, e = .toggle name b
    · obtain ⟨name, b, rfl⟩ := htoggle
      simp only [step, h.running, Bool.false_eq_true, if_false, Option.some.injEq] at hstep
      subst hstep
      by_cases hname : name ∈ s.interfaces
      · have hcrashed := h.toggle_crashes hname b
        refine iff_of_false ?_ fun hall => hall name b List.mem_cons_self hname
        -- nothing happens any more once the program has ended
        cases rest with
        | nil =>
          cases hrest
          exact fun heff => by simp [heff.running] at hcrashed
        | cons e' rest => simp [Runs.follow, step, hcrashed] at hrest
      · rw [toggle_undeclared hname] at hrest
        rw [ih h hrest]
        simp only [List.mem_cons, InterfaceEvent.toggle.injEq]
        refine forall₂_congr fun name' b' => ⟨fun hall => ?_, fun hall hmem => hall (Or.inr hmem)⟩
        rintro (⟨rfl, -⟩ | hmem)
        · exact hname
        · exact hall hmem
    · push Not at htoggle
      obtain ⟨hnext, hsame⟩ := h.traffic hstep htoggle
      rw [ih hnext hrest, hsame]
      simp only [List.mem_cons]
      refine forall₂_congr fun name b => ⟨fun hall => ?_, fun hall hmem => hall (Or.inr hmem)⟩
      rintro (heq | hmem)
      · exact absurd heq.symm (htoggle name b)
      · exact hall hmem

end Untouched

/-- A run of a node keeps its flags at what was given last, without a fault, exactly if no
interface of the configuration is switched in it. -/
theorem toggle_effective_iff (config : IPConfig) (events : List InterfaceEvent) (s : Links)
    (h : follow step (fun _ _ => True) (start config) events = some s) :
    s.Effective ↔ ∀ name b, .toggle name b ∈ events → ¬ config.Declares name := by
  rw [(Untouched.start config).follow events h]
  simp only [mem_start_iff]

/-- A host sends and receives, and a name is switched that it does not have. -/
theorem toggle_effective_traffic :
    ∃ s, follow step (fun _ _ => True) (start hostConfig)
        [.boot 0, .send 0 [1], .toggle "if7" false, .receive 0 [2]] = some s ∧
      s.forwarded = [[1]] ∧ s.handled = [[2]] ∧ s.Effective := by
  obtain ⟨s, hrun, hforwarded, hhandled⟩ := exists_follow step (fun _ _ => True)
    (start hostConfig) (fun s => s.forwarded = [[1]] ∧ s.handled = [[2]])
    [.boot 0, .send 0 [1], .toggle "if7" false, .receive 0 [2]] (by decide)
  refine ⟨s, hrun, hforwarded, hhandled, (toggle_effective_iff hostConfig _ s hrun).mpr ?_⟩
  intro name b hmem
  have hname : name = "if7" ∧ b = false := by simpa using hmem
  rintro ⟨iface, hiface, rfl⟩
  simp only [hostConfig, List.mem_singleton] at hiface
  rw [hiface] at hname
  exact absurd hname.1 (by decide)

/-- Taking if0 down ends the program. -/
theorem toggle_nil_mutex :
    ¬ ∀ (config : IPConfig) (events : List InterfaceEvent) (s : Links),
      (∀ name b, .toggle name b ∈ events → config.Declares name) →
      follow step (fun _ _ => True) (start config) events = some s → s.Effective := by
  intro hclaim
  obtain ⟨s, hrun, hcrashed⟩ := exists_follow step (fun _ _ => True) (start hostConfig)
    (fun s => s.crashed = true) [.boot 0, .toggle "if0" false] (by decide)
  have heff := hclaim hostConfig _ s (by simp [IPConfig.Declares, hostConfig]) hrun
  rw [heff.running] at hcrashed
  contradiction

end Links

end IpTcp
