import IpTcp.Locks

/-!
Successive calls of slidingWindow on a socket and the retransmission threads that they
leave behind. All threads read one ticker and one channel of done signals, which has room
for one. A signal goes to a thread that waits in its `select` if there is one, else into
the buffer, where any thread may find it: also the thread of the next window. In runs in
which a call starts only after the signal of the call before was received, and no thread
gives up, every window has its own thread.
-/
namespace IpTcp

open Runs

/-- A retransmission thread: not yet in its `select`, waiting there, at work on a tick that
it took, or over. -/
inductive Watcher
  | outside
  | parked
  | handling
  | gone
  deriving DecidableEq, Repr

/-- What SenderThread does: nothing, run the last call, send the done signal of that call, or
start again on the rest of a payload. -/
inductive SenderPhase
  | idle
  | running
  | signalling (next : Option TCPPacket)
  | restarting (packet : TCPPacket)
  deriving DecidableEq, Repr

namespace SenderPhase

def busy : SenderPhase → Bool
  | running | signalling _ => true
  | idle | restarting _ => false

def afterSignal : Option TCPPacket → SenderPhase
  | none => idle
  | some packet => restarting packet

@[simp] theorem busy_afterSignal (next : Option TCPPacket) : (afterSignal next).busy = false := by
  cases next <;> rfl

end SenderPhase

/-- An endpoint with its calls of slidingWindow so far, each with its thread. Signals carry
the number of their window, and `ended` lists the signals received with the threads that they
ended. -/
structure Watchers where
  endpoint : Endpoint
  calls : List WindowCall
  threads : List Watcher
  phase : SenderPhase
  packetDoneChan : List ℕ
  tick : Bool
  ended : List (ℕ × ℕ)

inductive Selected
  | done
  | tick
  | none

inductive WatcherEvent
  | build
  | again
  | run
  | timeout
  | signal (taker : Option ℕ)
  | fire (taker : Option ℕ)
  | select (i : ℕ) (choice : Selected)
  | handle (i : ℕ)
  | other (e : EndpointEvent)

/-- The probe was acknowledged and the first node is empty: the socket and the packet with
which slidingWindow is called again. -/
def WindowCall.restart (sock : NormalSocket) (call : WindowCall) :
    Option (NormalSocket × TCPPacket) :=
  match call.pc, sock.ackChan, call.packet.payload with
  | .probing _ expectedAck, received :: more, _ :: rest =>
      if received.AckNum = expectedAck ∧ received.WindowSize > 0 ∧
          call.firstNode.packet.payload.length = 0 then
        some ((({ sock with ackChan := more }.setWindow received.WindowSize).ackUpTo
          received.AckNum), { call.packet with payload := rest })
      else none
  | _, _, _ => none

/-- The step of the loop that starts slidingWindow again. -/
theorem WindowCall.run_of_restart {sock sock' : NormalSocket} {call : WindowCall}
    {packet : TCPPacket} (h : call.restart sock = some (sock', packet)) :
    call.run sock = some (sock', sock'.slidingWindow packet, []) := by
  unfold restart at h
  split at h
  · next probe expectedAck received more first rest hpc hchan hpayload =>
    split at h
    · next hopen =>
      cases h
      simp [run, hpc, hchan, hopen.1, hopen.2.1, probeAcked, hopen.2.2, hpayload]
    · contradiction
  · contradiction

namespace Watchers

def start (sock : NormalSocket) : Watchers where
  endpoint := Endpoint.start sock
  calls := []
  threads := []
  phase := .idle
  packetDoneChan := []
  tick := false
  ended := []

def last (s : Watchers) : ℕ := s.threads.length - 1

def setThread (s : Watchers) (i : ℕ) (state : Watcher) : Watchers :=
  { s with threads := s.threads.set i state }

def update (s : Watchers) (k : ℕ) (result : NormalSocket × WindowCall × List Emission) :
    Watchers :=
  { s with
    endpoint := { s.endpoint with
      sock := result.1
      panicked := result.2.1.pc = .panicked
      emitted := s.endpoint.emitted ++ result.2.2 }
    calls := s.calls.set k result.2.1 }

/-- The first lines of slidingWindow: the ticker's channel is emptied and a thread started. -/
def beginCall (s : Watchers) (call : WindowCall) : Watchers :=
  { s with
    calls := s.calls ++ [call]
    threads := s.threads ++ [.outside]
    phase := .running
    tick := false }

/-- SenderThread builds a segment and calls slidingWindow, unless there is nothing to send. -/
def build (s : Watchers) : Option Watchers :=
  s.endpoint.build.map fun p =>
    match p.sender with
    | .sliding call => { s with endpoint := { p with sender := .idle } }.beginCall call
    | _ => { s with endpoint := p }

/-- One step of the running call. It goes away with the window's lock when it starts again. -/
def runCall (s : Watchers) (call : WindowCall) : Option Watchers :=
  match call.restart s.endpoint.sock with
  | some (sock, packet) => some { s.update s.last (sock, { call with winLock := true }, []) with
      phase := .signalling (some packet) }
  | none => (call.run s.endpoint.sock).map fun result => { s.update s.last result with
      phase := if result.2.1.pc = .done then .signalling none else .running }

def timeout (s : Watchers) (call : WindowCall) : Option Watchers :=
  call.timeout.map fun again =>
    { s with endpoint := { s.endpoint with emitted := s.endpoint.emitted ++ again } }

def receiveDone (s : Watchers) (w i : ℕ) : Watchers :=
  { s.setThread i .gone with ended := s.ended ++ [(w, i)] }

/-- Send on packetDoneChan: a thread that waits gets the signal, else it is buffered. -/
def sendDone (s : Watchers) (next : Option TCPPacket) : Option ℕ → Option Watchers
  | some i =>
      if s.threads[i]? = some .parked then
        some { s.receiveDone s.last i with phase := SenderPhase.afterSignal next }
      else none
  | none =>
      if .parked ∉ s.threads ∧ s.packetDoneChan.length < 1 then
        some { s with
          packetDoneChan := s.packetDoneChan ++ [s.last]
          phase := SenderPhase.afterSignal next }
      else none

/-- The ticker sends: a thread that waits gets the tick, else one is buffered. -/
def fire (s : Watchers) : Option ℕ → Option Watchers
  | some i => if s.threads[i]? = some .parked then some (s.setThread i .handling) else none
  | none => if .parked ∉ s.threads then some { s with tick := true } else none

/-- A thread comes to its `select`. It waits there only if nothing is ready. -/
def select (s : Watchers) (i : ℕ) : Selected → Option Watchers
  | .done =>
      match s.packetDoneChan with
      | [] => none
      | w :: more => some { s.receiveDone w i with packetDoneChan := more }
  | .tick => if s.tick then some { s.setThread i .handling with tick := false } else none
  | .none =>
      if s.packetDoneChan = [] ∧ s.tick = false then some (s.setThread i .parked) else none

/-- The work on a tick, under the lock of the thread's own window. A thread that gives up is
over. -/
def handle (s : Watchers) (i : ℕ) (call : WindowCall) : Option Watchers :=
  (call.tick s.endpoint.sock).map fun result =>
    (s.setThread i (if result.2.1.winLock then .gone else .outside)).update i result

/-- The steps of the other threads of the socket. VWrite hands over to SenderThread when that
is back at its channel. -/
def other (s : Watchers) (e : EndpointEvent) : Option Watchers :=
  match e with
  | .build | .run | .timeout | .tick => none
  | .handOver =>
      if s.phase = .idle then (s.endpoint.step e).map fun p => { s with endpoint := p } else none
  | .write _ | .arrive _ | .dispatch | .finAcked | .read _ | .close | .commit _ =>
      (s.endpoint.step e).map fun p => { s with endpoint := p }

def step (s : Watchers) (e : WatcherEvent) : Option Watchers :=
  if s.endpoint.panicked then none
  else match e with
    | .build => if s.phase = .idle then s.build else none
    | .again =>
        match s.phase with
        | .restarting packet => some (s.beginCall (s.endpoint.sock.slidingWindow packet))
        | _ => none
    | .run =>
        match s.phase, s.calls[s.last]? with
        | .running, some call => s.runCall call
        | _, _ => none
    | .timeout =>
        match s.phase, s.calls[s.last]? with
        | .running, some call => s.timeout call
        | _, _ => none
    | .signal taker =>
        match s.phase with
        | .signalling next => s.sendDone next taker
        | _ => none
    | .fire taker => s.fire taker
    | .select i choice => if s.threads[i]? = some .outside then s.select i choice else none
    | .handle i =>
        match s.threads[i]?, s.calls[i]? with
        | some .handling, some call => s.handle i call
        | _, _ => none
    | .other e => s.other e

/-- Done signals end their own threads; the running window has its thread, and the threads
of the windows before are over, so that they take no tick. -/
structure OwnWatcher (s : Watchers) : Prop where
  ended : ∀ p ∈ s.ended, p.1 = p.2
  alive : s.phase.busy → ∃ state, s.threads[s.last]? = some state ∧ state ≠ .gone
  earlier : s.phase.busy → ∀ i < s.last, s.threads[i]? = some .gone

/-- A call starts after the signal of the call before was received, and no thread resends a
segment for the tenth time in a row. -/
def Orderly (s : Watchers) : WatcherEvent → Prop
  | .build | .again => s.packetDoneChan = []
  | .handle i => ∀ call ∈ s.calls[i]?, ¬ call.Tenth s.endpoint.sock
  | .run | .timeout | .signal _ | .fire _ | .select _ _ | .other _ => True

instance (s : Watchers) (e : WatcherEvent) : Decidable (s.Orderly e) :=
  match e with
  | .build | .again => inferInstanceAs (Decidable (_ = _))
  | .handle i => inferInstanceAs (Decidable (∀ call ∈ s.calls[i]?, _))
  | .run | .timeout | .signal _ | .fire _ | .select _ _ | .other _ => .isTrue trivial

/-- All threads are over and no signal is left, or the last thread lives and the done signal
of its window is still to be sent or received. -/
inductive Watched (s : Watchers) : Prop
  | quiet (n : ℕ) (hthreads : s.threads = List.replicate n .gone) (hchan : s.packetDoneChan = [])
      (hphase : s.phase.busy = false)
  | alive (n : ℕ) (state : Watcher) (hthreads : s.threads = List.replicate n .gone ++ [state])
      (hstate : state ≠ .gone) (hchan : s.packetDoneChan = if s.phase.busy then [] else [n])

section

variable {s s' : Watchers} {n i : ℕ} {state x : Watcher}

theorem last_eq (hthreads : s.threads = List.replicate n .gone ++ [state]) : s.last = n := by
  simp [last, hthreads]

/-- Among threads of which all but the last are over, a living one is the last. -/
theorem eq_last (hthreads : s.threads = List.replicate n .gone ++ [state])
    (hi : s.threads[i]? = some x) (hx : x ≠ .gone) : i = n := by
  rw [hthreads, List.getElem?_append] at hi
  split at hi
  · next hlt =>
    rw [List.getElem?_eq_getElem hlt, List.getElem_replicate] at hi
    exact absurd (Option.some.inj hi).symm hx
  · next hge =>
    have hzero : i - (List.replicate n Watcher.gone).length < [state].length :=
      (List.getElem?_eq_some_iff.mp hi).1
    simp only [List.length_replicate, List.length_cons, List.length_nil] at hge hzero
    omega

theorem set_last (hthreads : s.threads = List.replicate n .gone ++ [state]) (x : Watcher) :
    (s.setThread n x).threads = List.replicate n .gone ++ [x] := by
  simp [setThread, hthreads]

/-- A thread that is at work is the last one. -/
theorem Watched.living (h : s.Watched) (hi : s.threads[i]? = some x) (hx : x ≠ .gone) :
    s.threads = List.replicate i .gone ++ [x] ∧
      s.packetDoneChan = if s.phase.busy then [] else [i] := by
  cases h with
  | quiet n hthreads =>
    rw [hthreads] at hi
    exact absurd (List.eq_of_mem_replicate (List.mem_of_getElem? hi)) hx
  | alive n state hthreads hstate hchan =>
    obtain rfl := eq_last hthreads hi hx
    have hlast : s.threads[i]? = some state := by simp [hthreads]
    obtain rfl := Option.some.inj (hi.symm.trans hlast)
    exact ⟨hthreads, hchan⟩

theorem Watched.beginCall (h : s.Watched) (hchan : s.packetDoneChan = [])
    (hphase : s.phase.busy = false) (call : WindowCall) : (s.beginCall call).Watched := by
  cases h with
  | quiet n hthreads =>
    exact .alive n .outside (by simp [Watchers.beginCall, hthreads]) (by decide) hchan
  | alive n state hthreads hstate hsignal =>
    rw [hphase, hchan] at hsignal
    exact absurd hsignal (by simp)

/-- A step that leaves the threads and the signals as they are, and the sender busy or not. -/
theorem Watched.congr (h : s.Watched) (hthreads : s'.threads = s.threads)
    (hchan : s'.packetDoneChan = s.packetDoneChan) (hphase : s'.phase.busy = s.phase.busy) :
    s'.Watched := by
  cases h with
  | quiet n hgone hempty hidle =>
    exact .quiet n (hthreads.trans hgone) (hchan.trans hempty) (hphase.trans hidle)
  | alive n state hlast hstate hsignal =>
    exact .alive n state (hthreads.trans hlast) hstate (by rw [hchan, hphase, hsignal])

/-- The living thread goes on in another state. -/
theorem Watched.setThread (h : s.Watched) (hi : s.threads[i]? = some x) (hx : x ≠ .gone)
    (hstate : state ≠ .gone) : (s.setThread i state).Watched := by
  obtain ⟨hthreads, hchan⟩ := h.living hi hx
  exact .alive i state (set_last hthreads state) hstate hchan

/-- The living thread ends. -/
theorem Watched.ends (h : s.Watched) (hi : s.threads[i]? = some x) (hx : x ≠ .gone) :
    (s.setThread i .gone).threads = List.replicate (i + 1) .gone := by
  rw [set_last (h.living hi hx).1, List.replicate_succ']

/-- The running call goes on, or comes to its done signal. -/
theorem runCall_frame {call : WindowCall} (hrun : s.runCall call = some s') :
    s'.threads = s.threads ∧ s'.packetDoneChan = s.packetDoneChan ∧ s'.ended = s.ended ∧
      s'.phase.busy = true := by
  unfold runCall at hrun
  split at hrun
  · cases hrun
    exact ⟨rfl, rfl, rfl, rfl⟩
  · obtain ⟨result, -, rfl⟩ := Option.map_eq_some_iff.mp hrun
    refine ⟨rfl, rfl, rfl, ?_⟩
    simp only
    split <;> rfl

theorem other_frame {e : EndpointEvent} (hother : s.other e = some s') :
    ∃ p, s' = { s with endpoint := p } := by
  unfold other at hother
  split at hother
  case h_5 =>
    split at hother
    · obtain ⟨p, -, rfl⟩ := Option.map_eq_some_iff.mp hother
      exact ⟨p, rfl⟩
    · contradiction
  all_goals
    first
    | contradiction
    | obtain ⟨p, -, rfl⟩ := Option.map_eq_some_iff.mp hother
      exact ⟨p, rfl⟩

structure Attended (s : Watchers) : Prop where
  ended : ∀ p ∈ s.ended, p.1 = p.2
  watched : s.Watched

theorem ended_append (h : ∀ p ∈ s.ended, p.1 = p.2) (i : ℕ) :
    ∀ p ∈ s.ended ++ [(i, i)], p.1 = p.2 := by
  intro p hp
  rcases List.mem_append.mp hp with hp | hp
  · exact h p hp
  · rw [List.mem_singleton.mp hp]

theorem Attended.sendDone (h : s.Attended) {next : Option TCPPacket} {taker : Option ℕ}
    (hphase : s.phase = .signalling next) (hsend : s.sendDone next taker = some s') :
    s'.Attended := by
  have hbusy : s.phase.busy = true := by rw [hphase]; rfl
  unfold Watchers.sendDone at hsend
  split at hsend
  · next i =>
    split at hsend
    · next hparked =>
      cases hsend
      obtain ⟨hthreads, hchan⟩ := h.watched.living hparked (by decide)
      refine ⟨?_, .quiet (i + 1) (h.watched.ends hparked (by decide)) ?_ ?_⟩
      · rw [last_eq hthreads]
        exact ended_append h.ended i
      · rw [hbusy] at hchan
        exact hchan
      · exact SenderPhase.busy_afterSignal next
    · contradiction
  · split at hsend
    · cases hsend
      refine ⟨h.ended, ?_⟩
      cases h.watched with
      | quiet n hthreads hchan hidle =>
        rw [hbusy] at hidle
        contradiction
      | alive n state hthreads hstate hchan =>
        refine .alive n state hthreads hstate ?_
        simp [hchan, hbusy, last_eq hthreads]
    · contradiction

theorem Attended.fire (h : s.Attended) {taker : Option ℕ} (hfire : s.fire taker = some s') :
    s'.Attended := by
  unfold Watchers.fire at hfire
  split at hfire
  · split at hfire
    · next hparked =>
      cases hfire
      exact ⟨h.ended, h.watched.setThread hparked (by decide) (by decide)⟩
    · contradiction
  · split at hfire
    · cases hfire
      exact ⟨h.ended, h.watched.congr rfl rfl rfl⟩
    · contradiction

theorem Attended.select (h : s.Attended) {choice : Selected}
    (hi : s.threads[i]? = some .outside) (hselect : s.select i choice = some s') :
    s'.Attended := by
  cases choice with
  | done =>
    unfold Watchers.select at hselect
    simp only at hselect
    split at hselect
    · contradiction
    · next w more hsignal =>
      cases hselect
      obtain ⟨hthreads, hchan⟩ := h.watched.living hi (by decide)
      -- A buffered signal means that the sender is between two calls.
      rw [hsignal] at hchan
      split at hchan
      · contradiction
      · next hidle =>
        cases hchan
        exact ⟨ended_append h.ended i, .quiet (i + 1) (h.watched.ends hi (by decide)) rfl
          (Bool.not_eq_true _ ▸ hidle)⟩
  | tick =>
    unfold Watchers.select at hselect
    simp only at hselect
    split at hselect
    · cases hselect
      exact ⟨h.ended, (h.watched.setThread hi (by decide) (by decide)).congr rfl rfl rfl⟩
    · contradiction
  | none =>
    unfold Watchers.select at hselect
    simp only at hselect
    split at hselect
    · cases hselect
      exact ⟨h.ended, h.watched.setThread hi (by decide) (by decide)⟩
    · contradiction

theorem Attended.handle (h : s.Attended) {call : WindowCall}
    (hi : s.threads[i]? = some .handling) (htenth : ¬ call.Tenth s.endpoint.sock)
    (hhandle : s.handle i call = some s') : s'.Attended := by
  obtain ⟨result, htick, rfl⟩ := Option.map_eq_some_iff.mp hhandle
  have hunlocked : call.unlocked := (WindowCall.tick_cases htick).1
  have hlock := (WindowCall.tick_clean htick htenth hunlocked.2).2.2
  rw [hlock]
  exact ⟨h.ended, (h.watched.setThread hi (by decide) (by decide)).congr rfl rfl rfl⟩

theorem Attended.build (h : s.Attended) (hchan : s.packetDoneChan = [])
    (hphase : s.phase.busy = false) (hbuild : s.build = some s') : s'.Attended := by
  obtain ⟨p, -, rfl⟩ := Option.map_eq_some_iff.mp hbuild
  split
  · next call _ =>
    have hkept : { s with endpoint := { p with sender := .idle } }.Watched :=
      h.watched.congr rfl rfl rfl
    exact ⟨h.ended, hkept.beginCall hchan hphase call⟩
  · exact ⟨h.ended, h.watched.congr rfl rfl rfl⟩

theorem Attended.step (h : s.Attended) {e : WatcherEvent} (hok : s.Orderly e)
    (hstep : s.step e = some s') : s'.Attended := by
  unfold Watchers.step at hstep
  split at hstep
  · contradiction
  cases e with
  | build =>
    simp only at hstep
    split at hstep
    · next hidle => exact h.build hok (by rw [hidle]; rfl) hstep
    · contradiction
  | again =>
    simp only at hstep
    split at hstep
    · next packet hphase =>
      cases hstep
      exact ⟨h.ended, h.watched.beginCall hok (by rw [hphase]; rfl) _⟩
    · contradiction
  | run =>
    simp only at hstep
    split at hstep
    · next call hphase _ =>
      obtain ⟨hthreads, hchan, hended, hbusy⟩ := runCall_frame hstep
      exact ⟨hended ▸ h.ended, h.watched.congr hthreads hchan (by rw [hbusy, hphase]; rfl)⟩
    · contradiction
  | timeout =>
    simp only at hstep
    split at hstep
    · obtain ⟨again, -, rfl⟩ := Option.map_eq_some_iff.mp hstep
      exact ⟨h.ended, h.watched.congr rfl rfl rfl⟩
    · contradiction
  | signal taker =>
    simp only at hstep
    split at hstep
    · next next hphase => exact h.sendDone hphase hstep
    · contradiction
  | fire taker => exact h.fire hstep
  | select i choice =>
    simp only at hstep
    split at hstep
    · next hi => exact h.select hi hstep
    · contradiction
  | handle i =>
    simp only at hstep
    split at hstep
    · next call hi hcall => exact h.handle hi (hok call hcall) hstep
    · contradiction
  | other e =>
    obtain ⟨p, rfl⟩ := other_frame hstep
    exact ⟨h.ended, h.watched.congr rfl rfl rfl⟩

theorem Attended.start (sock : NormalSocket) : (start sock).Attended :=
  ⟨fun _ hp => absurd hp List.not_mem_nil, .quiet 0 rfl rfl rfl⟩

theorem Attended.ownWatcher (h : s.Attended) : s.OwnWatcher := by
  refine ⟨h.ended, fun hbusy => ?_, fun hbusy => ?_⟩
  all_goals
    cases h.watched with
    | quiet n hthreads hchan hidle =>
      rw [hbusy] at hidle
      contradiction
    | alive n state hthreads hstate hchan =>
      rw [last_eq hthreads]
      simp +contextual [hthreads, hstate, List.getElem?_append]

end

/-- In every run in which calls start after the signal of the call before was received, and
no thread gives up, every window is watched by its own thread and by no other. -/
theorem own_watcher_when_received (key : SocketTableKey) (baseSeq baseAck : UInt32)
    (window : UInt16) (s : Watchers)
    (h : Reach step Orderly (start (newSocket key baseSeq baseAck window)) s) :
    s.OwnWatcher :=
  (h.invariant Attended (Attended.start _) fun _ _ _ hs hok hstep =>
    hs.step hok hstep).ownWatcher

def sendByte (b : UInt8) : List WatcherEvent :=
  [.other (.write (.call [b])), .other (.write .test), .other (.write .copy), .other .handOver,
    .other (.write .test), .build]

/-- Two bytes are sent one after the other; the first window's thread has received its signal
before the second window starts. -/
theorem own_watcher_two_bytes :
    ∃ s : Watchers, s.phase = .running ∧ s.threads = [.gone, .parked] ∧ s.ended = [(0, 0)] ∧
      s.OwnWatcher := by
  obtain ⟨s, hreach, hphase, hthreads, hended⟩ := exists_reach step Orderly
    (start (newSocket sampleKey 100 200 8))
    (fun s => s.phase = .running ∧ s.threads = [.gone, .parked] ∧ s.ended = [(0, 0)])
    (sendByte 7 ++ [.select 0 .none] ++ List.replicate 8 .run ++ [.fire (some 0), .handle 0,
      .select 0 .none, .other (.arrive (Transfer.sampleAck 102 8)), .other .dispatch] ++
      List.replicate 7 .run ++ [.signal (some 0)] ++ sendByte 8 ++ [.select 1 .none])
    (by decide)
  exact ⟨s, hphase, hthreads, hended, own_watcher_when_received sampleKey 100 200 8 s hreach⟩

/-- The ticker expires while the call works on the last acknowledgement: the done signal finds
no thread in its `select` and ends the thread of the next window. -/
theorem signal_ends_next_watcher :
    ¬ ∀ (key : SocketTableKey) (baseSeq baseAck : UInt32) (window : UInt16) (s : Watchers),
      Reach step (fun _ _ => True) (start (newSocket key baseSeq baseAck window)) s →
      s.OwnWatcher := by
  intro hclaim
  obtain ⟨s, hreach, hended⟩ := exists_reach step (fun _ _ => True)
    (start (newSocket sampleKey 100 200 8))
    (fun s => s.ended = [(0, 1)])
    (sendByte 7 ++ [.select 0 .none] ++ List.replicate 7 .run ++
      [.other (.arrive (Transfer.sampleAck 102 8)), .other .dispatch, .fire (some 0), .run, .run,
        .run, .signal none] ++ sendByte 8 ++ [.select 1 .done])
    (by decide)
  have howner := (hclaim sampleKey 100 200 8 s hreach).ended (0, 1) (by simp [hended])
  contradiction

end Watchers

end IpTcp
