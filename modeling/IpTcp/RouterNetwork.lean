import IpTcp.Network
import IpTcp.Router
import IpTcp.RoutedTraffic

/-!
RIP as the programs run it: routers with all their goroutines, whose messages travel as bytes
in packets over channels and links that lose, repeat and reorder them, between the packets of
other protocols. Every run is one of the network of routes and entries, in which the costs of
routes are lengths of real paths. A message that is too long for the buffer of its receiver is
cut there, which only hides its last entries or ends the receiver.
-/
namespace IpTcp

open Rip Runs BigEndian

section Wire

def protocolOf (bytes : List UInt8) : ℕ := field bytes 9 1

theorem protocolOf_received (bytes : List UInt8) :
    protocolOf (received bytes).bytes = protocolOf bytes := by
  simp [protocolOf, field, received, maxMessageSize, List.drop_take, List.take_take]

theorem protocol_of_valid {bytes : List UInt8} {header : IPv4Header}
    (h : validHeader bytes = some header) : header.Protocol = protocolOf bytes := by
  obtain ⟨-, -, -, -, rfl⟩ := validHeader_eq_some h
  rfl

theorem makePacket_v4 {src dst : Addr} {protocolNum ttl : ℕ} {data packet : List UInt8}
    (h : makePacket src dst protocolNum ttl data = .ok packet) :
    ∃ s d check, src = .v4 s ∧ dst = .v4 d ∧
      packet = (builtHeader src dst protocolNum ttl data.length check).bytes ++ data := by
  cases src with
  | zero => simp [makePacket] at h
  | v4 s =>
    cases dst with
    | zero => simp [makePacket] at h
    | v4 d =>
      rw [makePacket_eq] at h
      cases h
      exact ⟨s, d, _, rfl, rfl, rfl⟩

theorem protocolOf_makePacket {src dst : Addr} {protocolNum ttl : ℕ} {data packet : List UInt8}
    (h : makePacket src dst protocolNum ttl data = .ok packet) :
    protocolOf packet = protocolNum % 256 := by
  obtain ⟨s, d, check, rfl, rfl, rfl⟩ := makePacket_v4 h
  simp [protocolOf, IPv4Header.bytes, builtHeader]

/-- A node that goes on with a packet sees the addresses that were put into it, and as much of
the data as its buffer holds. -/
theorem valid_makePacket {src dst : Addr} {protocolNum ttl : ℕ} {data packet : List UInt8}
    {header : IPv4Header} (h : makePacket src dst protocolNum ttl data = .ok packet)
    (hvalid : validHeader (received packet).bytes = some header) :
    header.Src = src ∧ header.Dst = dst ∧ (received packet).behind header.Len =
      ⟨data.take 1380, List.replicate (1380 - data.length) 0⟩ := by
  obtain ⟨s, d, check, rfl, rfl, rfl⟩ := makePacket_v4 h
  have hlength := length_built (.v4 s) (.v4 d) protocolNum ttl data.length check
  have hbytes : (received ((builtHeader (.v4 s) (.v4 d) protocolNum ttl data.length check).bytes ++
      data)).bytes = (builtHeader (.v4 s) (.v4 d) protocolNum ttl data.length check).bytes ++
        data.take 1380 := by
    simp [received, maxMessageSize, List.take_append, hlength, List.take_of_length_le]
  rw [hbytes] at hvalid
  obtain ⟨-, -, -, -, rfl⟩ := validHeader_eq_some hvalid
  have hlen : IPv4Header.hdrlen ((builtHeader (.v4 s) (.v4 d) protocolNum ttl data.length
      check).bytes ++ data.take 1380) = 20 := by
    simp [IPv4Header.hdrlen, IPv4Header.bytes, builtHeader, IPv4Header.HeaderLen]
  refine ⟨?_, ?_, ?_⟩
  · simp [IPv4Header.fields, IPv4Header.bytes, builtHeader, Addr.word]
  · simp [IPv4Header.fields, IPv4Header.bytes, builtHeader, Addr.word]
  · change Slice.behind _ (IPv4Header.hdrlen _) = _
    rw [hlen, Slice.behind, hbytes, List.drop_left' hlength]
    simp only [received, maxMessageSize, List.length_append, hlength, Slice.mk.injEq, true_and]
    congr 1
    omega

/-- What is read from a message that was cut at the end of the buffer is a first part of it. -/
theorem extract_cut {packet result : RipMessage}
    (hnum : packet.Num_entries = packet.Entries.length)
    (h : ExtractRIP ⟨(MarshalRIP packet).take 1380,
      List.replicate (1380 - (MarshalRIP packet).length) 0⟩ = some result) :
    result.Entries ⊆ packet.Entries := by
  have hcap : Slice.cap ⟨(MarshalRIP packet).take 1380,
      List.replicate (1380 - (MarshalRIP packet).length) 0⟩ = 1380 := by
    simp only [Slice.cap, List.length_take, List.length_replicate]
    omega
  rw [extractRIP_eq (by omega), hcap] at h
  generalize List.replicate (1380 - (MarshalRIP packet).length) (0 : UInt8) = spare at h
  -- the number of entries has two bytes
  set n := packet.Num_entries % 256 ^ 2 with hn
  have hfront : (MarshalRIP packet).take 1380 ++ spare = put 2 packet.Command ++
      (put 2 packet.Num_entries ++ ((packet.Entries.flatMap entryBytes).take 1376 ++ spare)) := by
    simp [MarshalRIP, List.take_append, List.take_of_length_le]
  have hfield : field ((MarshalRIP packet).take 1380 ++ spare) 2 2 = n := by
    rw [hfront, field_put_skip (Nat.le_refl _), Nat.sub_self, field_put, hn]
  simp only [hfield] at h
  split at h
  · next hfits =>
    cases h
    have hle : n ≤ packet.Entries.length := by omega
    have hlength : ((packet.Entries.take n).flatMap entryBytes).length = 12 * n := by
      rw [length_flatMap_entryBytes, List.length_take, Nat.min_eq_left hle]
    have hentries : (packet.Entries.flatMap entryBytes).take 1376 =
        (packet.Entries.take n).flatMap entryBytes ++
          ((packet.Entries.drop n).flatMap entryBytes).take (1376 - 12 * n) := by
      have hsplit : packet.Entries.flatMap entryBytes =
          (packet.Entries.take n).flatMap entryBytes ++
            (packet.Entries.drop n).flatMap entryBytes := by
        rw [← List.flatMap_append, List.take_append_drop]
      rw [hsplit, List.take_append, hlength, List.take_of_length_le (by omega)]
    have hread := entriesAt_flatMap (put 2 packet.Command ++ put 2 packet.Num_entries)
      (packet.Entries.take n)
      (((packet.Entries.drop n).flatMap entryBytes).take (1376 - 12 * n) ++ spare)
    rw [List.length_take, Nat.min_eq_left hle] at hread
    rw [hfront, hentries]
    simp only [List.append_assoc, List.length_append, length_put] at hread ⊢
    rw [hread]
    exact List.take_subset n _
  · contradiction

end Wire

/-- Packets of a node's own are answers to RIP messages. -/
theorem Node.perform_send {node node' : Node} {now : ℕ} {action : Action} {effects : List Effect}
    {sent : Sent} (h : node.perform now action = .ok (node', effects))
    (hsend : .send sent ∈ effects) :
    ∃ header message, action = .deliver header message ∧ header.Protocol = 200 := by
  cases perform_performs h with
  | drop | test _ _ _ => simp at hsend
  | segment _ _ _ _ _ => simp at hsend
  | rip header message rip_packet sent' hprotocol _ => exact ⟨header, message, rfl, hprotocol⟩
  | forward header next data packet _ =>
    unfold forwardPacket at hsend
    split at hsend <;> simp at hsend

def Action.rip : Action → Option (Addr × Slice)
  | .deliver header message =>
      if header.Protocol = 200 then some (header.Src, message) else none
  | .drop | .forward _ _ _ => none

/-- What a router does with a packet. Handlers of RIP go on as goroutines. -/
def Router.perform (r : Router) (now : ℕ) (action : Action) :
    Except Fault (Router × List Effect) :=
  match action.rip with
  | some (src, message) =>
      match ExtractRIP message with
      | none => .error .bounds
      | some rip_packet => .ok (r.protocol200 src rip_packet, [])
  | none =>
      match r.node.perform now action with
      | .error fault => .error fault
      | .ok (_, effects) => .ok (r, effects)

/-- A router is `none` once its program has ended. -/
structure RipNetwork (V : Type*) where
  routers : V → Option Router
  transit : List (InTransit V)

/-- A goroutine or a timer of a router goes on; a packet leaves a channel, is received, lost or
doubled; a packet of another protocol appears; a program ends. -/
inductive RipNetworkEvent (V : Type*)
  | task (u : V) (k now : ℕ) (order : List (Prefix × ℕ))
  | periodic (u : V)
  | collect (u : V) (now : ℕ) (order : List Prefix)
  | sweep (u : V)
  | transmit (k : ℕ)
  | receive (k : ℕ) (u : V) (now : ℕ) (visit : Visit)
  | lose (k : ℕ)
  | double (k : ℕ)
  | foreign (item : InTransit V)
  | stop (u : V)

namespace RipNetwork

variable {V : Type*}

def start (config : V → IPConfig) : RipNetwork V where
  routers u := some (Router.start (config u))
  transit := []

def put (s : RipNetwork V) (items : List (InTransit V)) : RipNetwork V :=
  { s with transit := s.transit ++ items }

def remove (s : RipNetwork V) (k : ℕ) : RipNetwork V :=
  { s with transit := s.transit.eraseIdx k }

def tasksAfter (tasks : List RipTask) (k : ℕ) : Option RipTask → List RipTask
  | some task => tasks.set k task
  | none => tasks.eraseIdx k

variable [DecidableEq V]

def setRouter (s : RipNetwork V) (u : V) (r : Option Router) : RipNetwork V :=
  { s with routers := Function.update s.routers u r }

def advanced (s : RipNetwork V) (u : V) (tasks : List RipTask) (k : ℕ) :
    Except Fault (Router × Option RipTask × List Sent) → RipNetwork V
  | .error _ => s.setRouter u none
  | .ok (r, task, sent) => (s.setRouter u (some { r with tasks := tasksAfter tasks k task })).put
      (sent.map fun x => ⟨.channel u x.address, x.pack, none⟩)

def handled (s : RipNetwork V) (u : V) : Except Fault (Router × List Effect) → RipNetwork V
  | .error _ => s.setRouter u none
  | .ok (r, effects) => (s.setRouter u (some r)).put (effects.flatMap (Effect.items u none))

def step (s : RipNetwork V) : RipNetworkEvent V → Option (RipNetwork V)
  | .task u k now order => (s.routers u).bind fun r => r.tasks[k]?.bind fun task =>
      (r.advance now order task).map (s.advanced u r.tasks k)
  | .periodic u => (s.routers u).bind fun r => r.periodicUpdates.map fun r' =>
      s.setRouter u (some r')
  | .collect u now order => (s.routers u).bind fun r => (r.garbageCollector now order).map fun r' =>
      s.setRouter u (some r')
  | .sweep u => (s.routers u).bind fun r => r.sweep.map fun r' => s.setRouter u (some r')
  | .transmit k =>
      match s.transit[k]? with
      | some ⟨.channel u address, bytes, _⟩ => (s.routers u).map fun r =>
          (s.remove k).put ((r.node.forwardPacket address bytes).flatMap (Effect.items u none))
      | _ => none
  | .receive k u now visit =>
      match s.transit[k]?, s.routers u with
      | some ⟨.link udp, bytes, _⟩, some r =>
          if r.node.Listens udp then
            some ((s.remove k).handled u (r.perform now (packetAction visit (received bytes))))
          else none
      | _, _ => none
  | .lose k => some (s.remove k)
  | .double k => s.transit[k]?.map fun item => s.put [item]
  | .foreign item => some (s.put [item])
  | .stop u => some (s.setRouter u none)

/-- Maps are visited in orders of their own, and nobody else sends RIP messages. -/
def Orderly (s : RipNetwork V) : RipNetworkEvent V → Prop
  | .receive _ u _ visit => ∀ r ∈ s.routers u, r.node.Visits visit
  | .foreign item => protocolOf item.bytes ≠ 200
  | .task _ _ _ _ | .periodic _ | .collect _ _ _ | .sweep _ | .transmit _ | .lose _ | .double _
  | .stop _ => True

instance (s : RipNetwork V) (e : RipNetworkEvent V) : Decidable (s.Orderly e) :=
  match e with
  | .receive _ u _ visit => inferInstanceAs (Decidable (∀ r ∈ s.routers u, r.node.Visits visit))
  | .foreign item => inferInstanceAs (Decidable (protocolOf item.bytes ≠ 200))
  | .task _ _ _ _ | .periodic _ | .collect _ _ _ | .sweep _ | .transmit _ | .lose _ | .double _
  | .stop _ => .isTrue trivial

end RipNetwork

/-- The configurations fit the network. RIP neighbours are nodes at the other end of a link, a
node sends to them from its own address on that link, over a UDP socket that only the neighbour
listens on, and nodes recognise their own addresses. -/
structure RipWired {V : Type*} (net : Topology V Addr) (config : V → IPConfig) : Prop where
  routing : ∀ u, net.config u = (config u).routing
  neighbours : ∀ u, ∀ dst ∈ (config u).RipNeighbors, ∃ w, net.graph.Adj u w ∧ dst = net.addr w u
  source : ∀ u w, net.graph.Adj u w →
    (config u).node.ifaceIP ((config u).node.ifaceName (net.addr w u)) = net.addr u w
  link : ∀ u w udp, net.graph.Adj u w → (config u).node.neighborUDP (net.addr w u) = some udp →
    ∀ x, (config x).node.Listens udp → x = w
  own : ∀ u w, net.graph.Adj u w → (config w).node.Owns (net.addr w u)
  longest : ∀ u, (config u).node.OwnLongest

section Simulation

variable {V : Type*} (net : Topology V Addr)

def Neighbour (u : V) (dst : Addr) : Prop := ∃ w, net.graph.Adj u w ∧ dst = net.addr w u

/-- What sendRIP has made so far was sent in the network, and what it will read are routes. -/
structure Sending.Sound (u : V) (r : Router) (t : Internet V Addr) (m : Sending) : Prop where
  entries : ∃ w, net.graph.Adj u w ∧ m.dst = net.addr w u ∧ ∀ e ∈ m.entries, (u, w, e) ∈ t.sent
  left : ∀ route ∈ m.left, route.2 < r.count ∧ (r.objects route.2).pre = route.1
  dsts : ∀ dst ∈ m.dsts, Neighbour net u dst
  subset : r.Points m.subset

/-- The entries still to be learned were sent by a neighbour, and what is sent goes to
neighbours. An entry that still waits for its next hop has the cost of a known value. -/
def RipTask.Sound (u : V) (r : Router) (t : Internet V Addr) : RipTask → Prop
  | .request dsts => ∀ dst ∈ dsts, Neighbour net u dst
  | .learn hop entries triggered | .finish hop entries triggered =>
      (∃ v, net.graph.Adj v u ∧ hop = net.addr v u ∧ ∀ e ∈ entries, (v, u, e) ∈ t.sent) ∧
        r.Points triggered
  | .answer dst => Neighbour net u dst
  | .send dsts subset => (∀ dst ∈ dsts, Neighbour net u dst) ∧ r.Points subset
  | .build m => m.Sound net u r t
  | .compare m entry p => m.Sound net u r t ∧ p < r.count ∧ ∃ value ∈ t.known u,
      value.1 = (r.objects p).pre ∧ value.2.pre = value.1 ∧
      entry = ⟨UInt32.ofNat value.2.cost, value.1.addr, cidrMask value.1.bits⟩

/-- A message of a node to a neighbour, with entries that were sent. -/
structure Announces (t : Internet V Addr) (v w : V) (message : RipMessage) : Prop where
  number : message.Num_entries = message.Entries.length
  entries : ∀ e ∈ message.Entries, (v, w, e) ∈ t.sent

/-- A RIP message under way, in a channel of its sender or on the link to its receiver. -/
structure RipTransit (config : V → IPConfig) (t : Internet V Addr) (item : InTransit V)
    (v w : V) (message : RipMessage) : Prop where
  adj : net.graph.Adj v w
  bytes : makePacket (net.addr v w) (net.addr w v) 200 16 (MarshalRIP message) = .ok item.bytes
  announces : Announces t v w message
  place : item.place = .channel v (net.addr w v) ∨
    ∃ udp, item.place = .link udp ∧ (config v).node.neighborUDP (net.addr w v) = some udp

/-- The state of the network of routes and entries that the routers are in. -/
structure Simulates (config : V → IPConfig) (s : RipNetwork V) (t : Internet V Addr) : Prop where
  follows : ∀ u r, s.routers u = some r → r.Follows u t
  shell : ∀ u r, s.routers u = some r → r.shell = (config u).node
  tasks : ∀ u r, s.routers u = some r → ∀ task ∈ r.tasks, task.Sound net u r t
  transit : ∀ item ∈ s.transit, protocolOf item.bytes ≠ 200 ∨
    ∃ v w message, RipTransit net config t item v w message

structure Grows (u : V) (t t' : Internet V Addr) : Prop where
  table : ∀ w, w ≠ u → t'.table w = t.table w
  known : ∀ w, t.known w ⊆ t'.known w
  sent : t.sent ⊆ t'.sent

structure TaskStep [DecidableEq V] [DecidableRel net.graph.Adj] (config : V → IPConfig) (u : V)
    (r : Router) (t : Internet V Addr) (r' : Router) (task : Option RipTask) (sent : List Sent)
    (t' : Internet V Addr) : Prop where
  reach : Reach (Internet.step net) (fun _ _ => True) t t'
  grows : Grows u t t'
  keeps : r.Keeps r'
  follows : r'.Follows u t'
  task : ∀ next ∈ task, next.Sound net u r' t'
  sent : ∀ x ∈ sent, ∃ w message,
    RipTransit net config t' ⟨.channel u x.address, x.pack, none⟩ u w message

end Simulation

section Steps

variable {V : Type*} {net : Topology V Addr} {config : V → IPConfig} {s : RipNetwork V}
  {t t' : Internet V Addr} {u v w : V} {r r' : Router}

theorem Grows.refl (u : V) (t : Internet V Addr) : Grows u t t :=
  ⟨fun _ _ => rfl, fun _ => List.Subset.refl _, List.Subset.refl _⟩

theorem Grows.update [DecidableEq V] (u : V) (t : Internet V Addr) (result : Update Addr) :
    Grows u t (t.update u result) := by
  refine ⟨fun w hw => Function.update_of_ne hw .., fun w => ?_, List.Subset.refl _⟩
  by_cases hw : w = u
  · subst hw
    rw [Router.Holds.known_update]
    exact List.subset_append_left _ _
  · change t.known w ⊆ Function.update t.known u _ w
    rw [Function.update_of_ne hw]
    exact List.Subset.refl _

theorem Sending.Sound.mono {m : Sending} (h : m.Sound net u r t) (hkeeps : r.Keeps r')
    (hgrows : Grows v t t') : m.Sound net u r' t' := by
  obtain ⟨⟨w, hadj, hdst, hsent⟩, hleft, hdsts, hsubset⟩ := h
  refine ⟨⟨w, hadj, hdst, fun e he => hgrows.sent (hsent e he)⟩, ?_, hdsts, hkeeps.points hsubset⟩
  intro route hroute
  obtain ⟨hlt, hpre⟩ := hleft route hroute
  exact ⟨Nat.lt_of_lt_of_le hlt hkeeps.count, (hkeeps.pre _ hlt).trans hpre⟩

/-- A task stays sound when routers and the network go on. -/
theorem RipTask.Sound.mono {task : RipTask} (h : task.Sound net u r t) (hkeeps : r.Keeps r')
    (hgrows : Grows v t t') : task.Sound net u r' t' := by
  cases task with
  | request dsts => exact h
  | learn hop entries triggered | finish hop entries triggered =>
    obtain ⟨⟨w, hadj, hhop, hsent⟩, hpoints⟩ := h
    exact ⟨⟨w, hadj, hhop, fun e he => hgrows.sent (hsent e he)⟩, hkeeps.points hpoints⟩
  | answer dst => exact h
  | send dsts subset => exact ⟨h.1, hkeeps.points h.2⟩
  | build m => exact Sending.Sound.mono h hkeeps hgrows
  | compare m entry p =>
    obtain ⟨hm, hp, value, hvalue, hkey, hpre, hentry⟩ := h
    exact ⟨hm.mono hkeeps hgrows, Nat.lt_of_lt_of_le hp hkeeps.count, value,
      hgrows.known u hvalue, hkey.trans (hkeeps.pre p hp).symm, hpre, hentry⟩

theorem RipTransit.mono {item : InTransit V} {message : RipMessage}
    (h : RipTransit net config t item v w message) (hgrows : Grows u t t') :
    RipTransit net config t' item v w message :=
  ⟨h.adj, h.bytes, ⟨h.announces.number,
    fun e he => hgrows.sent (h.announces.entries e he)⟩, h.place⟩

/-- A message that a node puts into a channel. -/
theorem RipWired.sendMessage (hwired : RipWired net config) (hadj : net.graph.Adj u w)
    {message : RipMessage} (hmessage : Announces t u w message) {sent : Sent}
    (h : (config u).node.sendMessage (net.addr w u) message = .ok sent) :
    RipTransit net config t ⟨.channel u sent.address, sent.pack, none⟩ u w message := by
  unfold Node.sendMessage at h
  simp only [hwired.source u w hadj] at h
  split at h
  · contradiction
  · next packet hpacket =>
    split at h
    · cases h
      exact ⟨hadj, hpacket, hmessage, Or.inl rfl⟩
    · contradiction

variable [DecidableEq V] [DecidableRel net.graph.Adj]

/-- One entry of a message: its cost and its next hop were read from values of the route. -/
theorem sent_of_read (hadj : net.graph.Adj u w) {value other : Prefix × ForwardingInfo Addr}
    (hvalue : value ∈ t.known u) (hother : other ∈ t.known u) (hkey : other.1 = value.1) :
    ∃ t', Reach (Internet.step net) (fun _ _ => True) t t' ∧ Grows u t t' ∧
      t'.table u = t.table u ∧ (u, w, ripEntry (net.addr w u) value.1
        { value.2 with next := other.2.next }) ∈ t'.sent := by
  set info : ForwardingInfo Addr := { value.2 with next := other.2.next } with hinfo
  have hreadable : ∀ route ∈ routes (AList.singleton value.1 info), t.Readable u route := by
    intro route hroute
    cases List.mem_singleton.mp hroute
    exact ⟨value, hvalue, other, hother, rfl, hkey, hinfo⟩
  refine ⟨{ t with sent := t.sent ++ [(u, w, ripEntry (net.addr w u) value.1 info)] },
    .tail (.send u w (AList.singleton value.1 info)) .refl trivial ?_, ?_, rfl, ?_⟩
  · simp only [Internet.step]
    rw [if_pos ⟨hadj, hreadable⟩]
    rfl
  · exact ⟨fun _ _ => rfl, fun _ => List.Subset.refl _, List.subset_append_left _ _⟩
  · exact List.mem_append_right _ (List.mem_singleton_self _)

/-- A goroutine goes on while nothing changes in the network. -/
theorem TaskStep.idle (h : r.Follows u t) {next : Option RipTask} {sent : List Sent}
    (hnext : ∀ task ∈ next, task.Sound net u r t)
    (hsent : ∀ x ∈ sent, ∃ w message,
      RipTransit net config t ⟨.channel u x.address, x.pack, none⟩ u w message) :
    TaskStep net config u r t r next sent t :=
  ⟨.refl, .refl u t, .refl r, h, hnext, hsent⟩

omit [DecidableEq V] [DecidableRel net.graph.Adj] in
theorem posted_ok {task : RipTask} {result : Except Fault Sent} {next : Option RipTask}
    {sent : List Sent} (h : r.posted task result = .ok (r', next, sent)) :
    ∃ x, result = .ok x ∧ r' = r ∧ next = some task ∧ sent = [x] := by
  cases result with
  | error fault => contradiction
  | ok x =>
    cases h
    exact ⟨x, rfl, rfl, rfl, rfl⟩

/-- A message goes out. -/
theorem TaskStep.post (hwired : RipWired net config) (h : r.Follows u t)
    (hshell : r.shell = (config u).node) (hadj : net.graph.Adj u w) {message : RipMessage}
    (hmessage : Announces t u w message) {task : RipTask} (htask : task.Sound net u r t)
    {next : Option RipTask} {sent : List Sent}
    (hposted : r.posted task (r.shell.sendMessage (net.addr w u) message) =
      .ok (r', next, sent)) :
    TaskStep net config u r t r' next sent t := by
  obtain ⟨x, hx, rfl, rfl, rfl⟩ := posted_ok hposted
  rw [hshell] at hx
  apply TaskStep.idle h
  · intro task' htask'
    cases htask'
    exact htask
  · intro x' hx'
    cases List.mem_singleton.mp hx'
    exact ⟨w, message, hwired.sendMessage hadj hmessage hx⟩

section Tasks

variable {now : ℕ} {order : List (Prefix × ℕ)} {next : Option RipTask} {sent : List Sent}

theorem taskStep_request (hwired : RipWired net config) (h : r.Follows u t)
    (hshell : r.shell = (config u).node) {dsts : List Addr}
    (htask : RipTask.Sound net u r t (.request dsts))
    (hstep : r.advance now order (.request dsts) = some (.ok (r', next, sent))) :
    TaskStep net config u r t r' next sent t := by
  cases dsts with
  | nil =>
    cases hstep
    exact .idle h (by simp) (by simp)
  | cons dst dsts =>
    obtain ⟨⟨w, hadj, rfl⟩, hdsts⟩ := List.forall_mem_cons.mp htask
    have hmessage : Announces t u w ⟨1, 0, []⟩ := ⟨rfl, by simp⟩
    have hlater : RipTask.Sound net u r t (.request dsts) := hdsts
    exact .post hwired h hshell hadj hmessage hlater (Option.some.inj hstep)

/-- The work on an entry is a step of the network. -/
theorem taskStep_learn (hwired : RipWired net config) (h : r.Follows u t)
    (hshell : r.shell = (config u).node) {hop : Addr} {entries : List RipUpdate}
    {triggered : PointerMap} (htask : RipTask.Sound net u r t (.learn hop entries triggered))
    (hstep : r.advance now order (.learn hop entries triggered) = some (.ok (r', next, sent))) :
    ∃ t', TaskStep net config u r t r' next sent t' := by
  obtain ⟨⟨v, hadj, rfl, hsent⟩, hpoints⟩ := htask
  cases entries with
  | nil =>
    cases hstep
    refine ⟨t, .idle h ?_ (by simp)⟩
    intro task htask
    split at htask
    · contradiction
    · cases htask
      refine ⟨?_, hpoints⟩
      rw [hshell]
      exact hwired.neighbours u
  | cons entry rest =>
    simp only [Router.advance] at hstep
    split at hstep
    · contradiction
    · next hbusy =>
      cases hstep
      obtain ⟨hentry, hrest⟩ := List.forall_mem_cons.mp hsent
      have hfree : r.critical = none := by simpa using hbusy
      obtain ⟨hkeeps, hpoints', hfollows⟩ := h.learnEntry hfree hpoints now (net.addr v u) entry
      refine ⟨_, .tail (.entry now v u entry) .refl trivial (if_pos hentry), .update u t _, hkeeps,
        hfollows, ?_, by simp⟩
      intro task htask
      cases htask
      have hlearn : RipTask.Sound net u _ _ (.learn (net.addr v u) rest
          (r.learnEntry now (net.addr v u) entry triggered).2) :=
        ⟨⟨v, hadj, rfl, hrest⟩, hpoints'⟩
      split
      · exact hlearn
      · exact hlearn

theorem taskStep_send (h : r.Follows u t) {dsts : List Addr} {subset : PointerMap}
    (htask : RipTask.Sound net u r t (.send dsts subset))
    (hstep : r.advance now order (.send dsts subset) = some (.ok (r', next, sent))) :
    TaskStep net config u r t r' next sent t := by
  cases dsts with
  | nil =>
    cases hstep
    exact .idle h (by simp) (by simp)
  | cons dst dsts =>
    obtain ⟨hdsts, hpoints⟩ := htask
    obtain ⟨⟨w, hadj, hdst⟩, hrest⟩ := List.forall_mem_cons.mp hdsts
    simp only [Router.advance] at hstep
    split at hstep
    · next hperm =>
      cases hstep
      refine .idle h ?_ (by simp)
      intro task hnext
      cases hnext
      refine ⟨⟨w, hadj, hdst, by simp⟩, ?_, hrest, hpoints⟩
      intro route hroute
      exact hpoints route.1 route.2 (PointerMap.mem_pairs.mp (hperm.mem_iff.mp hroute))
    · contradiction

/-- The cost of a route is read, or the message is complete. -/
theorem taskStep_build (hwired : RipWired net config) (h : r.Follows u t)
    (hshell : r.shell = (config u).node) {m : Sending}
    (htask : RipTask.Sound net u r t (.build m))
    (hstep : r.advance now order (.build m) = some (.ok (r', next, sent))) :
    TaskStep net config u r t r' next sent t := by
  obtain ⟨dst, left, entries, dsts, subset⟩ := m
  obtain ⟨⟨w, hadj, hdst, hsent⟩, hleft, hdsts, hpoints⟩ := htask
  cases left with
  | nil =>
    have hmessage : Announces t u w ⟨2, entries.length, entries⟩ := ⟨rfl, hsent⟩
    have hlater : RipTask.Sound net u r t (.send dsts subset) := ⟨hdsts, hpoints⟩
    have hposted := Option.some.inj hstep
    change dst = net.addr w u at hdst
    subst hdst
    exact .post hwired h hshell hadj hmessage hlater hposted
  | cons route left =>
    obtain ⟨pre, p⟩ := route
    cases hstep
    obtain ⟨⟨hlt, hpre⟩, hrest⟩ := List.forall_mem_cons.mp hleft
    obtain ⟨value, hvalue, hkey, hpre', hcost, -⟩ := h.reads hlt
    refine .idle h ?_ (by simp)
    intro task hnext
    cases hnext
    change (r.objects p).pre = pre at hpre
    refine ⟨⟨⟨w, hadj, hdst, hsent⟩, hrest, hdsts, hpoints⟩, hlt, value, hvalue, hkey,
      hpre'.trans hkey.symm, ?_⟩
    rw [hcost, hkey, hpre]

/-- The next hop of a route is read, which makes the entry. -/
theorem taskStep_compare (h : r.Follows u t) {m : Sending} {entry : RipUpdate} {p : ℕ}
    (htask : RipTask.Sound net u r t (.compare m entry p))
    (hstep : r.advance now order (.compare m entry p) = some (.ok (r', next, sent))) :
    ∃ t', TaskStep net config u r t r' next sent t' := by
  obtain ⟨⟨⟨w, hadj, hdst, hsent⟩, hleft, hdsts, hpoints⟩, hlt, value, hvalue, hkey, hpre,
    hentry⟩ := htask
  cases hstep
  obtain ⟨-, -, -, -, -, other, hother, hkey', hnext'⟩ := h.reads hlt
  obtain ⟨t', hreach, hgrows, htable, hmem⟩ :=
    sent_of_read hadj hvalue hother (hkey'.trans hkey.symm)
  refine ⟨t', hreach, hgrows, .refl r, h.mono htable (hgrows.known u), ?_, by simp⟩
  intro task hnext
  cases hnext
  refine ⟨⟨w, hadj, hdst, ?_⟩, hleft, hdsts, hpoints⟩
  intro e he
  rcases List.mem_append.mp he with hold | hnew
  · exact hgrows.sent (hsent e hold)
  · cases List.mem_singleton.mp hnew
    convert hmem using 3
    rw [hentry, ← hnext', hdst]
    unfold ripEntry
    simp only [hpre]
    split
    · rfl
    · rfl

/-- A step of a goroutine is none or one of the network. -/
theorem exists_taskStep (hwired : RipWired net config) (h : r.Follows u t)
    (hshell : r.shell = (config u).node) {task : RipTask} (htask : task.Sound net u r t)
    (hstep : r.advance now order task = some (.ok (r', next, sent))) :
    ∃ t', TaskStep net config u r t r' next sent t' := by
  cases task with
  | request dsts => exact ⟨t, taskStep_request hwired h hshell htask hstep⟩
  | learn hop entries triggered => exact taskStep_learn hwired h hshell htask hstep
  | finish hop entries triggered =>
    cases hstep
    refine ⟨t, .refl, .refl u t, h.keeps_settle, h.settle, ?_, by simp⟩
    intro task hnext
    cases hnext
    exact ⟨htask.1, h.keeps_settle.points htask.2⟩
  | answer dst =>
    simp only [Router.advance] at hstep
    split at hstep
    · contradiction
    · next hbusy =>
      cases hstep
      have hfree : r.critical = none := by simpa using hbusy
      refine ⟨t, .idle h ?_ (by simp)⟩
      intro task hnext
      cases hnext
      refine ⟨?_, (h.holds_of_free hfree).points⟩
      intro dst' hdst'
      cases List.mem_singleton.mp hdst'
      exact htask
  | send dsts subset => exact ⟨t, taskStep_send h htask hstep⟩
  | build m => exact ⟨t, taskStep_build hwired h hshell htask hstep⟩
  | compare m entry p => exact taskStep_compare h htask hstep

end Tasks

namespace Simulates

omit [DecidableEq V] [DecidableRel net.graph.Adj] in
theorem put (h : Simulates net config s t) {items : List (InTransit V)}
    (hitems : ∀ item ∈ items, protocolOf item.bytes ≠ 200 ∨
      ∃ v w message, RipTransit net config t item v w message) :
    Simulates net config (s.put items) t := by
  refine ⟨h.follows, h.shell, h.tasks, fun item hitem => ?_⟩
  rcases List.mem_append.mp hitem with hold | hnew
  · exact h.transit item hold
  · exact hitems item hnew

omit [DecidableEq V] [DecidableRel net.graph.Adj] in
theorem remove (h : Simulates net config s t) (k : ℕ) : Simulates net config (s.remove k) t :=
  ⟨h.follows, h.shell, h.tasks, fun item hitem => h.transit item (List.mem_of_mem_eraseIdx hitem)⟩

omit [DecidableRel net.graph.Adj] in
theorem stop (h : Simulates net config s t) (u : V) :
    Simulates net config (s.setRouter u none) t := by
  have hrouters : ∀ w r, (s.setRouter u none).routers w = some r → s.routers w = some r := by
    intro w r hr
    by_cases hw : w = u
    · subst hw
      simp [RipNetwork.setRouter] at hr
    · simpa [RipNetwork.setRouter, Function.update_of_ne hw] using hr
  exact ⟨fun w r hr => h.follows w r (hrouters w r hr), fun w r hr => h.shell w r (hrouters w r hr),
    fun w r hr => h.tasks w r (hrouters w r hr), h.transit⟩

omit [DecidableRel net.graph.Adj] in
/-- A router goes on, and with it the network at its node. -/
theorem update (h : Simulates net config s t) (hgrows : Grows u t t') (hr : s.routers u = some r)
    (hkeeps : r.Keeps r') (hfollows : r'.Follows u t')
    (htasks : ∀ task ∈ r'.tasks, task ∈ r.tasks ∨ task.Sound net u r' t') :
    Simulates net config (s.setRouter u (some r')) t' := by
  have hself : (s.setRouter u (some r')).routers u = some r' := Function.update_self ..
  have hother : ∀ w, w ≠ u → (s.setRouter u (some r')).routers w = s.routers w :=
    fun w hw => Function.update_of_ne hw ..
  refine ⟨fun w r₁ hr₁ => ?_, fun w r₁ hr₁ => ?_, fun w r₁ hr₁ task htask => ?_,
    fun item hitem => ?_⟩
  · by_cases hw : w = u
    · subst hw
      cases hself.symm.trans hr₁
      exact hfollows
    · rw [hother w hw] at hr₁
      exact (h.follows w r₁ hr₁).mono (hgrows.table w hw) (hgrows.known w)
  · by_cases hw : w = u
    · subst hw
      cases hself.symm.trans hr₁
      exact hkeeps.shell.trans (h.shell w r hr)
    · rw [hother w hw] at hr₁
      exact h.shell w r₁ hr₁
  · by_cases hw : w = u
    · subst hw
      cases hself.symm.trans hr₁
      rcases htasks task htask with hold | hnew
      · exact (h.tasks w r hr task hold).mono hkeeps hgrows
      · exact hnew
    · rw [hother w hw] at hr₁
      exact (h.tasks w r₁ hr₁ task htask).mono (.refl r₁) hgrows
  · rcases h.transit item hitem with hforeign | ⟨v, w, message, htransit⟩
    · exact Or.inl hforeign
    · exact Or.inr ⟨v, w, message, htransit.mono hgrows⟩

omit [DecidableRel net.graph.Adj] in
/-- A router starts a goroutine. -/
theorem spawn (h : Simulates net config s t) (hgrows : Grows u t t') (hr : s.routers u = some r)
    (hkeeps : r.Keeps r') (hfollows : r'.Follows u t') (htasks : r'.tasks = r.tasks)
    {task : RipTask} (htask : task.Sound net u r' t') :
    Simulates net config (s.setRouter u (some (r'.spawn task))) t' := by
  apply h.update hgrows hr (hkeeps.tasks _) (hfollows.withTasks _)
  intro task' htask'
  rcases List.mem_append.mp htask' with hold | hnew
  · exact Or.inl (htasks ▸ hold)
  · cases List.mem_singleton.mp hnew
    exact Or.inr (htask.mono (Router.Keeps.refl r' |>.tasks _) (.refl u t'))

/-- A goroutine makes a step. -/
theorem task (hwired : RipWired net config) (h : Simulates net config s t)
    (hr : s.routers u = some r) {k : ℕ} {task : RipTask} (htask : r.tasks[k]? = some task)
    {now : ℕ} {order : List (Prefix × ℕ)}
    {result : Except Fault (Router × Option RipTask × List Sent)}
    (hresult : r.advance now order task = some result) :
    ∃ t', Reach (Internet.step net) (fun _ _ => True) t t' ∧
      Simulates net config (s.advanced u r.tasks k result) t' := by
  cases result with
  | error fault => exact ⟨t, .refl, h.stop u⟩
  | ok result =>
    obtain ⟨r', next, sent⟩ := result
    have hmem := List.mem_of_getElem? htask
    obtain ⟨t', htaken⟩ := exists_taskStep hwired (h.follows u r hr) (h.shell u r hr)
      (h.tasks u r hr task hmem) hresult
    refine ⟨t', htaken.reach, put (h.update htaken.grows hr (htaken.keeps.tasks _)
      (htaken.follows.withTasks _) fun task' htask' => ?_) fun item hitem => ?_⟩
    · have hnext : ∀ task ∈ next, RipTask.Sound net u
          { r' with tasks := RipNetwork.tasksAfter r.tasks k next } t' task := fun task htask =>
        (htaken.task task htask).mono (Router.Keeps.refl r' |>.tasks _) (.refl u t')
      cases next with
      | none => exact Or.inl (List.mem_of_mem_eraseIdx htask')
      | some task =>
        rcases List.mem_or_eq_of_mem_set htask' with hold | rfl
        · exact Or.inl hold
        · exact Or.inr (hnext _ rfl)
    · obtain ⟨x, hx, rfl⟩ := List.mem_map.mp hitem
      obtain ⟨w, message, htransit⟩ := htaken.sent x hx
      exact Or.inr ⟨u, w, message, htransit⟩

omit [DecidableRel net.graph.Adj] in
/-- A round of the collector begins. -/
theorem collect (h : Simulates net config s t) (hr : s.routers u = some r) {now : ℕ}
    {order : List Prefix} (hcollect : r.garbageCollector now order = some r') :
    Simulates net config (s.setRouter u (some r')) t := by
  unfold Router.garbageCollector at hcollect
  split at hcollect
  · next hstarts =>
    cases hcollect
    have hfree : r.critical = none := by simpa using hstarts.1
    have hholds := (h.follows u r hr).holds_of_free hfree
    apply h.update (.refl u t) hr (.critical (.refl r) _)
    · apply Router.Follows.of_sweeping hholds
      intro pre p hp
      contradiction
    · exact fun task htask => Or.inl htask
  · contradiction

/-- The collector visits a prefix, or it has visited all of them. -/
theorem sweep (hwired : RipWired net config) (h : Simulates net config s t)
    (hr : s.routers u = some r) (hsweep : r.sweep = some r') :
    ∃ t', Reach (Internet.step net) (fun _ _ => True) t t' ∧
      Simulates net config (s.setRouter u (some r')) t' := by
  unfold Router.sweep at hsweep
  split at hsweep
  · next now pre left triggered hcritical =>
    cases hsweep
    obtain ⟨hholds, hpoints⟩ := (h.follows u r hr).holds_of_sweeping hcritical
    obtain ⟨hkeeps, hpoints', hholds'⟩ := hholds.sweepRoute hpoints now pre
    refine ⟨_, .tail (.expire now u pre) .refl trivial rfl, ?_⟩
    apply h.update (.update u t _) hr (hkeeps.critical _)
    · exact .of_sweeping hholds' hpoints' now left
    · intro task htask
      rw [r.tasks_sweepRoute now pre triggered] at htask
      exact Or.inl htask
  · next now triggered hcritical =>
    cases hsweep
    obtain ⟨hholds, hpoints⟩ := (h.follows u r hr).holds_of_sweeping hcritical
    have hfollows : ({ r with critical := none } : Router).Follows u t :=
      .of_free rfl ⟨hholds.points, hholds.table, hholds.known⟩
    have hkeeps : r.Keeps { r with critical := none } := .critical (.refl r) none
    refine ⟨t, .refl, ?_⟩
    split
    · exact h.update (.refl u t) hr hkeeps hfollows fun task htask => Or.inl htask
    · apply h.spawn (.refl u t) hr hkeeps hfollows rfl
      refine ⟨?_, hpoints⟩
      rw [h.shell u r hr]
      exact hwired.neighbours u
  · contradiction
  · contradiction

omit [DecidableEq V] [DecidableRel net.graph.Adj] in
/-- At the start nothing has been sent. -/
theorem start (hwired : RipWired net config) :
    Simulates net config (RipNetwork.start config) (Internet.start net) := by
  refine ⟨fun u r hr => ?_, fun u r hr => ?_, fun u r hr task htask => ?_, by
    simp [RipNetwork.start]⟩
  · cases hr
    apply Router.Follows.start
    · exact congrArg initialTable (hwired.routing u)
    · exact congrArg (fun c => routes (initialTable c)) (hwired.routing u)
  · cases hr
    rfl
  · cases hr
    cases List.mem_singleton.mp htask
    exact hwired.neighbours u

omit [DecidableEq V] [DecidableRel net.graph.Adj] in
/-- What leaves a channel is on a link. -/
theorem transmit (h : Simulates net config s t) (hr : s.routers u = some r) {address : Addr}
    {bytes : List UInt8} {origin : Option ℕ}
    (hitem : ⟨.channel u address, bytes, origin⟩ ∈ s.transit) :
    ∀ item ∈ (r.node.forwardPacket address bytes).flatMap (Effect.items u none),
      protocolOf item.bytes ≠ 200 ∨ ∃ v w message, RipTransit net config t item v w message := by
  intro item hmem
  unfold Node.forwardPacket at hmem
  split at hmem
  · contradiction
  · next udp hudp =>
    cases List.mem_singleton.mp hmem
    rcases h.transit _ hitem with hforeign | ⟨v, w, message, htransit⟩
    · exact Or.inl hforeign
    · rcases htransit.place with hchannel | ⟨udp', hlink, -⟩
      · cases hchannel
        refine Or.inr ⟨u, w, message, htransit.adj, htransit.bytes, htransit.announces,
          Or.inr ⟨udp, rfl, ?_⟩⟩
        rw [← h.shell u r hr]
        exact hudp
      · contradiction

omit [DecidableRel net.graph.Adj] in
/-- A router goes on with a packet of another protocol, or ends. -/
theorem handled_foreign (h : Simulates net config s t) (hr : s.routers u = some r) {now : ℕ}
    {visit : Visit} {bytes : List UInt8} (hforeign : protocolOf bytes ≠ 200) :
    Simulates net config
      (s.handled u (r.perform now (packetAction visit (received bytes)))) t := by
  have hprotocol : ∀ header, validHeader (received bytes).bytes = some header →
      header.Protocol = protocolOf bytes := fun header hvalid =>
    (protocol_of_valid hvalid).trans (protocolOf_received bytes)
  have hnot : ∀ header message, packetAction visit (received bytes) = .deliver header message →
      header.Protocol ≠ 200 := by
    intro header message haction
    rw [hprotocol header (packetAction_deliver haction).1]
    exact hforeign
  have hrip : (packetAction visit (received bytes)).rip = none := by
    cases haction : packetAction visit (received bytes) with
    | drop => rfl
    | deliver header message => exact if_neg (hnot header message haction)
    | forward header hop data => rfl
  unfold Router.perform
  rw [hrip]
  simp only
  cases hperform : r.node.perform now (packetAction visit (received bytes)) with
  | error fault => exact h.stop u
  | ok result =>
    obtain ⟨node', effects⟩ := result
    apply put (h.update (.refl u t) hr (.refl r) (h.follows u r hr) fun task htask => Or.inl htask)
    intro item hitem
    obtain ⟨effect, heffect, hitem⟩ := List.mem_flatMap.mp hitem
    left
    cases effect with
    | passUp info => contradiction
    | send sent =>
      obtain ⟨header, message, haction, hrip⟩ := Node.perform_send hperform heffect
      exact absurd hrip (hnot header message haction)
    | write udp packet =>
      cases List.mem_singleton.mp hitem
      obtain ⟨header, hop, data, haction, hpacket⟩ := Node.perform_write hperform heffect
      rw [protocolOf_makePacket hpacket, hprotocol header (packetAction_forward haction).1]
      have hlt : protocolOf bytes < 256 := field_lt bytes 9 1
      rwa [Nat.mod_eq_of_lt hlt]

omit [DecidableRel net.graph.Adj] in
/-- The receiver of a RIP message goes on with it, or ends. -/
theorem handled_rip (hwired : RipWired net config) (h : Simulates net config s t)
    (hr : s.routers u = some r) {item : InTransit V} {message : RipMessage}
    (hitem : RipTransit net config t item v u message) {now : ℕ} {visit : Visit}
    (hvisit : r.node.Visits visit) :
    Simulates net config
      (s.handled u (r.perform now (packetAction visit (received item.bytes)))) t := by
  have hidle : Simulates net config (s.setRouter u (some r)) t :=
    h.update (.refl u t) hr (.refl r) (h.follows u r hr) fun task htask => Or.inl htask
  cases haction : packetAction visit (received item.bytes) with
  | drop => exact put hidle (by simp)
  | forward header hop data =>
    -- the message is for an address of the router
    obtain ⟨hvalid, hdest, -⟩ := packetAction_forward haction
    have howns := hwired.own v u hitem.adj
    rw [← (valid_makePacket hitem.bytes hvalid).2.1] at howns
    have hlocal : checkDest visit.interfaces header.Dst = true := by
      apply (hwired.longest u).checkDest _ howns
      rw [← h.shell u r hr]
      exact hvisit.interfaces
    rw [hlocal] at hdest
    contradiction
  | deliver header slice =>
    obtain ⟨hvalid, -, hslice⟩ := packetAction_deliver haction
    obtain ⟨hsrc, -, hdata⟩ := valid_makePacket hitem.bytes hvalid
    have hprotocol : header.Protocol = 200 := by
      rw [protocol_of_valid hvalid, protocolOf_received, protocolOf_makePacket hitem.bytes]
    have hrip : (Action.deliver header slice).rip = some (net.addr v u, slice) := by
      simp only [Action.rip, if_pos hprotocol, hsrc]
    unfold Router.perform
    rw [hrip, hslice, hdata]
    simp only
    split
    · exact h.stop u
    · next rip_packet hextract =>
      have hentries := extract_cut hitem.announces.number hextract
      apply put _ (by simp)
      unfold Router.protocol200 RipMessage.packet
      split
      · exact h.spawn (.refl u t) hr (.refl r) (h.follows u r hr) rfl ⟨v, hitem.adj.symm, rfl⟩
      · next entries hpacket =>
        split at hpacket
        · contradiction
        · cases hpacket
          apply h.spawn (.refl u t) hr (.refl r) (h.follows u r hr) rfl
          refine ⟨⟨v, hitem.adj, rfl, fun e he => hitem.announces.entries e (hentries he)⟩, ?_⟩
          intro pre p hp
          contradiction

/-- Every step of the routers and the packets is a run of the network of routes and entries. -/
theorem step (hwired : RipWired net config) (h : Simulates net config s t)
    {s' : RipNetwork V} {e : RipNetworkEvent V} (hok : s.Orderly e) (hstep : s.step e = some s') :
    ∃ t', Reach (Internet.step net) (fun _ _ => True) t t' ∧ Simulates net config s' t' := by
  cases e with
  | task u k now order =>
    obtain ⟨r, hr, hstep⟩ := Option.bind_eq_some_iff.mp hstep
    obtain ⟨task, htask, hstep⟩ := Option.bind_eq_some_iff.mp hstep
    obtain ⟨result, hresult, rfl⟩ := Option.map_eq_some_iff.mp hstep
    exact h.task hwired hr htask hresult
  | periodic u =>
    obtain ⟨r, hr, hstep⟩ := Option.bind_eq_some_iff.mp hstep
    obtain ⟨r', hr', rfl⟩ := Option.map_eq_some_iff.mp hstep
    unfold Router.periodicUpdates at hr'
    split at hr'
    · contradiction
    · next hbusy =>
      cases hr'
      have hfollows := h.follows u r hr
      have hfree : r.critical = none := by simpa using hbusy
      refine ⟨t, .refl, h.spawn (.refl u t) hr (.refl r) hfollows rfl ⟨?_, ?_⟩⟩
      · rw [h.shell u r hr]
        exact hwired.neighbours u
      · exact (hfollows.holds_of_free hfree).points
  | collect u now order =>
    obtain ⟨r, hr, hstep⟩ := Option.bind_eq_some_iff.mp hstep
    obtain ⟨r', hr', rfl⟩ := Option.map_eq_some_iff.mp hstep
    exact ⟨t, .refl, h.collect hr hr'⟩
  | sweep u =>
    obtain ⟨r, hr, hstep⟩ := Option.bind_eq_some_iff.mp hstep
    obtain ⟨r', hr', rfl⟩ := Option.map_eq_some_iff.mp hstep
    exact h.sweep hwired hr hr'
  | transmit k =>
    simp only [RipNetwork.step] at hstep
    split at hstep
    · next u address bytes origin hitem =>
      obtain ⟨r, hr, rfl⟩ := Option.map_eq_some_iff.mp hstep
      exact ⟨t, .refl, (h.remove k).put (h.transmit hr (List.mem_of_getElem? hitem))⟩
    · contradiction
  | receive k u now visit =>
    simp only [RipNetwork.step] at hstep
    split at hstep
    · next udp bytes origin r hitem hr =>
      split at hstep
      · next hlistens =>
        cases hstep
        refine ⟨t, .refl, ?_⟩
        rcases h.transit _ (List.mem_of_getElem? hitem) with hforeign | ⟨v, w, message, htransit⟩
        · exact (h.remove k).handled_foreign hr hforeign
        · rcases htransit.place with hchannel | ⟨udp', hlink, hudp⟩
          · contradiction
          · cases hlink
            have hshell := h.shell u r hr
            have hreceiver := hwired.link v w udp htransit.adj hudp u (hshell ▸ hlistens)
            subst hreceiver
            exact (h.remove k).handled_rip hwired hr htransit (hok r hr)
      · contradiction
    · contradiction
  | lose k =>
    cases hstep
    exact ⟨t, .refl, h.remove k⟩
  | double k =>
    obtain ⟨item, hitem, rfl⟩ := Option.map_eq_some_iff.mp hstep
    refine ⟨t, .refl, h.put fun item' hitem' => ?_⟩
    cases List.mem_singleton.mp hitem'
    exact h.transit item (List.mem_of_getElem? hitem)
  | foreign item =>
    cases hstep
    refine ⟨t, .refl, h.put fun item' hitem' => ?_⟩
    cases List.mem_singleton.mp hitem'
    exact Or.inl hok
  | stop u =>
    cases hstep
    exact ⟨t, .refl, h.stop u⟩

end Simulates

/-- However goroutines, timers and packets take turns, and whatever is lost, doubled, reordered
or sent by other protocols: the tables of the routers are, up to a write in progress, those of
a run of the network of routes and entries. The cost of every route that a router holds is at
most 15, and an origin of its prefix is at most that many links away. -/
theorem routers_follow_network (net : Topology V Addr) [DecidableRel net.graph.Adj]
    (config : V → IPConfig) (hwired : RipWired net config) (s : RipNetwork V)
    (h : Reach RipNetwork.step RipNetwork.Orderly (RipNetwork.start config) s) :
    (∃ t, Reach (Internet.step net) (fun _ _ => True) (Internet.start net) t ∧
      ∀ u r, s.routers u = some r → ∀ pre,
        r.settle.values.lookup pre = (t.table u).lookup pre) ∧
      ∀ u r pre info, s.routers u = some r → r.values.lookup pre = some info →
        info.cost ≤ 15 ∧ net.Near pre.masked info.cost u := by
  have hsimulated : ∃ t, Reach (Internet.step net) (fun _ _ => True) (Internet.start net) t ∧
      Simulates net config s t := by
    apply h.invariant fun s => ∃ t, Reach (Internet.step net) (fun _ _ => True)
      (Internet.start net) t ∧ Simulates net config s t
    · exact ⟨_, .refl, .start hwired⟩
    · intro s e s' ⟨t, hreach, hsim⟩ hok hstep
      obtain ⟨t', hreach', hsim'⟩ := hsim.step hwired hok hstep
      exact ⟨t', hreach.trans hreach', hsim'⟩
  obtain ⟨t, hreach, hsim⟩ := hsimulated
  refine ⟨⟨t, hreach, fun u r hr pre => ?_⟩, fun u r pre info hr hinfo => ?_⟩
  · rw [Router.lookup_values, (hsim.follows u r hr).holds.table]
  · have hsound : Sound net t := hreach.invariant (Sound net) (Sound.start net)
      fun _ _ _ hsound _ hstep => hsound.step hstep
    obtain ⟨info', hinfo', hcost⟩ := (hsim.follows u r hr).cost_of_lookup hinfo
    obtain ⟨hroute, hlt⟩ := hsound.table u pre info' hinfo'
    rw [← hcost]
    exact ⟨Nat.le_of_lt_succ hlt, hroute.near hlt⟩

end Steps

theorem linkedConfig_wired : RipWired linkedPair.toTopology linkedConfig where
  routing _ := rfl
  neighbours u dst hdst := by
    refine ⟨!u, by cases u <;> simp [linkedPair], ?_⟩
    cases List.mem_singleton.mp hdst
    cases u <;> rfl
  source u w hadj := by
    have hsources : ∀ u w : Bool, u ≠ w → (linkedConfig u).node.ifaceIP
        ((linkedConfig u).node.ifaceName (if w then .v4 167772162 else .v4 167772161)) =
          if u then .v4 167772162 else .v4 167772161 := by decide
    exact hsources u w hadj
  link u w udp hadj hudp x hx := by
    obtain ⟨udp', hudp', -, honly, -⟩ :=
      (linkedNodes_wired (Traffic.start linkedPair)).link u w hadj.symm
    cases hudp.symm.trans hudp'
    exact honly x hx
  own u w hadj := by
    have howns : ∀ w : Bool, (linkedConfig w).node.Owns
        (if w then .v4 167772162 else .v4 167772161) := by decide
    exact howns w
  longest := (linkedNodes_wired (Traffic.start linkedPair)).recognises

/-- The router sends its table over the link, and the neighbour learns the route behind it. -/
theorem routers_follow_network_pair :
    ∃ (s : RipNetwork Bool) (r : Router), s.routers false = some r ∧
      r.values.lookup farPrefix = some ⟨.R, .v4 167772162, farPrefix, 1, 7⟩ ∧
      linkedPair.Near farPrefix.masked 1 false := by
  obtain ⟨s, hreach, hlearned⟩ := exists_reach RipNetwork.step RipNetwork.Orderly
    (RipNetwork.start linkedConfig)
    (fun s => ((s.routers false).bind fun r => r.values.lookup farPrefix) =
      some ⟨.R, .v4 167772162, farPrefix, 1, 7⟩)
    [.periodic true, .task true 1 0 (Router.start (linkedConfig true)).table.pairs,
      .task true 1 0 [], .task true 1 0 [], .task true 1 0 [], .task true 1 0 [],
      .task true 1 0 [], .transmit 0,
      .receive 0 false 6 (Router.start (linkedConfig false)).node.anyVisit,
      .task false 1 7 []] (by decide +kernel)
  obtain ⟨r, hr, hroute⟩ := Option.bind_eq_some_iff.mp hlearned
  exact ⟨s, r, hr, hroute, ((routers_follow_network linkedPair.toTopology linkedConfig
    linkedConfig_wired s hreach).2 false r farPrefix _ hr hroute).2⟩

end IpTcp
