import IpTcp.Rip
import IpTcp.Socket

/-!
The configuration of a node, built line by line from the directives of its file. An
interface line gives an address and a prefix at once: the address is the one written,
and the prefix has its host bits cleared. A static route keeps its prefix as written.
The text of the lines is left out; addresses are IPv4.
-/
namespace IpTcp

open Rip

structure AddrPort where
  addr : UInt32
  port : UInt16
  deriving DecidableEq, Repr

structure InterfaceConfig where
  Name : String
  declared : Prefix
  UDPAddr : AddrPort
  deriving DecidableEq, Repr

namespace InterfaceConfig

def AssignedIP (iface : InterfaceConfig) : Addr := .v4 iface.declared.addr

def AssignedPrefix (iface : InterfaceConfig) : Prefix := iface.declared.masked

end InterfaceConfig

structure NeighborConfig where
  vip : UInt32
  UDPAddr : AddrPort
  InterfaceName : String
  deriving DecidableEq, Repr

def NeighborConfig.DestAddr (neighbor : NeighborConfig) : Addr := .v4 neighbor.vip

inductive RoutingMode
  | none
  | static
  | rip
  deriving DecidableEq, Repr

structure IPConfig where
  Interfaces : List InterfaceConfig
  Neighbors : List NeighborConfig
  OriginatingPrefixes : List Prefix
  RoutingMode : RoutingMode
  RipNeighbors : List Addr
  StaticRoutes : AList (fun _ : Prefix => Addr)

inductive Directive
  | interface (name : String) (declared : Prefix) (bindAddr : AddrPort)
  | neighbor (vip : UInt32) (bindAddr : AddrPort) (ifname : String)
  | routing (mode : RoutingMode)
  | route (pre : Prefix) (via : UInt32)
  | originate (pre : Prefix)
  | advertiseTo (neighbor : UInt32)
  deriving DecidableEq, Repr

inductive ConfigError
  | noMatchingPrefix (pre : Prefix)
  | notNeighbor (neighbor : Addr)
  deriving DecidableEq, Repr

namespace IPConfig

def empty : IPConfig where
  Interfaces := []
  Neighbors := []
  OriginatingPrefixes := []
  RoutingMode := .none
  RipNeighbors := []
  StaticRoutes := ∅

def addOriginatingPrefix (config : IPConfig) (pre : Prefix) : Except ConfigError IPConfig :=
  if config.Interfaces.any fun iface => iface.AssignedPrefix = pre then
    .ok { config with OriginatingPrefixes := config.OriginatingPrefixes ++ [pre] }
  else .error (.noMatchingPrefix pre)

def addRipNeighbor (config : IPConfig) (neighbor : Addr) : Except ConfigError IPConfig :=
  if config.Neighbors.any fun iface => iface.DestAddr = neighbor then
    .ok { config with RipNeighbors := config.RipNeighbors ++ [neighbor] }
  else .error (.notNeighbor neighbor)

def parse (config : IPConfig) : Directive → Except ConfigError IPConfig
  | .interface name declared bindAddr =>
      .ok { config with Interfaces := config.Interfaces ++ [⟨name, declared, bindAddr⟩] }
  | .neighbor vip bindAddr ifname =>
      .ok { config with Neighbors := config.Neighbors ++ [⟨vip, bindAddr, ifname⟩] }
  | .routing mode => .ok { config with RoutingMode := mode }
  | .route pre via => .ok { config with StaticRoutes := config.StaticRoutes.insert pre (.v4 via) }
  | .originate pre => config.addOriginatingPrefix pre.masked
  | .advertiseTo neighbor => config.addRipNeighbor (.v4 neighbor)

def routing (config : IPConfig) : Config Addr where
  StaticRoutes := config.StaticRoutes.entries.map fun route => (route.1, route.2)
  Interfaces := config.Interfaces.map fun iface => (iface.AssignedIP, iface.declared)

end IPConfig

def ParseConfig (lines : List Directive) : Except ConfigError IPConfig :=
  lines.foldlM IPConfig.parse IPConfig.empty

/-- Static routes come from their lines, with the prefixes as they are written. -/
theorem mem_static_parse {config config' : IPConfig} {line : Directive}
    (h : config.parse line = .ok config') (pre : Prefix) :
    pre ∈ config'.StaticRoutes ↔
      pre ∈ config.StaticRoutes ∨ ∃ via, line = .route pre via := by
  cases line with
  | route pre' via =>
    cases h
    simp [AList.mem_insert, or_comm, eq_comm]
  | interface _ _ _ | neighbor _ _ _ | routing _ =>
    cases h
    simp
  | originate pre' =>
    simp only [IPConfig.parse, IPConfig.addOriginatingPrefix] at h
    split at h
    · cases h
      simp
    · contradiction
  | advertiseTo neighbor =>
    simp only [IPConfig.parse, IPConfig.addRipNeighbor] at h
    split at h
    · cases h
      simp
    · contradiction

theorem mem_static_foldlM (lines : List Directive) {config config' : IPConfig}
    (h : lines.foldlM IPConfig.parse config = .ok config') (pre : Prefix) :
    pre ∈ config'.StaticRoutes ↔
      pre ∈ config.StaticRoutes ∨ ∃ via, Directive.route pre via ∈ lines := by
  induction lines generalizing config with
  | nil =>
    cases h
    simp
  | cons line lines ih =>
    rw [List.foldlM_cons] at h
    cases hline : config.parse line with
    | error e =>
      rw [hline] at h
      contradiction
    | ok next =>
      rw [hline] at h
      rw [ih h, mem_static_parse hline]
      simp only [List.mem_cons, exists_or, or_assoc, eq_comm]

/-- The prefixes of the static routes are those of the route lines. -/
theorem mem_static_iff {lines : List Directive} {config : IPConfig}
    (h : ParseConfig lines = .ok config) (pre : Prefix) :
    pre ∈ config.StaticRoutes ↔ ∃ via, Directive.route pre via ∈ lines := by
  rw [mem_static_foldlM lines h pre]
  exact or_iff_right (AList.notMem_empty pre)

def hostLines : List Directive :=
  [.interface "if0" (.slash 167772161 24) ⟨2130706433, 5000⟩,
    .neighbor 167772162 ⟨2130706433, 5001⟩ "if0", .route (.slash 0 0) 167772162]

def hostConfig : IPConfig where
  Interfaces := [⟨"if0", .slash 167772161 24, ⟨2130706433, 5000⟩⟩]
  Neighbors := [⟨167772162, ⟨2130706433, 5001⟩, "if0"⟩]
  OriginatingPrefixes := []
  RoutingMode := .none
  RipNeighbors := []
  StaticRoutes := AList.insert (.slash 0 0) (.v4 167772162) ∅

theorem parse_hostLines : ParseConfig hostLines = .ok hostConfig := rfl

end IpTcp
