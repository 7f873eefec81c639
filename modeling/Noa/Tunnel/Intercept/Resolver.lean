import Noa.Tunnel.Intercept.Dns
import Noa.Tunnel.Resolve.Target

namespace Noa.Tunnel.Intercept
open Noa.Framework Noa.Tunnel.Resolve

/-- Seconds. -/
def interceptDialTimeout : Nat := 5
def defaultConnectTimeout : Nat := 15

inductive Protocol where
  | tcp
  | udp
  deriving DecidableEq

def Protocol.asStr : Protocol → Text
  | .tcp => "tcp".toList
  | .udp => "udp".toList

/-- The part of an `intercept.v1` configuration the resolver reads. -/
structure InterceptV1Config where
  protocols : List Text
  addresses : List Text
  portRanges : List PortRange
  connectTimeoutSeconds : Option UInt32
  allowedSourceAddresses : List Text

/-- A service of the controller; `interceptV1` is its raw configuration value, of a type with
equality. -/
structure Service (V : Type) where
  name : Text
  permissions : List Text
  interceptV1 : Option V

inductive ServiceEvent (V : Type) where
  | added (svc : Service V)
  | changed (svc : Service V)
  | removed (svc : Service V)

/-- Zero asks for the default of the connection layer. -/
def dialTimeoutFor (cfg : InterceptV1Config) : Nat :=
  match cfg.connectTimeoutSeconds with
  | some 0 => defaultConnectTimeout
  | some secs => secs.toNat
  | none => interceptDialTimeout

/-- The networks traffic may come from, `none` for no restriction; names restrict without allowing. -/
def buildAllowedSources (entries : List Text) : Option (List IpNet) :=
  if entries = [] then none
  else some ((entries.filter fun s => s.head? ≠ some '*').filterMap parseIpOrCidr)

/-- What the entries of both tables have in common. -/
structure InterceptRule where
  lowPort : UInt16
  highPort : UInt16
  protocol : Text
  service : Text
  dialTimeout : Nat
  allowedSources : Option (List IpNet)

structure InterceptEntry extends InterceptRule where
  cidr : IpNet

structure WildcardEntry extends InterceptRule where
  suffix : Text

namespace InterceptRule

def sourceAllowed (r : InterceptRule) (srcIp : IpAddr) : Bool :=
  match r.allowedSources with
  | none => true
  | some cidrs => cidrs.any (·.contains srcIp)

/-- All of a rule but its address. -/
def admits (r : InterceptRule) (dstPort : UInt16) (proto : Protocol) (srcIp : IpAddr) : Bool :=
  r.protocol == proto.asStr && decide (r.lowPort ≤ dstPort) && decide (dstPort ≤ r.highPort) &&
    r.sourceAllowed srcIp

end InterceptRule

def InterceptEntry.matches (e : InterceptEntry) (dstIp : IpAddr) (dstPort : UInt16)
    (proto : Protocol) (srcIp : IpAddr) : Bool :=
  e.cidr.contains dstIp && e.admits dstPort proto srcIp

/-- `str::strip_suffix`. -/
def stripSuffix (s suffix : Text) : Option Text :=
  if suffix <:+ s then some (s.take (s.length - suffix.length)) else none

/-- The domain itself or one above it, cut at a dot. -/
def WildcardEntry.suffixMatches (w : WildcardEntry) (domain : Text) : Bool :=
  w.suffix == domain || ((stripSuffix domain w.suffix).bind fun head => stripSuffix head ['.']).isSome

def WildcardEntry.claims (w : WildcardEntry) (domain : Text) (dstPort : UInt16) (proto : Protocol)
    (srcIp : IpAddr) : Bool :=
  w.suffixMatches domain && w.admits dstPort proto srcIp

structure InterceptMatch where
  service : Text
  dialTimeout : Nat
  deriving DecidableEq

structure RouteDelta where
  removed : List IpNet
  added : List IpNet

structure AppliedEvent where
  routes : RouteDelta
  killActive : Bool

def AppliedEvent.default : AppliedEvent := ⟨⟨[], []⟩, false⟩

def literalAddrs (cfg : InterceptV1Config) : List IpNet := cfg.addresses.filterMap parseIpOrCidr

structure InterceptResolver (V : Type) where
  entries : List InterceptEntry
  wildcards : List WildcardEntry
  dns : DnsMatcher
  installedConfigs : Std.ExtTreeMap Text V

/-- One rule for each protocol and port range of a configuration. -/
def rules (service : Text) (cfg : InterceptV1Config) : List InterceptRule :=
  cfg.protocols.flatMap fun proto => cfg.portRanges.map fun range =>
    ⟨range.low, range.high, proto, service, dialTimeoutFor cfg,
      buildAllowedSources cfg.allowedSourceAddresses⟩

namespace InterceptResolver

variable {V : Type} [DecidableEq V] (fromValue : V → Except String InterceptV1Config)

def new : InterceptResolver V := ⟨[], [], .new, ∅⟩

def removeService (r : InterceptResolver V) (name : Text) :
    List IpNet × InterceptResolver V :=
  let removed := match r.installedConfigs[name]? with
    | none => []
    | some raw =>
      match fromValue raw with
      | .ok cfg => literalAddrs cfg
      | .error _ => []
  (removed,
    { entries := r.entries.filter (·.service ≠ name)
      wildcards := r.wildcards.filter (·.service ≠ name)
      installedConfigs := r.installedConfigs.erase name
      dns := r.dns.deregisterIntercept name })

/-- Entries for one address: a wildcard's domain, a network, or a name with its synthetic address;
names that get none are passed over. -/
def installAddress (service : Text) (rs : List InterceptRule) (r : InterceptResolver V)
    (addr : Text) : InterceptResolver V :=
  if addr.take 2 = ['*', '.'] then
    let dns := (r.dns.register addr service).2
    match DnsMatcher.wildcardSuffix addr with
    | none => { r with dns := dns }
    | some suffix =>
      { r with dns := dns, wildcards := r.wildcards ++ rs.map fun rule => ⟨rule, suffix⟩ }
  else
    match parseIpOrCidr addr with
    | some cidr => { r with entries := r.entries ++ rs.map fun rule => ⟨rule, cidr⟩ }
    | none =>
      match r.dns.register addr service with
      | (.hostname ip, dns) =>
        { r with dns := dns, entries := r.entries ++ rs.map fun rule => ⟨rule, .v4 (.host ip)⟩ }
      | (_, dns) => { r with dns := dns }

/-- A service without the Dial permission is removed, one without a readable configuration or with
the installed one is left as it is, any other is removed and installed anew. -/
def addService (r : InterceptResolver V) (svc : Service V) : AppliedEvent × InterceptResolver V :=
  let hadInstalled := r.installedConfigs.contains svc.name
  if ¬ svc.permissions.any (· == "Dial".toList) then
    let (removed, r) := r.removeService fromValue svc.name
    (⟨⟨removed, []⟩, hadInstalled⟩, r)
  else match svc.interceptV1 with
    | none => (.default, r)
    | some raw =>
      match fromValue raw with
      | .error _ => (.default, r)
      | .ok cfg =>
        if r.installedConfigs[svc.name]? = some raw then (.default, r)
        else
          let (removed, r) := r.removeService fromValue svc.name
          let r := { r with installedConfigs := r.installedConfigs.insert svc.name raw }
          (⟨⟨removed, literalAddrs cfg⟩, hadInstalled⟩,
            cfg.addresses.foldl (installAddress svc.name (rules svc.name cfg)) r)

def applyEvent (r : InterceptResolver V) : ServiceEvent V → AppliedEvent × InterceptResolver V
  | .added svc => r.addService fromValue svc
  | .changed svc => r.addService fromValue svc
  | .removed svc =>
    let (removed, r) := r.removeService fromValue svc.name
    (⟨⟨removed, []⟩, true⟩, r)

/-- The first literal entry that matches, else the first wildcard that claims the domain the
address was handed out under. -/
def lookup (r : InterceptResolver V) (dstIp : IpAddr) (dstPort : UInt16) (proto : Protocol)
    (srcIp : IpAddr) : Option InterceptMatch :=
  match r.entries.find? (·.matches dstIp dstPort proto srcIp) with
  | some e => some ⟨e.service, e.dialTimeout⟩
  | none =>
    match dstIp with
    | .v6 _ => none
    | .v4 ip =>
      match r.dns.reverseLookupDomain ip with
      | none => none
      | some domain =>
        (r.wildcards.find? (·.claims domain dstPort proto srcIp)).map fun w =>
          ⟨w.service, w.dialTimeout⟩

/-- The service a query under the domain is resolved through. -/
def proxyService (r : InterceptResolver V) (domain : Text) : Option InterceptMatch :=
  (r.wildcards.find? (·.suffix == domain)).map fun w => ⟨w.service, w.dialTimeout⟩

end InterceptResolver

end Noa.Tunnel.Intercept
