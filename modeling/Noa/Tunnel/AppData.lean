import Noa.Edge.Data.Accept
import Noa.Framework.JsonWrite
import Noa.Framework.Map
import Noa.Tunnel.Resolve.Cidr
import Noa.Tunnel.Resolve.Target
import Noa.Tunnel.Resolve.Translate

namespace Noa.Tunnel
open Noa.Framework Noa.Channel Noa.Edge Noa.Edge.Data Noa.Tunnel.Resolve

/-! What an intercepted flow tells the host about its destination, and what the host makes of it. -/

/-- The map of `build_app_data`; a name or a source that is empty is left out. -/
def appOptions (protocol dstIp dstPort : Text) (dstHostname sourceAddr : Option Text) : Options :=
  let map := (∅ : Options).insert keyProtocol protocol
  let map := match dstHostname.filter (· ≠ []) with
    | some h => map.insert keyHostname h
    | none => map
  let map := map.insert keyIp dstIp
  let map := map.insert keyPort dstPort
  match sourceAddr.filter (· ≠ []) with
  | some s => map.insert keySourceAddr s
  | none => map

def buildAppData (protocol dstIp dstPort : Text) (dstHostname sourceAddr : Option Text) : Bytes :=
  utf8 (Json.writeObject (appOptions protocol dstIp dstPort dstHostname sourceAddr).toList)

/-- `u16::to_string`. -/
def portText (port : UInt16) : Text := (toString port.toNat).toList

/-- The `AppData` of an intercepted flow; `print` is how addresses are written. -/
def interceptAppdata (print : IpAddr → Text) (protocol : Text) (dst : SocketAddr)
    (dstHostname : Option Text) : Bytes :=
  buildAppData protocol (print dst.ip) (portText dst.port) (dstHostname.filter (· ≠ [])) none

def interceptTcpAppdata (print : IpAddr → Text) (dst : SocketAddr) (dstHostname : Option Text) : Bytes :=
  interceptAppdata print "tcp".toList dst dstHostname

def interceptUdpAppdata (print : IpAddr → Text) (dst : SocketAddr) (dstHostname : Option Text) : Bytes :=
  interceptAppdata print "udp".toList dst dstHostname

/-- How `handle_host_forward_conn` goes on with an accepted dial. -/
inductive HostDial where
  | failed (reason : String)
  | dial (target : Text) (source : Option SocketAddr)

def handleHostForwardConn (fromSlice : List UInt8 → Except String JsonValue) (m : CaseMap)
    (print : IpAddr → Text) (cfg : HostV1Config) (translations : List AddressTranslationPrefix)
    (appData : Option Bytes) : HostDial :=
  match resolveTarget fromSlice m cfg appData with
  | .error reason => .failed reason
  | .ok target =>
    if target.protocol ≠ "tcp".toList then
      .failed s!"host appData forwarding: protocol '{String.ofList target.protocol}' requires the UDP host path; this forwarding host dials TCP only"
    else .dial (translateAddress print target.address translations ++ ':' :: portText target.port)
      target.sourceBind

/-- The parser reads an object of strings, its keys in order, as what the text says. -/
def ReadsObjects (fromSlice : List UInt8 → Except String JsonValue) : Prop :=
  ∀ t members, Json.IsText t (Json.ofStrings members) →
    members.Pairwise (fun a b => compare a.1 b.1 = .lt) →
    fromSlice (utf8 t) = .ok (.object (members.map fun f => (f.1, .string f.2)))

/-! Written and read back. -/

section RoundTrip

variable {fromSlice : List UInt8 → Except String JsonValue}

theorem utf8_writeObject_ne_nil (members : List (Text × Text)) : utf8 (Json.writeObject members) ≠ [] := by
  rw [Ne, utf8_eq_nil]
  cases members <;> simp [Json.writeObject]

/-- The options a host reads are those the dialer has put in, whatever characters they have. -/
theorem parseAppData_build (hread : ReadsObjects fromSlice) (protocol dstIp dstPort : Text)
    (dstHostname sourceAddr : Option Text) :
    parseAppData fromSlice (some (buildAppData protocol dstIp dstPort dstHostname sourceAddr)) =
      .ok (appOptions protocol dstIp dstPort dstHostname sourceAddr) := by
  generalize hopts : appOptions protocol dstIp dstPort dstHostname sourceAddr = options
  have hne : utf8 (Json.writeObject options.toList) ≠ [] := utf8_writeObject_ne_nil _
  have hslice := hread _ options.toList (Json.isText_writeObject options.toList)
    Std.ExtTreeMap.ordered_keys_toList
  unfold buildAppData parseAppData
  rw [hopts, Option.filter_some, if_pos (decide_eq_true hne)]
  dsimp only
  rw [hslice]
  dsimp only
  rw [List.foldl_map]
  exact congrArg Except.ok (foldl_insert_toList options)

theorem decimalFrom_toDigits (n : Nat) : decimalFrom 0 (Nat.toDigits 10 n) = n := by
  have hsame (s : Text) (acc : Nat) : decimalFrom acc s = Nat.ofDigitChars 10 s acc := by
    induction s generalizing acc with
    | nil => rfl
    | cons c s ih =>
      rw [Nat.ofDigitChars_cons, ← ih, Nat.mul_comm 10 acc]
      rfl
  rw [hsame]
  exact Nat.ofDigitChars_ten_toDigits

theorem parseUnsigned_portText (port : UInt16) :
    parseUnsigned (2 ^ 16) (portText port) = some port.toNat := by
  have hdec := Json.isDecimal_toDigits port.toNat
  have htext : portText port = Nat.toDigits 10 port.toNat := by
    rw [portText, Nat.toString_eq_ofList_toDigits, String.toList_ofList]
  have hparse : parseDigits (2 ^ 16) 0 (Nat.toDigits 10 port.toNat) = some port.toNat := by
    rw [parseDigits_eq_some (by decide)]
    exact ⟨hdec.2.1, (decimalFrom_toDigits _).symm, port.toNat_lt⟩
  rw [htext]
  generalize Nat.toDigits 10 port.toNat = digits at hdec hparse
  cases digits with
  | nil => exact absurd rfl hdec.1
  | cons c cs =>
    rw [parseUnsigned_cons, hparse]
    rintro rfl
    exact absurd (hdec.2.1 '+' List.mem_cons_self) (by decide)

theorem lookup_appOptions (protocol dstIp dstPort : Text) (dstHostname : Option Text) :
    let options := appOptions protocol dstIp dstPort dstHostname none
    options[keyProtocol]? = some protocol ∧ options[keyHostname]? = dstHostname.filter (· ≠ []) ∧
      options[keyIp]? = some dstIp ∧ options[keyPort]? = some dstPort ∧
      options[keySourceAddr]? = none := by
  have hkeys : keyProtocol ≠ keyHostname ∧ keyProtocol ≠ keyIp ∧ keyProtocol ≠ keyPort ∧
      keyProtocol ≠ keySourceAddr ∧ keyHostname ≠ keyIp ∧ keyHostname ≠ keyPort ∧
      keyHostname ≠ keySourceAddr ∧ keyIp ≠ keyPort ∧ keyIp ≠ keySourceAddr ∧
      keyPort ≠ keySourceAddr := by decide
  obtain ⟨h1, h2, h3, h4, h5, h6, h7, h8, h9, h10⟩ := hkeys
  dsimp only [appOptions, Option.filter_none]
  cases dstHostname.filter (· ≠ []) with
  | none =>
    simp only [lookup_insert, h1, h2.symm, h3.symm, h4, h5.symm, h6.symm, h8.symm, h9, h10, if_true,
      if_false, Std.ExtTreeMap.getElem?_empty, and_self]
  | some h =>
    simp only [lookup_insert, h1.symm, h2.symm, h3.symm, h4, h5.symm, h6.symm, h7, h8.symm, h9, h10,
      if_true, if_false, Std.ExtTreeMap.getElem?_empty, and_self]

end RoundTrip

/-- The destination of a flow as a service forwards it. A part that is not forwarded is the service's
own; one that is has to be allowed. -/
structure ForwardsAs (m : CaseMap) (print : IpAddr → Text) (cfg : HostV1Config) (proto : Text)
    (dst : SocketAddr) (dstHostname : Option Text) (t : ResolvedTarget) : Prop where
  protocol : t.protocol = if cfg.forwardProtocol then proto else cfg.protocol
  protocolAllowed : cfg.forwardProtocol = true → proto ∈ cfg.allowedProtocols
  address : t.address = if cfg.forwardAddress then
    (dstHostname.filter (· ≠ [])).getD (print dst.ip) else cfg.address
  addressAllowed : cfg.forwardAddress = true → Admits m cfg.allowedAddresses
    (((dstHostname.filter (· ≠ [])).map MatchValue.str).getD (.ip dst.ip))
  port : t.port = if cfg.forwardPort then dst.port else cfg.port
  portAllowed : cfg.forwardPort = true →
    ∃ r ∈ cfg.allowedPortRanges, r.low ≤ dst.port ∧ dst.port ≤ r.high
  sourceBind : t.sourceBind = none

section Forwarding

variable {fromSlice : List UInt8 → Except String JsonValue} {m : CaseMap} {print : IpAddr → Text}
  {cfg : HostV1Config} {protocol : Text} {dst : SocketAddr} {dstHostname : Option Text}

theorem getProtocol_of_lookup {options : Options} (h : options[keyProtocol]? = some protocol)
    {p : Text} : getProtocol cfg options = .ok p ↔
      p = (if cfg.forwardProtocol then protocol else cfg.protocol) ∧
        (cfg.forwardProtocol = true → protocol ∈ cfg.allowedProtocols) := by
  rw [getProtocol_eq_ok, ProtocolGate, h]
  cases cfg.forwardProtocol with
  | false => simp
  | true =>
    simp only [Bool.true_eq_false, false_and, false_or, true_and, if_true, Option.some.injEq,
      forall_const]
    constructor
    · rintro ⟨rfl, hmem⟩
      exact ⟨rfl, hmem⟩
    · rintro ⟨rfl, hmem⟩
      exact ⟨rfl, hmem⟩

theorem getAddress_of_lookup (hprint : ∀ ip, IpAddr.fromStr (print ip) = some ip) {options : Options}
    {name : Option Text} (hname : options[keyHostname]? = name)
    (hip : options[keyIp]? = some (print dst.ip)) {address : Text} :
    getAddress m cfg options = .ok address ↔
      address = (if cfg.forwardAddress then name.getD (print dst.ip) else cfg.address) ∧
        (cfg.forwardAddress = true →
          Admits m cfg.allowedAddresses ((name.map MatchValue.str).getD (.ip dst.ip))) := by
  rw [getAddress_eq_ok, hname, hip]
  cases cfg.forwardAddress with
  | false => simp
  | true =>
    cases name with
    | none =>
      simp only [Bool.true_eq_false, false_and, false_or, true_and, if_true, Option.some.injEq,
        reduceCtorEq, Option.getD_none, Option.map_none, forall_const]
      constructor
      · rintro ⟨rfl, ip, hparse, hadmits⟩
        cases (hprint dst.ip).symm.trans hparse
        exact ⟨rfl, hadmits⟩
      · rintro ⟨rfl, hadmits⟩
        exact ⟨rfl, dst.ip, hprint dst.ip, hadmits⟩
    | some h =>
      simp only [Bool.true_eq_false, false_and, false_or, true_and, if_true, Option.some.injEq,
        reduceCtorEq, Option.getD_some, Option.map_some, forall_const, or_false]
      constructor
      · rintro ⟨rfl, hadmits⟩
        exact ⟨rfl, hadmits⟩
      · rintro ⟨rfl, hadmits⟩
        exact ⟨rfl, hadmits⟩

theorem getPort_of_lookup {options : Options} {port : UInt16}
    (h : options[keyPort]? = some (portText port)) {p : UInt16} : getPort cfg options = .ok p ↔
      p = (if cfg.forwardPort then port else cfg.port) ∧
        (cfg.forwardPort = true → ∃ r ∈ cfg.allowedPortRanges, r.low ≤ port ∧ port ≤ r.high) := by
  rw [getPort_eq_ok, PortGate, h]
  cases cfg.forwardPort with
  | false => simp
  | true =>
    simp only [Bool.true_eq_false, false_and, false_or, true_and, if_true, Option.some.injEq,
      forall_const]
    constructor
    · rintro ⟨⟨text, n, rfl, hn, rfl⟩, hr⟩
      cases (parseUnsigned_portText port).symm.trans hn
      rw [UInt16.ofNat_toNat] at hr ⊢
      exact ⟨rfl, hr⟩
    · rintro ⟨rfl, hr⟩
      exact ⟨⟨_, _, rfl, parseUnsigned_portText p, UInt16.ofNat_toNat.symm⟩, hr⟩

theorem resolveTarget_intercepted (hread : ReadsObjects fromSlice)
    (hprint : ∀ ip, IpAddr.fromStr (print ip) = some ip) {t : ResolvedTarget} :
    resolveTarget fromSlice m cfg (some (interceptAppdata print protocol dst dstHostname)) = .ok t ↔
      ForwardsAs m print cfg protocol dst dstHostname t := by
  obtain ⟨hproto, hname, hip, hport, hsource⟩ := lookup_appOptions protocol (print dst.ip)
    (portText dst.port) (dstHostname.filter (· ≠ []))
  simp only [Option.filter_filter, Bool.and_self] at hname
  have hbind : getSourceBind (appOptions protocol (print dst.ip) (portText dst.port)
      (dstHostname.filter (· ≠ [])) none) = .ok none := by
    rw [getSourceBind, hsource]
    rfl
  rw [resolveTarget_eq_ok, interceptAppdata, parseAppData_build hread]
  simp only [Except.ok.injEq, exists_eq_left', getProtocol_of_lookup hproto,
    getAddress_of_lookup hprint hname hip, getPort_of_lookup hport, hbind]
  constructor
  · rintro ⟨⟨hp, hpa⟩, ⟨ha, haa⟩, ⟨ho, hoa⟩, hs⟩
    exact ⟨hp, hpa, ha, haa, ho, hoa, hs.symm⟩
  · rintro ⟨hp, hpa, ha, haa, ho, hoa, hs⟩
    exact ⟨⟨hp, hpa⟩, ⟨ha, haa⟩, ⟨ho, hoa⟩, hs.symm⟩

theorem handleHostForwardConn_eq_dial {translations : List AddressTranslationPrefix}
    {appData : Option Bytes} {target : Text} {source : Option SocketAddr} :
    handleHostForwardConn fromSlice m print cfg translations appData = .dial target source ↔
      ∃ t, resolveTarget fromSlice m cfg appData = .ok t ∧ t.protocol = "tcp".toList ∧
        target = translateAddress print t.address translations ++ ':' :: portText t.port ∧
        source = t.sourceBind := by
  unfold handleHostForwardConn
  cases resolveTarget fromSlice m cfg appData with
  | error reason => simp
  | ok t =>
    by_cases hp : t.protocol = "tcp".toList
    · simp only [hp, ne_eq, not_true, if_false, HostDial.dial.injEq, Except.ok.injEq, exists_eq_left',
        true_and]
      constructor <;>
      · rintro ⟨rfl, rfl⟩
        exact ⟨rfl, rfl⟩
    · simp only [hp, ne_eq, not_false_eq_true, if_true, reduceCtorEq, Except.ok.injEq, exists_eq_left',
        false_and]

theorem appData_of_accepted {C : Crypto} {l : Listener C} {st : ChannelState} {msg : Message}
    {e : C.Entropy} {p : PendingAccept C} (h : (acceptMsg l st msg e).1 = .accepted p) :
    p.appData = msg.headers[hdrAppData]? := by
  unfold acceptMsg at h
  split_ifs at h
  unfold admitDial at h
  split at h
  · cases h
  · dsimp only at h
    split at h
    · cases h
    · cases h
      rfl

theorem appData_buildConnect (connId : UInt32) (token marker : String) (pubkey : Option Bytes)
    (callerId : Option String) (appData : Bytes) :
    (buildConnect connId token marker pubkey callerId (some appData)).headers[hdrAppData]? =
      some appData := by
  simp [buildConnect, withHeader]

/-- A flow that was intercepted on its way to `dst` is dialed by the host of its service, as the header
the routers hand on says: to the very name or address and port, where the service forwards them, and
only if it allows them. A UDP flow whose protocol is forwarded is not dialed. -/
theorem intercepted_flow_dialed {C : Crypto} (hread : ReadsObjects fromSlice)
    (hprint : ∀ ip, IpAddr.fromStr (print ip) = some ip) {l : Listener C} {st : ChannelState}
    {dial : Message} {e : C.Entropy} {p : PendingAccept C}
    (haccept : (acceptMsg l st dial e).1 = .accepted p) {connId : UInt32} {token marker : String}
    {pubkey : Option Bytes} {callerId : Option String} {udp : Bool}
    (hrelay : dial.headers[hdrAppData]? = (buildConnect connId token marker pubkey callerId
      (some (if udp then interceptUdpAppdata print dst dstHostname
        else interceptTcpAppdata print dst dstHostname))).headers[hdrAppData]?)
    (translations : List AddressTranslationPrefix) :
    (∀ target source,
      handleHostForwardConn fromSlice m print cfg translations p.appData = .dial target source ↔
        ∃ t, ForwardsAs m print cfg (if udp then "udp".toList else "tcp".toList) dst dstHostname t ∧
          t.protocol = "tcp".toList ∧ source = none ∧
          target = translateAddress print t.address translations ++ ':' :: portText t.port) ∧
    (udp = true → cfg.forwardProtocol = true →
      ∃ reason, handleHostForwardConn fromSlice m print cfg translations p.appData =
        .failed reason) := by
  have happ : p.appData = some (interceptAppdata print (if udp then "udp".toList else "tcp".toList)
      dst dstHostname) := by
    rw [appData_of_accepted haccept, hrelay, appData_buildConnect]
    cases udp <;> rfl
  have hdial (target : Text) (source : Option SocketAddr) :
      handleHostForwardConn fromSlice m print cfg translations p.appData = .dial target source ↔
        ∃ t, ForwardsAs m print cfg (if udp then "udp".toList else "tcp".toList) dst dstHostname t ∧
          t.protocol = "tcp".toList ∧ source = none ∧
          target = translateAddress print t.address translations ++ ':' :: portText t.port := by
    rw [happ, handleHostForwardConn_eq_dial]
    simp only [resolveTarget_intercepted hread hprint]
    constructor
    · rintro ⟨t, ht, hp, rfl, rfl⟩
      exact ⟨t, ht, hp, ht.sourceBind, rfl⟩
    · rintro ⟨t, ht, hp, rfl, rfl⟩
      exact ⟨t, ht, hp, rfl, ht.sourceBind.symm⟩
  refine ⟨hdial, fun hudp hfwd => ?_⟩
  cases hstep : handleHostForwardConn fromSlice m print cfg translations p.appData with
  | failed reason => exact ⟨reason, rfl⟩
  | dial target source =>
    obtain ⟨t, ht, hp, -⟩ := (hdial target source).mp hstep
    have hproto := ht.protocol
    rw [hp, hudp, hfwd, if_pos rfl, if_pos rfl] at hproto
    exact absurd hproto (by decide)

end Forwarding

theorem jsonFromSlice_reads : ReadsObjects jsonFromSlice := by
  intro t members htext _
  unfold jsonFromSlice
  rw [decodeUtf8_eq_some.mpr rfl, Option.bind_some, Json.parse_of_isText htext]
  simp [Json.ofStrings]

/-- A dial that carries what a flow to a name said. -/
def dialOfHost : Message :=
  withHeader (Message.new ctDial (strBytes "token")) hdrAppData
    (interceptTcpAppdata IpAddr.print ⟨.v4 0x64400002, 443⟩ (some "www.example.com".toList))

theorem intercepted_flow_dialed_host : ∃ p : PendingAccept padCrypto,
    (acceptMsg ⟨7, "token", none⟩ .new dialOfHost ()).1 = .accepted p ∧
    handleHostForwardConn jsonFromSlice .ascii IpAddr.print forwardingConfig [] p.appData =
      .dial "www.example.com:443".toList none := by
  have hdial (p : PendingAccept padCrypto)
      (haccept : (acceptMsg ⟨7, "token", none⟩ .new dialOfHost ()).1 = .accepted p) :
      handleHostForwardConn jsonFromSlice .ascii IpAddr.print forwardingConfig [] p.appData =
        .dial "www.example.com:443".toList none := by
    have hrelay : dialOfHost.headers[hdrAppData]? = (buildConnect 1 "t" "m" none none
        (some (if false then interceptUdpAppdata IpAddr.print ⟨.v4 0x64400002, 443⟩
            (some "www.example.com".toList)
          else interceptTcpAppdata IpAddr.print ⟨.v4 0x64400002, 443⟩
            (some "www.example.com".toList)))).headers[hdrAppData]? := by
      rw [appData_buildConnect]
      simp [dialOfHost, withHeader]
    refine ((intercepted_flow_dialed jsonFromSlice_reads IpAddr.fromStr_print haccept hrelay []).1
      _ _).mpr ⟨⟨"tcp".toList, "www.example.com".toList, 443, none⟩, ?_, rfl, rfl, rfl⟩
    exact ⟨rfl, fun _ => by decide, rfl, fun _ => admits_iff.mp (by decide +kernel), rfl,
      fun _ => ⟨_, List.mem_cons_self, by decide⟩, rfl⟩
  exact ⟨_, rfl, hdial _ rfl⟩

end Noa.Tunnel
