import Noa.Framework.Json
import Noa.Tunnel.Resolve.Allowed

namespace Noa.Tunnel.Resolve
open Noa.Framework

structure PortRange where
  low : UInt16
  high : UInt16

/-- The part of a `host.v1` configuration that says where a dial may go. -/
structure HostV1Config where
  protocol : Text
  forwardProtocol : Bool
  allowedProtocols : List Text
  address : Text
  forwardAddress : Bool
  allowedAddresses : List Text
  port : UInt16
  forwardPort : Bool
  allowedPortRanges : List PortRange

/-- A parsed JSON value; `other` is everything that is neither an object nor a string. -/
inductive JsonValue where
  | object (fields : List (Text × JsonValue))
  | string (s : Text)
  | other

/-- The `appData` of a dial: its string-valued fields. -/
abbrev Options := Std.ExtTreeMap Text Text

def keyProtocol : Text := "dst_protocol".toList
def keyHostname : Text := "dst_hostname".toList
def keyIp : Text := "dst_ip".toList
def keyPort : Text := "dst_port".toList
def keySourceAddr : Text := "source_addr".toList

structure SocketAddr where
  ip : IpAddr
  port : UInt16
  deriving DecidableEq

structure ResolvedTarget where
  protocol : Text
  address : Text
  port : UInt16
  sourceBind : Option SocketAddr
  deriving DecidableEq

/-- The options of a request; `fromSlice` is the JSON parser, whose failure carries its text. -/
def parseAppData (fromSlice : List UInt8 → Except String JsonValue)
    (appData : Option (List UInt8)) : Except String Options :=
  match appData.filter (· ≠ []) with
  | none => .ok ∅
  | some bytes =>
    match fromSlice bytes with
    | .error e => .error s!"invalid appData: {e}"
    | .ok (.object fields) => .ok <| fields.foldl (fun options field =>
        match field.2 with
        | .string s => options.insert field.1 s
        | _ => options) ∅
    | .ok _ => .error "invalid appData: not a JSON object"

def getValue (options : Options) (key : Text) : Except String Text :=
  match options[key]? with
  | some value => .ok value
  | none => .error s!"{String.ofList key} required but not provided"

def getProtocol (cfg : HostV1Config) (options : Options) : Except String Text :=
  if ¬ cfg.forwardProtocol then .ok cfg.protocol
  else do
    let protocol ← getValue options keyProtocol
    if cfg.allowedProtocols.any (· == protocol) then .ok protocol
    else .error s!"protocol '{String.ofList protocol}' is not in allowed protocols"

/-- A name is matched as a name and never falls back to the address. -/
def getAddress (m : CaseMap) (cfg : HostV1Config) (options : Options) : Except String Text :=
  if ¬ cfg.forwardAddress then .ok cfg.address
  else
    let allowed := parseAllowedAddresses m cfg.allowedAddresses
    match options[keyHostname]? with
    | some hostname =>
      if allowed.any (·.allows m (.str hostname)) then .ok hostname
      else .error s!"address '{String.ofList hostname}' is not in allowed addresses"
    | none => do
      let address ← getValue options keyIp
      if (IpAddr.fromStr address).any fun ip => allowed.any (·.allows m (.ip ip)) then .ok address
      else .error s!"address '{String.ofList address}' is not in allowed addresses"

def getPort (cfg : HostV1Config) (options : Options) : Except String UInt16 :=
  if ¬ cfg.forwardPort then .ok cfg.port
  else do
    let portStr ← getValue options keyPort
    match parseUnsigned (2 ^ 16) portStr with
    | none => .error s!"invalid destination port {String.ofList portStr}"
    | some n =>
      let port := UInt16.ofNat n
      if cfg.allowedPortRanges.any fun r => decide (r.low ≤ port) && decide (port ≤ r.high) then
        .ok port
      else .error s!"port {port} is not in allowed port ranges"

/-- An address with a port, or an address alone; more than one colon is no port. -/
def parseSourceBind (s : Text) : Except String SocketAddr := do
  let (ipStr, port) ← match s.splitOn ':' with
    | [ip, port] =>
      match parseUnsigned (2 ^ 16) port with
      | none => .error s!"failed to parse port '{String.ofList port}'"
      | some n => .ok (ip, UInt16.ofNat n)
    | _ => .ok (s, 0)
  match IpAddr.fromStr ipStr with
  | none => .error s!"invalid source_addr IP '{String.ofList ipStr}'"
  | some ip => .ok ⟨ip, port⟩

def getSourceBind (options : Options) : Except String (Option SocketAddr) :=
  match options[keySourceAddr]?.filter (· ≠ []) with
  | none => .ok none
  | some s => (parseSourceBind s).map some

def resolveTarget (fromSlice : List UInt8 → Except String JsonValue) (m : CaseMap)
    (cfg : HostV1Config) (appData : Option (List UInt8)) : Except String ResolvedTarget := do
  let options ← parseAppData fromSlice appData
  let protocol ← getProtocol cfg options
  let address ← getAddress m cfg options
  let port ← getPort cfg options
  let sourceBind ← getSourceBind options
  return ⟨protocol, address, port, sourceBind⟩

/-- What each part of a target has to satisfy. -/
def ProtocolGate (cfg : HostV1Config) (options : Options) (protocol : Text) : Prop :=
  cfg.forwardProtocol = false ∧ protocol = cfg.protocol ∨
    cfg.forwardProtocol = true ∧ options[keyProtocol]? = some protocol ∧
      protocol ∈ cfg.allowedProtocols

def AddressGate (m : CaseMap) (cfg : HostV1Config) (options : Options) (address : Text) : Prop :=
  cfg.forwardAddress = false ∧ address = cfg.address ∨
    cfg.forwardAddress = true ∧
      (options[keyHostname]? = some address ∧ (∃ e ∈ cfg.allowedAddresses, NamesHost m e address) ∨
        options[keyHostname]? = none ∧ options[keyIp]? = some address ∧
          ∃ ip, IpAddr.fromStr address = some ip ∧
            ∃ e ∈ cfg.allowedAddresses, ∃ net, parseIpOrCidr e = some net ∧ net.contains ip = true)

def PortGate (cfg : HostV1Config) (options : Options) (port : UInt16) : Prop :=
  cfg.forwardPort = false ∧ port = cfg.port ∨
    cfg.forwardPort = true ∧
      (∃ text n, options[keyPort]? = some text ∧ parseUnsigned (2 ^ 16) text = some n ∧
        port = UInt16.ofNat n) ∧
      ∃ r ∈ cfg.allowedPortRanges, r.low ≤ port ∧ port ≤ r.high

/-- A configuration with nothing changed but entries added to the allow-lists, repeated in them or
moved about. -/
structure HostV1Config.Extends (cfg' cfg : HostV1Config) : Prop where
  protocol : cfg'.protocol = cfg.protocol ∧ cfg'.forwardProtocol = cfg.forwardProtocol
  address : cfg'.address = cfg.address ∧ cfg'.forwardAddress = cfg.forwardAddress
  port : cfg'.port = cfg.port ∧ cfg'.forwardPort = cfg.forwardPort
  protocols : cfg.allowedProtocols ⊆ cfg'.allowedProtocols
  addresses : cfg.allowedAddresses ⊆ cfg'.allowedAddresses
  ports : cfg.allowedPortRanges ⊆ cfg'.allowedPortRanges

section Gates

variable {m : CaseMap} {cfg cfg' : HostV1Config} {options : Options}

theorem getValue_eq_ok {key value : Text} :
    getValue options key = .ok value ↔ options[key]? = some value := by
  unfold getValue
  cases options[key]? <;> simp

/-- Some entry of the list that is not dropped allows the value. -/
def Admits (m : CaseMap) (entries : List Text) (value : MatchValue) : Prop :=
  ∃ e ∈ entries, ∃ a, makeAllowedAddress m e = some a ∧ a.allows m value = true

theorem admits_iff {entries : List Text} {value : MatchValue} :
    (parseAllowedAddresses m entries).any (·.allows m value) = true ↔ Admits m entries value := by
  simp only [parseAllowedAddresses, List.any_eq_true, List.mem_filterMap, Admits]
  constructor
  · rintro ⟨a, ⟨e, he, ha⟩, h⟩
    exact ⟨e, he, a, ha, h⟩
  · rintro ⟨e, he, a, ha, h⟩
    exact ⟨a, ⟨e, he, ha⟩, h⟩

theorem Admits.mono {entries entries' : List Text} {value : MatchValue}
    (h : Admits m entries value) (hsub : entries ⊆ entries') : Admits m entries' value := by
  obtain ⟨e, he, ha⟩ := h
  exact ⟨e, hsub he, ha⟩

theorem ite_eq_ok {c : Prop} [Decidable c] {α : Type} {a b : α} {e : String} :
    (if c then Except.ok a else Except.error e) = Except.ok b ↔ c ∧ a = b := by
  split_ifs with h <;> simp [h]

theorem getProtocol_eq_ok {protocol : Text} :
    getProtocol cfg options = .ok protocol ↔ ProtocolGate cfg options protocol := by
  unfold getProtocol ProtocolGate
  cases cfg.forwardProtocol with
  | false => simp [eq_comm]
  | true =>
    simp only [not_true, if_false, except_bind_eq_ok, getValue_eq_ok, ite_eq_ok, List.any_eq_true,
      beq_iff_eq, Bool.true_eq_false, false_and, false_or, true_and]
    constructor
    · rintro ⟨p, hp, ⟨q, hq, rfl⟩, rfl⟩
      exact ⟨hp, hq⟩
    · rintro ⟨hp, hmem⟩
      exact ⟨protocol, hp, ⟨protocol, hmem, rfl⟩, rfl⟩

/-- Which addresses pass, in terms of the entries as they are parsed. -/
theorem getAddress_eq_ok {address : Text} : getAddress m cfg options = .ok address ↔
    cfg.forwardAddress = false ∧ address = cfg.address ∨
    cfg.forwardAddress = true ∧
      (options[keyHostname]? = some address ∧ Admits m cfg.allowedAddresses (.str address) ∨
        options[keyHostname]? = none ∧ options[keyIp]? = some address ∧
          ∃ ip, IpAddr.fromStr address = some ip ∧ Admits m cfg.allowedAddresses (.ip ip)) := by
  unfold getAddress
  cases cfg.forwardAddress with
  | false => simp [eq_comm]
  | true =>
    simp only [not_true, if_false, Bool.true_eq_false, false_and, false_or, true_and]
    cases options[keyHostname]? with
    | some hostname =>
      simp only [ite_eq_ok, admits_iff, Option.some.injEq, reduceCtorEq, false_and, or_false]
      constructor
      · rintro ⟨h, rfl⟩
        exact ⟨rfl, h⟩
      · rintro ⟨rfl, h⟩
        exact ⟨h, rfl⟩
    | none =>
      simp only [except_bind_eq_ok, getValue_eq_ok, ite_eq_ok, Option.any_eq_true, admits_iff,
        reduceCtorEq, false_and, false_or, true_and]
      constructor
      · rintro ⟨a, ha, hip, rfl⟩
        exact ⟨ha, hip⟩
      · rintro ⟨ha, hip⟩
        exact ⟨address, ha, hip, rfl⟩

theorem getPort_eq_ok {port : UInt16} :
    getPort cfg options = .ok port ↔ PortGate cfg options port := by
  unfold getPort PortGate
  cases cfg.forwardPort with
  | false => simp [eq_comm]
  | true =>
    simp only [not_true, if_false, except_bind_eq_ok, getValue_eq_ok, Bool.true_eq_false,
      false_and, false_or, true_and]
    constructor
    · rintro ⟨text, htext, h⟩
      cases hn : parseUnsigned (2 ^ 16) text with
      | none =>
        rw [hn] at h
        cases h
      | some n =>
        rw [hn] at h
        obtain ⟨hr, rfl⟩ := ite_eq_ok.mp h
        refine ⟨⟨text, n, htext, hn, rfl⟩, ?_⟩
        simpa using hr
    · rintro ⟨⟨text, n, htext, hn, rfl⟩, hr⟩
      refine ⟨text, htext, ?_⟩
      rw [hn]
      exact ite_eq_ok.mpr ⟨by simpa using hr, rfl⟩

theorem addressGate_of_getAddress {address : Text} (h : getAddress m cfg options = .ok address) :
    AddressGate m cfg options address := by
  rcases getAddress_eq_ok.mp h with hfixed | ⟨hfwd, hname | ⟨hno, hdst, ip, hip, hnet⟩⟩
  · exact .inl hfixed
  · obtain ⟨hdst, e, he, a, ha, hallows⟩ := hname
    exact .inr ⟨hfwd, .inl ⟨hdst, e, he, namesHost_of_allows ha hallows⟩⟩
  · obtain ⟨e, he, a, ha, hallows⟩ := hnet
    exact .inr ⟨hfwd, .inr ⟨hno, hdst, ip, hip, e, he, network_of_allows ha hallows⟩⟩

/-! More entries never close a gate, and what passes it is the request's own. -/

theorem getProtocol_mono (hext : cfg'.Extends cfg) {protocol : Text}
    (h : getProtocol cfg options = .ok protocol) : getProtocol cfg' options = .ok protocol := by
  rw [getProtocol_eq_ok] at h ⊢
  obtain ⟨hfixed, hfwd⟩ := hext.protocol
  unfold ProtocolGate at h ⊢
  rw [hfixed, hfwd]
  exact h.imp_right fun ⟨hf, hdst, hmem⟩ => ⟨hf, hdst, hext.protocols hmem⟩

theorem getAddress_mono (hext : cfg'.Extends cfg) {address : Text}
    (h : getAddress m cfg options = .ok address) : getAddress m cfg' options = .ok address := by
  rw [getAddress_eq_ok] at h ⊢
  obtain ⟨hfixed, hfwd⟩ := hext.address
  rw [hfixed, hfwd]
  refine h.imp_right fun ⟨hf, hgate⟩ => ⟨hf, ?_⟩
  rcases hgate with ⟨hdst, hname⟩ | ⟨hno, hdst, ip, hip, hnet⟩
  · exact .inl ⟨hdst, hname.mono hext.addresses⟩
  · exact .inr ⟨hno, hdst, ip, hip, hnet.mono hext.addresses⟩

theorem getPort_mono (hext : cfg'.Extends cfg) {port : UInt16}
    (h : getPort cfg options = .ok port) : getPort cfg' options = .ok port := by
  rw [getPort_eq_ok] at h ⊢
  obtain ⟨hfixed, hfwd⟩ := hext.port
  unfold PortGate at h ⊢
  rw [hfixed, hfwd]
  exact h.imp_right fun ⟨hf, hdst, r, hr, hin⟩ => ⟨hf, hdst, r, hext.ports hr, hin⟩

end Gates

theorem resolveTarget_eq_ok {fromSlice : List UInt8 → Except String JsonValue} {m : CaseMap}
    {cfg : HostV1Config} {appData : Option (List UInt8)} {t : ResolvedTarget} :
    resolveTarget fromSlice m cfg appData = .ok t ↔
      ∃ options, parseAppData fromSlice appData = .ok options ∧
        getProtocol cfg options = .ok t.protocol ∧ getAddress m cfg options = .ok t.address ∧
        getPort cfg options = .ok t.port ∧ getSourceBind options = .ok t.sourceBind := by
  simp only [resolveTarget, except_bind_eq_ok, pure, Except.pure, Except.ok.injEq]
  constructor
  · rintro ⟨options, ho, p, hp, a, ha, port, hport, b, hb, rfl⟩
    exact ⟨options, ho, hp, ha, hport, hb⟩
  · rintro ⟨options, ho, hp, ha, hport, hb⟩
    exact ⟨options, ho, _, hp, _, ha, _, hport, _, hb, rfl⟩

/-- A target has passed all three gates, and passes them unchanged whatever entries are added to the
allow-lists, repeated or moved. -/
theorem resolveTarget_gated {fromSlice : List UInt8 → Except String JsonValue} {m : CaseMap}
    {cfg : HostV1Config} {appData : Option (List UInt8)} {t : ResolvedTarget}
    (h : resolveTarget fromSlice m cfg appData = .ok t) :
    (∃ options, parseAppData fromSlice appData = .ok options ∧
      ProtocolGate cfg options t.protocol ∧ AddressGate m cfg options t.address ∧
      PortGate cfg options t.port) ∧
    ∀ cfg', cfg'.Extends cfg → resolveTarget fromSlice m cfg' appData = .ok t := by
  obtain ⟨options, ho, hp, ha, hport, hb⟩ := resolveTarget_eq_ok.mp h
  refine ⟨⟨options, ho, getProtocol_eq_ok.mp hp, addressGate_of_getAddress ha,
    getPort_eq_ok.mp hport⟩, fun cfg' hext => ?_⟩
  exact resolveTarget_eq_ok.mpr ⟨options, ho, getProtocol_mono hext hp, getAddress_mono hext ha,
    getPort_mono hext hport, hb⟩

/-- A service that forwards to any host under one domain, and to one network. -/
def forwardingConfig : HostV1Config where
  protocol := []
  forwardProtocol := true
  allowedProtocols := ["tcp".toList]
  address := []
  forwardAddress := true
  allowedAddresses := ["*.Example.com".toList, "10.0.0.0/8".toList]
  port := 0
  forwardPort := true
  allowedPortRanges := [⟨80, 443⟩]

/-- The grammar's decoder as the parser. -/
def jsonFromSlice (bytes : List UInt8) : Except String JsonValue :=
  match (decodeUtf8 bytes).bind Json.parse with
  | some (.obj members) => .ok (.object (members.map fun f =>
      (f.1, match f.2 with
        | .str s => .string s
        | _ => .other)))
  | some (.str s) => .ok (.string s)
  | some _ => .ok .other
  | none => .error "not a JSON text"

/-- What a dial to a host of that domain says. -/
def dialedHost : List UInt8 :=
  utf8 ("\x7b\"dst_protocol\":\"tcp\",\"dst_hostname\":\"www.example.com\"," ++
    "\"dst_ip\":\"192.168.0.1\",\"dst_port\":\"443\"\x7d").toList

/-- It goes on where more is allowed. -/
theorem resolveTarget_gated_host :
    resolveTarget jsonFromSlice .ascii forwardingConfig (some dialedHost) =
      .ok ⟨"tcp".toList, "www.example.com".toList, 443, none⟩ ∧
    (∃ options, parseAppData jsonFromSlice (some dialedHost) = .ok options ∧
      AddressGate .ascii forwardingConfig options "www.example.com".toList) ∧
    resolveTarget jsonFromSlice .ascii
      { forwardingConfig with allowedPortRanges := [⟨80, 443⟩, ⟨22, 22⟩] } (some dialedHost) =
      .ok ⟨"tcp".toList, "www.example.com".toList, 443, none⟩ := by
  have hok : resolveTarget jsonFromSlice .ascii forwardingConfig (some dialedHost) =
      .ok ⟨"tcp".toList, "www.example.com".toList, 443, none⟩ := by
    decide +kernel
  obtain ⟨⟨options, ho, -, ha, -⟩, hmono⟩ := resolveTarget_gated hok
  refine ⟨hok, ⟨options, ho, ha⟩, hmono _ ⟨⟨rfl, rfl⟩, ⟨rfl, rfl⟩, ⟨rfl, rfl⟩, ?_, ?_, ?_⟩⟩
  · exact List.Subset.refl _
  · exact List.Subset.refl _
  · exact List.cons_subset_cons _ (List.nil_subset _)

end Noa.Tunnel.Resolve
