import Noa.Framework.IpPrint
import Noa.Framework.Utf8
import Noa.Tunnel.Intercept.Lookup
import Noa.Tunnel.Intercept.DnsServer.Size
import Noa.Tunnel.Intercept.ProxyResolve.Manager

namespace Noa.Tunnel.Intercept
open Noa.Framework Noa.Channel

def dnsNotImpl : UInt8 := 4
def dnsRefuse : UInt8 := 5

def dnsATtl : Int64 := 60

/-! The types of queries, as they are on the wire. -/

namespace QType

def a : UInt16 := 1
def mx : UInt16 := 15
def txt : UInt16 := 16
def aaaa : UInt16 := 28
def srv : UInt16 := 33

end QType

/-- A response with no record, or with the one A record of a local name. -/
def formatResp (packet : Bytes) (nameStrlen : Nat) (status : UInt8) (aAnswer : Option (BitVec 32))
    (recursionAvailable : Bool) : Bytes :=
  match aAnswer with
  | some ip =>
    let answer : RespAnswer := ⟨nsTA, dnsATtl, 0, 0, 0, IpAddr.print (.v4 ip)⟩
    formatRespAnswers packet nameStrlen status (some [answer]) ip recursionAvailable
  | none => formatRespAnswers packet nameStrlen status none 0 recursionAvailable

namespace ProxyResolve

def hexDigit (n : UInt8) : UInt8 := if n < 10 then 0x30 + n else 0x57 + n

/-- A byte as the writer of the messages escapes it. -/
def escapeByte (b : UInt8) : Bytes :=
  if b = 0x0a then Edge.strBytes "\\n"
  else if b = 0x08 then Edge.strBytes "\\b"
  else if b = 0x0d then Edge.strBytes "\\r"
  else if b = 0x09 then Edge.strBytes "\\t"
  else if b = 0x5c then Edge.strBytes "\\\\"
  else if b = 0x22 then Edge.strBytes "\\\""
  else if b < 0x20 then Edge.strBytes "\\u00" ++ [hexDigit (b >>> 4), hexDigit (b &&& 0x0f)]
  else [b]

def escapeJsonC (s : Bytes) : Bytes := s.flatMap escapeByte

/-- The request to the hosting resolver, with the name as it was asked for. -/
def emitDnsMessageJson (id : UInt16) (recursive : Bool) (name : Bytes) (qtype : UInt16) : Bytes :=
  Edge.strBytes "\x7b\"status\":0,\"id\":" ++ Edge.strBytes (toString id.toNat) ++
    Edge.strBytes ",\"recursive\":" ++ [if recursive then 0x31 else 0x30] ++
    Edge.strBytes ",\"question\":[\x7b\"name\":\"" ++ escapeJsonC name ++
    Edge.strBytes "\",\"type\":" ++ Edge.strBytes (toString qtype.toNat) ++ Edge.strBytes "\x7d]\x7d"

end ProxyResolve

inductive DnsAction where
  | respond (response : Bytes)
  | drop
  | forwardUpstream (onSendFailure : Bytes)
  | forwardProxy (query : ProxyResolve.ProxyQuery)
  | respondAndConnectProxy (response : Bytes) (domain : Text)

namespace DnsMatcher

/-- The domain a name is, or is under. Too long a name is looked for as the empty one. -/
def matchedDomain (d : DnsMatcher) (query : Text) : Option Text :=
  findDomain (((checkName query).map Prod.fst).getD []) d.domains

/-- `lookup` of a name that may not be a text. -/
def lookupName (d : DnsMatcher) : Option Text → Option DnsMatch × DnsMatcher
  | some name => d.lookup name
  | none => (none, d)

end DnsMatcher

/-- The types that are resolved over the overlay. -/
def isProxied (qtype : UInt16) : Bool := qtype == QType.mx || qtype == QType.srv || qtype == QType.txt

/-- The name that is looked for: the bytes up to the first zero byte, if they are UTF-8. -/
def ParsedQuery.matched (q : ParsedQuery) : Option Text := decodeUtf8 (q.name.take q.nameStrlen)

/-- A query of another type than A and AAAA, under a domain. -/
def proxyQuery (packet : Bytes) (q : ParsedQuery) (domain : Text)
    (upstreamAvailable proxyAvailable : Bool) : DnsAction :=
  if proxyAvailable then
    if isProxied q.qtype then
      let id := u16FromBe (packet.getD 0 0) (packet.getD 1 0)
      .forwardProxy ⟨domain, id, q.nameStrlen,
        ProxyResolve.emitDnsMessageJson id q.recursive (q.name.take q.nameStrlen) q.qtype⟩
    else
      .respondAndConnectProxy (formatResp packet q.nameStrlen dnsNotImpl none upstreamAvailable) domain
  else
    let status := if isProxied q.qtype then dnsServfail else dnsNotImpl
    .respond (formatResp packet q.nameStrlen status none upstreamAvailable)

/-- What is done with a name that is not answered here. -/
def missQuery (packet : Bytes) (q : ParsedQuery) (upstreamAvailable : Bool) : DnsAction :=
  if upstreamAvailable && q.recursive then
    .forwardUpstream (formatResp packet q.nameStrlen dnsRefuse none true)
  else .respond (formatResp packet q.nameStrlen dnsRefuse none upstreamAvailable)

/-- One datagram to the resolver. The parser never fails but with a plain `None`. -/
def handleQuery (d : DnsMatcher) (packet : Bytes) (upstreamAvailable proxyAvailable : Bool) :
    DnsAction × DnsMatcher :=
  match parseQuery packet with
  | .error _ => (.drop, d)
  | .ok q =>
    if q.qtype = QType.a ∨ q.qtype = QType.aaaa then
      match d.lookupName q.matched with
      | (some m, d) =>
        let aAnswer := if q.qtype = QType.a then some m.ip else none
        (.respond (formatResp packet q.nameStrlen dnsNoError aAnswer upstreamAvailable), d)
      | (none, d) => (missQuery packet q upstreamAvailable, d)
    else
      match q.matched.bind d.matchedDomain with
      | some domain => (proxyQuery packet q domain upstreamAvailable proxyAvailable, d)
      | none => (missQuery packet q upstreamAvailable, d)

section Branches

variable {packet : Bytes} {q : ParsedQuery} (d : DnsMatcher) (up px : Bool)

/-- What a name that was looked up is answered with. -/
def hostReply (packet : Bytes) (q : ParsedQuery) (up : Bool) : Option DnsMatch → DnsAction
  | some m => .respond (formatResp packet q.nameStrlen dnsNoError
      (if q.qtype = QType.a then some m.ip else none) up)
  | none => missQuery packet q up

/-- What a query of another type is answered with. -/
def domainReply (packet : Bytes) (q : ParsedQuery) (up px : Bool) : Option Text → DnsAction
  | some domain => proxyQuery packet q domain up px
  | none => missQuery packet q up

theorem handleQuery_drop (h : ∀ q, parseQuery packet ≠ .ok q) :
    handleQuery d packet up px = (.drop, d) := by
  unfold handleQuery
  cases hp : parseQuery packet with
  | ok q => exact absurd hp (h q)
  | error e => rfl

theorem handleQuery_host (hq : parseQuery packet = .ok q)
    (hhost : q.qtype = QType.a ∨ q.qtype = QType.aaaa) :
    handleQuery d packet up px =
      (hostReply packet q up (d.lookupName q.matched).1, (d.lookupName q.matched).2) := by
  simp only [handleQuery, hq, if_pos hhost]
  rcases d.lookupName q.matched with ⟨_ | m, d'⟩ <;> rfl

theorem handleQuery_other (hq : parseQuery packet = .ok q)
    (hother : ¬ (q.qtype = QType.a ∨ q.qtype = QType.aaaa)) :
    handleQuery d packet up px =
      (domainReply packet q up px (q.matched.bind d.matchedDomain), d) := by
  simp only [handleQuery, hq, if_neg hother]
  cases q.matched.bind d.matchedDomain <;> rfl

end Branches

end Noa.Tunnel.Intercept
