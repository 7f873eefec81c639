import Noa.Channel.Message

namespace Noa.Edge
open Noa.Framework Noa.Channel

def ctConnect : Int32 := 60783
def ctStateConnected : Int32 := 60784
def ctStateClosed : Int32 := 60785
def ctData : Int32 := 60786
def ctDial : Int32 := 60787
def ctDialSuccess : Int32 := 60788
def ctDialFailed : Int32 := 60789
def ctBind : Int32 := 60790
def ctConnInspectRequest : Int32 := 60798
def ctUpdateTokenSuccess : Int32 := 60801
def ctUpdateTokenFailure : Int32 := 60802
def ctUpdateToken : Int32 := 60803

def hdrConnId : Int32 := 1000
def hdrPublicKey : Int32 := 1003
def hdrCallerId : Int32 := 1008
def hdrCryptoMethod : Int32 := 1009
def hdrFlags : Int32 := 1010
def hdrAppData : Int32 := 1011
def hdrRouterProvidedConnId : Int32 := 1012
def hdrListenerId : Int32 := 1021
def hdrSupportsInspect : Int32 := 1023
def hdrSupportsBindSuccess : Int32 := 1024
def hdrConnectionMarker : Int32 := 1025
def hdrCircuitId : Int32 := 1026
def hdrUseXgressToSdk : Int32 := 1028

def flagFin : UInt32 := 1
def flagMultipart : UInt32 := 4

def cryptoMethodLibsodium : UInt8 := 0

/-- The failures of the edge layer. A reason taken from a frame body is kept as the bytes
received; the source renders them with `from_utf8_lossy`. -/
inductive EdgeError where
  | channel (e : ChannelError)
  | dialRejected (reason : Bytes)
  | bindRejected (reason : Bytes)
  | acceptStartFailed (reason : String)
  | listenerClosed
  | channelClosed
  | writeAfterClose
  | crypto (reason : String)
  | unsupportedCrypto
  | updateTokenFailed (reason : Bytes)
  deriving DecidableEq

/-- `str::as_bytes`. -/
def strBytes (s : String) : Bytes := s.toList.flatMap String.utf8EncodeChar

/-- A header read as `u32`: present and exactly four bytes long. -/
def headerU32 (msg : Message) (key : Int32) : Option UInt32 :=
  (msg.headers[key]?.filter fun v => v.length == 4).map u32FromLe

/-- A header read as `i32`, under the same width rule. -/
def headerI32 (msg : Message) (key : Int32) : Option Int32 :=
  (msg.headers[key]?.filter fun v => v.length == 4).map i32FromLe

/-- The message with one header set, as every builder below sets them. -/
def withHeader (msg : Message) (key : Int32) (value : Bytes) : Message :=
  { msg with headers := msg.headers.insert key value }

def buildConnect (connId : UInt32) (token marker : String) (pubkey : Option Bytes)
    (callerId : Option String) (appData : Option Bytes) : Message :=
  let msg := Message.new ctConnect (strBytes token)
  let msg := withHeader msg hdrConnId (u32ToLe connId)
  let msg := withHeader msg hdrConnectionMarker (strBytes marker)
  let msg := withHeader msg hdrUseXgressToSdk [0]
  let msg := match pubkey with
    | some pk => withHeader (withHeader msg hdrPublicKey pk) hdrCryptoMethod [cryptoMethodLibsodium]
    | none => msg
  let msg := match callerId with
    | some name => if name = "" then msg else withHeader msg hdrCallerId (strBytes name)
    | none => msg
  match appData with
  | some bytes => withHeader msg hdrAppData bytes
  | none => msg

/-- A `Data` frame; the first one of a connection advertises multipart support. -/
def buildData (connId : UInt32) (data : Bytes) (first : Bool) : Message :=
  let msg := withHeader (Message.new ctData data) hdrConnId (u32ToLe connId)
  if first then withHeader msg hdrFlags (u32ToLe flagMultipart) else msg

def buildStateClosed (connId : UInt32) : Message :=
  withHeader (Message.new ctStateClosed []) hdrConnId (u32ToLe connId)

def buildBind (connId : UInt32) (token listenerId : String) (pubkey : Option Bytes) : Message :=
  let msg := Message.new ctBind (strBytes token)
  let msg := withHeader msg hdrConnId (u32ToLe connId)
  let msg := withHeader msg hdrSupportsInspect [1]
  let msg := withHeader msg hdrSupportsBindSuccess [1]
  let msg := withHeader msg hdrUseXgressToSdk [0]
  let msg := withHeader msg hdrRouterProvidedConnId [1]
  let msg := withHeader msg hdrListenerId (strBytes listenerId)
  match pubkey with
  | some pk => withHeader (withHeader msg hdrPublicKey pk) hdrCryptoMethod [cryptoMethodLibsodium]
  | none => msg

def buildDialSuccess (bindConnId childConnId : UInt32) : Message :=
  withHeader (Message.new ctDialSuccess (u32ToLe childConnId)) hdrConnId (u32ToLe bindConnId)

def buildDialFailed (connId : UInt32) (reason : String) : Message :=
  withHeader (Message.new ctDialFailed (strBytes reason)) hdrConnId (u32ToLe connId)

def buildUpdateToken (token : Bytes) : Message := Message.new ctUpdateToken token

def buildLatencyProbe (nowNanos : UInt64) : Message :=
  withHeader (Message.new ctLatency []) hdrProbeTime (leBytes 8 nowNanos.toNat)

/-- `StateConnected` accepts the dial, `StateClosed` rejects it with the body as the reason. -/
def classifyDialReply (reply : Message) : Except EdgeError Message :=
  if reply.contentType = ctStateConnected then .ok reply
  else if reply.contentType = ctStateClosed then .error (.dialRejected reply.body)
  else .error (.channel (.unexpectedContentType reply.contentType))

def classifyBindReply (reply : Message) : Except EdgeError Unit :=
  if reply.contentType = ctStateConnected then .ok ()
  else if reply.contentType = ctStateClosed then .error (.bindRejected reply.body)
  else .error (.channel (.unexpectedContentType reply.contentType))

def classifyUpdateTokenReply (reply : Message) : Except EdgeError Unit :=
  if reply.contentType = ctUpdateTokenSuccess then .ok ()
  else if reply.contentType = ctUpdateTokenFailure then .error (.updateTokenFailed reply.body)
  else .error (.updateTokenFailed (strBytes
    s!"invalid content type {reply.contentType.toInt}, expected one of [60801, 60802]"))

/-- What a connection id is registered as, in the order the responder asks. -/
inductive ConnType where
  | invalid
  | dial
  | bind
  deriving DecidableEq, Repr

end Noa.Edge
