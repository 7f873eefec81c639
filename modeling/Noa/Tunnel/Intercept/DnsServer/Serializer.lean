import Noa.Channel.Message
import Noa.Framework.Text

namespace Noa.Tunnel.Intercept
open Noa.Framework Noa.Channel

def dnsNoError : UInt8 := 0
def dnsServfail : UInt8 := 2

def nsTA : Int64 := 1
def nsTMx : Int64 := 15
def nsTTxt : Int64 := 16
def nsTSrv : Int64 := 33

def dnsHeaderLen : Nat := 12
def dnsBuf : Nat := 4096

/-- The EDNS0 record that ends every response with room for it. -/
def dnsOpt : Bytes := [0x00, 0x00, 0x29, 0x10, 0x00, 0x00, 0x00, 0x00, 0x00, 0x00, 0x00]

structure RespAnswer where
  atype : Int64
  ttl : Int64
  priority : Int64
  weight : Int64
  port : Int64
  data : Text
  deriving DecidableEq

/-- `u16::to_be_bytes`. -/
def u16ToBe (w : UInt16) : Bytes := (leBytes 2 w.toNat).reverse

/-- `u32::to_be_bytes`. -/
def u32ToBe (w : UInt32) : Bytes := (leBytes 4 w.toNat).reverse

/-- The labels of a dotted name with their length bytes, up to the first empty one. A length is cut
to a byte, and so are the bytes copied, but the whole label is passed over. -/
def formatLabels : List Bytes → Bytes
  | [] => []
  | label :: rest =>
    let len := UInt8.ofNat label.length
    if len = 0 then [0]
    else len :: label.take len.toNat ++ if rest = [] then [0] else formatLabels rest

def formatName (name : Bytes) : Bytes := formatLabels (name.splitOn 0x2e)

/-- The bytes of a text up to its first zero byte. -/
def cStr (data : Text) : Bytes := (data.flatMap String.utf8EncodeChar).takeWhile (· ≠ 0)

/-- The rest of a record that ends in a name: its length is filled in once the name is written. -/
def nameRecord (hold fields data : Bytes) (room : Nat) : Except Bytes Bytes :=
  let est := UInt16.ofNat data.length + 1
  if dnsBuf - hold.length < room + est.toNat then .error (hold ++ [0, 0])
  else
    let body := fields ++ formatName data
    .ok (hold ++ u16ToBe (UInt16.ofNat body.length) ++ body)

/-- The response with one more record; an error is a truncated one. -/
def writeAnswer (addr : BitVec 32) (resp : Bytes) (a : RespAnswer) : Except Bytes Bytes :=
  if dnsBuf - resp.length < 10 then .error resp
  else
    let resp := resp ++ [0xc0, 0x0c] ++ u16ToBe a.atype.toUInt64.toUInt16 ++ u16ToBe 1 ++
      u32ToBe a.ttl.toUInt64.toUInt32
    let data := cStr a.data
    if a.atype = nsTA then
      if dnsBuf - resp.length < 2 + 4 then .error resp
      else .ok (resp ++ u16ToBe 4 ++ u32ToBe (UInt32.ofBitVec addr))
    else if a.atype = nsTTxt then
      let txtlen := UInt16.ofNat data.length
      if dnsBuf - resp.length < 3 + txtlen.toNat then .error resp
      else .ok (resp ++ u16ToBe (txtlen + 1) ++ [txtlen.toUInt8] ++ data.take txtlen.toNat)
    else if a.atype = nsTMx then
      nameRecord resp (u16ToBe a.priority.toUInt64.toUInt16) data 4
    else if a.atype = nsTSrv then
      nameRecord resp (u16ToBe a.priority.toUInt64.toUInt16 ++ u16ToBe a.weight.toUInt64.toUInt16 ++
        u16ToBe a.port.toUInt64.toUInt16) data 8
    else .ok resp

/-- The records, with their count and whether one was truncated; that one counts. -/
def writeAnswers (addr : BitVec 32) : List RespAnswer → Bytes → UInt16 → Bytes × UInt16 × Bool
  | [], resp, count => (resp, count, false)
  | a :: rest, resp, count =>
    match writeAnswer addr resp a with
    | .ok resp => writeAnswers addr rest resp (count + 1)
    | .error resp => (resp, count + 1, true)

/-- Overwrite the bytes from an index on. -/
def copyAt (resp : Bytes) (i : Nat) (bs : Bytes) : Bytes :=
  resp.take i ++ bs ++ resp.drop (i + bs.length)

/-- The request's header with the response bits, and its question, zero past the packet's end. -/
def echoRequest (packet : Bytes) (nameStrlen : Nat) (status : UInt8) (recursionAvailable : Bool) :
    Bytes :=
  let header := (List.range dnsHeaderLen).map fun i => packet.getD i 0
  let header := (header.modify 2 (· ||| 0x80)).modify 3 (· ||| (status &&& 0x0f))
  let header := if recursionAvailable then header.modify 3 (· ||| 0x80) else header
  header ++ (List.range' dnsHeaderLen (nameStrlen + 2 + 4)).map fun i => packet.getD i 0

def formatRespAnswers (packet : Bytes) (nameStrlen : Nat) (status : UInt8)
    (answers : Option (List RespAnswer)) (addr : BitVec 32) (recursionAvailable : Bool) : Bytes :=
  let resp := echoRequest packet nameStrlen status recursionAvailable
  let resp := match answers with
    | none => resp
    | some answers =>
      if status ≠ dnsNoError then resp
      else
        let (resp, count, truncated) := writeAnswers addr answers resp 0
        let resp := if truncated then resp.modify 2 (· ||| 0x02) else resp
        copyAt resp 6 (u16ToBe count)
  let resp := copyAt resp 10 (u16ToBe 1)
  if dnsBuf - resp.length > 11 then resp ++ dnsOpt else resp

section Echo

variable {addr : BitVec 32} {resp : Bytes}

theorem nameRecord_appends (hold fields data : Bytes) (room : Nat) :
    match nameRecord hold fields data room with
    | .ok r => hold <+: r
    | .error r => hold <+: r := by
  unfold nameRecord
  dsimp only
  split_ifs
  · exact List.prefix_append _ _
  · simp only [List.append_assoc]
    exact List.prefix_append _ _

theorem writeAnswer_appends (addr : BitVec 32) (resp : Bytes) (a : RespAnswer) :
    match writeAnswer addr resp a with
    | .ok r => resp <+: r
    | .error r => resp <+: r := by
  have hname (fixed fields data : Bytes) (room : Nat) :
      match nameRecord (resp ++ fixed) fields data room with
      | .ok r => resp <+: r
      | .error r => resp <+: r := by
    have h := nameRecord_appends (resp ++ fixed) fields data room
    split at h <;> exact (List.prefix_append resp fixed).trans h
  unfold writeAnswer
  simp only [List.append_assoc]
  split_ifs
  · exact List.prefix_refl _
  all_goals first | exact List.prefix_append _ _ | exact hname _ _ _ _

theorem writeAnswers_appends (addr : BitVec 32) (answers : List RespAnswer) (resp : Bytes)
    (count : UInt16) : resp <+: (writeAnswers addr answers resp count).1 := by
  induction answers generalizing resp count with
  | nil => exact List.prefix_refl _
  | cons a rest ih =>
    have h := writeAnswer_appends addr resp a
    unfold writeAnswers
    split
    next r hr =>
      rw [hr] at h
      exact h.trans (ih r (count + 1))
    next r hr =>
      rw [hr] at h
      exact h

/-- A response with a whole header and the identifier of the request. -/
def Echoes (packet resp : Bytes) : Prop :=
  resp.take 2 = [packet.getD 0 0, packet.getD 1 0] ∧ dnsHeaderLen ≤ resp.length

theorem echoRequest_echoes (packet : Bytes) (nameStrlen : Nat) (status : UInt8) (ra : Bool) :
    Echoes packet (echoRequest packet nameStrlen status ra) := by
  cases ra <;> simp [Echoes, echoRequest, dnsHeaderLen, List.range_succ]

end Echo

end Noa.Tunnel.Intercept
