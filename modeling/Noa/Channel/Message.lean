import Mathlib
import Noa.Framework.LittleEndian
import Noa.Framework.Map

namespace Noa.Channel
open Noa.Framework

abbrev Bytes := List UInt8

/-- `BTreeMap<i32, Vec<u8>>`: iterated in key order, one value a key. -/
abbrev Headers := Std.ExtTreeMap Int32 Bytes

/-- The failure modes of the binary channel, with their message texts. -/
inductive ChannelError where
  | frame (reason : String)
  | io (reason : String)
  | handshakeRejected (reason : String)
  | unexpectedContentType (contentType : Int32)
  | addressParse (address : String)
  deriving DecidableEq, Repr

def magicV2 : Bytes := [0x03, 0x06, 0x09, 0x0c]
def magicUnknownVersion : Bytes := [0x03, 0x06, 0x09, 0x0a]

/-- Magic plus four 32-bit fields. -/
def dataSectionV2 : Nat := 20

/-- The defensive read cap. -/
def maxDataSection : UInt32 := 1048576

def ctLatency : Int32 := 3

def hdrReplyFor : Int32 := 1
def hdrProbeTime : Int32 := 128

@[ext] structure Message where
  contentType : Int32
  sequence : Int32
  headers : Headers
  body : Bytes
  deriving DecidableEq

/-- A fresh message has sequence -1 and no headers. -/
def Message.new (contentType : Int32) (body : Bytes) : Message :=
  ⟨contentType, -1, ∅, body⟩

/-- `u32::try_from(len).expect(..)`: a length that does not fit panics. -/
def u32TryFrom (len : Nat) : Option UInt32 :=
  if len < 2 ^ 32 then some (UInt32.ofNat len) else none

/-- One header as key, length and value. -/
def marshalHeader (h : Int32 × Bytes) : Option Bytes := do
  let len ← u32TryFrom h.2.length
  return i32ToLe h.1 ++ u32ToLe len ++ h.2

/-- The header section: the records of the map in key order. -/
def marshalHeaders (headers : Headers) : Option Bytes :=
  headers.toList.foldlM (fun hdr h => do return hdr ++ (← marshalHeader h)) []

/-- The V2 wire form; `none` where the source panics on an oversized length. -/
def Message.marshalV2 (m : Message) : Option Bytes := do
  let hdr ← marshalHeaders m.headers
  let hlen ← u32TryFrom hdr.length
  let blen ← u32TryFrom m.body.length
  return magicV2 ++ i32ToLe m.contentType ++ i32ToLe m.sequence ++
    u32ToLe hlen ++ u32ToLe blen ++ hdr ++ m.body

def slice (bs : Bytes) (start stop : Nat) : Bytes := (bs.drop start).take (stop - start)

/-- `u32::saturating_add`. -/
def saturatingAdd (a b : UInt32) : UInt32 :=
  if a.toNat + b.toNat < 2 ^ 32 then a + b else UInt32.ofNat (2 ^ 32 - 1)

def hexByte (b : UInt8) : String :=
  let digits := Nat.toDigits 16 b.toNat
  String.ofList (if digits.length < 2 then '0' :: digits else digits)

/-- The `{:02x?}` rendering of a byte slice. -/
def hexDebug (bs : Bytes) : String :=
  "[" ++ String.intercalate ", " (bs.map hexByte) ++ "]"

/-- Check the magic, read both lengths and apply the cap. -/
def frameLengths (sec : Bytes) : Except ChannelError (UInt32 × UInt32) :=
  if sec.length < dataSectionV2 then
    .error (.frame s!"short message section: {sec.length} < {dataSectionV2}")
  else if slice sec 0 4 = magicUnknownVersion then
    .error (.frame "router replied with unknown-version response (V2 not accepted)")
  else if slice sec 0 4 ≠ magicV2 then
    .error (.frame ("bad magic: " ++ hexDebug (slice sec 0 4)))
  else
    let headersLength := u32FromLe (slice sec 12 16)
    let bodyLength := u32FromLe (slice sec 16 20)
    if maxDataSection < saturatingAdd headersLength bodyLength then
      .error (.frame s!"message too large: headers={headersLength} body={bodyLength}")
    else .ok (headersLength, bodyLength)

/-- The TLV loop over the bytes still unread. A record takes at least eight bytes,
so a budget of the section's length never runs out. -/
def parseHeadersLoop : Nat → Bytes → Headers → Except ChannelError Headers
  | 0, _, out => .ok out
  | fuel + 1, data, out =>
    if data = [] then .ok out
    else if data.length < 8 then .error (.frame "truncated header meta-data")
    else
      let key := i32FromLe (slice data 0 4)
      let len := (u32FromLe (slice data 4 8)).toNat
      if data.length < 8 + len then .error (.frame "truncated header data")
      else parseHeadersLoop fuel (data.drop (8 + len)) (out.insert key (slice data 8 (8 + len)))

def parseHeaders (data : Bytes) : Except ChannelError Headers :=
  parseHeadersLoop data.length data ∅

/-- Parse one complete frame; bytes past its declared end are ignored. -/
def parseFrame (full : Bytes) : Except ChannelError Message := do
  let (hlen, blen) ← frameLengths full
  let total := dataSectionV2 + hlen.toNat + blen.toNat
  if full.length < total then
    throw (.frame s!"short frame: {full.length} < {total}")
  let contentType := i32FromLe (slice full 4 8)
  let sequence := i32FromLe (slice full 8 12)
  let headers ← parseHeaders (slice full dataSectionV2 (dataSectionV2 + hlen.toNat))
  let body := slice full (dataSectionV2 + hlen.toNat) total
  return ⟨contentType, sequence, headers, body⟩

/-- The record of one header when its length fits. -/
def headerRecord (h : Int32 × Bytes) : Bytes :=
  i32ToLe h.1 ++ u32ToLe (UInt32.ofNat h.2.length) ++ h.2

/-- The header section as the concatenation of the map's records. -/
def headerSection (headers : Headers) : Bytes := headers.toList.flatMap headerRecord

theorem headerRecord_length (h : Int32 × Bytes) : (headerRecord h).length = 8 + h.2.length := by
  simp only [headerRecord, List.length_append, i32ToLe_length, u32ToLe_length]

theorem slice_of_append {full a b c : Bytes} {i j : Nat} (h : full = a ++ (b ++ c))
    (hi : i = a.length) (hj : j = a.length + b.length) : slice full i j = b := by
  subst h hi hj
  simp [slice]

theorem u32TryFrom_of_lt {len : Nat} (h : len < 2 ^ 32) :
    u32TryFrom len = some (UInt32.ofNat len) := if_pos h

theorem marshalHeader_of_lt {h : Int32 × Bytes} (hl : h.2.length < 2 ^ 32) :
    marshalHeader h = some (headerRecord h) := by
  simp [marshalHeader, u32TryFrom_of_lt hl, headerRecord]

private theorem marshalRecords (hs : List (Int32 × Bytes)) (acc : Bytes)
    (hl : ∀ h ∈ hs, h.2.length < 2 ^ 32) :
    hs.foldlM (fun hdr h => do return hdr ++ (← marshalHeader h)) acc =
      some (acc ++ hs.flatMap headerRecord) := by
  induction hs generalizing acc with
  | nil => simp
  | cons h hs ih =>
    have hh := marshalHeader_of_lt (hl h (by simp))
    have ht := ih (acc ++ headerRecord h) (fun x hx => hl x (by simp [hx]))
    rw [List.foldlM_cons, hh]
    change hs.foldlM _ (acc ++ headerRecord h) = _
    rw [ht, List.flatMap_cons, List.append_assoc]

theorem length_le_of_mem_flatMap {hs : List (Int32 × Bytes)} {h : Int32 × Bytes} (hm : h ∈ hs) :
    h.2.length ≤ (hs.flatMap headerRecord).length := by
  induction hs with
  | nil => simp at hm
  | cons a hs ih =>
    simp only [List.flatMap_cons, List.length_append, headerRecord_length]
    rcases List.mem_cons.mp hm with rfl | hm
    · omega
    · have := ih hm
      omega

/-- No value is longer than the section, so a section that fits panics nowhere. -/
theorem marshalHeaders_eq (headers : Headers) (h : (headerSection headers).length < 2 ^ 32) :
    marshalHeaders headers = some (headerSection headers) := by
  have hv : ∀ x ∈ headers.toList, x.2.length < 2 ^ 32 := by
    intro x hx
    exact lt_of_le_of_lt (length_le_of_mem_flatMap hx) h
  simpa only [marshalHeaders, headerSection, List.nil_append] using
    marshalRecords headers.toList [] hv

/-- The five fixed fields in front of the header section. -/
def framePrefix (contentType sequence : Int32) (hlen blen : UInt32) : Bytes :=
  magicV2 ++ i32ToLe contentType ++ i32ToLe sequence ++ u32ToLe hlen ++ u32ToLe blen

@[simp] theorem framePrefix_length (ct sq : Int32) (hlen blen : UInt32) :
    (framePrefix ct sq hlen blen).length = 20 := by
  simp [framePrefix, magicV2]

def Message.frame (m : Message) : Bytes :=
  framePrefix m.contentType m.sequence (UInt32.ofNat (headerSection m.headers).length)
    (UInt32.ofNat m.body.length) ++ headerSection m.headers ++ m.body

/-- The combined length the cap is about. -/
def Message.dataLen (m : Message) : Nat := (headerSection m.headers).length + m.body.length

theorem Message.frame_length (m : Message) : m.frame.length = 20 + m.dataLen := by
  simp only [frame, dataLen, List.length_append, framePrefix_length]
  omega

theorem marshalV2_eq (m : Message) (hh : (headerSection m.headers).length < 2 ^ 32)
    (hb : m.body.length < 2 ^ 32) : m.marshalV2 = some m.frame := by
  simp [Message.marshalV2, marshalHeaders_eq m.headers hh, u32TryFrom_of_lt hh, u32TryFrom_of_lt hb,
    Message.frame, framePrefix]

private theorem framePrefix_fields (ct sq : Int32) (hlen blen : UInt32) (rest : Bytes) :
    let full := framePrefix ct sq hlen blen ++ rest
    slice full 0 4 = magicV2 ∧ slice full 4 8 = i32ToLe ct ∧ slice full 8 12 = i32ToLe sq ∧
      slice full 12 16 = u32ToLe hlen ∧ slice full 16 20 = u32ToLe blen := by
  refine ⟨slice_of_append (a := []) (c := i32ToLe ct ++ i32ToLe sq ++ u32ToLe hlen ++ u32ToLe blen ++ rest) ?_ ?_ ?_,
    slice_of_append (a := magicV2) (c := i32ToLe sq ++ u32ToLe hlen ++ u32ToLe blen ++ rest) ?_ ?_ ?_,
    slice_of_append (a := magicV2 ++ i32ToLe ct) (c := u32ToLe hlen ++ u32ToLe blen ++ rest) ?_ ?_ ?_,
    slice_of_append (a := magicV2 ++ i32ToLe ct ++ i32ToLe sq) (c := u32ToLe blen ++ rest) ?_ ?_ ?_,
    slice_of_append (a := magicV2 ++ i32ToLe ct ++ i32ToLe sq ++ u32ToLe hlen) (c := rest) ?_ ?_ ?_⟩
  all_goals simp [framePrefix, magicV2]

theorem frameLengths_framePrefix (ct sq : Int32) (hlen blen : UInt32) (rest : Bytes) :
    frameLengths (framePrefix ct sq hlen blen ++ rest) =
      if maxDataSection < saturatingAdd hlen blen then
        .error (.frame s!"message too large: headers={hlen} body={blen}")
      else .ok (hlen, blen) := by
  obtain ⟨hm, -, -, hh, hb⟩ := framePrefix_fields ct sq hlen blen rest
  have hlong : ¬ (framePrefix ct sq hlen blen ++ rest).length < dataSectionV2 := by
    simp [dataSectionV2]
  have hv : magicV2 ≠ magicUnknownVersion := by decide
  simp only [frameLengths, hlong, if_false, hm, hv, ne_eq, not_true_eq_false, hh, hb,
    u32FromLe_u32ToLe]

theorem saturatingAdd_le_cap (a b : UInt32) :
    ¬ maxDataSection < saturatingAdd a b ↔ a.toNat + b.toNat ≤ 2 ^ 20 := by
  have ha := a.toNat_lt
  have hb := b.toNat_lt
  have hcap : maxDataSection.toNat = 2 ^ 20 := by decide
  rw [UInt32.lt_iff_toNat_lt, hcap, saturatingAdd]
  split_ifs with h
  · rw [UInt32.toNat_add, Nat.mod_eq_of_lt h]
    omega
  · rw [UInt32.toNat_ofNat']
    omega

theorem parseHeadersLoop_record (fuel : Nat) (h : Int32 × Bytes) (rest : Bytes) (out : Headers)
    (hl : h.2.length < 2 ^ 32) :
    parseHeadersLoop (fuel + 1) (headerRecord h ++ rest) out =
      parseHeadersLoop fuel rest (out.insert h.1 h.2) := by
  have hlen : (headerRecord h ++ rest).length = 8 + h.2.length + rest.length := by
    rw [List.length_append, headerRecord_length]
  have hne : headerRecord h ++ rest ≠ [] := by
    intro he
    rw [he, List.length_nil] at hlen
    omega
  have hkey : slice (headerRecord h ++ rest) 0 4 = i32ToLe h.1 :=
    slice_of_append (a := []) (c := u32ToLe (UInt32.ofNat h.2.length) ++ h.2 ++ rest)
      (by simp [headerRecord]) rfl (by simp)
  have hsize : slice (headerRecord h ++ rest) 4 8 = u32ToLe (UInt32.ofNat h.2.length) :=
    slice_of_append (a := i32ToLe h.1) (c := h.2 ++ rest) (by simp [headerRecord]) (by simp)
      (by simp)
  have hval : slice (headerRecord h ++ rest) 8 (8 + h.2.length) = h.2 :=
    slice_of_append (a := i32ToLe h.1 ++ u32ToLe (UInt32.ofNat h.2.length)) (c := rest)
      (by simp [headerRecord]) (by simp) (by simp)
  have hnat : (UInt32.ofNat h.2.length).toNat = h.2.length := by
    rw [UInt32.toNat_ofNat', Nat.mod_eq_of_lt hl]
  have hdrop : (headerRecord h ++ rest).drop (8 + h.2.length) = rest := by
    rw [← headerRecord_length h, List.drop_left]
  have h8 : ¬ (headerRecord h ++ rest).length < 8 := by omega
  have h9 : ¬ (headerRecord h ++ rest).length < 8 + h.2.length := by omega
  simp only [parseHeadersLoop, hne, if_false, h8, hkey, hsize, u32FromLe_u32ToLe, hnat, h9, hval,
    hdrop, i32FromLe_i32ToLe]

/-- The loop inserts the records in order; one unit of budget a record is enough. -/
theorem parseHeadersLoop_records (hs : List (Int32 × Bytes)) (fuel : Nat) (out : Headers)
    (hf : hs.length ≤ fuel) (hl : ∀ h ∈ hs, h.2.length < 2 ^ 32) :
    parseHeadersLoop fuel (hs.flatMap headerRecord) out =
      .ok (hs.foldl (fun m h => m.insert h.1 h.2) out) := by
  induction hs generalizing fuel out with
  | nil => cases fuel <;> simp [parseHeadersLoop]
  | cons h hs ih =>
    cases fuel with
    | zero => simp at hf
    | succ fuel =>
      rw [List.flatMap_cons, parseHeadersLoop_record fuel h _ out (hl h (by simp)),
        ih fuel _ (by simpa using hf) (fun x hx => hl x (by simp [hx])), List.foldl_cons]

theorem length_le_flatMap (hs : List (Int32 × Bytes)) :
    hs.length ≤ (hs.flatMap headerRecord).length := by
  induction hs with
  | nil => simp
  | cons h hs ih =>
    simp only [List.flatMap_cons, List.length_append, List.length_cons, headerRecord_length]
    omega

theorem parseHeaders_headerSection (headers : Headers)
    (h : (headerSection headers).length < 2 ^ 32) :
    parseHeaders (headerSection headers) = .ok headers := by
  have hv : ∀ x ∈ headers.toList, x.2.length < 2 ^ 32 := by
    intro x hx
    exact lt_of_le_of_lt (length_le_of_mem_flatMap hx) h
  rw [parseHeaders, headerSection,
    parseHeadersLoop_records _ _ _ (length_le_flatMap _) hv, foldl_insert_toList]

theorem Message.frame_append (m : Message) (rest : Bytes) : m.frame ++ rest =
    framePrefix m.contentType m.sequence (UInt32.ofNat (headerSection m.headers).length)
      (UInt32.ofNat m.body.length) ++ (headerSection m.headers ++ (m.body ++ rest)) := by
  simp [Message.frame]

theorem parseFrame_frame (m : Message) (h : m.dataLen ≤ 2 ^ 20) (rest : Bytes) :
    parseFrame (m.frame ++ rest) = .ok m := by
  unfold Message.dataLen at h
  have hh : (UInt32.ofNat (headerSection m.headers).length).toNat = (headerSection m.headers).length := by
    rw [UInt32.toNat_ofNat', Nat.mod_eq_of_lt (by omega)]
  have hb : (UInt32.ofNat m.body.length).toNat = m.body.length := by
    rw [UInt32.toNat_ofNat', Nat.mod_eq_of_lt (by omega)]
  obtain ⟨-, hct, hsq, -, -⟩ := framePrefix_fields m.contentType m.sequence
    (UInt32.ofNat (headerSection m.headers).length) (UInt32.ofNat m.body.length)
    (headerSection m.headers ++ (m.body ++ rest))
  rw [← m.frame_append] at hct hsq
  have hcap : ¬ maxDataSection < saturatingAdd (UInt32.ofNat (headerSection m.headers).length)
      (UInt32.ofNat m.body.length) := by
    rw [saturatingAdd_le_cap, hh, hb]
    exact h
  have hlens : frameLengths (m.frame ++ rest) =
      .ok (UInt32.ofNat (headerSection m.headers).length, UInt32.ofNat m.body.length) := by
    rw [m.frame_append, frameLengths_framePrefix, if_neg hcap]
  have hsec : slice (m.frame ++ rest) dataSectionV2
      (dataSectionV2 + (headerSection m.headers).length) = headerSection m.headers :=
    slice_of_append (m.frame_append rest) (by simp [dataSectionV2]) (by simp [dataSectionV2])
  have hbody : slice (m.frame ++ rest) (dataSectionV2 + (headerSection m.headers).length)
      (dataSectionV2 + (headerSection m.headers).length + m.body.length) = m.body :=
    slice_of_append (a := framePrefix m.contentType m.sequence
        (UInt32.ofNat (headerSection m.headers).length) (UInt32.ofNat m.body.length) ++
        headerSection m.headers) (c := rest) (by simp [Message.frame])
      (by simp [dataSectionV2]) (by simp [dataSectionV2])
  have hlong : ¬ (m.frame ++ rest).length <
      dataSectionV2 + (headerSection m.headers).length + m.body.length := by
    rw [List.length_append, m.frame_length, Message.dataLen, dataSectionV2]
    omega
  have hparse := parseHeaders_headerSection m.headers (by omega)
  simp only [parseFrame, hlens, hh, hb, hsec, hbody, hct, hsq, hlong, hparse, i32FromLe_i32ToLe,
    bind, Except.bind, if_false, pure, Except.pure]

theorem parseFrame_oversized (m : Message) (hh : (headerSection m.headers).length < 2 ^ 32)
    (hb : m.body.length < 2 ^ 32) (h : 2 ^ 20 < m.dataLen) (rest : Bytes) :
    ∃ reason, parseFrame (m.frame ++ rest) = .error (.frame reason) := by
  unfold Message.dataLen at h
  have hcap : maxDataSection < saturatingAdd (UInt32.ofNat (headerSection m.headers).length)
      (UInt32.ofNat m.body.length) := by
    by_contra hc
    rw [saturatingAdd_le_cap, UInt32.toNat_ofNat', UInt32.toNat_ofNat', Nat.mod_eq_of_lt hh,
      Nat.mod_eq_of_lt hb] at hc
    omega
  rw [parseFrame, m.frame_append, frameLengths_framePrefix, if_pos hcap]
  exact ⟨_, rfl⟩

end Noa.Channel
