import Noa.Channel.Message
import Noa.Framework.Map

namespace Noa.Channel
open Noa.Framework

/-! Parsing with the bounds of every access checked. -/

/-- `&bs[start..stop]`, which panics out of range. -/
def index (bs : Bytes) (start stop : Nat) : Option Bytes :=
  if start ≤ stop ∧ stop ≤ bs.length then some (slice bs start stop) else none

def frameLengthsIn (sec : Bytes) : Option (Except ChannelError (UInt32 × UInt32)) :=
  if sec.length < dataSectionV2 then
    some (.error (.frame s!"short message section: {sec.length} < {dataSectionV2}"))
  else do
    let magic ← index sec 0 4
    if magic = magicUnknownVersion then
      return .error (.frame "router replied with unknown-version response (V2 not accepted)")
    else if magic ≠ magicV2 then
      return .error (.frame ("bad magic: " ++ hexDebug magic))
    else
      let headersLength := u32FromLe (← index sec 12 16)
      let bodyLength := u32FromLe (← index sec 16 20)
      if maxDataSection < saturatingAdd headersLength bodyLength then
        return .error (.frame s!"message too large: headers={headersLength} body={bodyLength}")
      else return .ok (headersLength, bodyLength)

/-- The loop of `parse_headers` from an index on. -/
def parseHeadersIn (data : Bytes) (i : Nat) (out : Headers) : Option (Except ChannelError Headers) :=
  if i < data.length then
    if data.length < i + 8 then some (.error (.frame "truncated header meta-data"))
    else do
      let key := i32FromLe (← index data i (i + 4))
      let len := (u32FromLe (← index data (i + 4) (i + 8))).toNat
      if data.length < i + 8 + len then some (.error (.frame "truncated header data"))
      else
        let value ← index data (i + 8) (i + 8 + len)
        parseHeadersIn data (i + 8 + len) (out.insert key value)
  else some (.ok out)
termination_by data.length - i

def parseFrameIn (full : Bytes) : Option (Except ChannelError Message) := do
  match ← frameLengthsIn full with
  | .error e => return .error e
  | .ok (hlen, blen) =>
    let total := dataSectionV2 + hlen.toNat + blen.toNat
    if full.length < total then
      return .error (.frame s!"short frame: {full.length} < {total}")
    else
      let contentType := i32FromLe (← index full 4 8)
      let sequence := i32FromLe (← index full 8 12)
      match ← parseHeadersIn (← index full dataSectionV2 (dataSectionV2 + hlen.toNat)) 0 ∅ with
      | .error e => return .error e
      | .ok headers =>
        let body ← index full (dataSectionV2 + hlen.toNat) total
        return .ok ⟨contentType, sequence, headers, body⟩

theorem index_of_le {bs : Bytes} {start stop : Nat} (h : start ≤ stop) (hstop : stop ≤ bs.length) :
    index bs start stop = some (slice bs start stop) := if_pos ⟨h, hstop⟩

theorem slice_drop (bs : Bytes) (i start stop : Nat) :
    slice (bs.drop i) start stop = slice bs (i + start) (i + stop) := by
  rw [slice, slice, List.drop_drop, Nat.add_sub_add_left]

theorem frameLengthsIn_eq (sec : Bytes) : frameLengthsIn sec = some (frameLengths sec) := by
  unfold frameLengthsIn frameLengths
  by_cases hshort : sec.length < dataSectionV2
  · rw [if_pos hshort, if_pos hshort]
  · have hlen : 20 ≤ sec.length := Nat.not_lt.mp hshort
    rw [if_neg hshort, if_neg hshort, index_of_le (Nat.zero_le _) (by omega),
      index_of_le (by omega) (by omega), index_of_le (by omega) (by omega)]
    simp only [Option.bind_eq_bind, Option.bind_some, Option.pure_def]
    split_ifs <;> rfl

theorem parseHeadersIn_eq (data : Bytes) (fuel i : Nat) (out : Headers)
    (hfuel : data.length - i ≤ fuel) :
    parseHeadersIn data i out = some (parseHeadersLoop fuel (data.drop i) out) := by
  induction fuel generalizing i out with
  | zero =>
    have hend : ¬ i < data.length := by omega
    rw [parseHeadersIn, if_neg hend, parseHeadersLoop]
  | succ fuel ih =>
    rw [parseHeadersIn, parseHeadersLoop, List.length_drop]
    by_cases hend : i < data.length
    · have hne : data.drop i ≠ [] := by
        rw [ne_eq, List.drop_eq_nil_iff]
        omega
      rw [if_pos hend, if_neg hne]
      by_cases hmeta : data.length < i + 8
      · rw [if_pos hmeta, if_pos (by omega)]
      · rw [if_neg hmeta, if_neg (by omega), index_of_le (by omega) (by omega),
          index_of_le (by omega) (by omega)]
        simp only [Option.bind_eq_bind, Option.bind_some, slice_drop, Nat.add_zero]
        generalize (u32FromLe (slice data (i + 4) (i + 8))).toNat = len
        by_cases hdata : data.length < i + 8 + len
        · rw [if_pos hdata, if_pos (by omega)]
        · rw [if_neg hdata, if_neg (by omega), index_of_le (by omega) (by omega), Option.bind_some,
            ih _ _ (by omega), List.drop_drop, Nat.add_assoc]
    · have hnil : data.drop i = [] := List.drop_eq_nil_iff.mpr (by omega)
      rw [if_neg hend, if_pos hnil]

theorem frameLengths_ok {sec : Bytes} {hlen blen : UInt32} :
    frameLengths sec = .ok (hlen, blen) ↔ 20 ≤ sec.length ∧ slice sec 0 4 = magicV2 ∧
      u32FromLe (slice sec 12 16) = hlen ∧ u32FromLe (slice sec 16 20) = blen ∧
      hlen.toNat + blen.toNat ≤ 2 ^ 20 := by
  unfold frameLengths
  have hmagic : magicV2 ≠ magicUnknownVersion := by decide
  constructor
  · intro h
    split_ifs at h with hshort hunknown hbad
    dsimp only at h
    split_ifs at h with hcap
    obtain ⟨rfl, rfl⟩ := Prod.mk.inj (Except.ok.inj h)
    exact ⟨Nat.not_lt.mp hshort, not_not.mp hbad, rfl, rfl, (saturatingAdd_le_cap _ _).mp hcap⟩
  · rintro ⟨hlong, hv2, rfl, rfl, hcap⟩
    have hshort : ¬ sec.length < dataSectionV2 := Nat.not_lt.mpr hlong
    rw [if_neg hshort, hv2, if_neg hmagic, if_neg (not_not.mpr rfl)]
    exact if_neg ((saturatingAdd_le_cap _ _).mpr hcap)

theorem parseFrameIn_eq (full : Bytes) : parseFrameIn full = some (parseFrame full) := by
  unfold parseFrameIn parseFrame
  rw [frameLengthsIn_eq]
  cases hlens : frameLengths full with
  | error e => rfl
  | ok lens =>
    obtain ⟨hlen, blen⟩ := lens
    obtain ⟨hlong, -⟩ := frameLengths_ok.mp hlens
    simp only [Option.bind_eq_bind, Option.bind_some, Option.pure_def]
    by_cases hshort : full.length < dataSectionV2 + hlen.toNat + blen.toNat
    · rw [if_pos hshort]
      simp only [bind, Except.bind, hshort, if_true]
      rfl
    · have htotal : dataSectionV2 + hlen.toNat + blen.toNat ≤ full.length := Nat.not_lt.mp hshort
      rw [if_neg hshort, index_of_le (by omega) (by omega), index_of_le (by omega) (by omega),
        index_of_le (by omega) (by omega), index_of_le (by omega) (by omega)]
      simp only [Option.bind_some, parseHeadersIn_eq _ _ 0 ∅ (Nat.sub_le _ _), List.drop_zero]
      simp only [bind, Except.bind, hshort, if_false, parseHeaders]
      cases parseHeadersLoop (slice full dataSectionV2 (dataSectionV2 + hlen.toNat)).length
        (slice full dataSectionV2 (dataSectionV2 + hlen.toNat)) ∅ <;> rfl

/-! The grammar of the header section. -/

/-- Records one after the other, with nothing left over. -/
def recordsOf (records : List (Int32 × Bytes)) : Bytes := records.flatMap headerRecord

/-- Later records replace earlier ones of the same key. -/
def headersOf (records : List (Int32 × Bytes)) (out : Headers) : Headers :=
  records.foldl (fun m h => m.insert h.1 h.2) out

theorem slice_length {bs : Bytes} {start stop : Nat} (hstop : stop ≤ bs.length) :
    (slice bs start stop).length = stop - start := by
  rw [slice, List.length_take, List.length_drop]
  omega

theorem slice_append_slice {bs : Bytes} {i j k : Nat} (hij : i ≤ j) (hjk : j ≤ k) :
    slice bs i j ++ slice bs j k = slice bs i k := by
  have hdrop : bs.drop j = (bs.drop i).drop (j - i) := by
    rw [List.drop_drop, Nat.add_sub_cancel' hij]
  have hsum : k - i = (j - i) + (k - j) := by omega
  rw [slice, slice, slice, hdrop, hsum, List.take_add]

theorem headerRecord_of_fits {data : Bytes} {len : Nat} (hlen : len = (u32FromLe (slice data 4 8)).toNat)
    (hfits : 8 + len ≤ data.length) :
    data = headerRecord (i32FromLe (slice data 0 4), slice data 8 (8 + len)) ++ data.drop (8 + len) := by
  have hkey : i32ToLe (i32FromLe (slice data 0 4)) = slice data 0 4 :=
    i32ToLe_i32FromLe (slice_length (by omega))
  have hvalue : (slice data 8 (8 + len)).length = len := by
    rw [slice_length hfits]
    omega
  have hsize : u32ToLe (UInt32.ofNat (slice data 8 (8 + len)).length) = slice data 4 8 := by
    rw [hvalue, hlen, UInt32.ofNat_toNat]
    exact u32ToLe_u32FromLe (slice_length (by omega))
  rw [headerRecord, hkey, hsize, slice_append_slice (by omega) (by omega),
    slice_append_slice (by omega) (by omega)]
  exact (List.take_append_drop (8 + len) data).symm

theorem parseHeadersLoop_ok {fuel : Nat} {data : Bytes} {out headers : Headers}
    (hfuel : data.length ≤ fuel) (h : parseHeadersLoop fuel data out = .ok headers) :
    ∃ records, data = recordsOf records ∧ headers = headersOf records out := by
  induction fuel generalizing data out with
  | zero =>
    obtain rfl : data = [] := List.length_eq_zero_iff.mp (by omega)
    cases h
    exact ⟨[], rfl, rfl⟩
  | succ fuel ih =>
    rw [parseHeadersLoop] at h
    split_ifs at h with hnil hmeta
    · cases h
      exact ⟨[], hnil, rfl⟩
    · dsimp only at h
      split_ifs at h with hdata
      obtain ⟨records, hrest, hheaders⟩ := ih (by rw [List.length_drop]; omega) h
      refine ⟨(i32FromLe (slice data 0 4), _) :: records, ?_, hheaders⟩
      rw [recordsOf, List.flatMap_cons, ← recordsOf, ← hrest]
      exact headerRecord_of_fits rfl (Nat.not_lt.mp hdata)

theorem parseHeaders_ok_iff {data : Bytes} {headers : Headers} (hlen : data.length < 2 ^ 32) :
    parseHeaders data = .ok headers ↔
      ∃ records, data = recordsOf records ∧ headers = headersOf records ∅ := by
  constructor
  · exact parseHeadersLoop_ok (Nat.le_refl _)
  · rintro ⟨records, rfl, rfl⟩
    refine parseHeadersLoop_records records _ ∅ (length_le_flatMap records) fun r hr => ?_
    exact lt_of_le_of_lt (length_le_of_mem_flatMap hr) hlen

theorem lookup_headersOf (records : List (Int32 × Bytes)) (key : Int32) :
    (headersOf records ∅)[key]? = (records.reverse.find? fun r => r.1 = key).map (·.2) := by
  induction records using List.reverseRecOn with
  | nil => simp [headersOf]
  | append_singleton records r ih =>
    rw [headersOf, List.foldl_append, List.foldl_cons, List.foldl_nil, ← headersOf, lookup_insert,
      List.reverse_append, List.reverse_singleton, List.singleton_append, List.find?_cons, ih]
    by_cases hkey : r.1 = key <;> simp [hkey]

theorem headerSection_insert_le (headers : Headers) (key : Int32) (value : Bytes) :
    (headerSection (headers.insert key value)).length ≤
      (headerSection headers).length + (8 + value.length) := by
  have hinsert : headers.insert key value = (headers.erase key).insert key value := by
    apply Std.ExtTreeMap.ext_getElem?
    intro k
    rw [lookup_insert, lookup_insert, lookup_erase]
    split_ifs <;> rfl
  have hfree : (headers.erase key)[key]? = none := by
    rw [lookup_erase, if_pos rfl]
  have hnew : (headerSection (headers.insert key value)).length =
      8 + value.length + (headerSection (headers.erase key)).length := by
    rw [hinsert, headerSection, ((toList_insert_perm hfree value).flatMap_right _).length_eq,
      List.flatMap_cons, List.length_append, headerRecord_length, headerSection]
  have hold : (headerSection (headers.erase key)).length ≤ (headerSection headers).length := by
    cases hkey : headers[key]? with
    | none =>
      have hnot : key ∉ headers := by
        rw [mem_iff_lookup, hkey]
        rintro ⟨v, ⟨⟩⟩
      rw [erase_of_not_mem hnot]
    | some v =>
      rw [headerSection, headerSection, ((toList_erase_perm hkey).flatMap_right _).length_eq,
        List.flatMap_cons, List.length_append]
      omega
  omega

theorem headerSection_headersOf_le (records : List (Int32 × Bytes)) (out : Headers) :
    (headerSection (headersOf records out)).length ≤
      (headerSection out).length + (recordsOf records).length := by
  induction records generalizing out with
  | nil => exact Nat.le_refl _
  | cons r records ih =>
    have htail := ih (out.insert r.1 r.2)
    have hhead := headerSection_insert_le out r.1 r.2
    rw [recordsOf, List.flatMap_cons, List.length_append, headerRecord_length, ← recordsOf]
    rw [headersOf, List.foldl_cons, ← headersOf]
    omega

/-- The frames of the protocol: the fixed section, the records, the body, and whatever follows. -/
structure Framed (bs : Bytes) (hlen blen : Nat) (records : List (Int32 × Bytes)) : Prop where
  magic : slice bs 0 4 = magicV2
  fits : dataSectionV2 + hlen + blen ≤ bs.length
  headersLength : (u32FromLe (slice bs 12 16)).toNat = hlen
  bodyLength : (u32FromLe (slice bs 16 20)).toNat = blen
  cap : hlen + blen ≤ 2 ^ 20
  headers : slice bs dataSectionV2 (dataSectionV2 + hlen) = recordsOf records

/-- What a frame stands for. -/
def messageOf (bs : Bytes) (hlen blen : Nat) (records : List (Int32 × Bytes)) : Message where
  contentType := i32FromLe (slice bs 4 8)
  sequence := i32FromLe (slice bs 8 12)
  headers := headersOf records ∅
  body := slice bs (dataSectionV2 + hlen) (dataSectionV2 + hlen + blen)

theorem Framed.recordsOf_length {bs : Bytes} {hlen blen : Nat} {records : List (Int32 × Bytes)}
    (h : Framed bs hlen blen records) : (recordsOf records).length = hlen := by
  have hfits := h.fits
  rw [← h.headers, slice_length (by omega)]
  omega

theorem parseFrame_of_framed {bs : Bytes} {hlen blen : Nat} {records : List (Int32 × Bytes)}
    (h : Framed bs hlen blen records) : parseFrame bs = .ok (messageOf bs hlen blen records) := by
  have hlong : 20 ≤ bs.length := by
    have hfits : 20 + hlen + blen ≤ bs.length := h.fits
    omega
  have hlens : frameLengths bs = .ok (u32FromLe (slice bs 12 16), u32FromLe (slice bs 16 20)) :=
    frameLengths_ok.mpr ⟨hlong, h.magic, rfl, rfl, by rw [h.headersLength, h.bodyLength]; exact h.cap⟩
  have hheaders : parseHeaders (slice bs dataSectionV2 (dataSectionV2 + hlen)) =
      .ok (headersOf records ∅) := by
    have hcap := h.cap
    refine (parseHeaders_ok_iff ?_).mpr ⟨records, h.headers, rfl⟩
    rw [h.headers, h.recordsOf_length]
    omega
  simp only [parseFrame, hlens, h.headersLength, h.bodyLength, Nat.not_lt.mpr h.fits, if_false,
    hheaders, bind, Except.bind, pure, Except.pure, messageOf]

theorem framed_of_parseFrame {bs : Bytes} {m : Message} (h : parseFrame bs = .ok m) :
    ∃ hlen blen records, Framed bs hlen blen records := by
  unfold parseFrame at h
  cases hlens : frameLengths bs with
  | error e =>
    rw [hlens] at h
    cases h
  | ok lens =>
    obtain ⟨hlen, blen⟩ := lens
    obtain ⟨-, hmagic, hh, hb, hcap⟩ := frameLengths_ok.mp hlens
    simp only [hlens, bind, Except.bind] at h
    split_ifs at h with hshort
    have hfits := Nat.not_lt.mp hshort
    cases hheaders : parseHeaders (slice bs dataSectionV2 (dataSectionV2 + hlen.toNat)) with
    | error e =>
      rw [hheaders] at h
      cases h
    | ok headers =>
      obtain ⟨records, hrecords, -⟩ := parseHeadersLoop_ok (Nat.le_refl _) hheaders
      exact ⟨_, _, records, hmagic, hfits, congrArg _ hh, congrArg _ hb, hcap, hrecords⟩

theorem Framed.dataLen_le {bs : Bytes} {hlen blen : Nat} {records : List (Int32 × Bytes)}
    (h : Framed bs hlen blen records) : (messageOf bs hlen blen records).dataLen ≤ 2 ^ 20 := by
  have hheaders : (headerSection (headersOf records ∅)).length ≤ hlen := by
    have hempty : headerSection ∅ = [] := rfl
    have hle := headerSection_headersOf_le records ∅
    rw [h.recordsOf_length, hempty, List.length_nil, Nat.zero_add] at hle
    exact hle
  have hbody : (slice bs (dataSectionV2 + hlen) (dataSectionV2 + hlen + blen)).length = blen := by
    rw [slice_length h.fits]
    omega
  have hcap := h.cap
  rw [Message.dataLen, messageOf]
  dsimp only
  omega

theorem marshalV2_parseFrame {m : Message} (h : m.dataLen ≤ 2 ^ 20) :
    ∃ wire, m.marshalV2 = some wire ∧ parseFrameIn wire = some (.ok m) := by
  have hlen : (headerSection m.headers).length + m.body.length ≤ 2 ^ 20 := h
  refine ⟨m.frame, marshalV2_eq m (by omega) (by omega), ?_⟩
  have hparse := parseFrame_frame m h []
  rw [List.append_nil] at hparse
  rw [parseFrameIn_eq, hparse]

/-- Decoding accepts exactly the frames of the grammar. -/
theorem parseFrame_grammar (bs : Bytes) :
    ∃ out, parseFrameIn bs = some out ∧
      ((∃ m, out = .ok m) ↔ ∃ hlen blen records, Framed bs hlen blen records) ∧
      ∀ m, out = .ok m →
        (∀ hlen blen records, Framed bs hlen blen records → ∀ key,
          m.headers[key]? = (records.reverse.find? fun r => r.1 = key).map (·.2)) ∧
        ∃ wire, m.marshalV2 = some wire ∧ parseFrameIn wire = some (.ok m) := by
  refine ⟨parseFrame bs, parseFrameIn_eq bs, ⟨?_, ?_⟩, ?_⟩
  · rintro ⟨m, hm⟩
    exact framed_of_parseFrame hm
  · rintro ⟨hlen, blen, records, h⟩
    exact ⟨_, parseFrame_of_framed h⟩
  · intro m hm
    constructor
    · intro hlen blen records h key
      rw [parseFrame_of_framed h] at hm
      cases hm
      exact lookup_headersOf records key
    · obtain ⟨hlen, blen, records, h⟩ := framed_of_parseFrame hm
      rw [parseFrame_of_framed h] at hm
      cases hm
      exact marshalV2_parseFrame h.dataLen_le

end Noa.Channel
