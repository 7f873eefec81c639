import Noa.Tunnel.Intercept.DnsServer.Parser

namespace Noa.Tunnel.Intercept
open Noa.Framework Noa.Channel

/-! The formatter with every slice and every index checked. -/

namespace Checked

def cStr (data : Text) : Except Stop Bytes :=
  let b := data.flatMap String.utf8EncodeChar
  indexRange b 0 (b.findIdx (· == 0))

/-- `resp[start..stop].copy_from_slice(bs)`. -/
def copyRange (resp : Bytes) (start stop : Nat) (bs : Bytes) : Except Stop Bytes :=
  if start ≤ stop ∧ stop ≤ resp.length ∧ bs.length = stop - start then .ok (copyAt resp start bs)
  else .error .range

/-- One turn of the loop takes a label with its dot. -/
def formatName (out np : Bytes) : Except Stop Bytes :=
  let dot := np.findIdx? (· == 0x2e)
  let len := UInt8.ofNat (dot.getD np.length)
  if len = 0 then .ok (out ++ [len])
  else do
    let label ← indexRange np 0 len.toNat
    match dot with
    | none => return out ++ [len] ++ label ++ [0]
    | some d =>
      if _ : d + 1 ≤ np.length then formatName (out ++ [len] ++ label) (np.drop (d + 1))
      else .error .range
termination_by np.length

def nameRecord (resp fields data : Bytes) (room : Nat) : Except Stop (Except Bytes Bytes) :=
  let hold := resp.length
  let est := UInt16.ofNat data.length + 1
  if dnsBuf - hold < room + est.toNat then .ok (.error (resp ++ [0, 0]))
  else do
    let resp ← formatName (resp ++ [0, 0] ++ fields) data
    if resp.length < hold + 2 then .error .overflow
    else
      let datalen := u16ToBe (UInt16.ofNat (resp.length - hold - 2))
      return .ok (← copyRange resp hold (hold + 2) datalen)

def writeAnswer (addr : BitVec 32) (resp : Bytes) (a : RespAnswer) :
    Except Stop (Except Bytes Bytes) :=
  if dnsBuf - resp.length < 10 then .ok (.error resp)
  else
    let resp := resp ++ [0xc0, 0x0c] ++ u16ToBe a.atype.toUInt64.toUInt16 ++ u16ToBe 1 ++
      u32ToBe a.ttl.toUInt64.toUInt32
    if a.atype = nsTA then
      if dnsBuf - resp.length < 2 + 4 then .ok (.error resp)
      else .ok (.ok (resp ++ u16ToBe 4 ++ u32ToBe (UInt32.ofBitVec addr)))
    else if a.atype = nsTTxt then do
      let data ← cStr a.data
      let txtlen := UInt16.ofNat data.length
      if dnsBuf - resp.length < 3 + txtlen.toNat then return .error resp
      else return .ok (resp ++ u16ToBe (txtlen + 1) ++ [txtlen.toUInt8] ++
        (← indexRange data 0 txtlen.toNat))
    else if a.atype = nsTMx then do
      let data ← cStr a.data
      nameRecord resp (u16ToBe a.priority.toUInt64.toUInt16) data 4
    else if a.atype = nsTSrv then do
      let data ← cStr a.data
      nameRecord resp (u16ToBe a.priority.toUInt64.toUInt16 ++ u16ToBe a.weight.toUInt64.toUInt16 ++
        u16ToBe a.port.toUInt64.toUInt16) data 8
    else .ok (.ok resp)

def writeAnswers (addr : BitVec 32) :
    List RespAnswer → Bytes → UInt16 → Except Stop (Bytes × UInt16 × Bool)
  | [], resp, count => .ok (resp, count, false)
  | a :: rest, resp, count => do
    match ← writeAnswer addr resp a with
    | .ok resp => writeAnswers addr rest resp (count + 1)
    | .error resp => return (resp, count + 1, true)

def echoRequest (packet : Bytes) (nameStrlen : Nat) (status : UInt8) (recursionAvailable : Bool) :
    Except Stop Bytes := do
  let header := (List.range dnsHeaderLen).map fun i => packet.getD i 0
  let header ← modifyAt header 2 (· ||| 0x80)
  let header ← modifyAt header 3 (· ||| (status &&& 0x0f))
  let header ← if recursionAvailable then modifyAt header 3 (· ||| 0x80) else pure header
  return header ++ (List.range' dnsHeaderLen (nameStrlen + 2 + 4)).map fun i => packet.getD i 0

/-- The answer section, its count and the truncation bit. -/
def writeSection (addr : BitVec 32) (answers : List RespAnswer) (resp : Bytes) : Except Stop Bytes := do
  let (resp, count, truncated) ← writeAnswers addr answers resp 0
  let resp ← if truncated then modifyAt resp 2 (· ||| 0x02) else pure resp
  copyRange resp 6 8 (u16ToBe count)

def formatRespAnswers (packet : Bytes) (nameStrlen : Nat) (status : UInt8)
    (answers : Option (List RespAnswer)) (addr : BitVec 32) (recursionAvailable : Bool) :
    Except Stop Bytes := do
  let resp ← echoRequest packet nameStrlen status recursionAvailable
  let resp ← match answers with
    | none => pure resp
    | some answers => if status ≠ dnsNoError then pure resp else writeSection addr answers resp
  let resp ← copyRange resp 10 12 (u16ToBe 1)
  return if dnsBuf - resp.length > 11 then resp ++ dnsOpt else resp

end Checked

section Names

theorem formatName_last {np : Bytes} (h : 0x2e ∉ np) : formatName np =
    if UInt8.ofNat np.length = 0 then [0]
    else UInt8.ofNat np.length :: np.take (UInt8.ofNat np.length).toNat ++ [0] := by
  have hsplit : np.splitOn 0x2e = [np] :=
    List.splitOnP_eq_singleton fun b hb => beq_false_of_ne fun heq => h (heq ▸ hb)
  rw [formatName, hsplit]
  simp [formatLabels]

theorem formatName_dot {front : Bytes} (h : 0x2e ∉ front) (back : Bytes) :
    formatName (front ++ 0x2e :: back) =
      if UInt8.ofNat front.length = 0 then [0]
      else UInt8.ofNat front.length :: front.take (UInt8.ofNat front.length).toNat ++
        formatName back := by
  have hfront : front.splitOn 0x2e = [front] :=
    List.splitOnP_eq_singleton fun b hb => beq_false_of_ne fun heq => h (heq ▸ hb)
  have hsplit : (front ++ 0x2e :: back).splitOn 0x2e = front :: back.splitOn 0x2e := by
    have happ : (front ++ 0x2e :: back).splitOnP (· == (0x2e : UInt8)) =
        front.splitOnP (· == (0x2e : UInt8)) ++ back.splitOnP (· == (0x2e : UInt8)) :=
      List.splitOnP_append_cons front back rfl
    rw [List.splitOn, happ]
    exact congrArg (· ++ _) hfront
  have hne : back.splitOn 0x2e ≠ [] := List.splitOnP_ne_nil _ _
  rw [formatName, hsplit, formatLabels]
  simp only [hne, if_false]
  rfl

theorem name_induction {motive : Bytes → Prop} (last : ∀ np, 0x2e ∉ np → motive np)
    (dot : ∀ front back, 0x2e ∉ front → motive back → motive (front ++ 0x2e :: back)) (np : Bytes) :
    motive np := by
  induction hlen : np.length using Nat.strong_induction_on generalizing np with
  | _ n ih =>
  by_cases h : 0x2e ∈ np
  · obtain ⟨front, back, rfl, hfront⟩ := List.eq_append_cons_of_mem h
    rw [List.length_append, List.length_cons] at hlen
    exact dot front back hfront (ih back.length (by omega) back rfl)
  · exact last np h

theorem formatName_length (np : Bytes) : (formatName np).length ≤ np.length + 2 := by
  have htake (l : Bytes) : (l.take (UInt8.ofNat l.length).toNat).length ≤ l.length :=
    List.length_take_le' _ _
  induction np using name_induction with
  | last np h =>
    have := htake np
    rw [formatName_last h]
    split_ifs <;> simp only [List.length_append, List.length_cons, List.length_nil] <;> omega
  | dot front back h ih =>
    have := htake front
    rw [formatName_dot h]
    split_ifs <;> simp only [List.length_append, List.length_cons, List.length_nil] <;> omega

end Names

section Sections

variable (packet : Bytes) (nameStrlen : Nat) {status : UInt8} (addr : BitVec 32) (ra : Bool)

def writeSection (answers : List RespAnswer) (resp : Bytes) : Bytes :=
  let (resp, count, truncated) := writeAnswers addr answers resp 0
  let resp := if truncated then resp.modify 2 (· ||| 0x02) else resp
  copyAt resp 6 (u16ToBe count)

/-- The count of the additional records, and the EDNS0 record if there is room. -/
def finishResp (resp : Bytes) : Bytes :=
  let resp := copyAt resp 10 (u16ToBe 1)
  if dnsBuf - resp.length > 11 then resp ++ dnsOpt else resp

theorem formatRespAnswers_bare {answers : Option (List RespAnswer)}
    (h : answers = none ∨ status ≠ dnsNoError) :
    formatRespAnswers packet nameStrlen status answers addr ra =
      finishResp (echoRequest packet nameStrlen status ra) := by
  cases answers with
  | none => rfl
  | some answers =>
    have hstatus : status ≠ dnsNoError := h.resolve_left fun hnone => by cases hnone
    simp only [formatRespAnswers, if_pos hstatus, finishResp]

theorem formatRespAnswers_some (answers : List RespAnswer) :
    formatRespAnswers packet nameStrlen dnsNoError (some answers) addr ra =
      finishResp (writeSection addr answers (echoRequest packet nameStrlen dnsNoError ra)) := by
  rw [formatRespAnswers.eq_def]
  dsimp only
  rw [if_neg (not_not.mpr rfl)]
  rfl

theorem copyAt_length {resp bs : Bytes} {i : Nat} (h : i + bs.length ≤ resp.length) :
    (copyAt resp i bs).length = resp.length := by
  simp only [copyAt, List.length_append, List.length_take, List.length_drop]
  omega

theorem writeSection_length (answers : List RespAnswer) {resp : Bytes}
    (h : dnsHeaderLen ≤ resp.length) :
    (writeSection addr answers resp).length = (writeAnswers addr answers resp 0).1.length := by
  have hlen := (writeAnswers_appends addr answers resp 0).length_le
  have h12 : 12 ≤ resp.length := h
  unfold writeSection
  dsimp only
  split_ifs with htrunc
  · rw [copyAt_length, List.length_modify]
    rw [List.length_modify, u16ToBe_length]
    omega
  · rw [copyAt_length]
    rw [u16ToBe_length]
    omega

theorem finishResp_length {resp : Bytes} (h : dnsHeaderLen ≤ resp.length) :
    (finishResp resp).length ≤ max resp.length dnsBuf := by
  have hcopy : (copyAt resp 10 (u16ToBe 1)).length = resp.length := copyAt_length h
  unfold finishResp
  dsimp only
  rw [hcopy]
  split_ifs with hroom
  · have hopt : dnsOpt.length = 11 := rfl
    rw [List.length_append, hcopy, hopt]
    omega
  · omega

end Sections

namespace Checked

/-! No check fails. -/

theorem cStr_eq (data : Text) : cStr data = .ok (Intercept.cStr data) := by
  have htake := @List.takeWhile_eq_take_findIdx_not UInt8 (data.flatMap String.utf8EncodeChar)
    (· ≠ 0)
  have hnot : (fun b : UInt8 => !decide (b ≠ 0)) = (· == 0) := by
    funext b
    simp [beq_eq_decide]
  rw [hnot] at htake
  rw [cStr, indexRange_zero List.findIdx_le_length, Intercept.cStr, htake]

theorem copyRange_eq {resp bs : Bytes} {start stop : Nat} (hle : start ≤ stop)
    (hstop : stop ≤ resp.length) (hlen : bs.length = stop - start) :
    copyRange resp start stop bs = .ok (copyAt resp start bs) := if_pos ⟨hle, hstop, hlen⟩

theorem formatName_eq (out np : Bytes) : formatName out np = .ok (out ++ Intercept.formatName np) := by
  have hfit (l : Bytes) : (UInt8.ofNat l.length).toNat ≤ l.length := by
    rw [UInt8.toNat_ofNat']
    exact Nat.mod_le _ _
  induction np using name_induction generalizing out with
  | last np h =>
    have hdot : np.findIdx? (· == 0x2e) = none := by
      rw [List.findIdx?_eq_none_iff]
      exact fun b hb => beq_false_of_ne fun heq => h (heq ▸ hb)
    rw [formatName, hdot, formatName_last h, Option.getD_none, indexRange_zero (hfit np)]
    split_ifs with hlen
    · rw [hlen]
    · simp only [List.append_assoc, List.cons_append, List.nil_append]
      rfl
  | dot front back h ih =>
    have hdot : (front ++ 0x2e :: back).findIdx? (· == 0x2e) = some front.length := by
      have hnone : front.findIdx? (· == 0x2e) = none := by
        rw [List.findIdx?_eq_none_iff]
        exact fun b hb => beq_false_of_ne fun heq => h (heq ▸ hb)
      simp [List.findIdx?_append, hnone, List.findIdx?_cons]
    have hlong : front.length + 1 ≤ (front ++ 0x2e :: back).length := by
      rw [List.length_append, List.length_cons]
      omega
    have hback : (front ++ 0x2e :: back).drop (front.length + 1) = back := by
      rw [← List.drop_drop, List.drop_left]
      rfl
    have hle := hfit front
    rw [formatName, hdot, formatName_dot h, Option.getD_some, indexRange_zero (by omega),
      List.take_append_of_le_length hle]
    split_ifs with hlen
    · rw [hlen]
    · change (if _ : front.length + 1 ≤ _ then _ else _) = _
      rw [dif_pos hlong, hback, ih]
      simp only [List.append_assoc, List.cons_append, List.nil_append]

theorem nameRecord_eq (resp fields data : Bytes) (room : Nat) :
    nameRecord resp fields data room = .ok (Intercept.nameRecord resp fields data room) := by
  rw [nameRecord, Intercept.nameRecord, formatName_eq]
  split_ifs with hroom
  · rfl
  set body := fields ++ Intercept.formatName data with hbody
  have hresp : resp ++ [0, 0] ++ fields ++ Intercept.formatName data = resp ++ ([0, 0] ++ body) := by
    simp only [hbody, List.append_assoc]
  have hlen : (resp ++ ([0, 0] ++ body)).length = resp.length + 2 + body.length := by
    simp only [List.length_append, List.length_cons, List.length_nil]
    omega
  have hdatalen : resp.length + 2 + body.length - resp.length - 2 = body.length := by omega
  change (if _ then _ else _) = _
  rw [hresp, hlen, if_neg (by omega), hdatalen, copyRange_eq (by omega) (by omega) (by simp)]
  have hcopy (bs : Bytes) (h : bs.length = 2) :
      copyAt (resp ++ ([0, 0] ++ body)) resp.length bs = resp ++ bs ++ body := by
    rw [copyAt, List.take_left, h, ← List.drop_drop, List.drop_left]
    rfl
  rw [hcopy _ (u16ToBe_length _)]
  rfl

theorem writeAnswer_eq (addr : BitVec 32) (resp : Bytes) (a : RespAnswer) :
    writeAnswer addr resp a = .ok (Intercept.writeAnswer addr resp a) := by
  have htxt (n : Nat) : (UInt16.ofNat n).toNat ≤ n := by
    rw [UInt16.toNat_ofNat']
    exact Nat.mod_le _ _
  rw [writeAnswer, Intercept.writeAnswer, cStr_eq]
  by_cases hfixed : dnsBuf - resp.length < 10
  · rw [if_pos hfixed, if_pos hfixed]
  rw [if_neg hfixed, if_neg hfixed]
  dsimp only
  by_cases hA : a.atype = nsTA
  · rw [if_pos hA, if_pos hA]
    split_ifs <;> rfl
  rw [if_neg hA, if_neg hA]
  by_cases hTxt : a.atype = nsTTxt
  · rw [if_pos hTxt, if_pos hTxt]
    simp only [bind, Except.bind, indexRange_zero (htxt _)]
    split_ifs <;> rfl
  rw [if_neg hTxt, if_neg hTxt]
  simp only [bind, Except.bind, nameRecord_eq]
  split_ifs <;> rfl

theorem writeAnswers_eq (addr : BitVec 32) (answers : List RespAnswer) (resp : Bytes) (count : UInt16) :
    writeAnswers addr answers resp count = .ok (Intercept.writeAnswers addr answers resp count) := by
  induction answers generalizing resp count with
  | nil => rfl
  | cons a rest ih =>
    rw [writeAnswers, writeAnswer_eq, Intercept.writeAnswers]
    cases Intercept.writeAnswer addr resp a with
    | ok r => exact ih r (count + 1)
    | error r => rfl

theorem echoRequest_eq (packet : Bytes) (nameStrlen : Nat) (status : UInt8) (ra : Bool) :
    echoRequest packet nameStrlen status ra = .ok (Intercept.echoRequest packet nameStrlen status ra) := by
  cases ra <;> rfl

theorem writeSection_eq (addr : BitVec 32) {resp : Bytes} (hresp : dnsHeaderLen ≤ resp.length)
    (answers : List RespAnswer) :
    writeSection addr answers resp = .ok (Intercept.writeSection addr answers resp) := by
  have hlen := (writeAnswers_appends addr answers resp 0).length_le
  rw [writeSection, Intercept.writeSection, writeAnswers_eq]
  rcases hw : Intercept.writeAnswers addr answers resp 0 with ⟨r, count, truncated⟩
  rw [hw] at hlen
  have h12 : 12 ≤ r.length := Nat.le_trans hresp hlen
  cases truncated with
  | false =>
    change copyRange r 6 8 _ = _
    exact copyRange_eq (by decide) (by omega) rfl
  | true =>
    change (modifyAt r 2 _).bind _ = _
    rw [modifyAt_eq_ok (by omega)]
    exact copyRange_eq (by decide) (by rw [List.length_modify]; omega) rfl

theorem finishResp_eq {resp : Bytes} (hresp : dnsHeaderLen ≤ resp.length) :
    (do
      let resp ← copyRange resp 10 12 (u16ToBe 1)
      return if dnsBuf - resp.length > 11 then resp ++ dnsOpt else resp) =
    Except.ok (finishResp resp) := by
  have h12 : 12 ≤ resp.length := hresp
  rw [copyRange_eq (by decide) h12 rfl]
  rfl

theorem formatRespAnswers_eq (packet : Bytes) (nameStrlen : Nat) (status : UInt8)
    (answers : Option (List RespAnswer)) (addr : BitVec 32) (ra : Bool) :
    formatRespAnswers packet nameStrlen status answers addr ra =
      .ok (Intercept.formatRespAnswers packet nameStrlen status answers addr ra) := by
  have hecho := (echoRequest_echoes packet nameStrlen status ra).2
  rw [formatRespAnswers, echoRequest_eq]
  cases answers with
  | none =>
    rw [formatRespAnswers_bare packet nameStrlen addr ra (.inl rfl)]
    exact finishResp_eq hecho
  | some answers =>
    by_cases hstatus : status = dnsNoError
    · subst hstatus
      have hsection := writeSection_eq addr hecho answers
      rw [formatRespAnswers_some]
      simp only [ne_eq, not_true_eq_false, if_false, bind, Except.bind, hsection]
      refine finishResp_eq ?_
      rw [writeSection_length addr answers hecho]
      exact Nat.le_trans hecho (writeAnswers_appends addr answers _ 0).length_le
    · rw [formatRespAnswers_bare packet nameStrlen addr ra (.inr hstatus)]
      simp only [ne_eq, hstatus, not_false_eq_true, if_true]
      exact finishResp_eq hecho

end Checked

section Bounds

variable {addr : BitVec 32}

/-- Records whose length is left open until the name they end in is written. -/
def EndsInName (a : RespAnswer) : Prop := a.atype = nsTMx ∨ a.atype = nsTSrv

instance (a : RespAnswer) : Decidable (EndsInName a) := inferInstanceAs (Decidable (_ ∨ _))

/-- How long a response can be with the record as its last. A record that ends in a name has two
bytes written before it is known to fit; the space it takes is then told one byte short, and as a
number of sixteen bits. -/
def recordLimit (a : RespAnswer) : Nat :=
  if EndsInName a then max (dnsBuf + 2) (dnsBuf + 1 + 65536 * (((cStr a.data).length + 1) / 65536))
  else dnsBuf

/-- The response, whether or not the record fits. -/
def written : Except Bytes Bytes → Bytes
  | .ok resp => resp
  | .error resp => resp

theorem nameRecord_length {hold : Bytes} (fields data : Bytes) {room : Nat}
    (hroom : room = 2 + fields.length) (hhold : hold.length ≤ dnsBuf) :
    (written (nameRecord hold fields data room)).length ≤
      max (dnsBuf + 2) (dnsBuf + 1 + 65536 * ((data.length + 1) / 65536)) := by
  have hest : (UInt16.ofNat data.length + 1).toNat = (data.length + 1) % 65536 := by
    rw [UInt16.toNat_add, UInt16.toNat_ofNat']
    exact Nat.mod_add_mod _ _ _
  have hname := formatName_length data
  unfold nameRecord
  dsimp only
  rw [hest]
  split_ifs with hfit
  · simp only [written, List.length_append, List.length_cons, List.length_nil]
    omega
  · simp only [written, List.length_append, u16ToBe_length]
    omega

theorem writeAnswer_length (addr : BitVec 32) (resp : Bytes) (a : RespAnswer) :
    (written (writeAnswer addr resp a)).length ≤ max resp.length (recordLimit a) := by
  have htxt : (UInt16.ofNat (cStr a.data).length).toNat ≤ (cStr a.data).length := by
    rw [UInt16.toNat_ofNat']
    exact Nat.mod_le _ _
  rw [writeAnswer]
  by_cases hfixed : dnsBuf - resp.length < 10
  · rw [if_pos hfixed]
    exact Nat.le_max_left _ _
  rw [if_neg hfixed]
  dsimp only
  set fixed := resp ++ [0xc0, 0x0c] ++ u16ToBe a.atype.toUInt64.toUInt16 ++ u16ToBe 1 ++
    u32ToBe a.ttl.toUInt64.toUInt32 with hfixedEq
  have hlen : fixed.length ≤ dnsBuf := by
    have h : fixed.length = resp.length + 10 := by
      simp [hfixedEq, u32ToBe]
    omega
  have hlimit : dnsBuf ≤ recordLimit a := by
    unfold recordLimit
    split_ifs <;> omega
  by_cases hname : EndsInName a
  · have hMx (room : Nat) (fields : Bytes) (h : room = 2 + fields.length) :
        (written (nameRecord fixed fields (cStr a.data) room)).length ≤
          max resp.length (recordLimit a) := by
      rw [recordLimit, if_pos hname]
      exact Nat.le_trans (nameRecord_length fields _ h hlen) (Nat.le_max_right _ _)
    rcases hname with hmx | hsrv
    · rw [hmx]
      exact hMx 4 _ rfl
    · rw [hsrv]
      exact hMx 8 _ rfl
  · have hother : ∀ r : Bytes, r.length ≤ dnsBuf → r.length ≤ max resp.length (recordLimit a) :=
      fun r hr => Nat.le_trans (Nat.le_trans hr hlimit) (Nat.le_max_right _ _)
    obtain ⟨hmx, hsrv⟩ := not_or.mp hname
    rw [if_neg hmx, if_neg hsrv]
    split_ifs with hA hroom hTxt hroom
    · exact hother fixed hlen
    · refine hother _ ?_
      simp only [written, List.length_append, u16ToBe_length, u32ToBe_length]
      omega
    · exact hother fixed hlen
    · refine hother _ ?_
      simp only [written, List.length_append, u16ToBe_length, List.length_cons, List.length_nil,
        List.length_take]
      omega
    · exact hother fixed hlen

theorem writeAnswers_length {answers : List RespAnswer} {limit : Nat}
    (hanswers : ∀ a ∈ answers, recordLimit a ≤ limit) {resp : Bytes} (hresp : resp.length ≤ limit)
    (count : UInt16) : (writeAnswers addr answers resp count).1.length ≤ limit := by
  induction answers generalizing resp count with
  | nil => exact hresp
  | cons a rest ih =>
    have ha := List.forall_mem_cons.mp hanswers
    have hstep := Nat.le_trans (writeAnswer_length addr resp a) (Nat.max_le.mpr ⟨hresp, ha.1⟩)
    unfold writeAnswers
    cases hw : writeAnswer addr resp a with
    | ok r =>
      rw [hw] at hstep
      exact ih ha.2 hstep (count + 1)
    | error r =>
      rw [hw] at hstep
      exact hstep

theorem echoRequest_length (packet : Bytes) (nameStrlen : Nat) (status : UInt8) (ra : Bool) :
    (echoRequest packet nameStrlen status ra).length = dnsHeaderLen + (nameStrlen + 2 + 4) := by
  cases ra <;> simp [echoRequest]

theorem formatRespAnswers_length {packet : Bytes} {nameStrlen : Nat} {status : UInt8}
    {answers : Option (List RespAnswer)} {ra : Bool} {limit : Nat}
    (hecho : dnsHeaderLen + (nameStrlen + 2 + 4) ≤ dnsBuf) (hlimit : dnsBuf ≤ limit)
    (hanswers : ∀ a ∈ answers.getD [], recordLimit a ≤ limit) :
    (formatRespAnswers packet nameStrlen status answers addr ra).length ≤ limit := by
  have hlen := echoRequest_length packet nameStrlen status ra
  have hhead := (echoRequest_echoes packet nameStrlen status ra).2
  have hfinish (resp : Bytes) (h : dnsHeaderLen ≤ resp.length) (hresp : resp.length ≤ limit) :
      (finishResp resp).length ≤ limit :=
    Nat.le_trans (finishResp_length h) (Nat.max_le.mpr ⟨hresp, hlimit⟩)
  by_cases hbare : answers = none ∨ status ≠ dnsNoError
  · rw [formatRespAnswers_bare packet nameStrlen addr ra hbare]
    exact hfinish _ hhead (by omega)
  · obtain ⟨hsome, hstatus⟩ := not_or.mp hbare
    obtain ⟨answers, rfl⟩ := Option.ne_none_iff_exists'.mp hsome
    obtain rfl := not_not.mp hstatus
    have happ := (writeAnswers_appends addr answers (echoRequest packet nameStrlen dnsNoError ra) 0).length_le
    have hall : (writeAnswers addr answers (echoRequest packet nameStrlen dnsNoError ra) 0).1.length ≤
        limit := writeAnswers_length hanswers (by omega) 0
    have hsection := writeSection_length addr answers hhead
    rw [formatRespAnswers_some]
    exact hfinish _ (by omega) (by omega)

theorem IsQuery.echo_fits {packet : Bytes} {q : ParsedQuery} (h : IsQuery packet q) :
    dnsHeaderLen + (q.nameStrlen + 2 + 4) ≤ dnsBuf := by
  obtain ⟨labels, rest, hlabels, hdrop, hname⟩ := h.question
  obtain ⟨-, hmax⟩ := h.length
  have hstrlen : q.nameStrlen ≤ q.name.length := h.nameStrlen ▸ List.findIdx_le_length
  by_cases hnil : labels = []
  · have hzero : q.name.length = 0 := by
      rw [hname, hnil]
      rfl
    have hbuf : dnsHeaderLen + 6 ≤ dnsBuf := by decide
    omega
  · have hlen := congrArg List.length hdrop
    rw [List.length_drop, List.length_append, question_length, wireLabels_length hnil, ← hname] at hlen
    omega

end Bounds

theorem response_size {packet : Bytes} {q : ParsedQuery} (hq : parseQuery packet = .ok q)
    (status : UInt8) (answers : Option (List RespAnswer)) (addr : BitVec 32) (ra : Bool) :
    ∃ resp, Checked.formatRespAnswers packet q.nameStrlen status answers addr ra = .ok resp ∧
      resp = formatRespAnswers packet q.nameStrlen status answers addr ra ∧
      ((∀ a ∈ answers.getD [], ¬ EndsInName a) → resp.length ≤ 4096) ∧
      ∀ n, (∀ a ∈ answers.getD [], EndsInName a → (cStr a.data).length + 1 < 65536 * (n + 1)) →
        resp.length ≤ max 4098 (4097 + 65536 * n) := by
  have hecho := (((parseQuery_decides packet).1 q).mp hq).echo_fits
  refine ⟨_, Checked.formatRespAnswers_eq .., rfl, fun hplain => ?_, fun n hn => ?_⟩
  · refine formatRespAnswers_length hecho (Nat.le_refl dnsBuf) fun a ha => ?_
    rw [recordLimit, if_neg (hplain a ha)]
    exact Nat.le_refl dnsBuf
  · refine formatRespAnswers_length hecho (Nat.le_trans (by decide) (Nat.le_max_left _ _)) fun a ha => ?_
    unfold recordLimit
    split_ifs with hname
    · have hdiv : ((cStr a.data).length + 1) / 65536 ≤ n :=
        Nat.lt_succ_iff.mp (Nat.div_lt_of_lt_mul (hn a ha hname))
      have hbuf : dnsBuf = 4096 := rfl
      omega
    · exact Nat.le_trans (by decide) (Nat.le_max_left _ _)

/-- A query for the address of `a`. -/
def shortQuery : Bytes := [0x12, 0x34, 1, 0, 0, 1, 0, 0, 0, 0, 0, 0, 1, 0x61, 0, 0, 1, 0, 1]

/-- Two text records, the second too long to fit. -/
def textAnswers : List RespAnswer :=
  [⟨16, 60, 0, 0, 0, ['a']⟩, ⟨16, 60, 0, 0, 0, List.replicate 5000 'a'⟩]

/-- A mail exchanger and a service's host. -/
def namedAnswers : List RespAnswer :=
  [⟨15, 60, 10, 0, 0, "mail.a".toList⟩, ⟨33, 60, 1, 2, 443, "host.a".toList⟩]

/-- The text records alone stay within 4096 bytes, and with the two that end in a name within
4098. -/
theorem response_size_text :
    (∃ resp, Checked.formatRespAnswers shortQuery 1 dnsNoError (some textAnswers) 0 false = .ok resp ∧
      resp.length ≤ 4096) ∧
    (∀ a ∈ namedAnswers, EndsInName a) ∧
    ∃ resp, Checked.formatRespAnswers shortQuery 1 dnsNoError
      (some (textAnswers ++ namedAnswers)) 0 false = .ok resp ∧ resp.length ≤ 4098 := by
  have hq : parseQuery shortQuery = .ok ⟨true, 1, [0x61], 1⟩ := by decide +kernel
  have htext : ∀ a ∈ textAnswers, a.atype = nsTTxt := by decide +kernel
  have hplain : ∀ a ∈ textAnswers, ¬ EndsInName a := by
    intro a ha
    rw [EndsInName, htext a ha]
    decide
  obtain ⟨resp, hresp, -, hlen, -⟩ := response_size hq dnsNoError (some textAnswers) 0 false
  obtain ⟨resp', hresp', -, -, hlen'⟩ :=
    response_size hq dnsNoError (some (textAnswers ++ namedAnswers)) 0 false
  refine ⟨⟨resp, hresp, hlen hplain⟩, by simp [namedAnswers, EndsInName, nsTMx, nsTSrv], resp', hresp',
    hlen' 0 fun a ha hname => ?_⟩
  have hshort : ∀ a ∈ namedAnswers, (cStr a.data).length = 6 := by decide +kernel
  rcases List.mem_append.mp ha with ha | ha
  · exact absurd hname (hplain a ha)
  · rw [hshort a ha]
    decide

/-- A text record that leaves ten bytes, and a mail exchanger behind it: the ten are taken, and two
more before the record is found not to fit. -/
theorem response_size_overrun : parseQuery shortQuery = .ok ⟨true, 1, [0x61], 1⟩ ∧
    ∃ resp, Checked.formatRespAnswers shortQuery 1 dnsNoError
      (some [⟨16, 60, 0, 0, 0, List.replicate 4054 'a'⟩, ⟨15, 60, 10, 0, 0, ['b']⟩]) 0 false =
        .ok resp ∧ resp.length = 4098 := by
  refine ⟨by decide +kernel, _, Checked.formatRespAnswers_eq .., ?_⟩
  decide +kernel

end Noa.Tunnel.Intercept
