import Noa.Tunnel.Intercept.DnsServer.Router

namespace Noa.Tunnel.Intercept
open Noa.Framework Noa.Channel

/-- A response made a request again: its QR bit cleared. -/
def clearQr (resp : Bytes) : Bytes := resp.modify 2 (· &&& 0x7f)

/-- What a response keeps of the request: the identifier, the count of questions and the RD flag in
the header, and the question behind it. -/
structure Carries (packet asked resp : Bytes) : Prop where
  head : ∀ i < 6, i ≠ 2 → i ≠ 3 → resp.getD i 0 = packet.getD i 0
  rd : (resp.getD 2 0).toNat.testBit 0 = (packet.getD 2 0).toNat.testBit 0
  question : dnsHeaderLen ≤ resp.length ∧ asked <+: resp.drop dnsHeaderLen

section Carries

variable {packet asked resp : Bytes}

theorem getD_modify (resp : Bytes) (i j : Nat) (f : UInt8 → UInt8) :
    (resp.modify j f).getD i 0 =
      if i = j ∧ i < resp.length then f (resp.getD i 0) else resp.getD i 0 := by
  rw [List.getD_eq_getElem?_getD, List.getD_eq_getElem?_getD, List.getElem?_modify]
  by_cases hlt : i < resp.length
  · rw [List.getElem?_eq_getElem hlt]
    by_cases hij : i = j
    · simp [hij, hij ▸ hlt]
    · simp [hij, Ne.symm hij]
  · rw [List.getElem?_eq_none (Nat.le_of_not_lt hlt)]
    simp [hlt]

theorem getD_copyAt {bs : Bytes} {i j : Nat} (hij : i < j) (hj : j ≤ resp.length) :
    (copyAt resp j bs).getD i 0 = resp.getD i 0 := by
  rw [copyAt, List.getD_eq_getElem?_getD, List.getD_eq_getElem?_getD, List.append_assoc,
    List.getElem?_append_left (by rw [List.length_take]; omega), List.getElem?_take_of_lt hij]

theorem drop_copyAt {bs : Bytes} {i n : Nat} (hin : i + bs.length ≤ n) (hn : n ≤ resp.length) :
    (copyAt resp i bs).drop n = resp.drop n := by
  have hfront : (resp.take i ++ bs).length = i + bs.length := by
    rw [List.length_append, List.length_take]
    omega
  have hsum : i + bs.length + (n - (i + bs.length)) = n := by omega
  rw [copyAt, List.drop_append, hfront, List.drop_eq_nil_of_le (by omega), List.nil_append,
    List.drop_drop, hsum]

theorem Carries.append (h : Carries packet asked resp) (tail : Bytes) :
    Carries packet asked (resp ++ tail) := by
  have hlen : 12 ≤ resp.length := h.question.1
  have hget (i : Nat) (hi : i < 12) : (resp ++ tail).getD i 0 = resp.getD i 0 :=
    List.getD_append _ _ _ _ (by omega)
  refine ⟨fun i hi h2 h3 => ?_, ?_, ?_, ?_⟩
  · rw [hget i (by omega)]
    exact h.head i hi h2 h3
  · rw [hget 2 (by omega)]
    exact h.rd
  · rw [List.length_append]
    exact Nat.le_add_right_of_le h.question.1
  · rw [List.drop_append_of_le_length h.question.1]
    exact h.question.2.trans (List.prefix_append _ _)

theorem Carries.modify (h : Carries packet asked resp) {f : UInt8 → UInt8}
    (hf : ∀ b, (f b).toNat.testBit 0 = b.toNat.testBit 0) : Carries packet asked (resp.modify 2 f) := by
  refine ⟨fun i hi h2 h3 => ?_, ?_, ?_, ?_⟩
  · rw [getD_modify, if_neg fun hi => h2 hi.1]
    exact h.head i hi h2 h3
  · rw [getD_modify, if_pos ⟨rfl, Nat.lt_of_lt_of_le (by decide) h.question.1⟩, hf]
    exact h.rd
  · rw [List.length_modify]
    exact h.question.1
  · rw [List.drop_modify_of_lt _ _ _ _ (by decide)]
    exact h.question.2

theorem Carries.copyAt (h : Carries packet asked resp) {bs : Bytes} {i : Nat} (hi : 6 ≤ i)
    (hlen : i + bs.length ≤ dnsHeaderLen) : Carries packet asked (copyAt resp i bs) := by
  have h12 := h.question.1
  refine ⟨fun j hj h2 h3 => ?_, ?_, ?_, ?_⟩
  · rw [getD_copyAt (by omega) (by omega)]
    exact h.head j hj h2 h3
  · rw [getD_copyAt (by omega) (by omega)]
    exact h.rd
  · rw [copyAt_length (by omega)]
    exact h12
  · rw [drop_copyAt hlen h12]
    exact h.question.2

theorem map_getD_range' {p : Nat} {xs rest : Bytes} (h : packet.drop p = xs ++ rest) :
    (List.range' p xs.length).map (fun i => packet.getD i 0) = xs := by
  refine List.ext_getElem (by simp) fun i hi hi' => ?_
  have hget : (packet.drop p)[i]? = some xs[i] := by
    rw [h, List.getElem?_append_left hi', List.getElem?_eq_getElem hi']
  rw [List.getElem?_drop] at hget
  simp [List.getD_eq_getElem?_getD, hget]

/-- The header of a response before its sections are counted. -/
def echoHeader (packet : Bytes) (status : UInt8) (ra : Bool) : Bytes :=
  let flags := packet.getD 3 0 ||| (status &&& 0x0f)
  [packet.getD 0 0, packet.getD 1 0, packet.getD 2 0 ||| 0x80, if ra then flags ||| 0x80 else flags,
    packet.getD 4 0, packet.getD 5 0, packet.getD 6 0, packet.getD 7 0, packet.getD 8 0,
    packet.getD 9 0, packet.getD 10 0, packet.getD 11 0]

/-- The bytes behind the header that a response repeats, zero past the end of the packet. -/
def echoed (packet : Bytes) (nameStrlen : Nat) : Bytes :=
  (List.range' dnsHeaderLen (nameStrlen + 2 + 4)).map fun i => packet.getD i 0

theorem echoed_length (packet : Bytes) (nameStrlen : Nat) :
    (echoed packet nameStrlen).length = nameStrlen + 2 + 4 := by
  simp [echoed]

theorem echoed_eq {rest : Bytes} {nameStrlen : Nat} (h : packet.drop dnsHeaderLen = asked ++ rest)
    (hlen : nameStrlen + 2 + 4 = asked.length) : echoed packet nameStrlen = asked := by
  rw [echoed, hlen]
  exact map_getD_range' h

theorem echoRequest_eq (packet : Bytes) (nameStrlen : Nat) (status : UInt8) (ra : Bool) :
    echoRequest packet nameStrlen status ra =
      echoHeader packet status ra ++ echoed packet nameStrlen := by
  cases ra <;> rfl

theorem testBit_zero_or {a b : UInt8} (h : b.toNat.testBit 0 = false) :
    (a ||| b).toNat.testBit 0 = a.toNat.testBit 0 := by
  rw [UInt8.toNat_or, Nat.testBit_or, h, Bool.or_false]

theorem carries_echo (packet asked : Bytes) (status : UInt8) (ra : Bool) :
    Carries packet asked (echoHeader packet status ra ++ asked) := by
  refine ⟨fun i hi h2 h3 => ?_, ?_, ?_, ?_⟩
  · have hcases : i = 0 ∨ i = 1 ∨ i = 4 ∨ i = 5 := by omega
    rcases hcases with rfl | rfl | rfl | rfl <;> rfl
  · exact testBit_zero_or rfl
  · rw [List.length_append]
    exact Nat.le_add_right 12 _
  · exact List.prefix_refl _

theorem Carries.finishResp (h : Carries packet asked resp) : Carries packet asked (finishResp resp) := by
  have hcopy : Carries packet asked (Intercept.copyAt resp 10 (u16ToBe 1)) :=
    h.copyAt (by decide) (by decide)
  unfold Intercept.finishResp
  dsimp only
  split_ifs
  · exact hcopy.append _
  · exact hcopy

theorem Carries.writeSection (h : Carries packet asked resp) (addr : BitVec 32)
    (answers : List RespAnswer) : Carries packet asked (writeSection addr answers resp) := by
  obtain ⟨tail, htail⟩ := writeAnswers_appends addr answers resp 0
  have hall : Carries packet asked (writeAnswers addr answers resp 0).1 := htail ▸ h.append tail
  unfold Intercept.writeSection
  dsimp only
  split_ifs
  · exact (hall.modify fun b => testBit_zero_or rfl).copyAt (by decide) (by rw [u16ToBe_length]; decide)
  · exact hall.copyAt (by decide) (by rw [u16ToBe_length]; decide)

theorem formatRespAnswers_carries {rest : Bytes} {nameStrlen : Nat}
    (h : packet.drop dnsHeaderLen = asked ++ rest) (hlen : nameStrlen + 2 + 4 = asked.length)
    (status : UInt8) (answers : Option (List RespAnswer)) (addr : BitVec 32) (ra : Bool) :
    Carries packet asked (formatRespAnswers packet nameStrlen status answers addr ra) := by
  have hecho : Carries packet asked (echoRequest packet nameStrlen status ra) := by
    rw [echoRequest_eq, echoed_eq h hlen]
    exact carries_echo packet asked status ra
  by_cases hbare : answers = none ∨ status ≠ dnsNoError
  · rw [formatRespAnswers_bare packet nameStrlen addr ra hbare]
    exact hecho.finishResp
  · obtain ⟨hsome, hstatus⟩ := not_or.mp hbare
    obtain ⟨answers, rfl⟩ := Option.ne_none_iff_exists'.mp hsome
    obtain rfl := not_not.mp hstatus
    rw [formatRespAnswers_some]
    exact (hecho.writeSection addr answers).finishResp

theorem Carries.isQuery {q : ParsedQuery} {labels : List Bytes} (hq : IsQuery packet q)
    (hlabels : ∀ l ∈ labels, IsLabel l) (hname : q.name = dotted labels)
    (h : Carries packet (Intercept.question labels q.qtype) resp) (hlen : resp.length ≤ dnsBuf) :
    IsQuery (clearQr resp) q := by
  have hlow : (0x7f : UInt8).toNat.testBit 0 = true := rfl
  have hclear : Carries packet (Intercept.question labels q.qtype) (clearQr resp) :=
    h.modify fun b => by rw [UInt8.toNat_and, Nat.testBit_and, hlow, Bool.and_true]
  obtain ⟨hhead, tail, htail⟩ := hclear.question
  constructor
  · refine ⟨hhead, ?_⟩
    rw [clearQr, List.length_modify]
    exact hlen
  · have hseven : (0x7f : UInt8).toNat.testBit 7 = false := rfl
    rw [clearQr, getD_modify, if_pos ⟨rfl, Nat.lt_of_lt_of_le (by decide) h.question.1⟩,
      UInt8.toNat_and, Nat.testBit_and, hseven, Bool.and_false]
  · rw [hclear.head 4 (by decide) (by decide) (by decide), hclear.head 5 (by decide) (by decide) (by decide)]
    exact hq.qdcount
  · exact ⟨labels, tail, hlabels, htail.symm, hname⟩
  · rw [hclear.rd]
    exact hq.recursive
  · exact hq.nameStrlen

end Carries

section Local

variable {packet : Bytes} {q : ParsedQuery}

/-- The responses an action may send. -/
def DnsAction.responses : DnsAction → List Bytes
  | .respond response => [response]
  | .drop => []
  | .forwardUpstream onSendFailure => [onSendFailure]
  | .forwardProxy _ => []
  | .respondAndConnectProxy response _ => [response]

/-- An A record whose name points at the question. -/
def aRecord (ip : BitVec 32) : Bytes :=
  [0xc0, 0x0c, 0, 1, 0, 1, 0, 0, 0, 60, 0, 4] ++ u32ToBe (UInt32.ofBitVec ip)

/-- The header of an answer: one question and one record, and the EDNS0 record. -/
def answerHeader (packet : Bytes) (ra : Bool) : Bytes :=
  let flags := packet.getD 3 0
  [packet.getD 0 0, packet.getD 1 0, packet.getD 2 0 ||| 0x80, if ra then flags ||| 0x80 else flags,
    packet.getD 4 0, packet.getD 5 0, 0, 1, packet.getD 8 0, packet.getD 9 0, 0, 1]

theorem formatResp_length (hq : IsQuery packet q) (status : UInt8) (aAnswer : Option (BitVec 32))
    (ra : Bool) : (formatResp packet q.nameStrlen status aAnswer ra).length ≤ dnsBuf := by
  have hother : ¬ (nsTA = nsTMx ∨ nsTA = nsTSrv) := by decide
  have hA (ip : BitVec 32) : recordLimit ⟨nsTA, dnsATtl, 0, 0, 0, IpAddr.print (.v4 ip)⟩ = dnsBuf :=
    if_neg hother
  cases aAnswer with
  | none =>
    rw [formatResp]
    refine formatRespAnswers_length hq.echo_fits (Nat.le_refl dnsBuf) fun a ha => ?_
    cases ha
  | some ip =>
    rw [formatResp]
    refine formatRespAnswers_length hq.echo_fits (Nat.le_refl dnsBuf) fun a ha => ?_
    rw [List.mem_singleton.mp ha, hA ip]

theorem formatResp_answer {nameStrlen : Nat} (hshort : nameStrlen < 256) (ip : BitVec 32) (ra : Bool) :
    formatResp packet nameStrlen dnsNoError (some ip) ra =
      answerHeader packet ra ++ echoed packet nameStrlen ++ aRecord ip ++ dnsOpt := by
  set asked := echoed packet nameStrlen with hasked
  have hlen : asked.length = nameStrlen + 2 + 4 := echoed_length packet nameStrlen
  set echo := echoHeader packet dnsNoError ra ++ asked with hecho
  have hlenEcho : echo.length = 12 + asked.length := by
    rw [hecho, List.length_append]
    rfl
  have hbuf : dnsBuf = 4096 := rfl
  have hrecord : echo ++ [0xc0, 0x0c] ++ u16ToBe nsTA.toUInt64.toUInt16 ++ u16ToBe 1 ++
      u32ToBe dnsATtl.toUInt64.toUInt32 ++ u16ToBe 4 ++ u32ToBe (UInt32.ofBitVec ip) =
      echo ++ aRecord ip := by
    simp only [List.append_assoc]
    rfl
  have hwrite : writeAnswer ip echo ⟨nsTA, dnsATtl, 0, 0, 0, IpAddr.print (.v4 ip)⟩ =
      .ok (echo ++ aRecord ip) := by
    rw [writeAnswer, if_neg (by omega)]
    dsimp only
    rw [if_pos rfl, if_neg, hrecord]
    simp only [List.length_append, List.length_cons, List.length_nil, u16ToBe_length, u32ToBe_length]
    omega
  have hsection : writeSection ip [⟨nsTA, dnsATtl, 0, 0, 0, IpAddr.print (.v4 ip)⟩] echo =
      copyAt (echo ++ aRecord ip) 6 [0, 1] := by
    rw [writeSection, writeAnswers, hwrite]
    rfl
  have hcounts : copyAt (copyAt (echo ++ aRecord ip) 6 [0, 1]) 10 (u16ToBe 1) =
      answerHeader packet ra ++ asked ++ aRecord ip := by
    cases ra <;> simp [hecho, echoHeader, answerHeader, copyAt, u16ToBe_eq, dnsNoError]
  have hfinal : dnsBuf - (answerHeader packet ra ++ asked ++ aRecord ip).length > 11 := by
    have hhead : (answerHeader packet ra).length = 12 := rfl
    have hrec : (aRecord ip).length = 16 := rfl
    rw [List.length_append, List.length_append, hhead, hrec]
    omega
  rw [formatResp, formatRespAnswers_some, echoRequest_eq, ← hasked, ← hecho, hsection, finishResp, hcounts,
    if_pos hfinal]

/-- Every response is formatted for the question, with some status and at most one A record. -/
theorem responses_formatResp (hq : parseQuery packet = .ok q) (d : DnsMatcher) (up px : Bool) :
    ∀ resp ∈ (handleQuery d packet up px).1.responses, ∃ status aAnswer ra,
      resp = formatResp packet q.nameStrlen status aAnswer ra := by
  have hmiss : ∀ resp ∈ (missQuery packet q up).responses, ∃ status aAnswer ra,
      resp = formatResp packet q.nameStrlen status aAnswer ra := by
    unfold missQuery
    split_ifs <;> exact List.forall_mem_singleton.mpr ⟨_, _, _, rfl⟩
  have hproxy (domain : Text) : ∀ resp ∈ (proxyQuery packet q domain up px).responses,
      ∃ status aAnswer ra, resp = formatResp packet q.nameStrlen status aAnswer ra := by
    unfold proxyQuery
    split_ifs
    · exact List.forall_mem_nil _
    all_goals exact List.forall_mem_singleton.mpr ⟨_, _, _, rfl⟩
  by_cases hhost : q.qtype = QType.a ∨ q.qtype = QType.aaaa
  · rw [handleQuery_host d up px hq hhost]
    cases (d.lookupName q.matched).1 with
    | none => exact hmiss
    | some m => exact List.forall_mem_singleton.mpr ⟨_, _, _, rfl⟩
  · rw [handleQuery_other d up px hq hhost]
    cases q.matched.bind d.matchedDomain with
    | none => exact hmiss
    | some domain => exact hproxy domain

theorem IsQuery.matched_length (hq : IsQuery packet q) {t : Text} (h : q.matched = some t) :
    utf8Len t = q.nameStrlen := by
  have hle : q.nameStrlen ≤ q.name.length := hq.nameStrlen ▸ List.findIdx_le_length
  rw [← utf8_length, decodeUtf8_eq_some.mp h, List.length_take, Nat.min_eq_left hle]

end Local

theorem query_echo (packet : Bytes) :
    (∀ q, parseQuery packet = .ok q ↔ IsQuery packet q) ∧
    (∀ e, parseQuery packet = .error e → e = .none) ∧
    ∀ q, parseQuery packet = .ok q → q.name ≠ [] → 0 ∉ q.name →
      ∃ labels rest, (∀ l ∈ labels, IsLabel l) ∧ q.name = dotted labels ∧
        packet.drop dnsHeaderLen = question labels q.qtype ++ rest ∧
        (∀ status answers addr ra,
          let resp := formatRespAnswers packet q.nameStrlen status answers addr ra
          Carries packet (question labels q.qtype) resp ∧
            (resp.length ≤ dnsBuf → parseQuery (clearQr resp) = .ok q)) ∧
        (∀ status aAnswer ra,
          let resp := formatResp packet q.nameStrlen status aAnswer ra
          Carries packet (question labels q.qtype) resp ∧ parseQuery (clearQr resp) = .ok q) ∧
        ∀ d up px,
          (∀ resp ∈ (handleQuery d packet up px).1.responses,
            Carries packet (question labels q.qtype) resp ∧ parseQuery (clearQr resp) = .ok q) ∧
          ∀ m, q.qtype = QType.a → (d.lookupName q.matched).1 = some m →
            (handleQuery d packet up px).1 = .respond
              (answerHeader packet up ++ question labels q.qtype ++ aRecord m.ip ++ dnsOpt) := by
  obtain ⟨hok, herr⟩ := parseQuery_decides packet
  refine ⟨hok, herr, fun q hparse hne hzero => ?_⟩
  have hq := (hok q).mp hparse
  obtain ⟨labels, rest, hlabels, hdrop, hname⟩ := hq.question
  have hstrlen : q.nameStrlen = q.name.length := by
    rw [hq.nameStrlen, List.findIdx_eq_length]
    exact fun b hb => beq_false_of_ne fun heq => hzero (heq ▸ hb)
  have hasked : q.nameStrlen + 2 + 4 = (question labels q.qtype).length := by
    have hlabelsNe : labels ≠ [] := fun h => hne (hname.trans ((dotted_eq_nil hlabels).mpr h))
    rw [question_length, wireLabels_length hlabelsNe, ← hname, hstrlen]
  have hcarries := formatRespAnswers_carries hdrop hasked
  have hagain (resp : Bytes) (h : Carries packet (question labels q.qtype) resp)
      (hlen : resp.length ≤ dnsBuf) : parseQuery (clearQr resp) = .ok q :=
    ((parseQuery_decides (clearQr resp)).1 q).mpr (h.isQuery hq hlabels hname hlen)
  have hlocal (status : UInt8) (aAnswer : Option (BitVec 32)) (ra : Bool) :
      Carries packet (question labels q.qtype) (formatResp packet q.nameStrlen status aAnswer ra) ∧
        parseQuery (clearQr (formatResp packet q.nameStrlen status aAnswer ra)) = .ok q := by
    have h : Carries packet (question labels q.qtype)
        (formatResp packet q.nameStrlen status aAnswer ra) := by
      cases aAnswer <;> rw [formatResp] <;> exact hcarries ..
    exact ⟨h, hagain _ h (formatResp_length hq status aAnswer ra)⟩
  refine ⟨labels, rest, hlabels, hname, hdrop, fun status answers addr ra => ?_, hlocal,
    fun d up px => ⟨fun resp hresp => ?_, fun m ha hm => ?_⟩⟩
  · exact ⟨hcarries .., hagain _ (hcarries ..)⟩
  · obtain ⟨status, aAnswer, ra, rfl⟩ := responses_formatResp hparse d up px resp hresp
    exact hlocal status aAnswer ra
  · have hshort : q.nameStrlen < 256 := by
      cases ht : q.matched with
      | none =>
        rw [ht] at hm
        cases hm
      | some t =>
        rw [ht] at hm
        rw [← hq.matched_length ht]
        exact ((d.lookup_looks t).lookable hm).2
    rw [handleQuery_host d up px hparse (.inl ha), hm]
    simp only [hostReply, if_pos ha]
    rw [formatResp_answer hshort, echoed_eq hdrop hasked]

/-- A question with a label cut short is refused, and one for `a` comes back in the response. -/
theorem query_echo_short : parseQuery (shortQuery.take 13) = .error .none ∧
    parseQuery (clearQr (formatResp shortQuery 1 dnsNoError (some 0x64400001) true)) =
      .ok ⟨true, 1, [0x61], 1⟩ := by
  have hcut : parseQuery (shortQuery.take 13) = .error .none := by decide +kernel
  have hq : parseQuery shortQuery = .ok ⟨true, 1, [0x61], 1⟩ := by decide +kernel
  obtain ⟨-, -, hecho⟩ := query_echo shortQuery
  obtain ⟨labels, rest, -, -, -, -, hlocal, -⟩ := hecho _ hq (by decide) (by decide)
  exact ⟨hcut, (hlocal dnsNoError (some 0x64400001) true).2⟩

end Noa.Tunnel.Intercept
