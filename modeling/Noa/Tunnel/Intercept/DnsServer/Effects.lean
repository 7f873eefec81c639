import Noa.Tunnel.Intercept.DnsServer.Echo

namespace Noa.Tunnel.Intercept
open Noa.Framework Noa.Channel

/-- The name a query is looked for under: its bytes up to the first zero byte, as a text. -/
def Names (q : ParsedQuery) (t : Text) : Prop := utf8 t = q.name.takeWhile (· ≠ 0)

/-- A query for the addresses of a name, in the form it is registered in. -/
structure AsksHost (packet : Bytes) (q : ParsedQuery) (name : Text) : Prop where
  parsed : parseQuery packet = .ok q
  type : q.qtype = QType.a ∨ q.qtype = QType.aaaa
  named : ∃ t, Names q t ∧ DnsMatcher.Lookable t ∧ name = lowerAscii t

/-- The record of an address follows the repeated question. -/
def AnswersWith (q : ParsedQuery) (resp : Bytes) (ip : BitVec 32) : Prop :=
  ∃ tail, resp.drop (dnsHeaderLen + (q.nameStrlen + 2 + 4)) = aRecord ip ++ tail

section Names

variable {packet : Bytes} {q : ParsedQuery} {t : Text}

theorem IsQuery.take_name (hq : IsQuery packet q) :
    q.name.take q.nameStrlen = q.name.takeWhile (· ≠ 0) := by
  have hnot : (fun b : UInt8 => !decide (b ≠ 0)) = (· == 0) := by
    funext b
    simp [beq_eq_decide]
  rw [List.takeWhile_eq_take_findIdx_not, hnot, hq.nameStrlen]

theorem IsQuery.matched_iff (hq : IsQuery packet q) : q.matched = some t ↔ Names q t := by
  rw [ParsedQuery.matched, decodeUtf8_eq_some, hq.take_name, Names]

theorem IsQuery.matched_none (hq : IsQuery packet q) (h : q.matched = none) : ∀ t, ¬ Names q t := by
  intro t ht
  rw [hq.matched_iff.mpr ht] at h
  cases h

theorem AsksHost.matched {name : Text} (h : AsksHost packet q name) :
    ∃ t, q.matched = some t ∧ DnsMatcher.Lookable t ∧ name = lowerAscii t := by
  obtain ⟨t, ht, hlook, hname⟩ := h.named
  have hq := ((parseQuery_decides packet).1 q).mp h.parsed
  exact ⟨t, hq.matched_iff.mpr ht, hlook, hname⟩

end Names

section Answers

variable {packet : Bytes} {q : ParsedQuery}

theorem aRecord_inj {ip ip' : BitVec 32} {tail tail' : Bytes}
    (h : aRecord ip ++ tail = aRecord ip' ++ tail') : ip = ip' := by
  obtain ⟨hrecord, -⟩ := List.append_inj h rfl
  have hbytes : u32ToBe (UInt32.ofBitVec ip) = u32ToBe (UInt32.ofBitVec ip') :=
    List.append_cancel_left hrecord
  have hle := congrArg (fun bs => leValue bs.reverse) hbytes
  simp only [u32ToBe, List.reverse_reverse, leValue_leBytes] at hle
  have hlt := (UInt32.ofBitVec ip).toNat_lt
  have hlt' := (UInt32.ofBitVec ip').toNat_lt
  have hnat : (UInt32.ofBitVec ip).toNat = (UInt32.ofBitVec ip').toNat := by omega
  exact BitVec.toNat_inj.mp hnat

theorem not_answersWith (status : UInt8) (ra : Bool) (ip : BitVec 32) :
    ¬ AnswersWith q (formatResp packet q.nameStrlen status none ra) ip := by
  rintro ⟨tail, htail⟩
  have hlen : (formatResp packet q.nameStrlen status none ra).length ≤
      dnsHeaderLen + (q.nameStrlen + 2 + 4) + 11 := by
    have hhead := (echoRequest_echoes packet q.nameStrlen status ra).2
    have hcopy : (copyAt (echoRequest packet q.nameStrlen status ra) 10 (u16ToBe 1)).length =
        dnsHeaderLen + (q.nameStrlen + 2 + 4) := by
      rw [copyAt_length hhead, echoRequest_length]
    have hopt : dnsOpt.length = 11 := rfl
    rw [formatResp, formatRespAnswers_bare _ _ _ _ (.inl rfl), finishResp]
    split_ifs
    · rw [List.length_append, hcopy, hopt]
    · omega
  have hlong := congrArg List.length htail
  have hrecord : (aRecord ip).length = 16 := rfl
  rw [List.length_drop, List.length_append, hrecord] at hlong
  omega

theorem answersWith_iff (hshort : q.nameStrlen < 256) (ra : Bool) {ip ip' : BitVec 32} :
    AnswersWith q (formatResp packet q.nameStrlen dnsNoError (some ip) ra) ip' ↔ ip = ip' := by
  have hdrop : (formatResp packet q.nameStrlen dnsNoError (some ip) ra).drop
      (dnsHeaderLen + (q.nameStrlen + 2 + 4)) = aRecord ip ++ dnsOpt := by
    have hlen : (answerHeader packet ra ++ echoed packet q.nameStrlen).length =
        dnsHeaderLen + (q.nameStrlen + 2 + 4) := by
      rw [List.length_append, echoed_length]
      rfl
    rw [formatResp_answer hshort, List.append_assoc, ← hlen, List.drop_left]
  rw [AnswersWith, hdrop]
  constructor
  · rintro ⟨tail, htail⟩
    exact aRecord_inj htail
  · rintro rfl
    exact ⟨dnsOpt, rfl⟩

end Answers

/-- What is done to a matcher, but for taking services out. -/
inductive MatcherOp where
  | seedPool (net : Option (Net 32))
  | reserve (ip : BitVec 32)
  | register (address intercept : Text)
  | lookup (query : Text)
  | handleQuery (packet : Bytes) (upstreamAvailable proxyAvailable : Bool)

namespace DnsMatcher

def perform (d : DnsMatcher) : MatcherOp → DnsMatcher
  | .seedPool net => (d.seedPool net).2
  | .reserve ip => d.reserve ip
  | .register address intercept => (d.register address intercept).2
  | .lookup query => (d.lookup query).2
  | .handleQuery packet up px => (Intercept.handleQuery d packet up px).2

theorem lookupName_grows (d : DnsMatcher) (matched : Option Text) :
    d.Grows (d.lookupName matched).2 := by
  cases matched with
  | none => exact .refl d
  | some t => exact (d.lookup_looks t).grows

theorem handleQuery_grows (d : DnsMatcher) (packet : Bytes) (up px : Bool) :
    d.Grows (Intercept.handleQuery d packet up px).2 := by
  by_cases hparse : ∃ q, parseQuery packet = .ok q
  · obtain ⟨q, hq⟩ := hparse
    by_cases hhost : q.qtype = QType.a ∨ q.qtype = QType.aaaa
    · rw [handleQuery_host d up px hq hhost]
      exact d.lookupName_grows q.matched
    · rw [handleQuery_other d up px hq hhost]
      exact .refl d
  · rw [handleQuery_drop d up px (not_exists.mp hparse)]
    exact .refl d

theorem perform_grows (d : DnsMatcher) (op : MatcherOp) : d.Grows (d.perform op) := by
  cases op with
  | seedPool net =>
    have hsame : (d.seedPool net).2.hostnames = d.hostnames := by
      unfold DnsMatcher.seedPool
      cases net.bind IpPool.seed <;> rfl
    exact .of_hostnames hsame
  | reserve ip => exact .of_hostnames rfl
  | register address intercept => exact (d.register_registers address intercept).grows
  | lookup query => exact (d.lookup_looks query).grows
  | handleQuery packet up px => exact d.handleQuery_grows packet up px

theorem foldl_perform_grows (d : DnsMatcher) (ops : List MatcherOp) :
    d.Grows (ops.foldl perform d) := by
  induction ops generalizing d with
  | nil => exact .refl d
  | cons op ops ih => exact (d.perform_grows op).trans (ih (d.perform op))

end DnsMatcher

section Effects

variable {d : DnsMatcher} {packet : Bytes} {q : ParsedQuery} {up px : Bool}

/-- What a query can do to the matcher. -/
theorem handleQuery_frame (d : DnsMatcher) (packet : Bytes) (up px : Bool) :
    (handleQuery d packet up px).2 = d ∨ ∃ q name dom counter, AsksHost packet q name ∧
      d.hostnames[name]? = none ∧ LongestDomain d.domains name dom ∧
      ((handleQuery d packet up px).2 = d.moved counter ∨ ∃ ip, d.ipAddresses[ip]? = none ∧
        (handleQuery d packet up px).2 = (d.moved counter).insertHostname name ⟨ip, some dom, ∅⟩) := by
  by_cases hparse : ∃ q, parseQuery packet = .ok q
  swap
  · rw [handleQuery_drop d up px (not_exists.mp hparse)]
    exact .inl rfl
  obtain ⟨q, hq⟩ := hparse
  by_cases hhost : q.qtype = QType.a ∨ q.qtype = QType.aaaa
  swap
  · rw [handleQuery_other d up px hq hhost]
    exact .inl rfl
  rw [handleQuery_host d up px hq hhost]
  cases ht : q.matched with
  | none => exact .inl rfl
  | some t =>
    have hnames : Names q t := (((parseQuery_decides packet).1 q).mp hq).matched_iff.mp ht
    obtain ⟨counter, hcounter⟩ := d.allocateIp_moves
    have hlooks := d.lookup_looks t
    dsimp only [DnsMatcher.lookupName]
    generalize d.lookup t = out at hlooks ⊢
    cases hlooks with
    | unnamed | known | outside => exact .inl rfl
    | exhausted hlook hnew dom hdom hip =>
      exact .inr ⟨q, _, dom, counter, ⟨hq, hhost, t, hnames, hlook, rfl⟩, hnew, hdom, .inl hcounter⟩
    | assign hlook hnew dom hdom ip hip =>
      refine .inr ⟨q, _, dom, counter, ⟨hq, hhost, t, hnames, hlook, rfl⟩, hnew, hdom,
        .inr ⟨ip, d.allocateIp_spec.2 ip hip, ?_⟩⟩
      rw [← hcounter]

theorem handleQuery_known {name : Text} {e : DnsEntry} (hasks : AsksHost packet q name)
    (ha : q.qtype = QType.a) (he : d.hostnames[name]? = some e) : ∃ resp,
      handleQuery d packet up px = (.respond resp, d) ∧ AnswersWith q resp e.ip := by
  obtain ⟨t, ht, hlook, rfl⟩ := hasks.matched
  have hq := ((parseQuery_decides packet).1 q).mp hasks.parsed
  have hlookup : d.lookupName q.matched = (some ⟨if e.domain.isSome then .domain else .hostname, e.ip⟩, d) := by
    rw [ht]
    have hlooks := d.lookup_looks t
    change d.lookup t = _
    generalize d.lookup t = out at hlooks
    cases hlooks with
    | known h e' he' =>
      cases he.symm.trans he'
      rfl
    | unnamed h => exact absurd hlook h
    | outside h hnew | exhausted h hnew | assign h hnew => cases he.symm.trans hnew
  have hshort : q.nameStrlen < 256 := hq.matched_length ht ▸ hlook.2
  refine ⟨formatResp packet q.nameStrlen dnsNoError (some e.ip) up, ?_, (answersWith_iff hshort up).mpr rfl⟩
  rw [handleQuery_host d up px hasks.parsed hasks.type, hlookup]
  simp only [hostReply, if_pos ha]

/-- An address is answered for a registered name, or for one that got it just now. -/
theorem handleQuery_answer (hparse : parseQuery packet = .ok q) {resp : Bytes} {ip : BitVec 32}
    (hresp : resp ∈ (handleQuery d packet up px).1.responses) (hip : AnswersWith q resp ip) :
    q.qtype = QType.a ∧ ∃ name e, AsksHost packet q name ∧
      (handleQuery d packet up px).2.hostnames[name]? = some e ∧ e.ip = ip ∧
      (d.hostnames[name]? = some e ∨ d.hostnames[name]? = none ∧
        ∃ dom, LongestDomain d.domains name dom ∧ e.domain = some dom) := by
  have hq := ((parseQuery_decides packet).1 q).mp hparse
  have hbare (status : UInt8) (ra : Bool)
      (h : resp = formatResp packet q.nameStrlen status none ra) : False :=
    not_answersWith status ra ip (h ▸ hip)
  have hmiss (h : resp ∈ (missQuery packet q up).responses) : False := by
    unfold missQuery at h
    split_ifs at h <;> exact hbare _ _ (List.mem_singleton.mp h)
  by_cases hhost : q.qtype = QType.a ∨ q.qtype = QType.aaaa
  swap
  · rw [handleQuery_other d up px hparse hhost] at hresp
    cases hdom : q.matched.bind d.matchedDomain with
    | none =>
      rw [hdom] at hresp
      exact (hmiss hresp).elim
    | some domain =>
      rw [hdom] at hresp
      dsimp only [domainReply] at hresp
      unfold proxyQuery at hresp
      split_ifs at hresp
      · cases hresp
      all_goals exact (hbare _ _ (List.mem_singleton.mp hresp)).elim
  rw [handleQuery_host d up px hparse hhost] at hresp ⊢
  cases ht : q.matched with
  | none =>
    rw [ht] at hresp
    exact (hmiss hresp).elim
  | some t =>
    have hnames : Names q t := hq.matched_iff.mp ht
    rw [ht] at hresp
    have hlooks := d.lookup_looks t
    dsimp only [DnsMatcher.lookupName] at hresp ⊢
    generalize d.lookup t = out at hlooks hresp ⊢
    have hanswer {m : DnsMatch} (hm : out.1 = some m) : DnsMatcher.Lookable t ∧ q.qtype = QType.a ∧ m.ip = ip := by
      have hlook := hlooks.lookable hm
      have hshort : q.nameStrlen < 256 := hq.matched_length ht ▸ hlook.2
      rw [hm] at hresp
      have hform := List.mem_singleton.mp hresp
      by_cases ha : q.qtype = QType.a
      · rw [if_pos ha] at hform
        exact ⟨hlook, ha, (answersWith_iff hshort up).mp (hform ▸ hip)⟩
      · rw [if_neg ha] at hform
        exact (hbare _ _ hform).elim
    cases hlooks with
    | unnamed | outside | exhausted => exact (hmiss hresp).elim
    | known hlook e he =>
      obtain ⟨-, ha, hip⟩ := hanswer rfl
      exact ⟨ha, _, e, ⟨hparse, hhost, t, hnames, hlook, rfl⟩, he, hip, .inl he⟩
    | assign hlook hnew dom hdom ip' hip' =>
      obtain ⟨-, ha, hip⟩ := hanswer rfl
      refine ⟨ha, _, ⟨ip', some dom, ∅⟩, ⟨hparse, hhost, t, hnames, hlook, rfl⟩, ?_, hip,
        .inr ⟨hnew, dom, hdom, rfl⟩⟩
      simp only [DnsMatcher.insertHostname, lookup_insert, if_true]

/-- Why a query for the addresses of a name is not answered. -/
def Unanswered (d : DnsMatcher) (q : ParsedQuery) : Prop :=
  (∀ t, ¬ Names q t) ∨ ∃ t, Names q t ∧ (IsWildcard t ∨ 256 ≤ utf8Len t ∨
    d.hostnames[lowerAscii t]? = none ∧
      ((∀ dom ∈ d.domains, ¬ LabelSuffix dom (lowerAscii t)) ∨ d.allocateIp.1 = none))

/-- Why a query of another type is not under a domain. -/
def Undomained (d : DnsMatcher) (q : ParsedQuery) : Prop :=
  (∀ t, ¬ Names q t) ∨ ∃ t, Names q t ∧
    (256 ≤ utf8Len t ∨ ∀ dom ∈ d.domains, ¬ LabelSuffix dom (lowerAscii t))

theorem lookupName_none (hq : IsQuery packet q) (h : (d.lookupName q.matched).1 = none) :
    Unanswered d q := by
  cases ht : q.matched with
  | none => exact .inl (hq.matched_none ht)
  | some t =>
    refine .inr ⟨t, hq.matched_iff.mp ht, ?_⟩
    rw [ht] at h
    have hlooks := d.lookup_looks t
    dsimp only [DnsMatcher.lookupName] at h
    generalize d.lookup t = out at hlooks h
    cases hlooks with
    | unnamed hlook =>
      by_cases hwild : IsWildcard t
      · exact .inl hwild
      · exact .inr (.inl (Nat.le_of_not_lt fun hlt => hlook ⟨hwild, hlt⟩))
    | outside hlook hnew hdom => exact .inr (.inr ⟨hnew, .inl hdom⟩)
    | exhausted hlook hnew dom hdom hip => exact .inr (.inr ⟨hnew, .inr hip⟩)
    | known | assign => cases h

theorem matchedDomain_none {t : Text} (h : d.matchedDomain t = none) :
    256 ≤ utf8Len t ∨ ∀ dom ∈ d.domains, ¬ LabelSuffix dom (lowerAscii t) := by
  by_cases hlen : 256 ≤ utf8Len t
  · exact .inl hlen
  have hclean : (checkName t).map Prod.fst = some (lowerAscii t) := by
    by_cases hwild : IsWildcard t
    · have hsuffix : utf8Len (suffixOf t) < 254 := by
        obtain ⟨rest, rfl⟩ := hwild
        have hrest : utf8Len (suffixOf ('*' :: '.' :: rest)) = utf8Len rest := utf8Len_map_asciiLower rest
        have hfull : utf8Len ('*' :: '.' :: rest) = 2 + utf8Len rest := utf8Len_append ['*', '.'] rest
        omega
      rw [checkName_wildcard hwild, if_pos hsuffix]
      obtain ⟨rest, rfl⟩ := hwild
      rfl
    · have hsame : utf8Len (lowerAscii t) = utf8Len t := utf8Len_map_asciiLower t
      rw [checkName_hostname hwild, if_pos (by omega)]
      rfl
  rw [DnsMatcher.matchedDomain, hclean] at h
  exact .inr (findDomain_none h)

/-- What is forwarded is recursive, and is answered neither from the names nor from the domains. -/
theorem handleQuery_forward {resp : Bytes}
    (hforward : (handleQuery d packet up px).1 = .forwardUpstream resp) :
    up = true ∧ ∃ q, parseQuery packet = .ok q ∧ q.recursive = true ∧
      ((q.qtype = QType.a ∨ q.qtype = QType.aaaa) ∧ Unanswered d q ∨
        ¬ (q.qtype = QType.a ∨ q.qtype = QType.aaaa) ∧ Undomained d q) := by
  have hmiss {q : ParsedQuery} (h : missQuery packet q up = .forwardUpstream resp) :
      up = true ∧ q.recursive = true := by
    unfold missQuery at h
    split_ifs at h with hforwards
    exact Bool.and_eq_true_iff.mp hforwards
  by_cases hparse : ∃ q, parseQuery packet = .ok q
  swap
  · rw [handleQuery_drop d up px (not_exists.mp hparse)] at hforward
    cases hforward
  obtain ⟨q, hparse⟩ := hparse
  have hq := ((parseQuery_decides packet).1 q).mp hparse
  by_cases hhost : q.qtype = QType.a ∨ q.qtype = QType.aaaa
  · rw [handleQuery_host d up px hparse hhost] at hforward
    cases hm : (d.lookupName q.matched).1 with
    | some m =>
      rw [hm] at hforward
      cases hforward
    | none =>
      rw [hm] at hforward
      obtain ⟨hup, hrd⟩ := hmiss hforward
      exact ⟨hup, q, hparse, hrd, .inl ⟨hhost, lookupName_none hq hm⟩⟩
  · rw [handleQuery_other d up px hparse hhost] at hforward
    cases hm : q.matched.bind d.matchedDomain with
    | some domain =>
      rw [hm] at hforward
      dsimp only [domainReply] at hforward
      unfold proxyQuery at hforward
      split_ifs at hforward
    | none =>
      rw [hm] at hforward
      obtain ⟨hup, hrd⟩ := hmiss hforward
      refine ⟨hup, q, hparse, hrd, .inr ⟨hhost, ?_⟩⟩
      cases ht : q.matched with
      | none => exact .inl (hq.matched_none ht)
      | some t =>
        rw [ht] at hm
        exact .inr ⟨t, hq.matched_iff.mp ht, matchedDomain_none hm⟩

end Effects

theorem query_effects (d : DnsMatcher) (packet : Bytes) (up px : Bool) :
    ((handleQuery d packet up px).2 = d ∨ ∃ q name dom counter, AsksHost packet q name ∧
      d.hostnames[name]? = none ∧ LongestDomain d.domains name dom ∧
      ((handleQuery d packet up px).2 = d.moved counter ∨ ∃ ip, d.ipAddresses[ip]? = none ∧
        (handleQuery d packet up px).2 =
          (d.moved counter).insertHostname name ⟨ip, some dom, ∅⟩)) ∧
    (∀ q resp ip, parseQuery packet = .ok q → resp ∈ (handleQuery d packet up px).1.responses →
      AnswersWith q resp ip → q.qtype = QType.a ∧ ∃ name e, AsksHost packet q name ∧
        (handleQuery d packet up px).2.hostnames[name]? = some e ∧ e.ip = ip ∧
        (d.hostnames[name]? = some e ∨ d.hostnames[name]? = none ∧
          ∃ dom, LongestDomain d.domains name dom ∧ e.domain = some dom) ∧
        ∀ (ops : List MatcherOp) packet' q' up' px', AsksHost packet' q' name → q'.qtype = QType.a →
          let d' := ops.foldl DnsMatcher.perform (handleQuery d packet up px).2
          ∃ resp', handleQuery d' packet' up' px' = (.respond resp', d') ∧ AnswersWith q' resp' ip) ∧
    ∀ resp, (handleQuery d packet up px).1 = .forwardUpstream resp →
      up = true ∧ ∃ q, parseQuery packet = .ok q ∧ q.recursive = true ∧
        ((q.qtype = QType.a ∨ q.qtype = QType.aaaa) ∧ Unanswered d q ∨
          ¬ (q.qtype = QType.a ∨ q.qtype = QType.aaaa) ∧ Undomained d q) := by
  refine ⟨handleQuery_frame d packet up px, fun q resp ip hparse hresp hip => ?_, fun resp hforward => ?_⟩
  · obtain ⟨ha, name, e, hasks, he, heip, hsource⟩ := handleQuery_answer hparse hresp hip
    refine ⟨ha, name, e, hasks, he, heip, hsource, fun ops packet' q' up' px' hasks' ha' => ?_⟩
    intro d'
    obtain ⟨e', he', hsame, -⟩ := (handleQuery d packet up px).2.foldl_perform_grows ops name e he
    rw [← heip, ← hsame]
    exact handleQuery_known hasks' ha' he'
  · exact handleQuery_forward hforward

/-- A matcher with the domain `a`, which is under itself. -/
def domainMatcher : DnsMatcher :=
  (DnsMatcher.register ⟨∅, ∅, ∅, IpPool.seed sharedSpace⟩ ['*', '.', 'a'] ['s']).2

/-- The first address of the pool, and the same one when the name is asked for again. -/
theorem query_effects_again :
    let d := (handleQuery domainMatcher shortQuery false false).2
    ∃ resp, handleQuery d shortQuery false false = (.respond resp, d) ∧
      AnswersWith ⟨true, 1, [0x61], 1⟩ resp 0x64400001 := by
  intro d
  have hparse : parseQuery shortQuery = .ok ⟨true, 1, [0x61], 1⟩ := by decide +kernel
  have hmatched : ParsedQuery.matched ⟨true, 1, [0x61], 1⟩ = some ['a'] :=
    decodeUtf8_eq_some.mpr rfl
  have hlookup : (domainMatcher.lookupName (some ['a'])).1 = some ⟨.domain, 0x64400001⟩ := by
    decide +kernel
  have hfirst : (handleQuery domainMatcher shortQuery false false).1 =
      .respond (formatResp shortQuery 1 dnsNoError (some 0x64400001) false) := by
    rw [handleQuery_host _ _ _ hparse (.inl rfl), hmatched, hlookup]
    rfl
  have hresp : formatResp shortQuery 1 dnsNoError (some 0x64400001) false ∈
      (handleQuery domainMatcher shortQuery false false).1.responses := by
    rw [hfirst]
    exact List.mem_singleton_self _
  have hip : AnswersWith ⟨true, 1, [0x61], 1⟩
      (formatResp shortQuery 1 dnsNoError (some 0x64400001) false) 0x64400001 :=
    (answersWith_iff (by decide) false).mpr rfl
  obtain ⟨ha, name, e, hasks, -, -, -, hagain⟩ :=
    (query_effects domainMatcher shortQuery false false).2.1 _ _ _ hparse hresp hip
  exact hagain [] shortQuery _ false false hasks ha

end Noa.Tunnel.Intercept
