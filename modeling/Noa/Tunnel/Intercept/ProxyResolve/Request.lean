import Noa.Framework.JsonWrite
import Noa.Tunnel.Intercept.DnsServer.Router

namespace Noa.Tunnel.Intercept.ProxyResolve
open Noa.Framework Noa.Channel

/-! The request to the hosting resolver as a JSON text, and what it stands for. -/

/-- A character as `escape_json_c` writes it, byte by byte. -/
def escapeChar (c : Char) : Text :=
  if c = '\n' then ['\\', 'n']
  else if c = Char.ofNat 0x08 then ['\\', 'b']
  else if c = '\r' then ['\\', 'r']
  else if c = '\t' then ['\\', 't']
  else if c = '\\' then ['\\', '\\']
  else if c = '"' then ['\\', '"']
  else if c.toNat < 0x20 then
    ['\\', 'u', '0', '0', Nat.digitChar (c.toNat / 16), Nat.digitChar (c.toNat % 16)]
  else [c]

def escapeText (s : Text) : Text := s.flatMap escapeChar

theorem escapeByte_ascii : ∀ n < 128, escapeByte (UInt8.ofNat n) = utf8 (escapeChar (Char.ofNat n)) := by
  decide +kernel

theorem escapeByte_high {b : UInt8} (h : 128 ≤ b.toNat) : escapeByte b = [b] := by
  have hne {a : UInt8} (ha : a.toNat < 128) : b ≠ a := by
    rintro rfl
    omega
  have hlt : ¬b < 0x20 := by
    rw [UInt8.lt_iff_toNat_lt]
    exact Nat.not_lt.mpr (Nat.le_trans (by decide) h)
  unfold escapeByte
  rw [if_neg (hne (by decide)), if_neg (hne (by decide)), if_neg (hne (by decide)),
    if_neg (hne (by decide)), if_neg (hne (by decide)), if_neg (hne (by decide)), if_neg hlt]

theorem escapeChar_high {c : Char} (h : 128 ≤ c.toNat) : escapeChar c = [c] := by
  have hne {d : Char} (hd : d.toNat < 128) : c ≠ d := by
    rintro rfl
    omega
  unfold escapeChar
  rw [if_neg (hne (by decide)), if_neg (hne (by decide)), if_neg (hne (by decide)),
    if_neg (hne (by decide)), if_neg (hne (by decide)), if_neg (hne (by decide)),
    if_neg (by omega)]

/-- Escaping the bytes of a text is escaping its characters: no byte of a character past ASCII is
one that is escaped. -/
theorem escapeJsonC_utf8 (s : Text) : escapeJsonC (utf8 s) = utf8 (escapeText s) := by
  induction s with
  | nil => rfl
  | cons c s ih =>
    have hchar : escapeJsonC (String.utf8EncodeChar c) = utf8 (escapeChar c) := by
      by_cases hc : c.toNat ≤ 127
      · have hbyte := escapeByte_ascii c.toNat (Nat.lt_succ_of_le hc)
        rw [Char.ofNat_toNat] at hbyte
        rw [utf8EncodeChar_ascii hc, ← hbyte]
        exact List.append_nil _
      · have hhigh := utf8EncodeChar_high (Nat.lt_of_not_le hc)
        rw [escapeChar_high (Nat.lt_of_not_le hc), utf8_cons, utf8_nil, List.append_nil]
        unfold escapeJsonC
        generalize String.utf8EncodeChar c = bs at hhigh
        induction bs with
        | nil => rfl
        | cons b bs ihb =>
          obtain ⟨hb, hbs⟩ := List.forall_mem_cons.mp hhigh
          rw [List.flatMap_cons, escapeByte_high hb, ihb hbs]
          rfl
    rw [utf8_cons, escapeText, List.flatMap_cons, utf8_append, ← hchar]
    unfold escapeText at ih
    rw [← ih]
    exact List.flatMap_append

theorem isChar_escapeChar (c : Char) : Json.IsChar (escapeChar c) c := by
  unfold escapeChar
  split_ifs with hn hb hr ht hs hq hc
  · subst hn
    exact .short rfl
  · subst hb
    exact .short rfl
  · subst hr
    exact .short rfl
  · subst ht
    exact .short rfl
  · subst hs
    exact .short rfl
  · subst hq
    exact .short rfl
  · have hcode := Json.IsChar.unicode ⟨rfl, Json.hexValue_below_space c.toNat hc⟩ (.inl (by omega))
    rwa [Char.ofNat_toNat] at hcode
  · exact .plain hq hs (Nat.le_of_not_lt hc)

theorem isChars_escapeText (s : Text) : Json.IsChars (escapeText s) s := by
  induction s with
  | nil => exact .nil
  | cons c s ih => exact .cons (isChar_escapeChar c) ih

/-- What a request says. -/
def dnsMessage (id : UInt16) (recursive : Bool) (name : Text) (qtype : UInt16) : Json :=
  .obj [("status".toList, .num 0), ("id".toList, .num id.toNat),
    ("recursive".toList, .num (if recursive then 1 else 0)),
    ("question".toList, .arr [.obj [("name".toList, .str name), ("type".toList, .num qtype.toNat)]])]

/-- The text of a request. -/
def dnsMessageText (id : UInt16) (recursive : Bool) (name : Text) (qtype : UInt16) : Text :=
  "\x7b\"status\":0,\"id\":".toList ++ (toString id.toNat).toList ++
    ",\"recursive\":".toList ++ [if recursive then '1' else '0'] ++
    ",\"question\":[\x7b\"name\":\"".toList ++ escapeText name ++
    "\",\"type\":".toList ++ (toString qtype.toNat).toList ++ "\x7d]\x7d".toList

theorem emitDnsMessageJson_utf8 (id : UInt16) (recursive : Bool) (name : Text) (qtype : UInt16) :
    emitDnsMessageJson id recursive (utf8 name) qtype =
      utf8 (dnsMessageText id recursive name qtype) := by
  have hflag : [if recursive then 0x31 else 0x30] = utf8 [if recursive then '1' else '0'] := by
    cases recursive <;> rfl
  unfold emitDnsMessageJson dnsMessageText
  simp only [utf8_append]
  rw [hflag, escapeJsonC_utf8]
  rfl

/-- A key of the request, quoted. -/
def quoted (key : Text) : Text := '"' :: (key ++ ['"'])

theorem isString_key : ∀ k ∈ ["status", "id", "recursive", "question", "name", "type"],
    Json.IsString (quoted k.toList) k.toList := by
  have hplain : ∀ k ∈ ["status", "id", "recursive", "question", "name", "type"],
      ∀ c ∈ k.toList, c ≠ '"' ∧ c ≠ '\\' ∧ 0x20 ≤ c.toNat := by simp
  exact fun k hk => .mk (Json.isChars_plain (hplain k hk))

theorem isValue_nat (n : Nat) : Json.IsValue (toString n).toList (.num n) :=
  .num (Json.isNumber_nat n)

theorem isValue_flag (b : Bool) :
    Json.IsValue [if b then '1' else '0'] (.num (if b then 1 else 0)) := by
  have hzero := isValue_nat 0
  have hone := isValue_nat 1
  rw [Nat.cast_zero] at hzero
  rw [Nat.cast_one] at hone
  cases b with
  | false => exact hzero
  | true => exact hone

theorem dnsMessageText_eq (id : UInt16) (recursive : Bool) (name : Text) (qtype : UInt16) :
    dnsMessageText id recursive name qtype =
      '{' :: (quoted "status".toList ++ ':' :: ['0'] ++
        ',' :: (quoted "id".toList ++ ':' :: (toString id.toNat).toList ++
          ',' :: (quoted "recursive".toList ++ ':' :: [if recursive then '1' else '0'] ++
            ',' :: (quoted "question".toList ++ ':' :: '[' ::
              ('{' :: (quoted "name".toList ++ ':' :: quoted (escapeText name) ++
                ',' :: (quoted "type".toList ++ ':' :: (toString qtype.toNat).toList) ++
              ['}']) ++ [']'])))) ++ ['}']) := by
  unfold dnsMessageText quoted
  generalize (toString id.toNat).toList = a
  generalize (toString qtype.toNat).toList = b
  generalize escapeText name = d
  generalize (if recursive then '1' else '0') = e
  simp only [String.reduceToList, List.append_assoc, List.cons_append,
    List.nil_append]

theorem isText_dnsMessage (id : UInt16) (recursive : Bool) (name : Text) (qtype : UInt16) :
    Json.IsText (dnsMessageText id recursive name qtype) (dnsMessage id recursive name qtype) := by
  have hname : Json.IsValue (quoted (escapeText name)) (.str name) :=
    .str (.mk (isChars_escapeText name))
  have hzero : Json.IsValue ['0'] (.num 0) := isValue_flag false
  have hquestion := Json.IsValue.obj (.more (hname.member (isString_key "name" (by simp)))
    (.one ((isValue_nat qtype.toNat).member (isString_key "type" (by simp)))))
  have hquestions := Json.IsValue.arr (.one hquestion.element)
  have hmessage := Json.IsValue.obj
    (.more (hzero.member (isString_key "status" (by simp)))
      (.more ((isValue_nat id.toNat).member (isString_key "id" (by simp)))
        (.more ((isValue_flag recursive).member (isString_key "recursive" (by simp)))
          (.one (hquestions.member (isString_key "question" (by simp)))))))
  rw [dnsMessageText_eq]
  exact hmessage.element

theorem missQuery_ne_forwardProxy {packet : Bytes} {q : ParsedQuery} {up : Bool} {query : ProxyQuery} :
    missQuery packet q up ≠ .forwardProxy query := by
  unfold missQuery
  split_ifs <;> simp

/-- Every request that is forwarded is the text of its query: the name that was matched is UTF-8. -/
theorem forwardProxy_request {d d' : DnsMatcher} {packet : Bytes} {up px : Bool} {query : ProxyQuery}
    (h : handleQuery d packet up px = (.forwardProxy query, d')) :
    ∃ q n, parseQuery packet = .ok q ∧ q.matched = some n ∧
      query.json = utf8 (dnsMessageText query.id q.recursive n q.qtype) := by
  unfold handleQuery at h
  split at h
  · cases h
  · next q hq =>
    by_cases hhost : q.qtype = QType.a ∨ q.qtype = QType.aaaa
    · rw [if_pos hhost] at h
      split at h
      · cases h
      · exact absurd (congrArg Prod.fst h) missQuery_ne_forwardProxy
    · rw [if_neg hhost] at h
      split at h
      · next domain hdomain =>
        obtain ⟨n, hn, -⟩ := Option.bind_eq_some_iff.mp hdomain
        refine ⟨q, n, hq, hn, ?_⟩
        have haction := congrArg Prod.fst h
        simp only [proxyQuery] at haction
        split_ifs at haction
        cases haction
        rw [← decodeUtf8_eq_some.mp hn, emitDnsMessageJson_utf8]
      · exact absurd (congrArg Prod.fst h) missQuery_ne_forwardProxy

theorem dnsMessage_inj {id id' : UInt16} {recursive recursive' : Bool} {name name' : Text}
    {qtype qtype' : UInt16}
    (h : dnsMessage id' recursive' name' qtype' = dnsMessage id recursive name qtype) :
    id' = id ∧ recursive' = recursive ∧ name' = name ∧ qtype' = qtype := by
  have hflag : (if recursive' then (1 : Rat) else 0) = (if recursive then 1 else 0) →
      recursive' = recursive := by
    cases recursive <;> cases recursive' <;> simp
  simp only [dnsMessage, Json.obj.injEq, Json.arr.injEq, Json.num.injEq, Json.str.injEq,
    List.cons.injEq, Prod.mk.injEq, Nat.cast_inj, UInt16.toNat_inj, true_and, and_true] at h
  exact ⟨h.1, hflag h.2.1, h.2.2.1, h.2.2.2⟩

/-- A name cannot inject anything into the request. Whatever the name is, quotes, backslashes and
control characters included, the request is a JSON text that stands for the message with that very
name and nothing else, and different queries give different requests. -/
theorem request_not_injectable {name : Bytes} {n : Text} (hname : decodeUtf8 name = some n)
    (id : UInt16) (recursive : Bool) (qtype : UInt16) :
    (∃ t, decodeUtf8 (emitDnsMessageJson id recursive name qtype) = some t ∧
      Json.parse t = some (dnsMessage id recursive n qtype) ∧
      ∀ v, Json.IsText t v ↔ v = dnsMessage id recursive n qtype) ∧
    ∀ (id' : UInt16) (recursive' : Bool) (name' : Bytes) (n' : Text) (qtype' : UInt16),
      decodeUtf8 name' = some n' →
      emitDnsMessageJson id' recursive' name' qtype' = emitDnsMessageJson id recursive name qtype →
      id' = id ∧ recursive' = recursive ∧ name' = name ∧ qtype' = qtype := by
  obtain rfl := decodeUtf8_eq_some.mp hname
  have htext := isText_dnsMessage id recursive n qtype
  constructor
  · refine ⟨_, decodeUtf8_eq_some.mpr (emitDnsMessageJson_utf8 id recursive n qtype).symm,
      Json.parse_of_isText htext, fun v => ⟨fun hv => hv.unique htext, ?_⟩⟩
    rintro rfl
    exact htext
  · intro id' recursive' name' n' qtype' hname' heq
    obtain rfl := decodeUtf8_eq_some.mp hname'
    rw [emitDnsMessageJson_utf8, emitDnsMessageJson_utf8, utf8_inj] at heq
    have htext' := isText_dnsMessage id' recursive' n' qtype'
    rw [heq] at htext'
    obtain ⟨hid, hrec, hn, hqtype⟩ := dnsMessage_inj (htext'.unique htext)
    exact ⟨hid, hrec, congrArg utf8 hn, hqtype⟩

/-- A name that would end its string and go on with members of its own. -/
def quotingName : Text := "a\",\"type\":1,\"x\":\"\\".toList

theorem request_not_injectable_quoting :
    decodeUtf8 (utf8 quotingName) = some quotingName ∧
    ∃ t, decodeUtf8 (emitDnsMessageJson 7 true (utf8 quotingName) 16) = some t ∧
      Json.parse t = some (dnsMessage 7 true quotingName 16) ∧
      ∀ v, Json.IsText t v ↔ v = dnsMessage 7 true quotingName 16 :=
  have hname := decodeUtf8_eq_some.mpr rfl
  ⟨hname, (request_not_injectable hname 7 true 16).1⟩

end Noa.Tunnel.Intercept.ProxyResolve
