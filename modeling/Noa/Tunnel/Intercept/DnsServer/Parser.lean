import Noa.Framework.Stop
import Noa.Tunnel.Intercept.DnsServer.Serializer

namespace Noa.Tunnel.Intercept
open Noa.Framework Noa.Channel

/-- What the routing reads of a request. The name is in dotted form, with the bytes of its labels as
they came; `nameStrlen` is where its first zero byte is, if it has one. -/
structure ParsedQuery where
  recursive : Bool
  qtype : UInt16
  name : Bytes
  nameStrlen : Nat
  deriving DecidableEq

/-- `u16::from_be_bytes`. -/
def u16FromBe (hi lo : UInt8) : UInt16 := UInt16.ofNat (256 * hi.toNat + lo.toNat)

/-- The labels from `p` on behind the name so far, and the place of the zero byte that ends them. -/
def parseLabels (packet name : Bytes) (p : Nat) : Except Stop (Bytes × Nat) :=
  match _ : packet[p]? with
  | none => .error .none
  | some len =>
    if len = 0 then .ok (name, p)
    else
      match getRange packet (p + 1) (p + 1 + len.toNat) with
      | none => .error .none
      | some label =>
        let name := if name = [] then name else name ++ [0x2e]
        parseLabels packet (name ++ label) (p + 1 + len.toNat)
termination_by packet.length - p
decreasing_by
  have hlt : p < packet.length := (List.getElem?_eq_some_iff.mp ‹packet[p]? = some len›).1
  omega

/-- The name and the type of the question, which is of class IN. -/
def parseQuestion (packet : Bytes) : Except Stop (Bytes × UInt16) := do
  let (name, p) ← parseLabels packet [] dnsHeaderLen
  let tail ← orNone (getRange packet (p + 1) (p + 5))
  let qtype := u16FromBe (← indexAt tail 0) (← indexAt tail 1)
  let cls := u16FromBe (← indexAt tail 2) (← indexAt tail 3)
  if cls ≠ 1 then .error .none else return (name, qtype)

def parseQuery (packet : Bytes) : Except Stop ParsedQuery :=
  if packet.length < dnsHeaderLen ∨ dnsBuf < packet.length then .error .none
  else do
    let flags := u16FromBe (← indexAt packet 2) (← indexAt packet 3)
    if flags &&& 0x8000 ≠ 0 then .error .none
    else
      let qdcount := u16FromBe (← indexAt packet 4) (← indexAt packet 5)
      if qdcount ≠ 1 then .error .none
      else
        let (name, qtype) ← parseQuestion packet
        return ⟨flags &&& 0x0100 != 0, qtype, name, name.findIdx (· == 0)⟩

section Words

theorem u16ToBe_eq (w : UInt16) : u16ToBe w = [UInt8.ofNat (w.toNat / 256), UInt8.ofNat w.toNat] := rfl

@[simp] theorem u16ToBe_length (w : UInt16) : (u16ToBe w).length = 2 := rfl

@[simp] theorem u32ToBe_length (w : UInt32) : (u32ToBe w).length = 4 := rfl

theorem u16FromBe_toNat (hi lo : UInt8) : (u16FromBe hi lo).toNat = 256 * hi.toNat + lo.toNat := by
  have hhi := hi.toNat_lt
  have hlo := lo.toNat_lt
  rw [u16FromBe, UInt16.toNat_ofNat']
  omega

@[simp] theorem u16ToBe_u16FromBe (hi lo : UInt8) : u16ToBe (u16FromBe hi lo) = [hi, lo] := by
  have hlo := lo.toNat_lt
  have hhigh : (256 * hi.toNat + lo.toNat) / 256 = hi.toNat := by omega
  rw [u16ToBe_eq, u16FromBe_toNat, hhigh, UInt8.ofNat_toNat, List.cons.injEq]
  refine ⟨rfl, ?_⟩
  rw [List.cons.injEq, ← UInt8.toNat_inj, UInt8.toNat_ofNat']
  exact ⟨by omega, rfl⟩

theorem u16ToBe_inj {v w : UInt16} : u16ToBe v = u16ToBe w ↔ v = w := by
  refine ⟨fun h => ?_, congrArg u16ToBe⟩
  simp only [u16ToBe_eq, List.cons.injEq, ← UInt8.toNat_inj, UInt8.toNat_ofNat'] at h
  have hv := v.toNat_lt
  have hw := w.toNat_lt
  apply UInt16.toNat_inj.mp
  omega

theorem u16FromBe_eq_iff {hi lo : UInt8} {w : UInt16} : u16FromBe hi lo = w ↔ [hi, lo] = u16ToBe w := by
  rw [← u16ToBe_inj, u16ToBe_u16FromBe]

theorem u16FromBe_flag (hi lo : UInt8) {i : Nat} (hi8 : i < 8) :
    u16FromBe hi lo &&& UInt16.ofNat (2 ^ (8 + i)) = 0 ↔ hi.toNat.testBit i = false := by
  have hlo := lo.toNat_lt
  have hpow : (UInt16.ofNat (2 ^ (8 + i))).toNat = 2 ^ (8 + i) :=
    Nat.mod_eq_of_lt (Nat.pow_lt_pow_right (by decide) (by omega))
  have hbit : (256 * hi.toNat + lo.toNat).testBit (8 + i) = hi.toNat.testBit i := by
    have h := Nat.testBit_two_pow_mul_add hi.toNat (i := 8) hlo (8 + i)
    rwa [if_neg (by omega), Nat.add_sub_cancel_left] at h
  rw [← UInt16.toNat_inj, UInt16.toNat_and, u16FromBe_toNat, hpow, Nat.and_two_pow, hbit]
  cases hi.toNat.testBit i <;> simp

end Words

section Labels

/-- A label as a question can carry it. -/
def IsLabel (label : Bytes) : Prop := label ≠ [] ∧ label.length < 256

/-- Labels with their length bytes. -/
def wireLabels (labels : List Bytes) : Bytes := labels.flatMap fun l => UInt8.ofNat l.length :: l

/-- Labels joined with dots. -/
def dotted (labels : List Bytes) : Bytes := List.intercalate [0x2e] labels

def joinLabel (name label : Bytes) : Bytes := (if name = [] then name else name ++ [0x2e]) ++ label

theorem wireLabels_cons (l : Bytes) (ls : List Bytes) :
    wireLabels (l :: ls) = UInt8.ofNat l.length :: (l ++ wireLabels ls) := rfl

theorem IsLabel.toNat_length {l : Bytes} (h : IsLabel l) : (UInt8.ofNat l.length).toNat = l.length :=
  UInt8.toNat_ofNat_of_lt h.2

theorem IsLabel.length_ne_zero {l : Bytes} (h : IsLabel l) : UInt8.ofNat l.length ≠ 0 := by
  rw [ne_eq, ← UInt8.toNat_inj, h.toNat_length]
  exact fun hl => h.1 (List.length_eq_zero_iff.mp hl)

theorem joinLabel_foldl {name : Bytes} (hname : name ≠ []) (labels : List Bytes) :
    labels.foldl joinLabel name = dotted (name :: labels) := by
  induction labels generalizing name with
  | nil => simp [dotted]
  | cons l ls ih =>
    have hjoin : joinLabel name l = name ++ [0x2e] ++ l := by rw [joinLabel, if_neg hname]
    rw [List.foldl_cons, hjoin, ih (by simp [hname])]
    cases ls <;> simp [dotted]

theorem joinLabel_foldl_nil {labels : List Bytes} (hlabels : ∀ l ∈ labels, IsLabel l) :
    labels.foldl joinLabel [] = dotted labels := by
  cases labels with
  | nil => rfl
  | cons l ls => exact joinLabel_foldl (hlabels l List.mem_cons_self).1 ls

theorem dotted_eq_nil {labels : List Bytes} (hlabels : ∀ l ∈ labels, IsLabel l) :
    dotted labels = [] ↔ labels = [] := by
  cases labels with
  | nil => simp [dotted]
  | cons l ls =>
    have hl := (hlabels l List.mem_cons_self).1
    cases ls <;> simp [dotted, hl]

theorem wireLabels_length {labels : List Bytes} (hne : labels ≠ []) :
    (wireLabels labels).length = (dotted labels).length + 1 := by
  induction labels with
  | nil => exact absurd rfl hne
  | cons l ls ih =>
    cases ls with
    | nil => simp [wireLabels, dotted]
    | cons l' ls =>
      have h := ih (List.cons_ne_nil _ _)
      rw [wireLabels_cons, List.length_cons, List.length_append, h]
      simp [dotted]

end Labels

section Queries

variable {packet : Bytes}

theorem drop_eq_cons {p : Nat} {b : UInt8} (h : packet[p]? = some b) :
    packet.drop p = b :: packet.drop (p + 1) := by
  obtain ⟨hlt, hb⟩ := List.getElem?_eq_some_iff.mp h
  rw [List.drop_eq_getElem_cons hlt, hb]

theorem wireLabels_inv {p : Nat} {len : UInt8} {labels : List Bytes} {rest : Bytes}
    (h : packet[p]? = some len) (hlen : len ≠ 0) (hlabels : ∀ l ∈ labels, IsLabel l)
    (hdrop : packet.drop p = wireLabels labels ++ 0 :: rest) :
    ∃ l ls, labels = l :: ls ∧ l.length = len.toNat ∧
      packet.drop (p + 1) = l ++ (wireLabels ls ++ 0 :: rest) := by
  rw [drop_eq_cons h] at hdrop
  cases labels with
  | nil => exact absurd (List.cons.inj hdrop).1 hlen
  | cons l ls =>
    rw [wireLabels_cons, List.cons_append, List.append_assoc] at hdrop
    obtain ⟨rfl, htail⟩ := List.cons.inj hdrop
    exact ⟨l, ls, rfl, (hlabels l List.mem_cons_self).toNat_length.symm, htail⟩

theorem getRange_of_drop {p : Nat} {ys rest : Bytes} (hp : p ≤ packet.length)
    (h : packet.drop p = ys ++ rest) : getRange packet p (p + ys.length) = some ys := by
  refine getRange_eq_some.mpr ⟨by omega, packet.take p, rest, ?_, ?_, by omega⟩
  · rw [List.append_assoc, ← h, List.take_append_drop]
  · rw [List.length_take]
    omega

theorem drop_of_getRange {start stop : Nat} {ys : Bytes} (h : getRange packet start stop = some ys) :
    packet.drop start = ys ++ packet.drop stop ∧ ys.length = stop - start ∧ start ≤ stop := by
  obtain ⟨hle, front, back, rfl, rfl, hlen⟩ := getRange_eq_some.mp h
  have hstop : stop = (front ++ ys).length := by
    rw [List.length_append]
    omega
  rw [hstop, List.drop_left, List.append_assoc, List.drop_left]
  exact ⟨rfl, hstop ▸ hlen, hstop ▸ hle⟩

theorem parseLabels_decides (packet name : Bytes) (p : Nat) :
    Decides (parseLabels packet name p) fun r => ∃ labels rest, (∀ l ∈ labels, IsLabel l) ∧
      packet.drop p = wireLabels labels ++ 0 :: rest ∧
      r = (labels.foldl joinLabel name, p + (wireLabels labels).length) := by
  fun_induction parseLabels packet name p with
  | case1 name p h =>
    refine .none ?_
    rintro r ⟨labels, rest, -, hdrop, -⟩
    rw [List.drop_eq_nil_of_le (List.getElem?_eq_none_iff.mp h)] at hdrop
    cases labels <;> cases hdrop
  | case2 name p h =>
    refine .ok fun r => ⟨?_, ?_⟩
    · rintro ⟨labels, rest, hlabels, hdrop, rfl⟩
      cases labels with
      | nil => rfl
      | cons l ls =>
        rw [drop_eq_cons h] at hdrop
        exact absurd (List.cons.inj hdrop).1.symm (hlabels l List.mem_cons_self).length_ne_zero
    · rintro rfl
      exact ⟨[], packet.drop (p + 1), List.forall_mem_nil _, drop_eq_cons h, rfl⟩
  | case3 name p len h hlen hrange =>
    refine .none ?_
    rintro r ⟨labels, rest, hlabels, hdrop, -⟩
    obtain ⟨l, ls, rfl, hl, htail⟩ := wireLabels_inv h hlen hlabels hdrop
    have hlt : p < packet.length := (List.getElem?_eq_some_iff.mp h).1
    have hsome := getRange_of_drop (by omega) htail
    rw [hl, hrange] at hsome
    cases hsome
  | case4 name p len h hlen label hrange name' ih =>
    obtain ⟨hlabel, hlabelLen, -⟩ := drop_of_getRange hrange
    have hlabel256 := len.toNat_lt
    refine ih.congr fun r => ⟨?_, ?_⟩
    · rintro ⟨labels, rest, hlabels, hdrop, rfl⟩
      have hlen0 : len.toNat ≠ 0 := fun h0 => hlen (UInt8.toNat_inj.mp h0)
      have hnew : IsLabel label := ⟨by rintro rfl; simp at hlabelLen; omega, by omega⟩
      have hbyte : len = UInt8.ofNat label.length := by
        apply UInt8.toNat_inj.mp
        rw [hnew.toNat_length]
        omega
      refine ⟨label :: labels, rest, ?_, ?_, ?_⟩
      · exact List.forall_mem_cons.mpr ⟨hnew, hlabels⟩
      · rw [drop_eq_cons h, hlabel, hdrop, wireLabels_cons, ← hbyte, List.cons_append,
          List.append_assoc]
      · rw [wireLabels_cons, List.length_cons, List.length_append, List.foldl_cons, Prod.mk.injEq]
        exact ⟨rfl, by omega⟩
    · rintro ⟨labels, rest, hlabels, hdrop, rfl⟩
      obtain ⟨l, ls, rfl, hl, htail⟩ := wireLabels_inv h hlen hlabels hdrop
      rw [hlabel] at htail
      obtain ⟨rfl, hrest⟩ := List.append_inj htail (by omega)
      refine ⟨ls, rest, fun l' hl' => hlabels l' (List.mem_cons_of_mem _ hl'), hrest, ?_⟩
      rw [wireLabels_cons, List.length_cons, List.length_append, List.foldl_cons, Prod.mk.injEq]
      exact ⟨rfl, by omega⟩

/-- The bytes of a question of class IN. -/
def question (labels : List Bytes) (qtype : UInt16) : Bytes :=
  wireLabels labels ++ 0 :: (u16ToBe qtype ++ u16ToBe 1)

theorem question_length (labels : List Bytes) (qtype : UInt16) :
    (question labels qtype).length = (wireLabels labels).length + 5 := by
  simp [question]

theorem parseTail_decides (name : Bytes) (p : Nat) :
    Decides (do
      let tail ← orNone (getRange packet (p + 1) (p + 5))
      let qtype := u16FromBe (← indexAt tail 0) (← indexAt tail 1)
      let cls := u16FromBe (← indexAt tail 2) (← indexAt tail 3)
      if cls ≠ 1 then .error .none else return (name, qtype))
    fun r => ∃ tail, getRange packet (p + 1) (p + 5) = some tail ∧
      r.1 = name ∧ tail = u16ToBe r.2 ++ u16ToBe 1 := by
  refine (orNone_decides _).bind fun tail htail => ?_
  obtain ⟨-, hlen, -⟩ := drop_of_getRange htail
  have hlen : tail.length = 4 := by omega
  obtain ⟨a, b, c, d, rfl⟩ := List.length_eq_four.mp hlen
  change Decides (if u16FromBe c d ≠ 1 then .error .none else .ok (name, u16FromBe a b)) _
  have hsplit (w : UInt16) : [a, b, c, d] = u16ToBe w ++ u16ToBe 1 ↔
      u16FromBe a b = w ∧ u16FromBe c d = 1 := by
    rw [u16FromBe_eq_iff, u16FromBe_eq_iff]
    constructor
    · exact fun h => List.append_inj (show [a, b] ++ [c, d] = u16ToBe w ++ u16ToBe 1 from h) rfl
    · rintro ⟨h₁, h₂⟩
      rw [← h₁, ← h₂]
      rfl
  by_cases hcls : u16FromBe c d = 1
  · rw [if_neg (not_not.mpr hcls)]
    refine .ok fun r => ?_
    rw [hsplit, and_iff_left hcls, Prod.ext_iff]
    exact and_congr_right fun _ => eq_comm
  · rw [if_pos hcls]
    refine .none fun r hr => ?_
    exact hcls ((hsplit _).mp hr.2).2

theorem drop_labels {labels : List Bytes} {rest : Bytes} {p : Nat}
    (h : packet.drop p = wireLabels labels ++ 0 :: rest) :
    packet.drop (p + (wireLabels labels).length + 1) = rest := by
  rw [Nat.add_assoc, ← List.drop_drop, h, ← List.drop_drop, List.drop_left, List.drop_succ_cons,
    List.drop_zero]

theorem parseQuestion_decides (packet : Bytes) :
    Decides (parseQuestion packet) fun r => ∃ labels rest, (∀ l ∈ labels, IsLabel l) ∧
      packet.drop dnsHeaderLen = question labels r.2 ++ rest ∧ r.1 = dotted labels := by
  have hlabels := parseLabels_decides packet [] dnsHeaderLen
  refine (hlabels.bind fun r _ => parseTail_decides r.1 r.2).congr fun r => ⟨?_, ?_⟩
  · rintro ⟨-, ⟨labels, rest, hl, hdrop, rfl⟩, tail, htail, hname, rfl⟩
    obtain ⟨hrest, -, -⟩ := drop_of_getRange htail
    rw [drop_labels hdrop] at hrest
    rw [hrest] at hdrop
    refine ⟨labels, packet.drop (dnsHeaderLen + (wireLabels labels).length + 5), hl, ?_,
      hname.trans (joinLabel_foldl_nil hl)⟩
    simp only [hdrop, question, List.append_assoc, List.cons_append]
  · rintro ⟨labels, rest, hl, hdrop, hname⟩
    rw [question, List.append_assoc, List.cons_append] at hdrop
    refine ⟨_, ⟨labels, _, hl, hdrop, rfl⟩, _, ?_, hname.trans (joinLabel_foldl_nil hl).symm, rfl⟩
    have htail := drop_labels hdrop
    have hlen := congrArg List.length htail
    rw [List.length_drop, List.length_append, List.length_append, u16ToBe_length, u16ToBe_length] at hlen
    exact getRange_of_drop (by omega) htail

/-- The packets that are answered, and what is read of them. -/
structure IsQuery (packet : Bytes) (q : ParsedQuery) : Prop where
  length : dnsHeaderLen ≤ packet.length ∧ packet.length ≤ dnsBuf
  qr : (packet.getD 2 0).toNat.testBit 7 = false
  qdcount : packet.getD 4 0 = 0 ∧ packet.getD 5 0 = 1
  question : ∃ labels rest, (∀ l ∈ labels, IsLabel l) ∧
    packet.drop dnsHeaderLen = question labels q.qtype ++ rest ∧ q.name = dotted labels
  recursive : q.recursive = (packet.getD 2 0).toNat.testBit 0
  nameStrlen : q.nameStrlen = q.name.findIdx (· == 0)

theorem indexAt_getD {i : Nat} (h : i < packet.length) : indexAt packet i = .ok (packet.getD i 0) :=
  indexAt_eq_ok (by rw [List.getD_eq_getElem _ _ h, List.getElem?_eq_getElem h])

theorem parseQuery_decides (packet : Bytes) : Decides (parseQuery packet) (IsQuery packet) := by
  by_cases hlen : packet.length < dnsHeaderLen ∨ dnsBuf < packet.length
  · rw [parseQuery, if_pos hlen]
    refine .none fun q hq => ?_
    have hbounds := hq.length
    omega
  have hbounds : dnsHeaderLen ≤ packet.length ∧ packet.length ≤ dnsBuf := by omega
  have h12 : 12 ≤ packet.length := hbounds.1
  set b2 := packet.getD 2 0 with hb2
  set b3 := packet.getD 3 0
  set b4 := packet.getD 4 0 with hb4
  set b5 := packet.getD 5 0 with hb5
  have hreads : parseQuery packet =
      if u16FromBe b2 b3 &&& 0x8000 ≠ 0 then .error .none
      else if u16FromBe b4 b5 ≠ 1 then .error .none
      else (parseQuestion packet).bind fun r =>
        .ok ⟨u16FromBe b2 b3 &&& 0x0100 != 0, r.2, r.1, r.1.findIdx (· == 0)⟩ := by
    rw [parseQuery, if_neg hlen, indexAt_getD (by omega), indexAt_getD (by omega),
      indexAt_getD (by omega), indexAt_getD (by omega)]
    rfl
  have hqr : u16FromBe b2 b3 &&& 0x8000 = 0 ↔ b2.toNat.testBit 7 = false :=
    u16FromBe_flag b2 b3 (i := 7) (by decide)
  have hrd : u16FromBe b2 b3 &&& 0x0100 = 0 ↔ b2.toNat.testBit 0 = false :=
    u16FromBe_flag b2 b3 (i := 0) (by decide)
  have hqd : u16FromBe b4 b5 = 1 ↔ b4 = 0 ∧ b5 = 1 := by
    rw [u16FromBe_eq_iff, u16ToBe_eq, List.cons.injEq, List.cons.injEq]
    simp
  rw [hreads]
  by_cases hq : u16FromBe b2 b3 &&& 0x8000 = 0
  swap
  · rw [if_pos hq]
    exact .none fun q h => hq (hqr.mpr h.qr)
  rw [if_neg (not_not.mpr hq)]
  by_cases hd : u16FromBe b4 b5 = 1
  swap
  · rw [if_pos hd]
    exact .none fun q h => hd (hqd.mpr h.qdcount)
  rw [if_neg (not_not.mpr hd)]
  have hflag : (u16FromBe b2 b3 &&& 0x0100 != 0) = b2.toNat.testBit 0 := by
    rw [Bool.eq_iff_iff, bne_iff_ne, ne_eq, hrd, Bool.not_eq_false]
  rw [hflag]
  refine ((parseQuestion_decides packet).bind fun r _ => Decides.ok fun q => Iff.rfl).congr
    fun q => ⟨?_, ?_⟩
  · rintro ⟨r, hquestion, rfl⟩
    exact ⟨hbounds, hqr.mp hq, hqd.mp hd, hquestion, rfl, rfl⟩
  · intro h
    refine ⟨(q.name, q.qtype), h.question, ?_⟩
    rw [← h.recursive, ← h.nameStrlen]

end Queries

end Noa.Tunnel.Intercept
