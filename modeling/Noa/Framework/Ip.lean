import Noa.Framework.Text

namespace Noa.Framework

/-- An address of either family. -/
inductive IpAddr where
  | v4 (bits : BitVec 32)
  | v6 (bits : BitVec 128)
  deriving DecidableEq

def IpAddr.width : IpAddr → Nat
  | v4 _ => 32
  | v6 _ => 128

/-! The standard library's address grammar, as its recursive descent reads it. -/

/-- The digits at the front of a text with their value and count; none where there are too many. -/
def readDigits (radix maxDigits : Nat) (value count : Nat) : Text → Option (Nat × Nat × Text)
  | [] => some (value, count, [])
  | c :: cs =>
    match digitValue radix c with
    | none => some (value, count, c :: cs)
    | some d =>
      if maxDigits < count + 1 then none
      else readDigits radix maxDigits (value * radix + d) (count + 1) cs

def readNumber (radix maxDigits : Nat) (allowZeroPrefix : Bool) (bound : Nat) (cs : Text) :
    Option (Nat × Text) := do
  let (value, count, rest) ← readDigits radix maxDigits 0 0 cs
  if count = 0 then none
  else if ¬ allowZeroPrefix ∧ cs.head? = some '0' ∧ 1 < count then none
  else if value < bound then some (value, rest) else none

/-- Every part of an address but its first follows a separator. -/
def readSeparator {α : Type} (sep : Char) (index : Nat) (inner : Text → Option (α × Text))
    (cs : Text) : Option (α × Text) :=
  if index = 0 then inner cs
  else match cs with
    | [] => none
    | c :: cs => if c = sep then inner cs else none

def readOctet (index : Nat) : Text → Option (Nat × Text) :=
  readSeparator '.' index (readNumber 10 3 false 256)

def readIpv4Addr (cs : Text) : Option (BitVec 32 × Text) := do
  let (a, cs) ← readOctet 0 cs
  let (b, cs) ← readOctet 1 cs
  let (c, cs) ← readOctet 2 cs
  let (d, cs) ← readOctet 3 cs
  some (BitVec.ofNat 32 (a * 2 ^ 24 + b * 2 ^ 16 + c * 2 ^ 8 + d), cs)

/-- Up to `left` of `limit` groups, the last two of which may be written as an IPv4 address, which
the flag tells. -/
def readGroups (limit : Nat) : Nat → Text → List Nat × Bool × Text
  | 0, cs => ([], false, cs)
  | left + 1, cs =>
    let index := limit - (left + 1)
    let embedded := if left = 0 then none else readSeparator ':' index readIpv4Addr cs
    match embedded with
    | some (v4, cs) => ([v4.toNat / 2 ^ 16, v4.toNat % 2 ^ 16], true, cs)
    | none =>
      match readSeparator ':' index (readNumber 16 4 true (2 ^ 16)) cs with
      | none => ([], false, cs)
      | some (group, cs) =>
        let (groups, isV4, cs) := readGroups limit left cs
        (group :: groups, isV4, cs)

def groupsToBits (groups : List Nat) : BitVec 128 :=
  BitVec.ofNat 128 (groups.foldl (fun acc group => acc * 2 ^ 16 + group) 0)

def readIpv6Addr (cs : Text) : Option (BitVec 128 × Text) :=
  let (head, headV4, cs) := readGroups 8 8 cs
  if head.length = 8 then some (groupsToBits head, cs)
  else if headV4 then none
  else match cs with
    | ':' :: ':' :: cs =>
      let limit := 8 - (head.length + 1)
      let (tail, _, cs) := readGroups limit limit cs
      let zeroes := List.replicate (8 - head.length - tail.length) 0
      some (groupsToBits (head ++ zeroes ++ tail), cs)
    | _ => none

/-- `IpAddr::from_str`: the whole text is one address; a text that starts with an IPv4 address is
tried as nothing else. -/
def IpAddr.fromStr (cs : Text) : Option IpAddr :=
  match readIpv4Addr cs with
  | some (bits, []) => some (.v4 bits)
  | some _ => none
  | none =>
    match readIpv6Addr cs with
    | some (bits, []) => some (.v6 bits)
    | _ => none

theorem IpAddr.fromStr_star (cs : Text) : IpAddr.fromStr ('*' :: cs) = none := rfl

/-- The characters read off a text, none of which is `c`. -/
def ReadsOff (c : Char) (cs rest : Text) : Prop := ∃ front, cs = front ++ rest ∧ c ∉ front

theorem ReadsOff.refl (c : Char) (cs : Text) : ReadsOff c cs cs := ⟨[], rfl, List.not_mem_nil⟩

theorem ReadsOff.cons {c x : Char} {cs rest : Text} (hx : c ≠ x) (h : ReadsOff c cs rest) :
    ReadsOff c (x :: cs) rest := by
  obtain ⟨front, rfl, hfront⟩ := h
  exact ⟨x :: front, rfl, by simp [hx, hfront]⟩

theorem ReadsOff.trans {c : Char} {cs cs' cs'' : Text} (h : ReadsOff c cs cs')
    (h' : ReadsOff c cs' cs'') : ReadsOff c cs cs'' := by
  obtain ⟨front, rfl, hfront⟩ := h
  obtain ⟨front', rfl, hfront'⟩ := h'
  exact ⟨front ++ front', by simp, by simp [hfront, hfront']⟩

theorem digitValue_slash (radix : Nat) : digitValue radix '/' = none := by
  have hnone : (if '0' ≤ '/' ∧ '/' ≤ '9' then some ('/'.toNat - 48)
    else if 'a' ≤ '/' ∧ '/' ≤ 'z' then some ('/'.toNat - 87)
    else if 'A' ≤ '/' ∧ '/' ≤ 'Z' then some ('/'.toNat - 55) else none) = none := by decide
  rw [digitValue, hnone]
  rfl

section Slash

/-! No address text has a slash. -/

theorem readDigits_readsOff {radix maxDigits value count v k : Nat} {cs rest : Text}
    (h : readDigits radix maxDigits value count cs = some (v, k, rest)) : ReadsOff '/' cs rest := by
  induction cs generalizing value count with
  | nil =>
    cases h
    exact .refl _ _
  | cons c cs ih =>
    unfold readDigits at h
    cases hd : digitValue radix c with
    | none =>
      rw [hd] at h
      cases h
      exact .refl _ _
    | some d =>
      rw [hd] at h
      dsimp only at h
      split_ifs at h
      refine .cons ?_ (ih h)
      rintro rfl
      rw [digitValue_slash] at hd
      cases hd

theorem readNumber_readsOff {radix maxDigits bound v : Nat} {allow : Bool} {cs rest : Text}
    (h : readNumber radix maxDigits allow bound cs = some (v, rest)) : ReadsOff '/' cs rest := by
  obtain ⟨⟨value, count, rest'⟩, hread, h⟩ := Option.bind_eq_some_iff.mp h
  dsimp only at h
  split_ifs at h
  cases h
  exact readDigits_readsOff hread

theorem readSeparator_readsOff {α : Type} {sep : Char} {index : Nat}
    {inner : Text → Option (α × Text)} {cs rest : Text} {a : α} (hsep : '/' ≠ sep)
    (hinner : ∀ cs rest a, inner cs = some (a, rest) → ReadsOff '/' cs rest)
    (h : readSeparator sep index inner cs = some (a, rest)) : ReadsOff '/' cs rest := by
  unfold readSeparator at h
  split_ifs at h
  · exact hinner _ _ _ h
  · cases cs with
    | nil => cases h
    | cons c cs =>
      dsimp only at h
      split_ifs at h with hc
      exact .cons (hc ▸ hsep) (hinner _ _ _ h)

theorem readOctet_readsOff {index v : Nat} {cs rest : Text}
    (h : readOctet index cs = some (v, rest)) : ReadsOff '/' cs rest :=
  readSeparator_readsOff (by decide) (fun _ _ _ => readNumber_readsOff) h

theorem readIpv4Addr_readsOff {bits : BitVec 32} {cs rest : Text}
    (h : readIpv4Addr cs = some (bits, rest)) : ReadsOff '/' cs rest := by
  obtain ⟨⟨_, _⟩, ha, h⟩ := Option.bind_eq_some_iff.mp h
  obtain ⟨⟨_, _⟩, hb, h⟩ := Option.bind_eq_some_iff.mp h
  obtain ⟨⟨_, _⟩, hc, h⟩ := Option.bind_eq_some_iff.mp h
  obtain ⟨⟨_, _⟩, hd, h⟩ := Option.bind_eq_some_iff.mp h
  cases h
  have hab := (readOctet_readsOff ha).trans (readOctet_readsOff hb)
  exact hab.trans ((readOctet_readsOff hc).trans (readOctet_readsOff hd))

theorem readGroups_readsOff (limit left : Nat) (cs : Text) :
    ReadsOff '/' cs (readGroups limit left cs).2.2 := by
  induction left generalizing cs with
  | zero => exact .refl _ _
  | succ left ih =>
    have hcolon : '/' ≠ ':' := by decide
    unfold readGroups
    dsimp only
    split
    · next v4 rest hembedded =>
      split_ifs at hembedded
      exact readSeparator_readsOff hcolon (fun _ _ _ => readIpv4Addr_readsOff) hembedded
    · split
      · exact .refl _ _
      · next group rest hgroup =>
        have hread := readSeparator_readsOff hcolon (fun _ _ _ => readNumber_readsOff) hgroup
        exact hread.trans (ih rest)

theorem readIpv6Addr_readsOff {bits : BitVec 128} {cs rest : Text}
    (h : readIpv6Addr cs = some (bits, rest)) : ReadsOff '/' cs rest := by
  have hhead := readGroups_readsOff 8 8 cs
  unfold readIpv6Addr at h
  dsimp only at h
  split_ifs at h
  · cases h
    exact hhead
  · split at h
    · next tail hcs =>
      cases h
      rw [hcs] at hhead
      have hcolon : '/' ≠ ':' := by decide
      exact hhead.trans (.cons hcolon (.cons hcolon (readGroups_readsOff _ _ tail)))
    · cases h

theorem IpAddr.slash_not_mem {s : Text} {ip : IpAddr} (h : IpAddr.fromStr s = some ip) :
    '/' ∉ s := by
  have hall (h : ReadsOff '/' s []) : '/' ∉ s := by
    obtain ⟨front, rfl, hfront⟩ := h
    simpa using hfront
  unfold IpAddr.fromStr at h
  split at h
  · next hread => exact hall (readIpv4Addr_readsOff hread)
  · cases h
  · split at h
    · next hread => exact hall (readIpv6Addr_readsOff hread)
    · cases h

end Slash

/-- The first `k` bits are the same. -/
def SameLeading {w : Nat} (k : Nat) (x y : BitVec w) : Prop := ∀ i < k, x.getMsbD i = y.getMsbD i

theorem sameLeading_iff {w k : Nat} (hk : k ≤ w) (x y : BitVec w) :
    SameLeading k x y ↔ x.toNat / 2 ^ (w - k) = y.toNat / 2 ^ (w - k) := by
  rw [← Nat.shiftRight_eq_div_pow, ← Nat.shiftRight_eq_div_pow, ← BitVec.toNat_ushiftRight,
    ← BitVec.toNat_ushiftRight, ← BitVec.toNat_eq]
  constructor
  · intro h
    refine BitVec.eq_of_getLsbD_eq fun i hi => ?_
    rw [BitVec.getLsbD_ushiftRight, BitVec.getLsbD_ushiftRight]
    by_cases hki : i < k
    · have hbit := h (k - 1 - i) (by omega)
      rw [BitVec.getMsbD, BitVec.getMsbD] at hbit
      have hpos : w - 1 - (k - 1 - i) = w - k + i := by omega
      simpa [hpos, show k - 1 - i < w by omega] using hbit
    · rw [BitVec.getLsbD_of_ge x _ (by omega), BitVec.getLsbD_of_ge y _ (by omega)]
  · intro h i hi
    have hbit := congrArg (BitVec.getLsbD · (k - 1 - i)) h
    have hpos : w - k + (k - 1 - i) = w - 1 - i := by omega
    simp only [BitVec.getLsbD_ushiftRight, hpos] at hbit
    rw [BitVec.getMsbD, BitVec.getMsbD, hbit]

/-- A network of addresses of width `w`; the host bits of `addr` are kept. -/
@[ext] structure Net (w : Nat) where
  addr : BitVec w
  prefixLen : Nat
  prefixLen_le : prefixLen ≤ w
  deriving DecidableEq

namespace Net

variable {w : Nat}

def netmask (n : Net w) : BitVec w := BitVec.allOnes w <<< (w - n.prefixLen)

def hostmask (n : Net w) : BitVec w := BitVec.allOnes w >>> n.prefixLen

/-- Between the network's first and its last address. -/
def contains (n : Net w) (x : BitVec w) : Bool :=
  decide (n.addr &&& n.netmask ≤ x) && decide (x ≤ n.addr ||| n.hostmask)

def network (n : Net w) : BitVec w := n.addr &&& n.netmask

def broadcast (n : Net w) : BitVec w := n.addr ||| n.hostmask

/-- The network without its host bits. -/
def trunc (n : Net w) : Net w := ⟨n.network, n.prefixLen, n.prefixLen_le⟩

/-- All of the other network is inside. -/
def containsNet (n other : Net w) : Bool :=
  decide (n.network ≤ other.network) && decide (other.broadcast ≤ n.broadcast)

theorem contains_iff (n : Net w) (x : BitVec w) :
    n.contains x = true ↔ n.network ≤ x ∧ x ≤ n.broadcast := by
  rw [contains, Bool.and_eq_true, decide_eq_true_eq, decide_eq_true_eq]
  rfl

theorem network_le_broadcast (n : Net w) : n.network ≤ n.broadcast := by
  rw [BitVec.le_def, network, broadcast, BitVec.toNat_and, BitVec.toNat_or]
  exact Nat.and_le_left.trans Nat.left_le_or

theorem containsNet_iff (n other : Net w) :
    n.containsNet other = true ↔ ∀ x, other.contains x = true → n.contains x = true := by
  rw [containsNet, Bool.and_eq_true, decide_eq_true_eq, decide_eq_true_eq]
  constructor
  · rintro ⟨hlow, hhigh⟩ x hx
    obtain ⟨hx₁, hx₂⟩ := (other.contains_iff x).mp hx
    exact (n.contains_iff x).mpr ⟨BitVec.le_trans hlow hx₁, BitVec.le_trans hx₂ hhigh⟩
  · intro h
    have hends := other.network_le_broadcast
    have hfirst := h other.network ((other.contains_iff _).mpr ⟨BitVec.le_refl _, hends⟩)
    have hlast := h other.broadcast ((other.contains_iff _).mpr ⟨hends, BitVec.le_refl _⟩)
    exact ⟨((n.contains_iff _).mp hfirst).1, ((n.contains_iff _).mp hlast).2⟩

theorem netmask_eq (n : Net w) : n.netmask = ~~~ n.hostmask := by
  refine BitVec.eq_of_getLsbD_eq fun i hi => ?_
  have hle := n.prefixLen_le
  rw [netmask, hostmask, BitVec.getLsbD_shiftLeft, BitVec.getLsbD_not, BitVec.getLsbD_ushiftRight,
    BitVec.getLsbD_allOnes, BitVec.getLsbD_allOnes]
  have hiff : i < w - n.prefixLen ↔ n.prefixLen + i < w := by omega
  by_cases hlt : n.prefixLen + i < w
  · simp [hi, hlt, hiff.mpr hlt]
  · have hsub : i - (w - n.prefixLen) < w := by omega
    simp [hi, hlt, hsub, mt hiff.mp hlt]

theorem toNat_hostmask (n : Net w) : n.hostmask.toNat = 2 ^ (w - n.prefixLen) - 1 := by
  have hpow : 2 ^ w = 2 ^ n.prefixLen * 2 ^ (w - n.prefixLen) := by
    rw [← Nat.pow_add, Nat.add_sub_cancel' n.prefixLen_le]
  have hpos : 0 < 2 ^ n.prefixLen * 2 ^ (w - n.prefixLen) := hpow ▸ Nat.two_pow_pos w
  rw [hostmask, BitVec.toNat_ushiftRight, BitVec.toNat_allOnes, Nat.shiftRight_eq_div_pow, hpow,
    Nat.mul_sub_div 0 _ _ hpos, Nat.zero_div]

theorem toNat_and_hostmask (n : Net w) (x : BitVec w) :
    (x &&& n.hostmask).toNat = x.toNat % 2 ^ (w - n.prefixLen) := by
  rw [BitVec.toNat_and, toNat_hostmask, Nat.and_two_pow_sub_one_eq_mod]

theorem network_and_hostmask (n : Net w) : n.network &&& n.hostmask = 0#w := by
  rw [network, netmask_eq, BitVec.and_assoc, BitVec.and_comm (~~~ n.hostmask), BitVec.and_not_self]
  exact BitVec.and_zero

theorem broadcast_and_hostmask (n : Net w) : n.broadcast &&& n.hostmask = n.hostmask := by
  refine BitVec.eq_of_getLsbD_eq fun i hi => ?_
  rw [broadcast, BitVec.getLsbD_and, BitVec.getLsbD_or]
  cases n.addr.getLsbD i <;> cases n.hostmask.getLsbD i <;> rfl

theorem getMsbD_netmask (n : Net w) (i : Nat) : n.netmask.getMsbD i = decide (i < n.prefixLen) := by
  have hle := n.prefixLen_le
  rw [netmask, BitVec.getMsbD_shiftLeft]
  simp only [BitVec.getMsbD, BitVec.getLsbD_allOnes]
  by_cases h : i < n.prefixLen
  · simp [h]; omega
  · simp [h]; omega

theorem getMsbD_hostmask (n : Net w) {i : Nat} (hi : i < w) :
    n.hostmask.getMsbD i = !decide (i < n.prefixLen) := by
  have hnot : n.hostmask = ~~~ n.netmask := by rw [netmask_eq, BitVec.not_not]
  rw [hnot, BitVec.getMsbD_not, getMsbD_netmask]
  simp [hi]

theorem ext_leading {n : Net w} {x : BitVec w} (h : SameLeading n.prefixLen n.addr x) :
    n.network = x &&& n.netmask ∧ n.broadcast = x ||| n.hostmask := by
  constructor
  · refine BitVec.eq_of_getMsbD_eq fun i hi => ?_
    rw [network, BitVec.getMsbD_and, BitVec.getMsbD_and, getMsbD_netmask]
    by_cases hp : i < n.prefixLen
    · rw [h i hp]
    · simp [hp]
  · refine BitVec.eq_of_getMsbD_eq fun i hi => ?_
    rw [broadcast, BitVec.getMsbD_or, BitVec.getMsbD_or, getMsbD_hostmask n hi]
    by_cases hp : i < n.prefixLen
    · rw [h i hp]
    · simp [hp]

theorem contains_iff_sameLeading (n : Net w) (x : BitVec w) :
    n.contains x = true ↔ SameLeading n.prefixLen n.addr x := by
  rw [contains_iff]
  constructor
  · rintro ⟨hlow, hhigh⟩
    have hends : SameLeading n.prefixLen n.network n.broadcast ∧
        SameLeading n.prefixLen n.addr n.network := by
      constructor <;> intro i hi <;> have hiw := lt_of_lt_of_le hi n.prefixLen_le
      · rw [network, broadcast, BitVec.getMsbD_and, BitVec.getMsbD_or, getMsbD_netmask,
          getMsbD_hostmask n hiw]
        simp [hi]
      · rw [network, BitVec.getMsbD_and, getMsbD_netmask]
        simp [hi]
    rw [sameLeading_iff n.prefixLen_le] at hends ⊢
    rw [sameLeading_iff n.prefixLen_le] at hends
    have h₁ := Nat.div_le_div_right (c := 2 ^ (w - n.prefixLen)) (BitVec.le_def.mp hlow)
    have h₂ := Nat.div_le_div_right (c := 2 ^ (w - n.prefixLen)) (BitVec.le_def.mp hhigh)
    omega
  · intro h
    obtain ⟨hn, hb⟩ := ext_leading h
    rw [hn, hb, BitVec.le_def, BitVec.le_def, BitVec.toNat_and, BitVec.toNat_or]
    exact ⟨Nat.and_le_left, Nat.left_le_or⟩

theorem toNat_eq_of_leading (n : Net w) {x : BitVec w} (h : SameLeading n.prefixLen n.addr x) :
    x.toNat = n.addr.toNat / 2 ^ (w - n.prefixLen) * 2 ^ (w - n.prefixLen) +
      (x &&& n.hostmask).toNat := by
  rw [(sameLeading_iff n.prefixLen_le _ _).mp h, toNat_and_hostmask, Nat.div_add_mod']

theorem toNat_eq_network_add (n : Net w) {x : BitVec w} (h : SameLeading n.prefixLen n.addr x) :
    x.toNat = n.network.toNat + (x &&& n.hostmask).toNat := by
  have hnet := n.toNat_eq_of_leading (x := n.network) ((n.contains_iff_sameLeading _).mp
    ((n.contains_iff _).mpr ⟨BitVec.le_refl _, n.network_le_broadcast⟩))
  rw [network_and_hostmask] at hnet
  rw [n.toNat_eq_of_leading h, hnet]
  rfl

theorem toNat_broadcast (n : Net w) :
    n.broadcast.toNat = n.network.toNat + (2 ^ (w - n.prefixLen) - 1) := by
  have hleading := (n.contains_iff_sameLeading _).mp
    ((n.contains_iff _).mpr ⟨n.network_le_broadcast, BitVec.le_refl _⟩)
  rw [n.toNat_eq_network_add hleading, broadcast_and_hostmask, toNat_hostmask]

/-- An address inside that is neither the first nor the last. -/
def IsHost (n : Net w) (x : BitVec w) : Prop :=
  n.contains x = true ∧ x ≠ n.network ∧ x ≠ n.broadcast

instance (n : Net w) (x : BitVec w) : Decidable (n.IsHost x) :=
  inferInstanceAs (Decidable (_ ∧ _ ∧ _))

theorem isHost_iff (n : Net w) (x : BitVec w) :
    n.IsHost x ↔ n.network.toNat < x.toNat ∧ x.toNat < n.broadcast.toNat := by
  rw [IsHost, contains_iff, BitVec.le_def, BitVec.le_def, Ne, BitVec.toNat_eq, Ne, BitVec.toNat_eq]
  omega

/-- The network of one address. -/
def host (addr : BitVec w) : Net w := ⟨addr, w, le_refl w⟩

theorem host_contains (addr x : BitVec w) : (host addr).contains x = decide (x = addr) := by
  have hmask : (host addr).netmask = BitVec.allOnes w := by simp [netmask, host]
  have hhost : (host addr).hostmask = 0#w := by
    rw [hostmask]
    exact BitVec.ushiftRight_eq_zero (le_refl w)
  rw [contains, hmask, hhost, BitVec.and_allOnes, BitVec.or_zero]
  have hle : addr ≤ x ∧ x ≤ addr ↔ x = addr := by
    rw [BitVec.le_def, BitVec.le_def, BitVec.toNat_eq]
    exact ⟨fun h => by omega, fun h => by omega⟩
  rw [← Bool.decide_and]
  exact decide_eq_decide.mpr hle

end Net

inductive IpNet where
  | v4 (net : Net 32)
  | v6 (net : Net 128)
  deriving DecidableEq

namespace IpNet

/-- `IpNet::new` fails on a prefix longer than the address. -/
def new (ip : IpAddr) (prefixLen : Nat) : Option IpNet :=
  match ip with
  | .v4 bits => if h : prefixLen ≤ 32 then some (.v4 ⟨bits, prefixLen, h⟩) else none
  | .v6 bits => if h : prefixLen ≤ 128 then some (.v6 ⟨bits, prefixLen, h⟩) else none

/-- Addresses of the other family are in no network. -/
def contains : IpNet → IpAddr → Bool
  | .v4 net, .v4 bits => net.contains bits
  | .v6 net, .v6 bits => net.contains bits
  | _, _ => false

def containsNet : IpNet → IpNet → Bool
  | .v4 net, .v4 other => net.containsNet other
  | .v6 net, .v6 other => net.containsNet other
  | _, _ => false

end IpNet

end Noa.Framework
