import Noa.Framework.Utf8

/-! JSON texts as RFC 8259 has them: the grammar with what a text stands for, and a decoder that finds
it. The decoder shows that a text stands for one value at most. -/

namespace Noa.Framework

/-- A value. A number is the rational it denotes, an object its members as they are written. -/
inductive Json where
  | null
  | bool (b : Bool)
  | num (q : Rat)
  | str (s : Text)
  | arr (items : List Json)
  | obj (members : List (Text × Json))

namespace Json

def isWs (c : Char) : Bool := c == ' ' || c == '\t' || c == '\n' || c == '\r'

/-! Strings. -/

/-- What a character stands for after a backslash. -/
def shortEscape (c : Char) : Option Char :=
  if c = '"' then some '"'
  else if c = '\\' then some '\\'
  else if c = '/' then some '/'
  else if c = 'b' then some (Char.ofNat 0x08)
  else if c = 'f' then some (Char.ofNat 0x0c)
  else if c = 'n' then some '\n'
  else if c = 'r' then some '\r'
  else if c = 't' then some '\t'
  else none

def hexValue (hs : Text) : Option Nat :=
  hs.foldlM (fun n h => (digitValue 16 h).map (n * 16 + ·)) 0

/-- Four hexadecimal digits. -/
def IsHex4 (hs : Text) (n : Nat) : Prop := hs.length = 4 ∧ hexValue hs = some n

/-- The character of two surrogates. -/
def surrogatePair (hi lo : Nat) : Char :=
  Char.ofNat (0x10000 + (hi - 0xd800) * 0x400 + (lo - 0xdc00))

/-- A character within a string. A surrogate that is alone stands for no character. -/
inductive IsChar : Text → Char → Prop
  | plain {c : Char} (hq : c ≠ '"') (hb : c ≠ '\\') (hc : 0x20 ≤ c.toNat) : IsChar [c] c
  | short {e c : Char} (h : shortEscape e = some c) : IsChar ['\\', e] c
  | unicode {hs : Text} {n : Nat} (h : IsHex4 hs n) (hn : n < 0xd800 ∨ 0xe000 ≤ n) :
    IsChar ('\\' :: 'u' :: hs) (Char.ofNat n)
  | pair {hs ls : Text} {hi lo : Nat} (hh : IsHex4 hs hi) (hl : IsHex4 ls lo)
      (hhi : 0xd800 ≤ hi ∧ hi < 0xdc00) (hlo : 0xdc00 ≤ lo ∧ lo < 0xe000) :
    IsChar ('\\' :: 'u' :: (hs ++ '\\' :: 'u' :: ls)) (surrogatePair hi lo)

inductive IsChars : Text → Text → Prop
  | nil : IsChars [] []
  | cons {s t : Text} {c : Char} {cs : Text} (hs : IsChar s c) (ht : IsChars t cs) :
    IsChars (s ++ t) (c :: cs)

inductive IsString : Text → Text → Prop
  | mk {s x : Text} (h : IsChars s x) : IsString ('"' :: (s ++ ['"'])) x

/-! Numbers. -/

structure Exponent where
  mark : Char
  sign : Option Char
  digits : Text

/-- A number as it is written. -/
structure Numeral where
  minus : Bool
  int : Text
  frac : Option Text
  exp : Option Exponent

def IsDigits (s : Text) : Prop := s ≠ [] ∧ ∀ c ∈ s, c.isDigit = true

structure Exponent.Valid (e : Exponent) : Prop where
  mark : e.mark = 'e' ∨ e.mark = 'E'
  sign : ∀ c, e.sign = some c → c = '+' ∨ c = '-'
  digits : IsDigits e.digits

structure Numeral.Valid (n : Numeral) : Prop where
  int : IsDecimal n.int
  frac : ∀ f, n.frac = some f → IsDigits f
  exp : ∀ e, n.exp = some e → e.Valid

def fracText : Option Text → Text
  | none => []
  | some f => '.' :: f

def expText : Option Exponent → Text
  | none => []
  | some e => e.mark :: e.sign.toList ++ e.digits

def Numeral.text (n : Numeral) : Text :=
  (if n.minus then ['-'] else []) ++ (n.int ++ (fracText n.frac ++ expText n.exp))

def natOf (digits : Text) : Nat := Nat.ofDigitChars 10 digits 0

def Numeral.value (n : Numeral) : Rat :=
  let frac := n.frac.getD []
  let q : Rat := natOf (n.int ++ frac) / (10 : Rat) ^ frac.length
  let q := if n.minus then -q else q
  match n.exp with
  | none => q
  | some e => if e.sign = some '-' then q / (10 : Rat) ^ natOf e.digits
    else q * (10 : Rat) ^ natOf e.digits

inductive IsNumber : Text → Rat → Prop
  | mk {n : Numeral} (h : n.Valid) : IsNumber n.text n.value

/-! Values. -/

mutual

/-- A value, with nothing around it. -/
inductive IsValue : Text → Json → Prop
  | null : IsValue "null".toList .null
  | bool (b : Bool) : IsValue (if b then "true".toList else "false".toList) (.bool b)
  | num {s : Text} {q : Rat} (h : IsNumber s q) : IsValue s (.num q)
  | str {s x : Text} (h : IsString s x) : IsValue s (.str x)
  | emptyArr {w : Text} (hw : ∀ c ∈ w, isWs c = true) : IsValue ('[' :: (w ++ [']'])) (.arr [])
  | arr {s : Text} {items : List Json} (h : IsElements s items) :
    IsValue ('[' :: (s ++ [']'])) (.arr items)
  | emptyObj {w : Text} (hw : ∀ c ∈ w, isWs c = true) : IsValue ('{' :: (w ++ ['}'])) (.obj [])
  | obj {s : Text} {members : List (Text × Json)} (h : IsMembers s members) :
    IsValue ('{' :: (s ++ ['}'])) (.obj members)

/-- A value with the whitespace around it. -/
inductive IsElement : Text → Json → Prop
  | mk {w s w' : Text} {v : Json} (hw : ∀ c ∈ w, isWs c = true) (hs : IsValue s v)
      (hw' : ∀ c ∈ w', isWs c = true) : IsElement (w ++ (s ++ w')) v

inductive IsElements : Text → List Json → Prop
  | one {s : Text} {v : Json} (h : IsElement s v) : IsElements s [v]
  | more {s t : Text} {v : Json} {vs : List Json} (h : IsElement s v) (hs : IsElements t vs) :
    IsElements (s ++ ',' :: t) (v :: vs)

inductive IsMember : Text → Text × Json → Prop
  | mk {w k w' s x : Text} {v : Json} (hw : ∀ c ∈ w, isWs c = true) (hk : IsString k x)
      (hw' : ∀ c ∈ w', isWs c = true) (h : IsElement s v) :
    IsMember (w ++ (k ++ (w' ++ ':' :: s))) (x, v)

inductive IsMembers : Text → List (Text × Json) → Prop
  | one {s : Text} {m : Text × Json} (h : IsMember s m) : IsMembers s [m]
  | more {s t : Text} {m : Text × Json} {ms : List (Text × Json)} (h : IsMember s m)
      (hs : IsMembers t ms) : IsMembers (s ++ ',' :: t) (m :: ms)

end

/-- A JSON text and the value it stands for. -/
def IsText (t : Text) (v : Json) : Prop := IsElement t v

/-! The decoder: each part takes what it reads off the front of a text. -/

def skipWs (t : Text) : Text := t.dropWhile isWs

def hex4 (t : Text) : Option (Nat × Text) :=
  if t.length < 4 then none else (hexValue (t.take 4)).map fun n => (n, t.drop 4)

/-- The second half of a surrogate pair. -/
def lowSurrogate (hi : Nat) : Text → Option (Char × Text)
  | b :: u :: t =>
    if b = '\\' ∧ u = 'u' then
      (hex4 t).bind fun (lo, t) =>
        if 0xdc00 ≤ lo ∧ lo < 0xe000 then some (surrogatePair hi lo, t) else none
    else none
  | _ => none

def unicodeEscape (t : Text) : Option (Char × Text) :=
  (hex4 t).bind fun (n, t) =>
    if n < 0xd800 ∨ 0xe000 ≤ n then some (Char.ofNat n, t)
    else if n < 0xdc00 then lowSurrogate n t
    else none

/-- One character of a string. -/
def char : Text → Option (Char × Text)
  | [] => none
  | c :: t =>
    if c = '\\' then
      match t with
      | [] => none
      | e :: t => if e = 'u' then unicodeEscape t else (shortEscape e).map fun c => (c, t)
    else if c.toNat < 0x20 then none else some (c, t)

/-- The characters of a string, up to the quotation mark. -/
def chars : Nat → Text → Option (Text × Text)
  | 0, _ => none
  | fuel + 1, t =>
    if t.head? = some '"' then some ([], t.tail)
    else (char t).bind fun (c, t) => (chars fuel t).map fun (cs, t) => (c :: cs, t)

/-- A string, after its first quotation mark. -/
def string (t : Text) : Option (Text × Text) := chars t.length t

def digits (t : Text) : Option (Text × Text) :=
  let ds := t.takeWhile Char.isDigit
  if ds = [] then none else some (ds, t.dropWhile Char.isDigit)

def fracPart (t : Text) : Option (Option Text × Text) :=
  if t.head? = some '.' then (digits t.tail).map fun (ds, t) => (some ds, t) else some (none, t)

def signPart (t : Text) : Option Char × Text :=
  if t.head? = some '+' ∨ t.head? = some '-' then (t.head?, t.tail) else (none, t)

def expPart : Text → Option (Option Exponent × Text)
  | [] => some (none, [])
  | c :: t =>
    if c = 'e' ∨ c = 'E' then
      let (sign, t) := signPart t
      (digits t).map fun (ds, t) => (some ⟨c, sign, ds⟩, t)
    else some (none, c :: t)

def minusPart (t : Text) : Bool × Text :=
  if t.head? = some '-' then (true, t.tail) else (false, t)

def numeral (t : Text) : Option (Numeral × Text) :=
  let (minus, t) := minusPart t
  (digits t).bind fun (int, t) =>
    if IsDecimal int then
      (fracPart t).bind fun (frac, t) => (expPart t).map fun (exp, t) => (⟨minus, int, frac, exp⟩, t)
    else none

def literal (name : Text) (v : Json) (t : Text) : Option (Json × Text) :=
  if name.isPrefixOf t then some (v, t.drop name.length) else none

/-- Take a character off the front. -/
def expect {α : Type} (c : Char) (r : α × Text) : Option (α × Text) :=
  if r.2.head? = some c then some (r.1, r.2.tail) else none

mutual

def value : Nat → Text → Option (Json × Text)
  | 0, _ => none
  | fuel + 1, t =>
    match t.head? with
    | some '"' => (string t.tail).map fun (s, t) => (.str s, t)
    | some '[' =>
      if (skipWs t.tail).head? = some ']' then some (.arr [], (skipWs t.tail).tail)
      else ((elements fuel t.tail).map fun (vs, t) => (.arr vs, t)).bind (expect ']')
    | some '{' =>
      if (skipWs t.tail).head? = some '}' then some (.obj [], (skipWs t.tail).tail)
      else ((members fuel t.tail).map fun (ms, t) => (.obj ms, t)).bind (expect '}')
    | some 'n' => literal "null".toList .null t
    | some 't' => literal "true".toList (.bool true) t
    | some 'f' => literal "false".toList (.bool false) t
    | _ => (numeral t).map fun (n, t) => (.num n.value, t)

def element : Nat → Text → Option (Json × Text)
  | 0, _ => none
  | fuel + 1, t => (value fuel (skipWs t)).map fun (v, t) => (v, skipWs t)

def elements : Nat → Text → Option (List Json × Text)
  | 0, _ => none
  | fuel + 1, t =>
    (element fuel t).bind fun (v, t) =>
      if t.head? = some ',' then (elements fuel t.tail).map fun (vs, t) => (v :: vs, t)
      else some ([v], t)

def member : Nat → Text → Option ((Text × Json) × Text)
  | 0, _ => none
  | fuel + 1, t =>
    if (skipWs t).head? = some '"' then
      (string (skipWs t).tail).bind fun (x, t) =>
        if (skipWs t).head? = some ':' then
          (element fuel (skipWs t).tail).map fun (v, t) => ((x, v), t)
        else none
    else none

def members : Nat → Text → Option (List (Text × Json) × Text)
  | 0, _ => none
  | fuel + 1, t =>
    (member fuel t).bind fun (m, t) =>
      if t.head? = some ',' then (members fuel t.tail).map fun (ms, t) => (m :: ms, t)
      else some ([m], t)

end

/-- The value of a whole text. -/
def parse (t : Text) : Option Json :=
  match element (3 * t.length + 1) t with
  | some (v, []) => some v
  | _ => none

/-! The decoder finds what the grammar has. -/

section Strings

variable {s t : Text} {c : Char}

theorem hex4_append {n : Nat} (h : IsHex4 s n) (rest : Text) : hex4 (s ++ rest) = some (n, rest) := by
  obtain ⟨hlen, hvalue⟩ := h
  have hlong : ¬(s ++ rest).length < 4 := by
    rw [List.length_append, hlen]
    omega
  rw [hex4, if_neg hlong, List.take_left' hlen, List.drop_left' hlen, hvalue]
  rfl

theorem char_append (h : IsChar s c) (rest : Text) : char (s ++ rest) = some (c, rest) := by
  cases h with
  | plain hq hb hc => simp [char, hb, Nat.not_lt.mpr hc]
  | @short e c h =>
    have hu : e ≠ 'u' := by
      rintro rfl
      cases h
    simp [char, hu, h]
  | unicode h hn => simp [char, unicodeEscape, hex4_append h, hn]
  | @pair hs ls hi lo hh hl hhi hlo =>
    have hnot : ¬(hi < 0xd800 ∨ 0xe000 ≤ hi) := by omega
    simp [char, unicodeEscape, hex4_append hh, hnot, hhi.2, lowSurrogate, hex4_append hl, hlo]

theorem IsChar.head (h : IsChar s c) (rest : Text) :
    0 < s.length ∧ (s ++ rest).head? ≠ some '"' := by
  cases h with
  | plain hq => exact ⟨Nat.zero_lt_one, by simpa using hq⟩
  | short | unicode | pair => simp

theorem chars_append {x : Text} (h : IsChars s x) (rest : Text) {fuel : Nat}
    (hf : s.length < fuel) : chars fuel (s ++ '"' :: rest) = some (x, rest) := by
  induction h generalizing fuel with
  | nil =>
    cases fuel with
    | zero => exact absurd hf (Nat.not_lt_zero _)
    | succ fuel => simp [chars]
  | @cons s t c cs hs ht ih =>
    obtain ⟨hpos, hhead⟩ := hs.head (t ++ '"' :: rest)
    cases fuel with
    | zero => exact absurd hf (Nat.not_lt_zero _)
    | succ fuel =>
      have hf' : t.length < fuel := by
        rw [List.length_append] at hf
        omega
      rw [List.append_assoc, chars, if_neg hhead, char_append hs]
      simp [ih hf']

theorem IsString.read {k x : Text} (h : IsString k x) : ∃ body, k = '"' :: body ∧
    ∀ rest, string (body ++ rest) = some (x, rest) := by
  obtain ⟨hs⟩ := h
  refine ⟨_, rfl, fun rest => ?_⟩
  rw [List.append_assoc, string]
  exact chars_append hs rest (by simp)

end Strings

section Numbers

/-- The rest of a text does not go on with a number. -/
def EndsNumber (rest : Text) : Prop :=
  ∀ c, rest.head? = some c → c.isDigit = false ∧ c ≠ '.' ∧ c ≠ 'e' ∧ c ≠ 'E'

theorem digits_append {ds rest : Text} (h : IsDigits ds)
    (hrest : ∀ c, rest.head? = some c → c.isDigit = false) :
    digits (ds ++ rest) = some (ds, rest) := by
  have htake : rest.takeWhile Char.isDigit = [] := by
    cases rest with
    | nil => rfl
    | cons c rest => simp [hrest c rfl]
  have hdrop : rest.dropWhile Char.isDigit = rest := by
    cases rest with
    | nil => rfl
    | cons c rest => simp [hrest c rfl]
  unfold digits
  rw [List.takeWhile_append_of_pos h.2, List.dropWhile_append_of_pos h.2, htake, hdrop,
    List.append_nil]
  exact if_neg h.1

theorem fracPart_append {frac : Option Text} (h : ∀ f, frac = some f → IsDigits f) {rest : Text}
    (hrest : ∀ c, rest.head? = some c → c.isDigit = false ∧ c ≠ '.') :
    fracPart (fracText frac ++ rest) = some (frac, rest) := by
  cases frac with
  | none =>
    refine if_neg fun hdot => ?_
    exact (hrest '.' hdot).2 rfl
  | some f =>
    have hread := digits_append (h f rfl) fun c hc => (hrest c hc).1
    simp [fracPart, fracText, hread]

theorem signPart_append {sign : Option Char} (h : ∀ c, sign = some c → c = '+' ∨ c = '-')
    {ds : Text} (hds : IsDigits ds) (rest : Text) :
    signPart (sign.toList ++ (ds ++ rest)) = (sign, ds ++ rest) := by
  cases sign with
  | some c => rcases h c rfl with rfl | rfl <;> simp [signPart]
  | none =>
    obtain ⟨hne, hdigits⟩ := hds
    cases ds with
    | nil => exact absurd rfl hne
    | cons d ds =>
      have hd := hdigits d List.mem_cons_self
      refine if_neg ?_
      rintro (hc | hc) <;> cases hc <;> cases hd

theorem expPart_append {exp : Option Exponent} (h : ∀ e, exp = some e → e.Valid) {rest : Text}
    (hrest : EndsNumber rest) : expPart (expText exp ++ rest) = some (exp, rest) := by
  cases exp with
  | none =>
    cases rest with
    | nil => rfl
    | cons c rest =>
      obtain ⟨-, -, he, hE⟩ := hrest c rfl
      simp [expText, expPart, he, hE]
  | some e =>
    obtain ⟨hmark, hsign, hdigits⟩ := h e rfl
    have hread := digits_append hdigits fun c hc => (hrest c hc).1
    simp [expText, expPart, hmark, signPart_append hsign hdigits, hread]

/-- What follows the fraction of a number does not look like a part of it. -/
theorem head_expText {exp : Option Exponent} (h : ∀ e, exp = some e → e.Valid) {rest : Text}
    (hrest : EndsNumber rest) :
    ∀ c, (expText exp ++ rest).head? = some c → c.isDigit = false ∧ c ≠ '.' := by
  intro c hc
  cases exp with
  | none => exact ⟨(hrest c hc).1, (hrest c hc).2.1⟩
  | some e =>
    obtain rfl : e.mark = c := Option.some.inj hc
    rcases (h e rfl).mark with hmark | hmark <;> rw [hmark] <;> decide

theorem minusPart_append (minus : Bool) {t : Text} (ht : t.head? ≠ some '-') :
    minusPart ((if minus then ['-'] else []) ++ t) = (minus, t) := by
  cases minus with
  | true => simp [minusPart]
  | false => exact if_neg ht

theorem numeral_append {n : Numeral} (h : n.Valid) {rest : Text} (hrest : EndsNumber rest) :
    numeral (n.text ++ rest) = some (n, rest) := by
  obtain ⟨⟨hne, hdigits, hzero⟩, hfrac, hexp⟩ := h
  have hint : n.int.head? ≠ some '-' := by
    intro hc
    have hd := hdigits '-' (List.mem_of_head? hc)
    cases hd
  have hafter := head_expText hexp hrest
  have hfracHead : ∀ c, (fracText n.frac ++ (expText n.exp ++ rest)).head? = some c →
      c.isDigit = false := by
    intro c hc
    cases hf : n.frac with
    | none =>
      rw [hf] at hc
      exact (hafter c hc).1
    | some f =>
      rw [hf] at hc
      obtain rfl : '.' = c := Option.some.inj hc
      rfl
  have hhead : (n.int ++ (fracText n.frac ++ (expText n.exp ++ rest))).head? ≠ some '-' := by
    rwa [List.head?_append_of_ne_nil _ hne]
  rw [numeral, Numeral.text, List.append_assoc, List.append_assoc, List.append_assoc,
    minusPart_append n.minus hhead]
  dsimp only
  rw [digits_append ⟨hne, hdigits⟩ hfracHead]
  simp only [Option.bind_some]
  rw [if_pos ⟨hne, hdigits, hzero⟩, fracPart_append hfrac hafter]
  simp [expPart_append hexp hrest]

theorem Numeral.Valid.head {n : Numeral} (h : n.Valid) :
    ∃ c t, n.text = c :: t ∧ (c = '-' ∨ c.isDigit = true) := by
  obtain ⟨hne, hdigits, -⟩ := h.int
  unfold Numeral.text
  cases n.minus with
  | true => exact ⟨'-', _, rfl, .inl rfl⟩
  | false =>
    obtain ⟨d, ds, hint⟩ := List.exists_cons_of_ne_nil hne
    have hd := hdigits d (hint ▸ List.mem_cons_self)
    rw [hint]
    exact ⟨d, _, rfl, .inr hd⟩

theorem value_number {c : Char} (hc : c = '-' ∨ c.isDigit = true) (fuel : Nat) (t : Text) :
    value (fuel + 1) (c :: t) = (numeral (c :: t)).map fun r => (.num r.1.value, r.2) := by
  rw [value]
  split
  case h_7 => rfl
  all_goals
    next heq =>
    cases heq
    exact absurd hc (by decide)

end Numbers

section Values

/-- What may follow an element. -/
def Follows (rest : Text) : Prop := ∀ c, rest.head? = some c → c = ',' ∨ c = ']' ∨ c = '}'

theorem skipWs_append {w : Text} (hw : ∀ c ∈ w, isWs c = true) {t : Text}
    (ht : ∀ c, t.head? = some c → isWs c = false) : skipWs (w ++ t) = t := by
  rw [skipWs, List.dropWhile_append_of_pos hw]
  cases t with
  | nil => rfl
  | cons c t => simp [ht c rfl]

theorem Follows.notWs {rest : Text} (h : Follows rest) : ∀ c, rest.head? = some c → isWs c = false := by
  intro c hc
  rcases h c hc with rfl | rfl | rfl <;> rfl

theorem Follows.endsNumber {rest : Text} (h : Follows rest) {w : Text}
    (hw : ∀ c ∈ w, isWs c = true) : EndsNumber (w ++ rest) := by
  intro c hc
  cases w with
  | nil => rcases h c hc with rfl | rfl | rfl <;> decide
  | cons d w =>
    obtain rfl : d = c := Option.some.inj hc
    have hd := hw d List.mem_cons_self
    simp only [isWs, Bool.or_eq_true, beq_iff_eq] at hd
    rcases hd with ((rfl | rfl) | rfl) | rfl <;> decide

theorem follows_cons {c : Char} (hc : c = ',' ∨ c = ']' ∨ c = '}') (rest : Text) :
    Follows (c :: rest) := by
  rintro d hd
  cases hd
  exact hc

theorem IsValue.head {s : Text} {v : Json} (h : IsValue s v) :
    ∃ c t, s = c :: t ∧ isWs c = false ∧ c ≠ ']' := by
  cases h with
  | null => exact ⟨_, _, rfl, rfl, by decide⟩
  | bool b => cases b <;> exact ⟨_, _, rfl, rfl, by decide⟩
  | num h =>
    obtain ⟨hn⟩ := h
    obtain ⟨c, t, htext, hc⟩ := hn.head
    refine ⟨c, t, htext, ?_, ?_⟩
    · refine Bool.eq_false_iff.mpr fun hws => ?_
      simp only [isWs, Bool.or_eq_true, beq_iff_eq] at hws
      rcases hws with ((rfl | rfl) | rfl) | rfl <;> exact absurd hc (by decide)
    · rintro rfl
      exact absurd hc (by decide)
  | str h =>
    obtain ⟨hs⟩ := h
    exact ⟨_, _, rfl, rfl, by decide⟩
  | emptyArr | arr | emptyObj | obj => exact ⟨_, _, rfl, rfl, by decide⟩

theorem IsElement.head {s : Text} {v : Json} (h : IsElement s v) (rest : Text) :
    0 < s.length ∧ (skipWs (s ++ rest)).head? ≠ some ']' := by
  obtain ⟨hw, hs, -⟩ := h
  obtain ⟨c, t, rfl, hws, hne⟩ := hs.head
  refine ⟨by simp, ?_⟩
  rw [List.append_assoc, skipWs_append hw]
  · simpa using hne
  · rintro d hd
    cases hd
    exact hws

theorem IsElements.head {s : Text} {vs : List Json} (h : IsElements s vs) (rest : Text) :
    (skipWs (s ++ rest)).head? ≠ some ']' := by
  cases h with
  | one h => exact (h.head rest).2
  | more h =>
    rw [List.append_assoc]
    exact (h.head _).2

theorem IsMember.head {s : Text} {m : Text × Json} (h : IsMember s m) (rest : Text) :
    0 < s.length ∧ (skipWs (s ++ rest)).head? = some '"' := by
  obtain ⟨hw, hk, -, -⟩ := h
  obtain ⟨body, rfl, -⟩ := hk.read
  refine ⟨by simp, ?_⟩
  rw [List.append_assoc, skipWs_append hw]
  · rfl
  · rintro d hd
    cases hd
    rfl

theorem IsMembers.head {s : Text} {ms : List (Text × Json)} (h : IsMembers s ms) (rest : Text) :
    (skipWs (s ++ rest)).head? = some '"' := by
  cases h with
  | one h => exact (h.head rest).2
  | more h =>
    rw [List.append_assoc]
    exact (h.head _).2

-- The induction is on the fuel, of which three units for a character are enough.
mutual

theorem value_append {s : Text} {v : Json} (h : IsValue s v) {rest : Text} (hrest : EndsNumber rest)
    (fuel : Nat) (hf : 3 * s.length ≤ fuel) : value fuel (s ++ rest) = some (v, rest) := by
  obtain ⟨c, t, hs, -⟩ := h.head
  obtain ⟨fuel, rfl⟩ : ∃ k, fuel = k + 1 := by
    rw [hs, List.length_cons] at hf
    exact ⟨fuel - 1, by omega⟩
  cases h with
  | null => rfl
  | bool b => cases b <;> rfl
  | num h =>
    obtain ⟨hn⟩ := h
    obtain ⟨c, t, htext, hc⟩ := hn.head
    have hread := numeral_append hn hrest
    rw [htext] at hread ⊢
    rw [List.cons_append, value_number hc, ← List.cons_append, hread]
    rfl
  | str h =>
    obtain ⟨body, rfl, hread⟩ := h.read
    simp [value, hread]
  | emptyArr hw =>
    have hskip : skipWs (_ ++ ']' :: rest) = ']' :: rest := skipWs_append hw (by simp [isWs])
    simp [value, hskip]
  | @arr s items h =>
    have hread := elements_append h rest fuel (by simp at hf; omega)
    simp [value, h.head, hread, expect]
  | emptyObj hw =>
    have hskip : skipWs (_ ++ '}' :: rest) = '}' :: rest := skipWs_append hw (by simp [isWs])
    simp [value, hskip]
  | @obj s members h =>
    have hread := members_append h rest fuel (by simp at hf; omega)
    simp [value, h.head, hread, expect]
termination_by fuel

theorem element_append {s : Text} {v : Json} (h : IsElement s v) {rest : Text} (hrest : Follows rest)
    (fuel : Nat) (hf : 3 * s.length + 1 ≤ fuel) : element fuel (s ++ rest) = some (v, rest) := by
  obtain ⟨fuel, rfl⟩ : ∃ k, fuel = k + 1 := ⟨fuel - 1, by omega⟩
  cases h with
  | @mk w s w' v hw hs hw' =>
    obtain ⟨c, t, hhead, hws, -⟩ := hs.head
    have hread := value_append hs (hrest.endsNumber hw') fuel (by simp at hf; omega)
    have hskip : skipWs (w ++ (s ++ (w' ++ rest))) = s ++ (w' ++ rest) := by
      refine skipWs_append hw fun d hd => ?_
      rw [hhead] at hd
      cases hd
      exact hws
    rw [element, List.append_assoc, List.append_assoc, hskip, hread]
    simp [skipWs_append hw' hrest.notWs]
termination_by fuel

theorem elements_append {s : Text} {vs : List Json} (h : IsElements s vs) (rest : Text) (fuel : Nat)
    (hf : 3 * s.length + 2 ≤ fuel) :
    elements fuel (s ++ ']' :: rest) = some (vs, ']' :: rest) := by
  obtain ⟨fuel, rfl⟩ : ∃ k, fuel = k + 1 := ⟨fuel - 1, by omega⟩
  cases h with
  | one h =>
    have hread := element_append h (follows_cons (.inr (.inl rfl)) rest) fuel (by omega)
    simp [elements, hread]
  | @more s t v vs h hs =>
    have hpos := (h.head []).1
    rw [List.length_append, List.length_cons] at hf
    have hread := element_append h (follows_cons (.inl rfl) (t ++ ']' :: rest)) fuel
      (by omega)
    have hmore := elements_append hs rest fuel (by omega)
    simp [elements, hread, hmore]
termination_by fuel

theorem member_append {s : Text} {m : Text × Json} (h : IsMember s m) {rest : Text}
    (hrest : Follows rest) (fuel : Nat) (hf : 3 * s.length + 1 ≤ fuel) :
    member fuel (s ++ rest) = some (m, rest) := by
  obtain ⟨fuel, rfl⟩ : ∃ k, fuel = k + 1 := ⟨fuel - 1, by omega⟩
  cases h with
  | @mk w k w' s x v hw hk hw' h =>
    obtain ⟨body, rfl, hstring⟩ := hk.read
    have hread := element_append h hrest fuel (by simp at hf; omega)
    have hkey : skipWs (w ++ '"' :: (body ++ (w' ++ ':' :: (s ++ rest)))) =
        '"' :: (body ++ (w' ++ ':' :: (s ++ rest))) := skipWs_append hw (by simp [isWs])
    have hcolon : skipWs (w' ++ ':' :: (s ++ rest)) = ':' :: (s ++ rest) :=
      skipWs_append hw' (by simp [isWs])
    simp [member, hkey, hstring, hcolon, hread]
termination_by fuel

theorem members_append {s : Text} {ms : List (Text × Json)} (h : IsMembers s ms) (rest : Text)
    (fuel : Nat) (hf : 3 * s.length + 2 ≤ fuel) :
    members fuel (s ++ '}' :: rest) = some (ms, '}' :: rest) := by
  obtain ⟨fuel, rfl⟩ : ∃ k, fuel = k + 1 := ⟨fuel - 1, by omega⟩
  cases h with
  | one h =>
    have hread := member_append h (follows_cons (.inr (.inr rfl)) rest) fuel (by omega)
    simp [members, hread]
  | @more s t m ms h hs =>
    have hpos := (h.head []).1
    rw [List.length_append, List.length_cons] at hf
    have hread := member_append h (follows_cons (.inl rfl) (t ++ '}' :: rest)) fuel
      (by omega)
    have hmore := members_append hs rest fuel (by omega)
    simp [members, hread, hmore]
termination_by fuel

end

theorem parse_of_isText {t : Text} {v : Json} (h : IsText t v) : parse t = some v := by
  have hnil : Follows [] := nofun
  have hread := element_append h hnil _ (Nat.le_refl _)
  rw [List.append_nil] at hread
  rw [parse, hread]

theorem IsText.unique {t : Text} {v w : Json} (hv : IsText t v) (hw : IsText t w) : v = w :=
  Option.some.inj ((parse_of_isText hv).symm.trans (parse_of_isText hw))

end Values

/-! What a writer without whitespace has to show. -/

section Compact

theorem isChars_plain {x : Text} (h : ∀ c ∈ x, c ≠ '"' ∧ c ≠ '\\' ∧ 0x20 ≤ c.toNat) :
    IsChars x x := by
  induction x with
  | nil => exact .nil
  | cons c x ih =>
    obtain ⟨⟨hq, hb, hc⟩, hx⟩ := List.forall_mem_cons.mp h
    exact .cons (.plain hq hb hc) (ih hx)

theorem head_toDigits {n : Nat} (hn : 0 < n) : (Nat.toDigits 10 n).head? ≠ some '0' := by
  induction n using Nat.strongRecOn with
  | ind n ih =>
    by_cases hlt : n < 10
    · rw [Nat.toDigits_of_lt_base hlt]
      interval_cases n <;> decide
    · rw [Nat.toDigits_of_base_le (by decide) (Nat.le_of_not_lt hlt),
        List.head?_append_of_ne_nil _ Nat.toDigits_ne_nil]
      exact ih (n / 10) (by omega) (by omega)

theorem isDecimal_toDigits (n : Nat) : IsDecimal (Nat.toDigits 10 n) := by
  refine ⟨Nat.toDigits_ne_nil, fun c hc => Nat.isDigit_of_mem_toDigits (by decide) (by decide) hc, ?_⟩
  intro hzero
  rcases Nat.eq_zero_or_pos n with rfl | hpos
  · rfl
  · exact absurd hzero (head_toDigits hpos)

theorem isNumber_nat (n : Nat) : IsNumber (toString n).toList n := by
  have hmk := IsNumber.mk (n := ⟨false, Nat.toDigits 10 n, none, none⟩)
    ⟨isDecimal_toDigits n, nofun, nofun⟩
  have hvalue : natOf (Nat.toDigits 10 n) = n := Nat.ofDigitChars_ten_toDigits
  rw [Nat.toString_eq_ofList_toDigits, String.toList_ofList]
  simpa [Numeral.text, Numeral.value, fracText, expText, hvalue] using hmk

theorem IsValue.element {s : Text} {v : Json} (h : IsValue s v) : IsElement s v := by
  have hmk := IsElement.mk (List.forall_mem_nil _) h (List.forall_mem_nil _)
  rwa [List.nil_append, List.append_nil] at hmk

theorem IsValue.member {k x s : Text} {v : Json} (h : IsValue s v) (hk : IsString k x) :
    IsMember (k ++ ':' :: s) (x, v) :=
  .mk (List.forall_mem_nil _) hk (List.forall_mem_nil _) h.element

end Compact

end Json

end Noa.Framework
