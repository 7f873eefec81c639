import Noa.Framework.Json

/-! Writing objects of strings without whitespace. Control characters, quotes and backslashes are
escaped, the short way where there is one; everything else is written as it is. -/

namespace Noa.Framework.Json

def escapeChar (c : Char) : Text :=
  if c = '"' then ['\\', '"']
  else if c = '\\' then ['\\', '\\']
  else if c = Char.ofNat 0x08 then ['\\', 'b']
  else if c = Char.ofNat 0x0c then ['\\', 'f']
  else if c = '\n' then ['\\', 'n']
  else if c = '\r' then ['\\', 'r']
  else if c = '\t' then ['\\', 't']
  else if c.toNat < 0x20 then
    ['\\', 'u', '0', '0', Nat.digitChar (c.toNat / 16), Nat.digitChar (c.toNat % 16)]
  else [c]

def writeString (s : Text) : Text := '"' :: (s.flatMap escapeChar ++ ['"'])

def writeMember (m : Text × Text) : Text := writeString m.1 ++ ':' :: writeString m.2

/-- The members after the first one. -/
def writeMore (members : List (Text × Text)) : Text := members.flatMap fun m => ',' :: writeMember m

def writeObject : List (Text × Text) → Text
  | [] => ['{', '}']
  | m :: ms => '{' :: (writeMember m ++ writeMore ms ++ ['}'])

/-- The value such a text stands for. -/
def ofStrings (members : List (Text × Text)) : Json := .obj (members.map fun m => (m.1, .str m.2))

theorem hexValue_below_space : ∀ n < 0x20,
    hexValue ['0', '0', Nat.digitChar (n / 16), Nat.digitChar (n % 16)] = some n := by
  decide +kernel

theorem isChar_escapeChar (c : Char) : IsChar (escapeChar c) c := by
  unfold escapeChar
  split_ifs with hq hs hb hf hn hr ht hc
  · subst hq
    exact .short rfl
  · subst hs
    exact .short rfl
  · subst hb
    exact .short rfl
  · subst hf
    exact .short rfl
  · subst hn
    exact .short rfl
  · subst hr
    exact .short rfl
  · subst ht
    exact .short rfl
  · have hcode := IsChar.unicode ⟨rfl, hexValue_below_space c.toNat hc⟩ (.inl (by omega))
    rwa [Char.ofNat_toNat] at hcode
  · exact .plain hq hs (Nat.le_of_not_lt hc)

theorem isString_writeString (s : Text) : IsString (writeString s) s := by
  refine .mk ?_
  induction s with
  | nil => exact .nil
  | cons c s ih => exact .cons (isChar_escapeChar c) ih

theorem isMember_writeMember (m : Text × Text) : IsMember (writeMember m) (m.1, .str m.2) :=
  (IsValue.str (isString_writeString m.2)).member (isString_writeString m.1)

theorem isMembers_write (m : Text × Text) (ms : List (Text × Text)) :
    IsMembers (writeMember m ++ writeMore ms) ((m :: ms).map fun m => (m.1, .str m.2)) := by
  induction ms generalizing m with
  | nil =>
    rw [writeMore, List.flatMap_nil, List.append_nil]
    exact .one (isMember_writeMember m)
  | cons n ms ih => exact .more (isMember_writeMember m) (ih n)

/-- What is written is a JSON text, and stands for what was to be written. -/
theorem isText_writeObject (members : List (Text × Text)) :
    IsText (writeObject members) (ofStrings members) := by
  cases members with
  | nil => exact (IsValue.emptyObj (List.forall_mem_nil _)).element
  | cons m ms => exact (IsValue.obj (isMembers_write m ms)).element

end Noa.Framework.Json
