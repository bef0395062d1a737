import IndexFeed.Json.Printer
import IndexFeed.Json.Reader
import Mathlib.Data.List.Forall2

/-!
# Spellings

The texts that spell a JSON value. White space may stand around every value and every name, and a
character of a string may stand for itself or be escaped, by letter or by number. The value is taken
as it is written (`Tree`), with the digits of its numbers and the members of its objects in order. A
reader need not hold a value for it (`Tree.value?`): a number may be too great, and there may be too
many levels.
-/

namespace IndexFeed.Json

open Text (Bytes)

/-- White space without a meaning: spaces, tabs, line feeds, carriage returns. -/
def Blank (w : Bytes) : Prop := ∀ b ∈ w, b = 0x20 ∨ b = 0x09 ∨ b = 0x0A ∨ b = 0x0D

theorem Blank.isBlank {w : Bytes} (h : Blank w) : ∀ b ∈ w, Reader.isBlank b = true := by
  intro b hb
  rcases h b hb with rfl | rfl | rfl | rfl <;> rfl

/-! ### Strings -/

/-- The spellings of a character in a string. -/
inductive SpellsChar : Bytes → Char → Prop
  /-- The character itself, unless it is a control, the quote or the backslash. -/
  | plain {c : Char} (hcontrol : 0x20 ≤ c.toNat) (hquote : c ≠ '"') (hslash : c ≠ '\\') :
    SpellsChar (Text.encodeChar c) c
  | letter {c : Char} {l b : UInt8} (hl : escapeLetter? l = some b) (hc : c.toNat = b.toNat) :
    SpellsChar [0x5C, l] c
  | number {c : Char} {x y z u : UInt8} (hc : hexFour? x y z u = some c.toNat) :
    SpellsChar [0x5C, 0x75, x, y, z, u] c
  /-- Two numbers, a leading and a trailing surrogate. -/
  | pair {c : Char} {x y z u x' y' z' u' : UInt8} {lead trail : Nat}
      (hl : hexFour? x y z u = some lead) (ht : hexFour? x' y' z' u' = some trail)
      (hlead : 0xD800 ≤ lead ∧ lead ≤ 0xDBFF) (htrail : 0xDC00 ≤ trail ∧ trail ≤ 0xDFFF)
      (hc : c.toNat = (lead - 0xD800) * 0x400 + (trail - 0xDC00) + 0x10000) :
    SpellsChar [0x5C, 0x75, x, y, z, u, 0x5C, 0x75, x', y', z', u'] c

/-- The spellings of a string: those of its characters, in quotes. -/
inductive SpellsText : Bytes → String → Prop
  | mk {ts : List Bytes} {s : String} (h : List.Forall₂ SpellsChar ts s.toList) :
    SpellsText (0x22 :: (ts.flatten ++ [0x22])) s

/-! ### Numbers -/

/-- One digit or more. -/
def IsDigits (ds : Bytes) : Prop := ds ≠ [] ∧ ∀ b ∈ ds, isDigit b = true

/-- A zero, or digits that do not begin with one. -/
def IsWhole (ds : Bytes) : Prop := IsDigits ds ∧ (ds.head? = some 0x30 → ds = [0x30])

/-- Nothing, or a point and digits. -/
inductive IsFraction : Bytes → Prop
  | none : IsFraction []
  | digits {ds : Bytes} (h : IsDigits ds) : IsFraction (0x2E :: ds)

/-- Nothing, or the letter of an exponent, which may have a sign, and its digits. -/
inductive IsExponent : Bytes → Prop
  | none : IsExponent []
  | digits {e : UInt8} {sign ds : Bytes} (he : e = 0x65 ∨ e = 0x45)
      (hsign : sign = [] ∨ sign = [0x2B] ∨ sign = [0x2D]) (h : IsDigits ds) :
    IsExponent (e :: (sign ++ ds))

/-- A number without its sign. -/
inductive IsUnsigned : Bytes → Prop
  | mk {whole fraction exponent : Bytes} (hw : IsWhole whole) (hf : IsFraction fraction)
      (he : IsExponent exponent) : IsUnsigned (whole ++ (fraction ++ exponent))

/-- A number, which may have a minus. -/
inductive IsNumber : Bytes → Prop
  | plain {ds : Bytes} (h : IsUnsigned ds) : IsNumber ds
  | minus {ds : Bytes} (h : IsUnsigned ds) : IsNumber (0x2D :: ds)

/-! ### Values -/

/-- A JSON value, numbers as they are written. -/
inductive Tree where
  | null
  | bool (b : Bool)
  | number (digits : Bytes)
  | text (s : String)
  | array (items : List Tree)
  | object (members : List (String × Tree))

/-- A spelling with white space on both sides. -/
inductive Padded {α : Type} (R : Bytes → α → Prop) : Bytes → α → Prop
  | mk {w t w' : Bytes} {x : α} (hw : Blank w) (ht : R t x) (hw' : Blank w') :
    Padded R (w ++ (t ++ w')) x

/-- The spellings of a member of an object, given those of values. -/
inductive SpellsMember (R : Bytes → Tree → Prop) : Bytes → String × Tree → Prop
  | mk {name : String} {v : Tree} {t u : Bytes} (hname : Padded SpellsText t name)
      (hv : Padded R u v) : SpellsMember R (t ++ 0x3A :: u) (name, v)

/-- **The spellings of a value**, without the white space around it. -/
inductive Spells : Bytes → Tree → Prop
  | null : Spells (ascii "null".toList) .null
  | bool (b : Bool) : Spells (Value.bool b).print (.bool b)
  | number {ds : Bytes} (h : IsNumber ds) : Spells ds (.number ds)
  | text {t : Bytes} {s : String} (h : SpellsText t s) : Spells t (.text s)
  | emptyArray {w : Bytes} (hw : Blank w) : Spells (0x5B :: (w ++ [0x5D])) (.array [])
  | array {t : Bytes} {ts : List Bytes} {items : List Tree}
      (h : List.Forall₂ (Padded Spells) (t :: ts) items) :
    Spells (printArray (t :: ts)) (.array items)
  | emptyObject {w : Bytes} (hw : Blank w) : Spells (0x7B :: (w ++ [0x7D])) (.object [])
  | object {t : Bytes} {ts : List Bytes} {members : List (String × Tree)}
      (h : List.Forall₂ (SpellsMember Spells) (t :: ts) members) :
    Spells (printObject (t :: ts)) (.object members)

/-- **The value that is held for a tree**, if the tree has at most `depth` levels and each of its
numbers has a value. -/
def Tree.value? : Nat → Tree → Option Value
  | _, .null => some .null
  | _, .bool b => some (.bool b)
  | _, .number ds => (parse ds).toOption
  | _, .text s => some (.text s)
  | 0, .array _ | 0, .object _ => none
  | depth + 1, .array items => (items.mapM (value? depth)).map .array
  | depth + 1, .object members =>
    (members.mapM fun m => (value? depth m.2).map (m.1, ·)).map .object

/-- No white space may stand around a spelling. -/
theorem Padded.bare {α : Type} {R : Bytes → α → Prop} {t : Bytes} {x : α} (h : R t x) :
    Padded R t x := by
  have hpadded : Padded R ([] ++ (t ++ [])) x := .mk nofun h nofun
  rwa [List.nil_append, List.append_nil] at hpadded

theorem Padded.imp {α : Type} {R R' : Bytes → α → Prop} (himp : ∀ t x, R t x → R' t x)
    {t : Bytes} {x : α} (h : Padded R t x) : Padded R' t x := by
  obtain ⟨hw, ht, hw'⟩ := h
  exact ⟨hw, himp _ _ ht, hw'⟩

theorem Tree.mapM_cons {α β : Type} (f : α → Option β) (x : α) (xs : List α) :
    (x :: xs).mapM f = (f x).bind fun y => (xs.mapM f).map (y :: ·) := by
  rw [List.mapM_cons]
  simp only [Option.map_eq_bind]
  rfl

end IndexFeed.Json
