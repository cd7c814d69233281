import Mathlib.Data.List.Forall2
import Triage.Json.Token

/-! JSON texts in all the ways they may be written. The text of a value begins at its first token; blanks before it
belong to what it stands in. -/

namespace Triage.Json

def Blanks (gap : Bytes) : Prop := ∀ b ∈ gap, isSpace b = true

def shortEscapes : List (Char × Char) :=
  [('"', '"'), ('\\', '\\'), ('/', '/'), ('b', '\x08'), ('f', '\x0C'), ('n', '\n'), ('r', '\r'), ('t', '\t')]

inductive IsHex4 : Nat → Bytes → Prop where
  | mk {a b c d : UInt8} {w x y z : Nat} : hexValue? a = some w → hexValue? b = some x → hexValue? c = some y →
      hexValue? d = some z → IsHex4 (((w * 16 + x) * 16 + y) * 16 + z) [a, b, c, d]

inductive Spells : List Char → Bytes → Prop where
  | nil : Spells [] []
  | plain {c : Char} {cs : List Char} {bytes : Bytes} : c ≠ '"' → c ≠ '\\' → 0x20 ≤ c.toNat → Spells cs bytes →
      Spells (c :: cs) (String.utf8EncodeChar c ++ bytes)
  | short {letter c : Char} {cs : List Char} {bytes : Bytes} : (letter, c) ∈ shortEscapes → Spells cs bytes →
      Spells (c :: cs) (0x5C :: byteOf letter :: bytes)
  | unicode {c : Char} {cs : List Char} {digits bytes : Bytes} : IsHex4 c.toNat digits → Spells cs bytes →
      Spells (c :: cs) (0x5C :: 0x75 :: (digits ++ bytes))
  | halves {c : Char} {cs : List Char} {high low bytes : Bytes} : 0x10000 ≤ c.toNat →
      IsHex4 (0xD800 + (c.toNat - 0x10000) / 0x400) high → IsHex4 (0xDC00 + (c.toNat - 0x10000) % 0x400) low →
      Spells cs bytes → Spells (c :: cs) (0x5C :: 0x75 :: (high ++ 0x5C :: 0x75 :: (low ++ bytes)))

inductive IsText (s : String) : Bytes → Prop where
  | mk {content : Bytes} : Spells s.toList content → IsText s (0x22 :: (content ++ [0x22]))

/-- What may stand between quotes, also if it is no text, such as half of a character. -/
inductive IsContent : Bytes → Prop where
  | nil : IsContent []
  | plain {b : UInt8} {bytes : Bytes} : b ≠ 0x22 → b ≠ 0x5C → 0x20 ≤ b → IsContent bytes → IsContent (b :: bytes)
  | short {letter c : Char} {bytes : Bytes} : (letter, c) ∈ shortEscapes → IsContent bytes →
      IsContent (0x5C :: byteOf letter :: bytes)
  | unicode {n : Nat} {digits bytes : Bytes} : IsHex4 n digits → IsContent bytes →
      IsContent (0x5C :: 0x75 :: (digits ++ bytes))

inductive IsString : Bytes → Prop where
  | mk {content : Bytes} : IsContent content → IsString (0x22 :: (content ++ [0x22]))

structure Digits (ds : Bytes) : Prop where
  ne_nil : ds ≠ []
  all : ∀ d ∈ ds, isDigit d = true

structure Whole (ds : Bytes) : Prop extends Digits ds where
  leading : ds.head? = some 0x30 → ds = [0x30]

inductive Fraction : Bytes → Prop where
  | none : Fraction []
  | some {ds : Bytes} : Digits ds → Fraction (0x2E :: ds)

inductive Exponent : Bytes → Prop where
  | none : Exponent []
  | some {e : UInt8} {sign ds : Bytes} : e = 0x65 ∨ e = 0x45 → sign ∈ [[], [0x2B], [0x2D]] → Digits ds →
      Exponent (e :: (sign ++ ds))

inductive IsNumber : Bytes → Prop where
  | mk {sign whole fraction exponent : Bytes} : sign ∈ [[], [0x2D]] → Whole whole → Fraction fraction →
      Exponent exponent → IsNumber (sign ++ (whole ++ (fraction ++ exponent)))

structure IsNatural (n : Nat) (ds : Bytes) : Prop extends Whole ds where
  value : natOf ds = n

inductive IsInteger : Int → Bytes → Prop where
  | nonneg {n : Nat} {ds : Bytes} : IsNatural n ds → IsInteger n ds
  | neg {n : Nat} {ds : Bytes} : 0 < n → IsNatural n ds → IsInteger (-n) (0x2D :: ds)

/-- What follows an opening bracket, or an item after it: the items that are left, between commas and blanks, and the
closing bracket. -/
inductive Joined (close : UInt8) : (isFirst : Bool) → List Bytes → Bytes → Prop where
  | done {isFirst : Bool} {gap : Bytes} : Blanks gap → Joined close isFirst [] (gap ++ [close])
  | first {gap item body : Bytes} {items : List Bytes} : Blanks gap → Joined close false items body →
      Joined close true (item :: items) (gap ++ (item ++ body))
  | next {before after item body : Bytes} {items : List Bytes} : Blanks before → Blanks after →
      Joined close false items body → Joined close false (item :: items) (before ++ 0x2C :: (after ++ (item ++ body)))

inductive IsList {α : Type} (IsItem : α → Bytes → Prop) (as : List α) : Bytes → Prop where
  | mk {items : List Bytes} {body : Bytes} : Joined 0x5D true items body → List.Forall₂ IsItem as items →
      IsList IsItem as (0x5B :: body)

structure NamedText where
  name : Bytes
  before : Bytes
  after : Bytes
  value : Bytes

namespace NamedText

def bytes (m : NamedText) : Bytes := m.name ++ (m.before ++ 0x3A :: (m.after ++ m.value))

structure IsSpaced (m : NamedText) : Prop where
  before : Blanks m.before
  after : Blanks m.after

end NamedText

def literalBytes (name : String) : Bytes := name.toList.map byteOf

inductive IsValue : Bytes → Prop where
  | literal {name : String} : name ∈ ["null", "true", "false"] → IsValue (literalBytes name)
  | string {bytes : Bytes} : IsString bytes → IsValue bytes
  | number {bytes : Bytes} : IsNumber bytes → IsValue bytes
  | list {items : List Bytes} {body : Bytes} : Joined 0x5D true items body → (∀ v ∈ items, IsValue v) →
      IsValue (0x5B :: body)
  | object {members : List NamedText} {body : Bytes} : Joined 0x7D true (members.map (·.bytes)) body →
      (∀ m ∈ members, m.IsSpaced) → (∀ m ∈ members, IsString m.name) → (∀ m ∈ members, IsValue m.value) →
      IsValue (0x7B :: body)

inductive IsOptional {α : Type} (IsSome : α → Bytes → Prop) : Option α → Bytes → Prop where
  | none : IsOptional IsSome none (literalBytes "null")
  | some {a : α} {bytes : Bytes} : IsSome a bytes → IsOptional IsSome (some a) bytes

structure Field where
  name : String
  IsValue : Bytes → Prop
  MayBeOmitted : Prop

/-- An object with the members of a record, each at most once, in any order and among any others. -/
inductive IsRecord (fields : List Field) : Bytes → Prop where
  | mk {members : List (String × NamedText)} {body : Bytes}
      (layout : Joined 0x7D true (members.map (·.2.bytes)) body)
      (isSpaced : ∀ m ∈ members, m.2.IsSpaced)
      (isNamed : ∀ m ∈ members, IsText m.1 m.2.name)
      (known : ∀ m ∈ members, ∀ f ∈ fields, f.name = m.1 → f.IsValue m.2.value)
      (unknown : ∀ m ∈ members, (∀ f ∈ fields, f.name ≠ m.1) → IsValue m.2.value)
      (once : ∀ f ∈ fields, (members.map (·.1)).count f.name ≤ 1)
      (given : ∀ f ∈ fields, f.MayBeOmitted ∨ f.name ∈ members.map (·.1)) :
      IsRecord fields (0x7B :: body)

inductive IsDocument {α : Type} (IsValue : α → Bytes → Prop) (a : α) : Bytes → Prop where
  | mk {before value after : Bytes} : Blanks before → IsValue a value → Blanks after →
      IsDocument IsValue a (before ++ (value ++ after))

end Triage.Json
