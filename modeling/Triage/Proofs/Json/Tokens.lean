import Triage.Json.Record
import Triage.Proofs.Json.Grammar
import Triage.Proofs.Text.Decoding

/-! Readers take exactly the text of a token off the front of their input: blanks, literals and strings. -/

namespace Triage.Json

def Follows (rest : Bytes) : Prop := ∀ b ∈ rest.head?, isSpace b = true ∨ b ∈ [0x2C, 0x5D, 0x7D]

/-- A text leads to an outcome, whatever blanks stand before it and whatever comes after it. -/
def Reads {α : Type} (read : Reader α) (bytes : Bytes) (outcome : Except JsonFault α) : Prop :=
  ∀ gap rest, Blanks gap → Follows rest → read (gap ++ (bytes ++ rest)) = outcome.map (·, rest)

section

variable {α β : Type} {read : Reader α} {input rest : Bytes} {a : α}

theorem bind_of_ok (h : read input = .ok (a, rest)) (next : α → Reader β) :
    (read >>= next) input = next a rest := by
  show (read input >>= fun (a, rest) => next a rest) = _
  rw [h]
  rfl

theorem bind_of_error {fault : JsonFault} (h : read input = .error fault) (next : α → Reader β) :
    (read >>= next) input = .error fault := by
  show (read input >>= fun (a, rest) => next a rest) = _
  rw [h]
  rfl

theorem map_of_error {fault : JsonFault} (h : read input = .error fault) (f : α → β) :
    (f <$> read) input = .error fault := by
  show (read input >>= fun (a, rest) => _) = _
  rw [h]
  rfl

theorem map_of_ok (h : read input = .ok (a, rest)) (f : α → β) : (f <$> read) input = .ok (f a, rest) := by
  show (read input >>= fun (a, rest) => _) = _
  rw [h]
  rfl

end

theorem blanks_nil : Blanks [] := fun _ hb => absurd hb List.not_mem_nil

theorem dropWhile_blanks {gap : Bytes} (h : Blanks gap) (rest : Bytes) :
    (gap ++ rest).dropWhile isSpace = rest.dropWhile isSpace := List.dropWhile_append_of_pos h

theorem peek?_blanks {gap : Bytes} (h : Blanks gap) {b : UInt8} (hb : isSpace b = false) (rest : Bytes) :
    peek? (gap ++ b :: rest) = .ok (some b, b :: rest) := by
  unfold peek?
  rw [dropWhile_blanks h, List.dropWhile_cons_of_neg (by simp [hb])]
  rfl

theorem bind_peek? {α : Type} {gap : Bytes} (h : Blanks gap) {b : UInt8} (hb : isSpace b = false)
    (next : Option UInt8 → Reader α) (rest : Bytes) :
    (peek? >>= next) (gap ++ b :: rest) = next (some b) (b :: rest) :=
  bind_of_ok (peek?_blanks h hb rest) next

theorem readLiteral_append (name : String) (rest : Bytes) :
    readLiteral name (literalBytes name ++ rest) = .ok ((), rest) := by
  have hliteral (cs : List Char) : literal cs (cs.map byteOf ++ rest) = .ok rest := by
    induction cs with
    | nil => rfl
    | cons c cs ih => simpa [literal] using ih
  unfold readLiteral literalBytes
  rw [hliteral]
  rfl

inductive Emits (mode : Mode) : Bytes → Bytes → Prop where
  | nil : Emits mode [] []
  | unit (taken out : Bytes) {content bytes : Bytes} : taken ≠ [] →
      (∀ rest, stringUnit mode (taken ++ rest) = .ok (.text out rest)) → Emits mode content bytes →
      Emits mode (taken ++ content) (out ++ bytes)

theorem Emits.stringFrom {mode : Mode} {content out : Bytes} (h : Emits mode content out) {fuel : Nat}
    (hfuel : content.length < fuel) (acc rest : Bytes) :
    stringFrom mode fuel acc (content ++ 0x22 :: rest) = .ok (acc.reverse ++ out, rest) := by
  induction h generalizing fuel acc with
  | nil =>
    cases fuel with
    | zero => exact absurd hfuel (Nat.not_lt_zero _)
    | succ fuel =>
      rw [List.append_nil]
      rfl
  | @unit taken out content bytes hne hunit _ ih =>
    cases fuel with
    | zero => exact absurd hfuel (Nat.not_lt_zero _)
    | succ fuel =>
      have hpos := List.length_pos_iff.mpr hne
      rw [List.length_append] at hfuel
      have hrest := ih (show content.length < fuel by omega) (out.reverseAux acc)
      rw [Json.stringFrom, List.append_assoc, hunit]
      dsimp only
      rw [hrest, List.reverseAux_eq, List.reverse_append, List.reverse_reverse, List.append_assoc]

theorem stringUnit_plain (mode : Mode) {b : UInt8} (hquote : b ≠ 0x22) (hback : b ≠ 0x5C) (hmin : 0x20 ≤ b)
    (rest : Bytes) : stringUnit mode (b :: rest) = .ok (.text [b] rest) := by
  have hle : ¬ b < 0x20 := UInt8.not_lt.mpr hmin
  simp [stringUnit, hquote, hback, hle]

theorem Emits.plain {mode : Mode} {content out : Bytes} (h : Emits mode content out) :
    ∀ {bytes : Bytes}, (∀ b ∈ bytes, b ≠ 0x22 ∧ b ≠ 0x5C ∧ 0x20 ≤ b) → Emits mode (bytes ++ content) (bytes ++ out)
  | [], _ => h
  | b :: bytes, hplain => by
    obtain ⟨hquote, hback, hmin⟩ := hplain b List.mem_cons_self
    exact .unit [b] [b] (List.cons_ne_nil _ _) (stringUnit_plain mode hquote hback hmin)
      (h.plain fun b hb => hplain b (List.mem_cons_of_mem _ hb))

theorem utf8EncodeChar_plain {c : Char} (hquote : c ≠ '"') (hback : c ≠ '\\') (hmin : 0x20 ≤ c.toNat) :
    ∀ b ∈ String.utf8EncodeChar c, b ≠ 0x22 ∧ b ≠ 0x5C ∧ 0x20 ≤ b := by
  intro b hb
  have hne (d : Char) (hcd : c ≠ d) : c.toNat ≠ d.toNat := fun h => hcd (Char.toNat_inj.mp h)
  have hquote' := hne _ hquote
  have hback' := hne _ hback
  rw [ne_eq, ne_eq, ← UInt8.toNat_inj, ← UInt8.toNat_inj, UInt8.le_iff_toNat_le]
  simp at hquote' hback' ⊢
  rcases Text.Utf8.eq_or_le_of_mem_utf8EncodeChar hb with h | h <;> omega

theorem simpleEscape?_short {letter c : Char} (h : (letter, c) ∈ shortEscapes) :
    ∃ b, simpleEscape? (byteOf letter) = some b ∧ String.utf8EncodeChar c = [b] := by
  revert h
  simp only [shortEscapes, List.mem_cons, List.not_mem_nil, Prod.mk.injEq, or_false]
  rintro (⟨rfl, rfl⟩ | ⟨rfl, rfl⟩ | ⟨rfl, rfl⟩ | ⟨rfl, rfl⟩ | ⟨rfl, rfl⟩ | ⟨rfl, rfl⟩ | ⟨rfl, rfl⟩ | ⟨rfl, rfl⟩) <;>
    exact ⟨_, rfl, rfl⟩

theorem stringUnit_short (mode : Mode) {letter c : Char} (h : (letter, c) ∈ shortEscapes) (rest : Bytes) :
    stringUnit mode (0x5C :: byteOf letter :: rest) = .ok (.text (String.utf8EncodeChar c) rest) := by
  obtain ⟨b, hescape, hchar⟩ := simpleEscape?_short h
  simp [stringUnit, hescape, hchar]

theorem IsHex4.hex4 {n : Nat} {digits : Bytes} (h : IsHex4 n digits) (rest : Bytes) :
    hex4 (digits ++ rest) = .ok (n, rest) := by
  cases h with
  | mk ha hb hc hd => simp [Json.hex4, ha, hb, hc, hd]

theorem unicodeEscape_unicode {c : Char} {digits : Bytes} (h : IsHex4 c.toNat digits) (rest : Bytes) :
    unicodeEscape (digits ++ rest) = .ok (c, rest) := by
  have hvalid : c.toNat < 0xD800 ∨ 0xDFFF < c.toNat ∧ c.toNat < 0x110000 := c.valid
  have htrailing : isTrailing c.toNat = false := by
    simp [isTrailing]
    omega
  have hleading : isLeading c.toNat = false := by
    simp [isLeading]
    omega
  unfold unicodeEscape
  rw [h.hex4]
  simp [htrailing, hleading]

theorem unicodeEscape_halves {c : Char} {high low : Bytes} (hc : 0x10000 ≤ c.toNat)
    (hhigh : IsHex4 (0xD800 + (c.toNat - 0x10000) / 0x400) high)
    (hlow : IsHex4 (0xDC00 + (c.toNat - 0x10000) % 0x400) low) (rest : Bytes) :
    unicodeEscape (high ++ 0x5C :: 0x75 :: (low ++ rest)) = .ok (c, rest) := by
  have hvalid : c.toNat < 0xD800 ∨ 0xDFFF < c.toNat ∧ c.toNat < 0x110000 := c.valid
  have hchar : Char.ofNat c.toNat = c := Char.ofNat_toNat c
  generalize c.toNat = n at hc hhigh hlow hvalid hchar
  have hnot : isTrailing (0xD800 + (n - 0x10000) / 0x400) = false := by
    simp [isTrailing]
    omega
  have hleading : isLeading (0xD800 + (n - 0x10000) / 0x400) = true := by
    simp [isLeading]
    omega
  have htrailing : isTrailing (0xDC00 + (n - 0x10000) % 0x400) = true := by
    simp [isTrailing]
    omega
  have hn : 0x10000 + (0xD800 + (n - 0x10000) / 0x400 - 0xD800) * 0x400 +
      (0xDC00 + (n - 0x10000) % 0x400 - 0xDC00) = n := by omega
  have hhalf : trailingHalf (0x5C :: 0x75 :: (low ++ rest)) = .ok (0xDC00 + (n - 0x10000) % 0x400, rest) := by
    simp [trailingHalf, hlow.hex4, htrailing]
  unfold unicodeEscape
  rw [hhigh.hex4]
  dsimp only
  rw [hnot, hleading, hhalf]
  simp only [Bool.false_eq_true, if_false, if_true]
  rw [hn, hchar]

theorem encode_singleton (c : Char) : Text.Utf8.encode (.singleton c) = String.utf8EncodeChar c := by
  have h := Text.Utf8.encode_ofList [c]
  simpa using h

theorem stringUnit_unicode (taken rest : Bytes) {c : Char} (h : unicodeEscape (taken ++ rest) = .ok (c, rest)) :
    stringUnit .read (0x5C :: 0x75 :: taken ++ rest) = .ok (.text (String.utf8EncodeChar c) rest) := by
  have hescape : simpleEscape? 0x75 = none := rfl
  simp [stringUnit, hescape, h, Except.map, encode_singleton]

theorem Spells.emits {cs : List Char} {content : Bytes} (h : Spells cs content) :
    Emits .read content (cs.flatMap String.utf8EncodeChar) := by
  induction h with
  | nil => exact .nil
  | plain hquote hback hmin _ ih =>
    rw [List.flatMap_cons]
    exact ih.plain (utf8EncodeChar_plain hquote hback hmin)
  | @short letter c cs bytes hshort _ ih =>
    rw [List.flatMap_cons]
    exact .unit [0x5C, byteOf letter] _ (List.cons_ne_nil _ _) (stringUnit_short .read hshort) ih
  | @unicode c cs digits bytes hdigits _ ih =>
    rw [List.flatMap_cons]
    exact .unit (0x5C :: 0x75 :: digits) _ (List.cons_ne_nil _ _)
      (fun rest => stringUnit_unicode _ _ (unicodeEscape_unicode hdigits rest)) ih
  | @halves c cs high low bytes hc hhigh hlow _ ih =>
    have hunit (rest : Bytes) := stringUnit_unicode (high ++ 0x5C :: 0x75 :: low) rest (by
      rw [List.append_assoc, List.cons_append, List.cons_append]
      exact unicodeEscape_halves hc hhigh hlow rest)
    have hemits := Emits.unit _ _ (List.cons_ne_nil _ _) hunit ih
    simpa using hemits

theorem readString_append {s : String} {bytes : Bytes} (h : IsText s bytes) (rest : Bytes) :
    readString (bytes ++ rest) = .ok (s, rest) := by
  cases h with
  | @mk content hspells =>
    have hencode : s.toList.flatMap String.utf8EncodeChar = Text.Utf8.encode s := by
      rw [← Text.Utf8.encode_ofList, String.ofList_toList]
    unfold readString
    rw [List.cons_append, List.drop_succ_cons, List.drop_zero, List.append_assoc, List.singleton_append,
      hspells.emits.stringFrom (by simp; omega), List.reverse_nil, List.nil_append, hencode]
    dsimp only
    rw [Text.Utf8.decode?_encode]

theorem IsContent.emits {content : Bytes} (h : IsContent content) : ∃ out, Emits .skip content out := by
  induction h with
  | nil => exact ⟨_, .nil⟩
  | @plain b bytes hquote hback hmin _ ih =>
    obtain ⟨out, ih⟩ := ih
    exact ⟨_, .unit [b] _ (List.cons_ne_nil _ _) (stringUnit_plain .skip hquote hback hmin) ih⟩
  | @short letter c bytes hshort _ ih =>
    obtain ⟨out, ih⟩ := ih
    exact ⟨_, .unit [0x5C, byteOf letter] _ (List.cons_ne_nil _ _) (stringUnit_short .skip hshort) ih⟩
  | @unicode n digits bytes hdigits _ ih =>
    obtain ⟨out, ih⟩ := ih
    have hescape : simpleEscape? 0x75 = none := rfl
    refine ⟨_, .unit (0x5C :: 0x75 :: digits) [] (List.cons_ne_nil _ _) (fun rest => ?_) ih⟩
    simp [stringUnit, hescape, hdigits.hex4, Except.map]

theorem skipString_append {bytes : Bytes} (h : IsString bytes) (rest : Bytes) :
    skipString (bytes ++ rest) = .ok ((), rest) := by
  cases h with
  | @mk content hcontent =>
    obtain ⟨out, hemits⟩ := hcontent.emits
    unfold skipString
    rw [List.cons_append, List.drop_succ_cons, List.drop_zero, List.append_assoc, List.singleton_append,
      hemits.stringFrom (by simp; omega)]
    rfl

theorem reads_text {s : String} {bytes : Bytes} (h : IsText s bytes) : Reads text bytes (.ok s) := by
  intro gap rest hgap _
  have hstring := readString_append h rest
  cases h with
  | mk hspells =>
    unfold text
    rw [List.cons_append, bind_peek? hgap rfl]
    exact hstring

end Triage.Json
