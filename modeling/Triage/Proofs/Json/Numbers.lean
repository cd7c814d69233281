import Mathlib.Data.List.Induction
import Triage.Proofs.Json.Tokens
import Triage.Proofs.Text.Parts

/-! Numbers end where their digits do. Integers of 64 bits are read as what they are. -/

namespace Triage.Json

def NoDigit (rest : Bytes) : Prop := ∀ b ∈ rest.head?, isDigit b = false

theorem Follows.noDigit {rest : Bytes} (h : Follows rest) : NoDigit rest := by
  intro b hb
  rcases h b hb with hspace | hclose
  · unfold isSpace at hspace
    simp only [Bool.or_eq_true, beq_iff_eq] at hspace
    rcases hspace with ((rfl | rfl) | rfl) | rfl <;> rfl
  · simp only [List.mem_cons, List.not_mem_nil, or_false] at hclose
    rcases hclose with rfl | rfl | rfl <;> rfl

theorem Follows.ne {rest : Bytes} (h : Follows rest) (b : UInt8) (hb : b ∈ [0x2E, 0x65, 0x45]) : b ∉ rest.head? := by
  intro hhead
  have hnot : ∀ b ∈ [0x2E, 0x65, 0x45], ¬ (isSpace b = true ∨ b ∈ [0x2C, 0x5D, 0x7D]) := by decide +kernel
  exact hnot b hb (h b hhead)

theorem digits1_append (mode : Mode) {ds rest : Bytes} (h : Digits ds) (hrest : NoDigit rest) :
    digits1 mode (ds ++ rest) = .ok (ds, rest) := by
  unfold digits1
  rw [Text.span_append h.all hrest]
  split
  · next hnil => exact absurd (congrArg Prod.fst hnil) h.ne_nil
  · next hds => rw [← hds]

theorem wholePart_append (mode : Mode) {ds rest : Bytes} (h : Whole ds) (hrest : NoDigit rest) :
    wholePart mode (ds ++ rest) = .ok (ds, rest) := by
  unfold wholePart
  rw [digits1_append mode h.toDigits hrest]
  split
  · next hzero =>
    obtain ⟨rfl, -⟩ := Prod.mk.inj (Except.ok.inj hzero)
    cases h.leading rfl
  · rfl

theorem Fraction.noDigit {fraction rest : Bytes} (h : Fraction fraction) (hrest : NoDigit rest) :
    NoDigit (fraction ++ rest) := by
  cases h with
  | none => exact hrest
  | some _ =>
    rintro b hb
    obtain rfl := Option.some.inj hb
    rfl

theorem Exponent.noDigit {exponent rest : Bytes} (h : Exponent exponent) (hrest : NoDigit rest) :
    NoDigit (exponent ++ rest) := by
  cases h with
  | none => exact hrest
  | some he =>
    rintro b hb
    obtain rfl := Option.some.inj hb
    rcases he with rfl | rfl <;> rfl

theorem Exponent.noPoint {exponent rest : Bytes} (h : Exponent exponent) (hrest : 0x2E ∉ rest.head?) :
    0x2E ∉ (exponent ++ rest).head? := by
  cases h with
  | none => exact hrest
  | some he =>
    intro hb
    have heq := Option.some.inj hb
    rcases he with rfl | rfl <;> exact absurd heq (by decide)

theorem fractionPart_append (mode : Mode) {fraction rest : Bytes} (h : Fraction fraction) (hrest : NoDigit rest)
    (hpoint : 0x2E ∉ rest.head?) :
    ∃ f, fractionPart mode (fraction ++ rest) = .ok (f, rest) ∧ (fraction = [] → f = none) := by
  cases h with
  | none =>
    refine ⟨none, ?_, fun _ => rfl⟩
    unfold fractionPart
    split
    · next heq =>
      rw [List.nil_append] at heq
      exact absurd (by rw [heq]; rfl) hpoint
    · rfl
  | @some ds hds =>
    refine ⟨some ds, ?_, fun hnil => absurd hnil (List.cons_ne_nil _ _)⟩
    rw [List.cons_append, fractionPart, digits1_append mode hds hrest]
    rfl

theorem exponentDigits_append (mode : Mode) (negative : Bool) {ds rest : Bytes} (h : Digits ds)
    (hrest : NoDigit rest) : ∃ e, exponentDigits mode negative (ds ++ rest) = .ok (e, rest) := by
  unfold exponentDigits
  rw [digits1_append mode h hrest]
  exact ⟨_, rfl⟩

theorem exponentPart_append (mode : Mode) {exponent rest : Bytes} (h : Exponent exponent) (hrest : Follows rest) :
    ∃ e, exponentPart mode (exponent ++ rest) = .ok (e, rest) ∧ (exponent = [] → e = none) := by
  cases h with
  | none =>
    refine ⟨none, ?_, fun _ => rfl⟩
    cases rest with
    | nil => rfl
    | cons b rest =>
      have hsmall : b ≠ 0x65 := fun h => hrest.ne 0x65 (by decide) (congrArg some h)
      have hcapital : b ≠ 0x45 := fun h => hrest.ne 0x45 (by decide) (congrArg some h)
      simp [exponentPart, hsmall, hcapital]
  | @some e sign ds he hsign hds =>
    have hmark : (e == 0x65 || e == 0x45) = true := by rcases he with rfl | rfl <;> rfl
    obtain ⟨d, ds', rfl⟩ := List.exists_cons_of_ne_nil hds.ne_nil
    have hd := hds.all d List.mem_cons_self
    simp only [List.mem_cons, List.not_mem_nil, or_false] at hsign
    obtain ⟨negative, heq⟩ : ∃ negative, exponentPart mode (e :: (sign ++ (d :: ds' ++ rest))) =
        exponentDigits mode negative (d :: ds' ++ rest) := by
      unfold exponentPart
      dsimp only
      rw [if_pos hmark]
      rcases hsign with rfl | rfl | rfl
      -- Without a sign the digits come at once, and no digit is taken for a sign.
      · refine ⟨false, ?_⟩
        split
        · next hplus =>
          obtain ⟨rfl, -⟩ := List.cons.inj hplus
          cases hd
        · next hminus =>
          obtain ⟨rfl, -⟩ := List.cons.inj hminus
          cases hd
        · rfl
      · exact ⟨false, rfl⟩
      · exact ⟨true, rfl⟩
    obtain ⟨value, hvalue⟩ := exponentDigits_append mode negative hds hrest.noDigit
    refine ⟨value, ?_, fun hnil => absurd hnil (List.cons_ne_nil _ _)⟩
    rw [List.cons_append, List.append_assoc, heq, hvalue]

theorem numberFrom_append (mode : Mode) (negative : Bool) {whole fraction exponent rest : Bytes} (hwhole : Whole whole)
    (hfraction : Fraction fraction) (hexponent : Exponent exponent) (hrest : Follows rest) :
    ∃ n, numberFrom mode negative (whole ++ (fraction ++ exponent) ++ rest) = .ok (n, rest) ∧
      (fraction = [] → exponent = [] → n = ⟨negative, whole, none, none⟩) := by
  have hafter := hexponent.noDigit hrest.noDigit
  obtain ⟨f, hf, hnone⟩ := fractionPart_append mode hfraction hafter (hexponent.noPoint (hrest.ne _ (by decide)))
  obtain ⟨e, he, hnone'⟩ := exponentPart_append mode hexponent hrest
  refine ⟨⟨negative, whole, f, e⟩, ?_, ?_⟩
  · have hw := wholePart_append mode hwhole (hfraction.noDigit hafter)
    unfold numberFrom
    rw [List.append_assoc, List.append_assoc, hw]
    show (fractionPart mode _ >>= _) = _
    rw [hf]
    show (exponentPart mode _ >>= _) = _
    rw [he]
    rfl
  · intro hfraction hexponent
    rw [hnone hfraction, hnone' hexponent]

theorem number_unsigned (mode : Mode) {bytes : Bytes} {b : UInt8} (hb : b ∈ bytes.head?) (hdigit : isDigit b = true) :
    number mode bytes = numberFrom mode false bytes := by
  unfold number
  split
  · next rest =>
    obtain rfl := Option.some.inj hb
    cases hdigit
  · rfl

theorem Digits.exists_head {ds : Bytes} (h : Digits ds) : ∃ d, isDigit d = true ∧ ∀ rest, d ∈ (ds ++ rest).head? := by
  obtain ⟨d, ds, rfl⟩ := List.exists_cons_of_ne_nil h.ne_nil
  exact ⟨d, h.all d List.mem_cons_self, fun _ => rfl⟩

theorem skipNumber_append {bytes rest : Bytes} (h : IsNumber bytes) (hrest : Follows rest) :
    skipNumber (bytes ++ rest) = .ok ((), rest) := by
  cases h with
  | @mk sign whole fraction exponent hsign hwhole hfraction hexponent =>
    obtain ⟨n, hn⟩ : ∃ n, number .skip (sign ++ (whole ++ (fraction ++ exponent)) ++ rest) = .ok (n, rest) := by
      simp only [List.mem_cons, List.not_mem_nil, or_false] at hsign
      rcases hsign with rfl | rfl
      · obtain ⟨n, hn, -⟩ := numberFrom_append .skip false hwhole hfraction hexponent hrest
        obtain ⟨d, hd, hhead⟩ := hwhole.toDigits.exists_head
        refine ⟨n, ?_⟩
        rw [List.nil_append, number_unsigned .skip (by rw [List.append_assoc]; exact hhead _) hd]
        exact hn
      · obtain ⟨n, hn, -⟩ := numberFrom_append .skip true hwhole hfraction hexponent hrest
        exact ⟨n, hn⟩
    unfold skipNumber
    rw [hn]
    rfl

theorem natOf_append (ds : Bytes) (d : UInt8) : natOf (ds ++ [d]) = natOf ds * 10 + (d.toNat - 0x30) := by
  simp [natOf]

theorem le_natOf_append {ds : Bytes} (h : 0 < natOf ds) (more : Bytes) :
    Nat.pow 10 more.length ≤ natOf (ds ++ more) := by
  induction more using List.reverseRecOn with
  | nil =>
    rw [List.append_nil]
    exact h
  | append_singleton more d ih =>
    rw [← List.append_assoc, natOf_append, List.length_append]
    have hpow : Nat.pow 10 (more.length + [d].length) = Nat.pow 10 more.length * 10 := rfl
    omega

theorem Whole.isTooLarge_eq_false {ds : Bytes} (h : Whole ds) (hbound : natOf ds < 0x10000000000000000)
    (negative : Bool) : (⟨negative, ds, none, none⟩ : Number).isTooLarge = false := by
  have hlength : ds.length ≤ 20 := by
    obtain ⟨d, more, rfl⟩ := List.exists_cons_of_ne_nil h.ne_nil
    by_cases hzero : d = 0x30
    · subst hzero
      have hone := h.leading rfl
      simp [hone]
    · have hd := h.all d List.mem_cons_self
      have hpos : 0 < natOf [d] := by
        unfold isDigit at hd
        simp [natOf, UInt8.le_iff_toNat_le, ← UInt8.toNat_inj] at hd hzero ⊢
        omega
      -- The first digit alone weighs more than an integer of 64 bits if twenty follow it.
      have hle := le_natOf_append hpos more
      by_contra hlong
      have hpow : Nat.pow 10 20 ≤ Nat.pow 10 more.length := Nat.pow_le_pow_right (by decide) (by simp at hlong; omega)
      have hten : Nat.pow 10 20 = 100000000000000000000 := rfl
      rw [List.singleton_append] at hle
      omega
  have hdrop := (List.dropWhile_suffix (l := ds) (· == 0x30)).length_le
  unfold Number.isTooLarge
  simp
  omega

theorem readNumber_append (negative : Bool) {ds rest : Bytes} (h : Whole ds) (hbound : natOf ds < 0x10000000000000000)
    (hrest : Follows rest) :
    readNumber ((if negative then 0x2D :: ds else ds) ++ rest) = .ok (⟨negative, ds, none, none⟩, rest) := by
  have hnumber : number .read ((if negative then 0x2D :: ds else ds) ++ rest) =
      .ok (⟨negative, ds, none, none⟩, rest) := by
    obtain ⟨n, hn, hplain⟩ := numberFrom_append .read negative h .none .none hrest
    rw [List.append_nil, List.append_nil] at hn
    obtain rfl := hplain rfl rfl
    cases negative with
    | false =>
      obtain ⟨d, hd, hhead⟩ := h.toDigits.exists_head
      rw [if_neg Bool.false_ne_true, number_unsigned .read (hhead rest) hd]
      exact hn
    | true => exact hn
  unfold readNumber
  rw [hnumber]
  dsimp only
  rw [h.isTooLarge_eq_false hbound negative]
  rfl

theorem IsInteger.readNumber {i : Int} {bytes : Bytes} (h : IsInteger i bytes) (hlow : -0x8000000000000000 ≤ i)
    (hhigh : i ≤ 0xFFFFFFFFFFFFFFFF) :
    ∃ n, n.integer? = some i ∧ ∀ rest, Follows rest → readNumber (bytes ++ rest) = .ok (n, rest) := by
  cases h with
  | @nonneg n _ hds =>
    refine ⟨⟨false, bytes, none, none⟩, ?_, fun rest hrest => ?_⟩
    · have hbound : n < 0x10000000000000000 := by omega
      simp [Number.integer?, hds.value, hbound]
    · exact readNumber_append false hds.toWhole (by rw [hds.value]; omega) hrest
  | @neg n ds hpos hds =>
    refine ⟨⟨true, ds, none, none⟩, ?_, fun rest hrest => ?_⟩
    · simp [Number.integer?, hds.value]
      omega
    · exact readNumber_append true hds.toWhole (by rw [hds.value]; omega) hrest

theorem IsNumber.exists_head {bytes : Bytes} (h : IsNumber bytes) :
    ∃ b tail, bytes = b :: tail ∧ (b == 0x2D || isDigit b) = true := by
  cases h with
  | @mk sign whole fraction exponent hsign hwhole _ _ =>
    obtain ⟨d, ds, rfl⟩ := List.exists_cons_of_ne_nil hwhole.ne_nil
    have hd := hwhole.all d List.mem_cons_self
    simp only [List.mem_cons, List.not_mem_nil, or_false] at hsign
    rcases hsign with rfl | rfl
    · exact ⟨d, _, rfl, by rw [hd, Bool.or_true]⟩
    · exact ⟨0x2D, _, rfl, rfl⟩

theorem IsInteger.isNumber {i : Int} {bytes : Bytes} (h : IsInteger i bytes) : IsNumber bytes := by
  have hmk (sign : Bytes) {ds : Bytes} (hsign : sign ∈ [[], [0x2D]]) (hds : Whole ds) : IsNumber (sign ++ ds) := by
    have hnumber := IsNumber.mk hsign hds .none .none
    rwa [List.append_nil, List.append_nil] at hnumber
  cases h with
  | nonneg hds => exact hmk [] (by simp) hds.toWhole
  | neg _ hds => exact hmk [0x2D] (by simp) hds.toWhole

theorem isSpace_of_number {b : UInt8} (h : (b == 0x2D || isDigit b) = true) : isSpace b = false := by
  by_contra hspace
  unfold isSpace at hspace
  simp only [Bool.not_eq_false, Bool.or_eq_true, beq_iff_eq] at hspace
  rcases hspace with ((rfl | rfl) | rfl) | rfl <;> cases h

theorem reads_integer (low high : Int) {i : Int} {bytes : Bytes} (h : IsInteger i bytes) (hlow : low ≤ i)
    (hhigh : i ≤ high) (hmin : -0x8000000000000000 ≤ low) (hmax : high ≤ 0xFFFFFFFFFFFFFFFF) :
    Reads (integer low high) bytes (.ok i) := by
  intro gap rest hgap hrest
  obtain ⟨n, hn, hread⟩ := h.readNumber (by omega) (by omega)
  obtain ⟨b, tail, rfl, hb⟩ := h.isNumber.exists_head
  unfold integer
  rw [List.cons_append, bind_peek? hgap (isSpace_of_number hb)]
  dsimp only
  rw [if_pos hb, ← List.cons_append, bind_of_ok (hread rest hrest), hn]
  dsimp only
  rw [if_pos (by simp [hlow, hhigh])]
  rfl

theorem reads_signed64 {i : Int} {bytes : Bytes} (h : IsInteger i bytes) (hlow : -0x8000000000000000 ≤ i)
    (hhigh : i ≤ 0x7FFFFFFFFFFFFFFF) : Reads signed64 bytes (.ok i) :=
  reads_integer _ _ h hlow hhigh (by decide) (by decide)

theorem reads_unsigned64 {n : Nat} {bytes : Bytes} (h : IsNatural n bytes) (hbound : n ≤ 0xFFFFFFFFFFFFFFFF) :
    Reads unsigned64 bytes (.ok n) := by
  intro gap rest hgap hrest
  have hread := reads_integer 0 0xFFFFFFFFFFFFFFFF (.nonneg h) (by omega) (by omega) (by decide)
    (by decide) gap rest hgap hrest
  unfold unsigned64
  rw [bind_of_ok hread]
  rfl

end Triage.Json
