import Mathlib.Tactic.IntervalCases
import Triage.Text.Utf8

/-! Decoding gives back what was encoded. -/

namespace Triage.Text.Utf8

/-- Bytes that take the machine through one character, from between characters or from the middle of it. -/
inductive Completes (c : Char) : Option Pending → List UInt8 → Prop where
  | single {b : UInt8} : lead b = .char c → Completes c none [b]
  | first {b : UInt8} {p : Pending} {bytes : List UInt8} :
      lead b = .start p → Completes c (some p) bytes → Completes c none (b :: bytes)
  | next {p q : Pending} {b : UInt8} {bytes : List UInt8} :
      step p b = .wait q → Completes c (some q) bytes → Completes c (some p) (b :: bytes)
  | last {p : Pending} {b : UInt8} : step p b = .char c → Completes c (some p) [b]

section

variable {c : Char} {p : Option Pending} {bytes : List UInt8}

theorem Completes.decodeFrom (h : Completes c p bytes) (out : String) (rest : List UInt8) :
    decodeFrom out p (bytes ++ rest) = decodeFrom (out.push c) none rest := by
  induction h with
  | single hlead => simp [Utf8.decodeFrom, hlead, Lead.emit]
  | first hlead _ ih => simpa [Utf8.decodeFrom, hlead, Lead.emit] using ih
  | next hstep _ ih => simpa [Utf8.decodeFrom, hstep] using ih
  | last hstep => simp [Utf8.decodeFrom, hstep]

theorem Completes.validFrom (h : Completes c p bytes) (rest : List UInt8) :
    validFrom p (bytes ++ rest) = validFrom none rest := by
  induction h with
  | single hlead => simp [Utf8.validFrom, hlead]
  | first hlead _ ih => simpa [Utf8.validFrom, hlead] using ih
  | next hstep _ ih => simpa [Utf8.validFrom, hstep] using ih
  | last hstep => simp [Utf8.validFrom, hstep]

end

theorem toNat_ofNat_of_lt {n : Nat} (h : n < 256) : (UInt8.ofNat n).toNat = n := by
  rw [UInt8.toNat_ofNat']
  exact Nat.mod_eq_of_lt h

theorem step_ofNat {p : Pending} {n : Nat} (hn : n < 256) (hlow : p.low.toNat ≤ n) (hhigh : n ≤ p.high.toNat) :
    step p (.ofNat n) =
      if p.owed ≤ 1 then .char (.ofNat (p.bits * 64 + (n - 0x80)))
      else .wait ⟨p.bits * 64 + (n - 0x80), p.owed - 1, 0x80, 0xBF⟩ := by
  have hrange : p.low ≤ UInt8.ofNat n ∧ UInt8.ofNat n ≤ p.high := by
    rw [UInt8.le_iff_toNat_le, UInt8.le_iff_toNat_le, toNat_ofNat_of_lt hn]
    exact ⟨hlow, hhigh⟩
  unfold step
  rw [if_pos (by simpa using hrange), toNat_ofNat_of_lt hn]

theorem step_next {bits owed n : Nat} {low high : UInt8} (hn : n < 64) (hlow : low.toNat ≤ n + 0x80)
    (hhigh : n + 0x80 ≤ high.toNat) :
    step ⟨bits, owed + 2, low, high⟩ (.ofNat (n + 0x80)) = .wait ⟨bits * 64 + n, owed + 1, 0x80, 0xBF⟩ := by
  rw [step_ofNat (by omega) hlow hhigh]
  simp

theorem step_last {bits n : Nat} {low high : UInt8} (hn : n < 64) (hlow : low.toNat ≤ n + 0x80)
    (hhigh : n + 0x80 ≤ high.toNat) :
    step ⟨bits, 1, low, high⟩ (.ofNat (n + 0x80)) = .char (.ofNat (bits * 64 + n)) := by
  rw [step_ofNat (by omega) hlow hhigh]
  simp

theorem lead_one {n : Nat} (hn : n < 0x80) : lead (.ofNat n) = .char (.ofNat n) := by
  unfold lead
  rw [toNat_ofNat_of_lt (by omega)]
  simp [hn]

theorem lead_two {n : Nat} (hlow : 2 ≤ n) (hn : n < 0x20) :
    lead (.ofNat (n + 0xC0)) = .start ⟨n, 1, 0x80, 0xBF⟩ := by
  unfold lead
  rw [toNat_ofNat_of_lt (by omega)]
  simp [show ¬ n + 0xC0 < 0x80 by omega, show ¬ n + 0xC0 < 0xC2 by omega, show n + 0xC0 < 0xE0 by omega]

theorem lead_three {n : Nat} (hn : n < 0x10) :
    lead (.ofNat (n + 0xE0)) = .start ⟨n, 2, if n = 0 then 0xA0 else 0x80, if n = 0xD then 0x9F else 0xBF⟩ := by
  interval_cases n <;> rfl

theorem lead_four {n : Nat} (hn : n < 5) :
    lead (.ofNat (n + 0xF0)) = .start ⟨n, 3, if n = 0 then 0x90 else 0x80, if n = 4 then 0x8F else 0xBF⟩ := by
  interval_cases n <;> rfl

theorem completes_utf8EncodeChar (c : Char) : Completes c none (String.utf8EncodeChar c) := by
  have hchar : Char.ofNat c.val.toNat = c := Char.ofNat_toNat c
  have hvalid : c.val.toNat < 0xD800 ∨ 0xDFFF < c.val.toNat ∧ c.val.toNat < 0x110000 := c.valid
  unfold String.utf8EncodeChar
  generalize c.val.toNat = v at hchar hvalid
  -- However the bits are dealt out to the bytes, together they are the character again.
  have hlast {bits : Nat} (hbits : bits * 64 + v % 64 = v) {low high : UInt8} (hlow : low.toNat ≤ v % 64 + 0x80)
      (hhigh : v % 64 + 0x80 ≤ high.toNat) : Completes c (some ⟨bits, 1, low, high⟩) [.ofNat (v % 64 + 0x80)] := by
    refine .last ?_
    rw [step_last (by omega) hlow hhigh, hbits, hchar]
  have htail : (0x80 : UInt8).toNat ≤ v % 64 + 0x80 ∧ v % 64 + 0x80 ≤ (0xBF : UInt8).toNat := by
    simp
    omega
  dsimp only
  split
  · next h1 =>
    refine .single ?_
    rw [lead_one (by omega), hchar]
  · split
    · next h2 => exact .first (lead_two (by omega) (by omega)) (hlast (by omega) htail.1 htail.2)
    · split
      · next h3 =>
        refine .first (lead_three (by omega)) (.next (step_next (by omega) ?_ ?_) (hlast (by omega) htail.1 htail.2))
        · split <;> simp
          omega
        · split <;> simp <;> omega
      · next h3 =>
        have hmod : v / 262144 % 8 = v / 262144 := Nat.mod_eq_of_lt (by omega)
        rw [hmod]
        refine .first (lead_four (by omega)) (.next (step_next (by omega) ?_ ?_)
          (.next (step_next (by omega) ?_ ?_) (hlast (by omega) htail.1 htail.2)))
        · split <;> simp
          omega
        · split <;> simp <;> omega
        · simp
        · simp
          omega

theorem eq_or_le_of_mem_utf8EncodeChar {c : Char} {b : UInt8} (h : b ∈ String.utf8EncodeChar c) :
    b.toNat = c.toNat ∨ 0x80 ≤ b.toNat := by
  have hvalid : c.toNat < 0xD800 ∨ 0xDFFF < c.toNat ∧ c.toNat < 0x110000 := c.valid
  have hval : c.val.toNat = c.toNat := rfl
  unfold String.utf8EncodeChar at h
  rw [hval] at h
  dsimp only at h
  split at h
  · obtain rfl := List.mem_singleton.mp h
    exact .inl (toNat_ofNat_of_lt (by omega))
  -- The encodings of two, three and four bytes.
  · refine .inr ?_
    split at h
    · simp only [List.mem_cons, List.not_mem_nil, or_false] at h
      rcases h with rfl | rfl <;> (rw [toNat_ofNat_of_lt (by omega)]; omega)
    · split at h
      · simp only [List.mem_cons, List.not_mem_nil, or_false] at h
        rcases h with rfl | rfl | rfl <;> (rw [toNat_ofNat_of_lt (by omega)]; omega)
      · simp only [List.mem_cons, List.not_mem_nil, or_false] at h
        rcases h with rfl | rfl | rfl | rfl <;> (rw [toNat_ofNat_of_lt (by omega)]; omega)

theorem decodeFrom_encoded (cs : List Char) (out : String) :
    decodeFrom out none (cs.flatMap String.utf8EncodeChar) = out ++ String.ofList cs := by
  induction cs generalizing out with
  | nil => simp [decodeFrom]
  | cons c rest ih =>
    rw [List.flatMap_cons, (completes_utf8EncodeChar c).decodeFrom, ih]
    simp [← String.append_singleton, String.append_assoc]

theorem validFrom_encoded (cs : List Char) : validFrom none (cs.flatMap String.utf8EncodeChar) = true := by
  induction cs with
  | nil => rfl
  | cons c rest ih => rw [List.flatMap_cons, (completes_utf8EncodeChar c).validFrom, ih]

theorem encode_ofList (cs : List Char) : encode (.ofList cs) = cs.flatMap String.utf8EncodeChar := by
  unfold encode
  simp [List.utf8Encode]

theorem decode?_encode (s : String) : decode? (encode s) = some s := by
  have hbytes := encode_ofList s.toList
  rw [String.ofList_toList] at hbytes
  unfold decode? isValid decodeLossy
  rw [hbytes, validFrom_encoded, decodeFrom_encoded]
  simp

end Triage.Text.Utf8
