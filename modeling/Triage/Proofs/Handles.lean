import Mathlib.Data.List.Nodup
import Triage.Callbacks

/-! Handles of different numbers or stems differ, and callbacks are found under the handle they were stored under. -/

namespace Triage.HandleGenerator

/-- The number has no underscore, so the last one of a handle parts it from the stem. -/
theorem handle_inj {a b : String} {i j : Nat} (h : handle a i = handle b j) : a = b ∧ i = j := by
  have hlist : (Nat.toDigits 10 i).reverse ++ '_' :: a.toList.reverse =
      (Nat.toDigits 10 j).reverse ++ '_' :: b.toList.reverse := by
    have htext := congrArg (fun k : Handle => k.text.toList.reverse) h
    simpa [handle, Nat.toString_eq_ofList_toDigits] using htext
  -- Read from the end, everything before the first underscore is the number.
  have htake (n : Nat) (cs : List Char) :
      ((Nat.toDigits 10 n).reverse ++ '_' :: cs).takeWhile (· != '_') = (Nat.toDigits 10 n).reverse := by
    rw [List.takeWhile_append_of_pos]
    · simp
    · intro c hc
      have hne : c ≠ '_' := by
        rintro rfl
        exact Nat.underscore_not_in_toDigits (List.mem_reverse.mp hc)
      simpa using hne
  have hdigits : (Nat.toDigits 10 i).reverse = (Nat.toDigits 10 j).reverse := by
    rw [← htake i a.toList.reverse, hlist, htake]
  rw [hdigits] at hlist
  have hstem : a.toList.reverse = b.toList.reverse := (List.cons_inj_right _).mp (List.append_cancel_left hlist)
  refine ⟨String.toList_inj.mp (List.reverse_injective hstem), ?_⟩
  rw [← Nat.ofDigitChars_ten_toDigits (n := i), List.reverse_injective hdigits, Nat.ofDigitChars_ten_toDigits]

def calls (g : HandleGenerator) : Nat → List Handle
  | 0 => []
  | n + 1 => g.next.1 :: g.next.2.calls n

theorem length_calls (g : HandleGenerator) (n : Nat) : (g.calls n).length = n := by
  induction n generalizing g with
  | zero => rfl
  | succ n ih => rw [calls, List.length_cons, ih]

theorem getElem?_calls (g : HandleGenerator) {n i : Nat} (hi : i < n) :
    (g.calls n)[i]? = some (handle g.stem (g.count + 1 + i)) := by
  induction n generalizing g i with
  | zero => cases hi
  | succ n ih =>
    rw [calls]
    cases i with
    | zero => rfl
    | succ i =>
      rw [List.getElem?_cons_succ, ih _ (Nat.lt_of_succ_lt_succ hi), next]
      exact congrArg (some <| handle g.stem ·) (Nat.add_right_comm _ 1 i)

theorem calls_succ (g : HandleGenerator) (n : Nat) :
    g.calls (n + 1) = g.calls n ++ [handle g.stem (g.count + n + 1)] := by
  induction n generalizing g with
  | zero => rfl
  | succ n ih =>
    rw [calls, ih, calls, List.cons_append, next]
    simp only [Nat.add_right_comm, Nat.add_assoc]

theorem nodup_calls (g : HandleGenerator) (n : Nat) : (g.calls n).Nodup := by
  induction n with
  | zero => exact .nil
  | succ n ih =>
    rw [calls_succ]
    refine List.nodup_append.mpr ⟨ih, List.nodup_singleton _, fun h hmem k hk heq => ?_⟩
    obtain rfl := List.mem_singleton.mp hk
    obtain ⟨i, hi⟩ := List.mem_iff_getElem?.mp hmem
    have hlt : i < n := by
      have hlength := (List.getElem?_eq_some_iff.mp hi).1
      rwa [length_calls] at hlength
    rw [getElem?_calls g hlt] at hi
    have hnumber : g.count + 1 + i = g.count + n + 1 := (handle_inj ((Option.some.inj hi).trans heq)).2
    omega

end Triage.HandleGenerator

namespace Triage.Callbacks

variable {α : Type}

@[simp]
theorem get?_discard (cs : Callbacks α) (h k : Handle) :
    (cs.discard h).get? k = if k = h then none else cs.get? k := by
  unfold get? discard
  induction cs.entries with
  | nil => simp
  | cons e entries ih =>
    obtain ⟨l, f⟩ := e
    by_cases hl : l = h <;> by_cases hk : k = l <;> grind

@[simp]
theorem get?_insert (cs : Callbacks α) (h k : Handle) (f : α) :
    (cs.insert h f).get? k = if k = h then some f else cs.get? k := by
  have hrest := get?_discard cs h k
  unfold get? at hrest
  by_cases hk : k = h <;> grind [insert, get?]

end Triage.Callbacks
