import Mathlib.Data.List.Forall2
import Mathlib.Data.List.TakeDrop
import Triage.Text.Blank
import Triage.Text.Lines

/-! What splitting and trimming leave of a text, and its lines. -/

namespace Triage.Text

inductive Separated (isSeparator : Char → Prop) : List Char → List (List Char) → Prop where
  | last {piece : List Char} : (∀ c ∈ piece, ¬ isSeparator c) → Separated isSeparator piece [piece]
  | next (piece : List Char) {rest : List Char} {c : Char} {pieces : List (List Char)} :
      (∀ c ∈ piece, ¬ isSeparator c) → isSeparator c → Separated isSeparator rest pieces →
      Separated isSeparator (piece ++ c :: rest) (piece :: pieces)

structure Trimmed (p : Char → Bool) (cs core : List Char) : Prop where
  around : ∃ before after, cs = before ++ core ++ after ∧ before.all p ∧ after.all p
  startsBare : ∀ c ∈ core.head?, p c = false
  endsBare : ∀ c ∈ core.getLast?, p c = false

section

variable {isSeparator : Char → Prop} {cs : List Char}

theorem Separated.ne_nil {pieces : List (List Char)} (h : Separated isSeparator cs pieces) : pieces ≠ [] := by
  cases h <;> simp

theorem Separated.cons {c : Char} {piece : List Char} {pieces : List (List Char)} (hc : ¬ isSeparator c)
    (h : Separated isSeparator cs (piece :: pieces)) : Separated isSeparator (c :: cs) ((c :: piece) :: pieces) := by
  have hbare (hpiece : ∀ c ∈ piece, ¬ isSeparator c) : ∀ d ∈ c :: piece, ¬ isSeparator d := by
    rintro d (_ | ⟨_, hd⟩)
    · exact hc
    · exact hpiece d hd
  cases h with
  | last hpiece => exact .last (hbare hpiece)
  | next _ hpiece hsep hrest => exact .next _ (hbare hpiece) hsep hrest

theorem separated_splitOn_map (isSeparator : Char → Prop) (sep : Char) (f : Char → Char)
    (hsep : ∀ c, isSeparator c ↔ f c = sep) (hkeeps : ∀ c, ¬ isSeparator c → f c = c) (cs : List Char) :
    Separated isSeparator cs (splitOn sep (cs.map f)) := by
  induction cs with
  | nil => exact .last fun c hc => absurd hc List.not_mem_nil
  | cons c rest ih =>
    rw [List.map_cons, splitOn]
    by_cases hc : isSeparator c
    · rw [if_pos ((hsep c).mp hc)]
      exact .next [] (fun c hc => absurd hc List.not_mem_nil) hc ih
    · rw [if_neg (mt (hsep c).mpr hc), hkeeps c hc]
      cases hpieces : splitOn sep (rest.map f) with
      | nil => exact absurd hpieces ih.ne_nil
      | cons piece pieces => exact .cons hc (hpieces ▸ ih)

end

theorem trimmed_trimBy (p : Char → Bool) (cs : List Char) : Trimmed p cs (trimBy p cs) := by
  have hfront : cs = cs.takeWhile p ++ cs.dropWhile p := List.takeWhile_append_dropWhile.symm
  have hback : cs.dropWhile p = trimBy p cs ++ ((cs.dropWhile p).reverse.takeWhile p).reverse := by
    rw [trimBy, ← List.reverse_append, List.takeWhile_append_dropWhile, List.reverse_reverse]
  have hall (ds : List Char) : (ds.takeWhile p).all p := List.all_takeWhile
  refine ⟨⟨cs.takeWhile p, ((cs.dropWhile p).reverse.takeWhile p).reverse, ?_, hall cs, ?_⟩, ?_, ?_⟩
  · rw [List.append_assoc, ← hback]
    exact hfront
  · rw [List.all_reverse]
    exact hall _
  · intro c hc
    have hhead : (cs.dropWhile p).head? = some c := by
      rw [hback, List.head?_append, hc]
      rfl
    have hbare := List.head?_dropWhile_not p cs
    simpa [hhead] using hbare
  · intro c hc
    rw [trimBy, List.getLast?_reverse] at hc
    have hbare := List.head?_dropWhile_not p (cs.dropWhile p).reverse
    simpa [Option.mem_def.mp hc] using hbare

theorem span_append {α : Type} {p : α → Bool} {run rest : List α} (h : ∀ a ∈ run, p a = true)
    (hrest : ∀ a ∈ rest.head?, p a = false) : (run ++ rest).span p = (run, rest) := by
  have htake : rest.takeWhile p = [] := by
    cases rest with
    | nil => rfl
    | cons b rest => exact List.takeWhile_cons_of_neg (by simp [hrest b rfl])
  have hdrop : rest.dropWhile p = rest := by
    cases rest with
    | nil => rfl
    | cons b rest => exact List.dropWhile_cons_of_neg (by simp [hrest b rfl])
  rw [List.span_eq_takeWhile_dropWhile, List.takeWhile_append_of_pos h, List.dropWhile_append_of_pos h, htake, hdrop,
    List.append_nil]

/-- The lines of a text. Each ends at a line feed, before which a carriage return may stand, or with the text. -/
inductive HasLines : List Char → List (List Char) → Prop where
  | nil : HasLines [] []
  | last {line : List Char} : line ≠ [] → '\n' ∉ line → HasLines line [line]
  | feed {line rest : List Char} {lines : List (List Char)} : '\n' ∉ line → line.getLast? ≠ some '\r' →
      HasLines rest lines → HasLines (line ++ '\n' :: rest) (line :: lines)
  | returnFeed {line rest : List Char} {lines : List (List Char)} : '\n' ∉ line → HasLines rest lines →
      HasLines (line ++ '\r' :: '\n' :: rest) (line :: lines)

theorem splitOn_ne_nil (sep : Char) (cs : List Char) : splitOn sep cs ≠ [] := by
  cases cs with
  | nil => exact List.cons_ne_nil _ _
  | cons c rest =>
    rw [splitOn]
    split
    · exact List.cons_ne_nil _ _
    · split <;> exact List.cons_ne_nil _ _

theorem splitOn_of_not_mem {sep : Char} {piece : List Char} (h : sep ∉ piece) : splitOn sep piece = [piece] := by
  induction piece with
  | nil => rfl
  | cons c piece ih =>
    have hc : c ≠ sep := fun hc => h (hc ▸ List.mem_cons_self)
    rw [splitOn, if_neg hc, ih fun hmem => h (List.mem_cons_of_mem c hmem)]

theorem splitOn_append {sep : Char} {piece : List Char} (h : sep ∉ piece) (rest : List Char) :
    splitOn sep (piece ++ sep :: rest) = piece :: splitOn sep rest := by
  induction piece with
  | nil => rw [List.nil_append, splitOn, if_pos rfl]
  | cons c piece ih =>
    have hc : c ≠ sep := fun hc => h (hc ▸ List.mem_cons_self)
    rw [List.cons_append, splitOn, if_neg hc, ih fun hmem => h (List.mem_cons_of_mem c hmem)]

theorem linesOf_splitOn_append {line : List Char} (h : '\n' ∉ line) (rest : List Char) :
    linesOf (splitOn '\n' (line ++ '\n' :: rest)) = dropReturn line :: linesOf (splitOn '\n' rest) := by
  rw [splitOn_append h]
  cases hpieces : splitOn '\n' rest with
  | nil => exact absurd hpieces (splitOn_ne_nil '\n' rest)
  | cons piece pieces => rfl

theorem dropReturn_of_getLast? {line : List Char} (h : line.getLast? ≠ some '\r') : dropReturn line = line := if_neg h

theorem dropReturn_append (line : List Char) : dropReturn (line ++ ['\r']) = line := by
  rw [dropReturn, if_pos List.getLast?_concat, List.dropLast_concat]

theorem not_mem_append_return {line : List Char} (h : '\n' ∉ line) : '\n' ∉ line ++ ['\r'] := by
  rw [List.mem_append, List.mem_singleton]
  exact fun hmem => hmem.elim h (by decide)

theorem HasLines.linesOf_eq {text : List Char} {lines : List (List Char)} (h : HasLines text lines) :
    linesOf (splitOn '\n' text) = lines := by
  induction h with
  | nil => rfl
  | last hne hline =>
    rw [splitOn_of_not_mem hline, linesOf, if_neg (by simpa using hne)]
  | feed hline hreturn _ ih => rw [linesOf_splitOn_append hline, ih, dropReturn_of_getLast? hreturn]
  | @returnFeed line rest lines hline _ ih =>
    have hfeed := linesOf_splitOn_append (not_mem_append_return hline) rest
    rw [List.append_assoc, List.singleton_append] at hfeed
    rw [hfeed, ih, dropReturn_append]

theorem exists_hasLines (text : List Char) : ∃ lines, HasLines text lines := by
  induction hlength : text.length using Nat.strongRecOn generalizing text with
  | ind n ih =>
    by_cases hfeed : '\n' ∈ text
    · obtain ⟨line, rest, rfl, hline⟩ := List.eq_append_cons_of_mem hfeed
      obtain ⟨lines, hlines⟩ := ih rest.length (by simp [← hlength]; omega) rest rfl
      by_cases hreturn : line.getLast? = some '\r'
      · obtain ⟨line, rfl⟩ := List.getLast?_eq_some_iff.mp hreturn
        rw [List.append_assoc, List.singleton_append]
        exact ⟨_, .returnFeed (fun hmem => hline (List.mem_append_left _ hmem)) hlines⟩
      · exact ⟨_, .feed hline hreturn hlines⟩
    · by_cases hnil : text = []
      · exact ⟨[], hnil ▸ .nil⟩
      · exact ⟨[text], .last hnil hfeed⟩

theorem hasLines_iff {text : List Char} {lines : List (List Char)} :
    HasLines text lines ↔ linesOf (splitOn '\n' text) = lines := by
  refine ⟨HasLines.linesOf_eq, ?_⟩
  rintro rfl
  obtain ⟨lines, hlines⟩ := exists_hasLines text
  exact hlines.linesOf_eq ▸ hlines

end Triage.Text
