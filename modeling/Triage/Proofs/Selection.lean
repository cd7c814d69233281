import Mathlib.Logic.Function.Iterate
import Mathlib.Tactic.SplitIfs
import Triage.Queries

/-! Runs of operations on the queries. Queries are only ever appended, one of them is selected at all times, and going
on to the next or the previous one leads through all of them and back. -/

namespace Triage

namespace SearchQuery

structure IsNamed (q : SearchQuery) : Prop where
  length_le : q.name.length ≤ 10
  whole : q.text.length ≤ 10 → q.name = q.text
  cut : 10 < q.text.length → ∃ start rest, q.text.toList = start ++ rest ∧ start.length = 9 ∧
    q.name.toList = start ++ [ellipsis]

theorem text_ofText (text : String) (limit : Nat) : (ofText text limit).text = text := rfl

theorem isNamed_ofText (text : String) : (ofText text Queries.nameLength).IsNamed := by
  have hname : (ofText text Queries.nameLength).name = .ofList (shorten 10 text.toList) := rfl
  have hlength : text.toList.length = text.length := String.length_toList
  by_cases hfits : 10 < text.length
  · have hcut : shorten 10 text.toList = text.toList.take 9 ++ [ellipsis] := if_pos (hlength ▸ hfits)
    have hstart : (text.toList.take 9).length = 9 := List.length_take_of_le (by omega)
    rw [hcut] at hname
    have hten : (ofText text Queries.nameLength).name.length = 9 + 1 := by
      rw [hname, String.length_ofList, List.length_append, hstart, List.length_singleton]
    refine ⟨Nat.le_of_eq hten, fun hle => absurd hfits (Nat.not_lt_of_le hle), fun _ => ?_⟩
    exact ⟨text.toList.take 9, text.toList.drop 9, (List.take_append_drop 9 _).symm,
      hstart, by rw [hname, String.toList_ofList]⟩
  · have hwhole : shorten 10 text.toList = text.toList := if_neg (hlength ▸ hfits)
    rw [hwhole, String.ofList_toList] at hname
    refine ⟨?_, fun _ => hname, fun hlt => absurd hlt hfits⟩
    rw [hname]
    exact Nat.le_of_not_lt hfits

end SearchQuery

namespace Queries

attribute [ext] Queries

inductive Operation where
  | select (index : Nat)
  | selectNext
  | selectPrevious
  | selectLast
  | add (query : SearchQuery)
  | addText (text : String)
  deriving DecidableEq

def perform (q : Queries) : Operation → Queries
  | .select index => (q.select index).2
  | .selectNext => q.selectNext
  | .selectPrevious => q.selectPrevious
  | .selectLast => q.selectLast
  | .add query => q.add query
  | .addText text => q.addText text

def run (saved : List SearchQuery) (ops : List Operation) : Queries := ops.foldl perform (ofSaved saved)

def Operation.added? : Operation → Option SearchQuery
  | .add query => some query
  | .addText text => some (.ofText text nameLength)
  | _ => none

theorem all_select (q : Queries) (index : Nat) : (q.select index).2.all = q.all := by
  unfold select
  split <;> rfl

theorem select_of_none {q : Queries} {index : Nat} (h : q.all[index]? = none) : q.select index = (false, q) :=
  dif_neg (Nat.not_lt_of_le (List.getElem?_eq_none_iff.mp h))

theorem select_of_some {q : Queries} {index : Nat} {query : SearchQuery} (h : q.all[index]? = some query) :
    (q.select index).1 = true ∧ (q.select index).2.current = query := by
  obtain ⟨hlt, hquery⟩ := List.getElem?_eq_some_iff.mp h
  rw [select, dif_pos hlt]
  exact ⟨rfl, hquery⟩

theorem all_perform (q : Queries) (op : Operation) : (q.perform op).all = q.all ++ op.added?.toList := by
  cases op with
  | select index => exact (q.all_select index).trans (List.append_nil _).symm
  | selectNext | selectPrevious | selectLast => exact (List.append_nil _).symm
  | add | addText => rfl

theorem all_foldl_perform (q : Queries) (ops : List Operation) :
    (ops.foldl perform q).all = q.all ++ ops.filterMap Operation.added? := by
  induction ops generalizing q with
  | nil => exact (List.append_nil _).symm
  | cons op ops ih =>
    rw [List.foldl_cons, ih, all_perform, List.append_assoc]
    cases hadded : op.added? with
    | none => rw [List.filterMap_cons_none hadded]; rfl
    | some query => rw [List.filterMap_cons_some hadded]; rfl

theorem run_append (saved : List SearchQuery) (ops more : List Operation) :
    run saved (ops ++ more) = more.foldl perform (run saved ops) := List.foldl_append

theorem getElem?_selected (q : Queries) : q.all[q.selected]? = some q.current :=
  List.getElem?_eq_getElem q.selected_lt

theorem current_add (q : Queries) (query : SearchQuery) : (q.add query).current = q.current := by
  refine Option.some.inj ?_
  rw [← getElem?_selected, ← getElem?_selected]
  exact List.getElem?_append_left q.selected_lt

theorem getLast?_eq_current_selectLast (q : Queries) : q.all.getLast? = some q.selectLast.current := by
  rw [List.getLast?_eq_getElem?, ← getElem?_selected]
  rfl

theorem selected_addText (q : Queries) (text : String) : (q.addText text).selected = q.all.length := by
  change (q.all ++ [SearchQuery.ofText text nameLength]).length - 1 = q.all.length
  rw [List.length_append, List.length_singleton, Nat.add_sub_cancel]

theorem current_addText (q : Queries) (text : String) : (q.addText text).current = .ofText text nameLength := by
  refine Option.some.inj ?_
  rw [← getElem?_selected, selected_addText]
  exact List.getElem?_concat_length

theorem all_selectNext (q : Queries) : q.selectNext.all = q.all := rfl

theorem all_selectPrevious (q : Queries) : q.selectPrevious.all = q.all := rfl

theorem selected_selectNext (q : Queries) :
    q.selectNext.selected = if q.selected + 1 = q.all.length then 0 else q.selected + 1 := by
  have hlt := q.selected_lt
  change (q.selected + 1) % q.all.length = _
  split
  · next hlast => rw [hlast, Nat.mod_self]
  · exact Nat.mod_eq_of_lt (by omega)

theorem selected_selectPrevious (q : Queries) :
    q.selectPrevious.selected = if q.selected = 0 then q.all.length - 1 else q.selected - 1 := by
  have hlt := q.selected_lt
  change (q.selected + q.all.length - 1) % q.all.length = _
  split
  · next hfirst => rw [hfirst, Nat.zero_add, Nat.mod_eq_of_lt (by omega)]
  · have hwrap : q.selected + q.all.length - 1 = q.selected - 1 + q.all.length := by omega
    rw [hwrap, Nat.add_mod_right, Nat.mod_eq_of_lt (by omega)]

theorem selectPrevious_selectNext (q : Queries) : q.selectNext.selectPrevious = q := by
  refine Queries.ext rfl ?_
  rw [selected_selectPrevious, selected_selectNext, all_selectNext]
  by_cases hlast : q.selected + 1 = q.all.length
  · rw [if_pos hlast, if_pos rfl, ← hlast, Nat.add_sub_cancel]
  · rw [if_neg hlast, if_neg (Nat.succ_ne_zero _), Nat.add_sub_cancel]

theorem selectNext_selectPrevious (q : Queries) : q.selectPrevious.selectNext = q := by
  have hlt := q.selected_lt
  refine Queries.ext rfl ?_
  rw [selected_selectNext, selected_selectPrevious, all_selectPrevious]
  split_ifs <;> omega

theorem all_iterate {step : Queries → Queries} (hstep : ∀ q, (step q).all = q.all) (q : Queries) (k : Nat) :
    (step^[k] q).all = q.all := by
  induction k with
  | zero => rfl
  | succ k ih => rw [Function.iterate_succ_apply', hstep, ih]

theorem selected_iterate_selectNext (q : Queries) {k : Nat} (hk : k ≤ q.all.length) :
    (selectNext^[k] q).selected =
      if q.selected + k < q.all.length then q.selected + k else q.selected + k - q.all.length := by
  have hlt := q.selected_lt
  induction k with
  | zero => exact (if_pos hlt).symm
  | succ k ih =>
    rw [Function.iterate_succ_apply', selected_selectNext, all_iterate all_selectNext, ih (Nat.le_of_succ_le hk)]
    split_ifs <;> omega

/-- As many steps as there are queries lead back, and select every query once on the way. -/
structure GoesRound (q : Queries) (step : Queries → Queries) : Prop where
  all : ∀ k, (step^[k] q).all = q.all
  once : ∀ index < q.all.length, ∃! k, k < q.all.length ∧ (step^[k] q).selected = index
  back : step^[q.all.length] q = q

theorem goesRound_selectNext (q : Queries) : q.GoesRound selectNext := by
  have hlt := q.selected_lt
  have hall := all_iterate all_selectNext q
  refine ⟨hall, fun index hindex => ?_, Queries.ext (hall _) ?_⟩
  · refine ⟨if q.selected ≤ index then index - q.selected else index + q.all.length - q.selected, ⟨?_, ?_⟩, ?_⟩
    · split <;> omega
    · rw [q.selected_iterate_selectNext (by split <;> omega)]
      split_ifs <;> omega
    · rintro k ⟨hk, hselected⟩
      rw [q.selected_iterate_selectNext (Nat.le_of_lt hk)] at hselected
      split_ifs at hselected ⊢ <;> omega
  · rw [q.selected_iterate_selectNext (Nat.le_refl _)]
    split <;> omega

/-- What undoes the steps goes round in the other direction: `k` of its steps lead where the last `k` steps began. -/
theorem GoesRound.reverse {q : Queries} {step undo : Queries → Queries} (h : q.GoesRound step)
    (hall : ∀ q, (undo q).all = q.all) (hundo : Function.LeftInverse undo step) : q.GoesRound undo := by
  have hturn {k : Nat} (hk : k ≤ q.all.length) : undo^[k] q = step^[q.all.length - k] q := by
    have hlast : step^[k] (step^[q.all.length - k] q) = q := by
      rw [← Function.iterate_add_apply, Nat.add_sub_cancel' hk, h.back]
    calc undo^[k] q = undo^[k] (step^[k] (step^[q.all.length - k] q)) := by rw [hlast]
      _ = step^[q.all.length - k] q := hundo.iterate k _
  refine ⟨all_iterate hall q, fun index hindex => ?_, ?_⟩
  · obtain ⟨k, ⟨hk, hselected⟩, hunique⟩ := h.once index hindex
    have hturned {j : Nat} (hj : j < q.all.length ∧ (undo^[j] q).selected = index) (hpos : j ≠ 0) :
        q.all.length - j = k := by
      obtain ⟨hlt, hj⟩ := hj
      rw [hturn (Nat.le_of_lt hlt)] at hj
      exact hunique _ ⟨by omega, hj⟩
    rcases Nat.eq_zero_or_pos k with rfl | hpos
    · refine ⟨0, ⟨hk, hselected⟩, fun j hj => ?_⟩
      by_contra hne
      have hzero := hturned hj hne
      omega
    · refine ⟨q.all.length - k, ⟨by omega, ?_⟩, fun j hj => ?_⟩
      · rw [hturn (Nat.sub_le _ _), Nat.sub_sub_self (Nat.le_of_lt hk)]
        exact hselected
      · have hne : j ≠ 0 := by
          rintro rfl
          exact Nat.ne_of_lt hpos (hunique 0 hj)
        have hrest := hturned hj hne
        omega
  · rw [hturn (Nat.le_refl _), Nat.sub_self]
    rfl

theorem goesRound_selectPrevious (q : Queries) : q.GoesRound selectPrevious :=
  q.goesRound_selectNext.reverse all_selectPrevious selectPrevious_selectNext

theorem selected_words (q : Queries) {selected count : UInt64} (hselected : selected.toNat = q.selected)
    (hcount : count.toNat = q.all.length) (hfits : q.all.length < 0x8000000000000000) :
    (selected + 1).toNat = q.selected + 1 ∧ ((selected + 1) % count).toNat = q.selectNext.selected ∧
      (selected + count).toNat = q.selected + q.all.length ∧
      ((selected + count - 1) % count).toNat = q.selectPrevious.selected := by
  have hlt := q.selected_lt
  have hnext : (selected + 1).toNat = q.selected + 1 := by
    rw [UInt64.toNat_add, hselected]
    exact Nat.mod_eq_of_lt (by change q.selected + 1 < 0x10000000000000000; omega)
  have hsum : (selected + count).toNat = q.selected + q.all.length := by
    rw [UInt64.toNat_add, hselected, hcount]
    exact Nat.mod_eq_of_lt (by omega)
  have hone : 1 ≤ selected + count := by
    rw [UInt64.le_iff_toNat_le, hsum]
    change 1 ≤ _
    omega
  refine ⟨hnext, ?_, hsum, ?_⟩
  · rw [UInt64.toNat_mod, hnext, hcount]
    rfl
  · rw [UInt64.toNat_mod, UInt64.toNat_sub_of_le _ _ hone, hsum, hcount]
    rfl

structure Selects (q : Queries) : Prop where
  ne_nil : q.all ≠ []
  selected_lt : q.selected < q.all.length
  current : q.all[q.selected]? = some q.current
  previous_next : q.selectNext.selectPrevious = q
  next_previous : q.selectPrevious.selectNext = q
  next : q.GoesRound selectNext
  previous : q.GoesRound selectPrevious
  last : q.all.getLast? = some q.selectLast.current
  select : ∀ index query, q.all[index]? = some query → (q.select index).1 = true ∧ (q.select index).2.current = query
  past : ∀ index, q.all[index]? = none → q.select index = (false, q)
  add : ∀ query, (q.add query).current = q.current
  addText : ∀ text, (q.addText text).all.getLast? = some (q.addText text).current ∧
    (q.addText text).all.length = q.all.length + 1 ∧ (q.addText text).current.text = text ∧
      (q.addText text).current.IsNamed

theorem selects (q : Queries) : q.Selects where
  ne_nil := List.ne_nil_of_length_pos q.length_pos
  selected_lt := q.selected_lt
  current := q.getElem?_selected
  previous_next := q.selectPrevious_selectNext
  next_previous := q.selectNext_selectPrevious
  next := q.goesRound_selectNext
  previous := q.goesRound_selectPrevious
  last := q.getLast?_eq_current_selectLast
  select _ _ := select_of_some
  past _ := select_of_none
  add := q.current_add
  addText text := by
    have hnew : (q.addText text).all = q.all ++ [.ofText text nameLength] := rfl
    rw [current_addText, hnew]
    exact ⟨List.getLast?_concat, List.length_append, SearchQuery.text_ofText text _, SearchQuery.isNamed_ofText text⟩

/-- Whatever is done to saved queries, or to the inbox that stands for none, the list goes on from what it was, and one
of its queries is selected. The next and the previous one are found in words of 64 bits as well. -/
theorem run_selects (saved : List SearchQuery) (ops : List Operation) :
    (run saved ops).all = (if saved.isEmpty then [inbox] else saved) ++ ops.filterMap Operation.added? ∧
      (∀ more, (run saved ops).all <+: (run saved (ops ++ more)).all) ∧ (run saved ops).Selects ∧
      ∀ selected count : UInt64, selected.toNat = (run saved ops).selected → count.toNat = (run saved ops).all.length →
        (run saved ops).all.length < 0x8000000000000000 →
          (selected + 1).toNat = (run saved ops).selected + 1 ∧
            ((selected + 1) % count).toNat = (run saved ops).selectNext.selected ∧
            (selected + count).toNat = (run saved ops).selected + (run saved ops).all.length ∧
            ((selected + count - 1) % count).toNat = (run saved ops).selectPrevious.selected := by
  have hsaved : (ofSaved saved).all = if saved.isEmpty then [inbox] else saved := by
    cases saved <;> rfl
  refine ⟨?_, fun more => ?_, selects _, fun _ _ => selected_words _⟩
  · rw [← hsaved]
    exact all_foldl_perform _ ops
  · rw [run_append, all_foldl_perform]
    exact List.prefix_append _ _

theorem run_selects_fromLast :
    let q := run [] [.select 3, .addText "from:alice and tag:unread", .add ⟨"flagged", "tag:flagged"⟩, .selectNext]
    (2 : UInt64).toNat = q.selected ∧ (3 : UInt64).toNat = q.all.length ∧ q.all.length < 0x8000000000000000 ∧
      (((2 : UInt64) + 1) % 3).toNat = q.selectNext.selected ∧ q.selectNext.selected = 0 ∧
      q.all[7]? = none ∧ q.select 7 = (false, q) := by
  intro q
  have hselected : (2 : UInt64).toNat = q.selected := by decide
  have hcount : (3 : UInt64).toNat = q.all.length := by decide
  have hfits : q.all.length < 0x8000000000000000 := by decide
  have hpast : q.all[7]? = none := rfl
  obtain ⟨-, -, hselects, hwords⟩ := run_selects []
    [.select 3, .addText "from:alice and tag:unread", .add ⟨"flagged", "tag:flagged"⟩, .selectNext]
  exact ⟨hselected, hcount, hfits, (hwords 2 3 hselected hcount hfits).2.1, by decide, hpast, hselects.past 7 hpast⟩

end Queries
end Triage
