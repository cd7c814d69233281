import Mathlib.Data.List.Dedup
import Mathlib.Data.List.Induction
import Triage.Proofs.Recall

/-! Runs of operations on the histories of any labels. Each label goes its own way. Its entries are the values that
were submitted to it, each where it was submitted last, and going back walks through them from the newest to the
oldest. -/

namespace Triage

namespace Recall

variable {r : Recall}

def InRange (r : Recall) : Prop := r.cursor ≤ r.entries.length

theorem AtEnd.inRange (h : r.AtEnd) : r.InRange := Nat.le_of_eq h

theorem InRange.add (h : r.InRange) (value : String) : (r.add value).InRange := by
  by_cases hvalue : value = ""
  · rw [hvalue, add_empty]
    exact h
  · exact (atEnd_add hvalue).inRange

theorem InRange.previous (h : r.InRange) : r.previous.2.InRange := by
  unfold Recall.previous
  split
  · exact h
  · exact Nat.le_trans (Nat.sub_le _ _) h

theorem inRange_next (r : Recall) : r.next.2.InRange := Nat.min_le_right _ _

theorem InRange.next_previous (h : r.InRange) {e : String} (he : r.previous.1 = some e) :
    r.previous.2.next.1 = r.get? := by
  by_cases hzero : r.cursor = 0
  · rw [Recall.previous, if_pos hzero] at he
    cases he
  · have hcursor : min (r.cursor - 1 + 1) r.entries.length = r.cursor := by
      have hle : r.cursor ≤ r.entries.length := h
      omega
    rw [Recall.previous, if_neg hzero]
    change r.entries[min (r.cursor - 1 + 1) r.entries.length]? = _
    rw [hcursor, get?]

def back (r : Recall) : Nat → Recall
  | 0 => r
  | n + 1 => (r.back n).previous.2

theorem AtEnd.back_eq (h : r.AtEnd) (n : Nat) : r.back n = { r with cursor := r.entries.length - n } := by
  induction n with
  | zero => exact congrArg (Recall.mk r.entries) h
  | succ n ih =>
    rw [back, ih, Recall.previous]
    split
    · next hzero =>
      have hlater : r.entries.length - (n + 1) = r.entries.length - n := by simp only at hzero; omega
      rw [hlater]
    · rfl

theorem AtEnd.previous_back (h : r.AtEnd) (n : Nat) : (r.back n).previous.1 = r.entries.reverse[n]? := by
  rw [h.back_eq, Recall.previous]
  split
  · next hzero =>
    have hpast : r.entries.reverse.length ≤ n := by simp only [List.length_reverse] at hzero ⊢; omega
    exact (List.getElem?_eq_none hpast).symm
  · next hsome =>
    have hlt : n < r.entries.length := by simp only at hsome; omega
    have hnewer : r.entries.length - 1 - n = r.entries.length - n - 1 := by omega
    rw [List.getElem?_reverse hlt, hnewer]
    rfl

theorem AtEnd.back_succ_of_length_le (h : r.AtEnd) {n : Nat} (hn : r.entries.length ≤ n) :
    r.back (n + 1) = r.back n := by
  have hzero : r.entries.length - (n + 1) = r.entries.length - n := by omega
  rw [h.back_eq, h.back_eq, hzero]

end Recall

namespace History

inductive Operation where
  | add (label value : String)
  | reset (label : String)
  | previous (label : String)
  | next (label : String)
  deriving DecidableEq

namespace Operation

def label : Operation → String
  | .add label _ => label
  | .reset label => label
  | .previous label => label
  | .next label => label

def act : Operation → Recall → Option String × Recall
  | .add _ value, r => (none, r.add value)
  | .reset _, r => (none, r.reset)
  | .previous _, r => r.previous
  | .next _, r => r.next

def recorded? (label : String) : Operation → Option String
  | .add label' value => if label' = label ∧ value ≠ "" then some value else none
  | _ => none

/-- A reset and a recorded value give up the entry that was recalled for the label. -/
def Settles (op : Operation) (label : String) : Prop := op = .reset label ∨ ∃ value, value ≠ "" ∧ op = .add label value

end Operation

def perform (h : History) : Operation → Option String × History
  | .add label value => (none, h.add label value)
  | .reset label => (none, h.reset label)
  | .previous label => h.previous label
  | .next label => h.next label

def run (ops : List Operation) : History := ops.foldl (fun h op => (h.perform op).2) {}

def answers (label : String) (h : History) : List Operation → List (Option String)
  | [] => []
  | op :: rest =>
    if op.label = label then (h.perform op).1 :: answers label (h.perform op).2 rest
    else answers label (h.perform op).2 rest

/-- The values that were recorded for a label, in the order of their submission. -/
def recorded (label : String) (ops : List Operation) : List String := ops.filterMap (Operation.recorded? label)

theorem perform_eq (h : History) (op : Operation) :
    h.perform op = ((op.act (h.recallOf op.label)).1, h.setRecall op.label (op.act (h.recallOf op.label)).2) := by
  cases op <;> rfl

theorem recallOf_perform (h : History) (op : Operation) (label : String) :
    (h.perform op).2.recallOf label =
      if op.label = label then (op.act (h.recallOf label)).2 else h.recallOf label := by
  rw [perform_eq, recallOf_setRecall]
  by_cases hlabel : op.label = label
  · subst hlabel
    rw [if_pos rfl]
  · rw [if_neg (Ne.symm hlabel), if_neg hlabel]

theorem run_concat (ops : List Operation) (op : Operation) : run (ops ++ [op]) = ((run ops).perform op).2 :=
  List.foldl_concat ..

theorem inRange_run (ops : List Operation) (label : String) : ((run ops).recallOf label).InRange := by
  induction ops using List.reverseRecOn with
  | nil => exact Nat.zero_le _
  | append_singleton ops op ih =>
    rw [run_concat, recallOf_perform]
    split
    · cases op with
      | add _ value => exact ih.add value
      | reset => exact (Recall.atEnd_reset _).inRange
      | previous => exact ih.previous
      | next => exact Recall.inRange_next _
    · exact ih

theorem dedup_concat (values : List String) (value : String) :
    (values ++ [value]).dedup = values.dedup.filter (· != value) ++ [value] := by
  induction values with
  | nil => rfl
  | cons v values ih =>
    rw [List.cons_append]
    by_cases hv : v = value
    · subst hv
      rw [List.dedup_cons_of_mem (List.mem_append_right _ List.mem_cons_self), ih]
      by_cases hmem : v ∈ values
      · rw [List.dedup_cons_of_mem hmem]
      · rw [List.dedup_cons_of_notMem hmem, List.filter_cons_of_neg (by simp)]
    · have hiff : v ∈ values ++ [value] ↔ v ∈ values := by simp [hv]
      by_cases hmem : v ∈ values
      · rw [List.dedup_cons_of_mem (hiff.mpr hmem), List.dedup_cons_of_mem hmem, ih]
      · rw [List.dedup_cons_of_notMem (mt hiff.mp hmem), List.dedup_cons_of_notMem hmem, ih,
          List.filter_cons_of_pos (by simpa using hv), List.cons_append]

theorem entries_act (op : Operation) (r : Recall) :
    (op.act r).2.entries = match op.recorded? op.label with
      | some value => r.entries.filter (· != value) ++ [value]
      | none => r.entries := by
  cases op with
  | add label value =>
    by_cases hvalue : value = "" <;>
      simp [Operation.act, Operation.recorded?, Operation.label, Recall.add, Recall.reset, hvalue]
  | reset => rfl
  | previous =>
    change r.previous.2.entries = r.entries
    unfold Recall.previous
    split <;> rfl
  | next => rfl

theorem recorded?_of_label_ne {op : Operation} {label : String} (h : op.label ≠ label) :
    op.recorded? label = none := by
  cases op with
  | add label' value => exact if_neg fun hlabel => h hlabel.1
  | reset | previous | next => rfl

theorem entries_run (ops : List Operation) (label : String) :
    ((run ops).recallOf label).entries = (recorded label ops).dedup := by
  induction ops using List.reverseRecOn with
  | nil => rfl
  | append_singleton ops op ih =>
    rw [run_concat, recallOf_perform, recorded, List.filterMap_append]
    by_cases hlabel : op.label = label
    · subst hlabel
      rw [if_pos rfl, entries_act, ih]
      cases hop : op.recorded? op.label with
      | none => simp [hop, recorded]
      | some value => simp [hop, recorded, dedup_concat]
    · rw [if_neg hlabel, ih]
      simp [recorded?_of_label_ne hlabel, recorded]

theorem recallOf_run_filter (ops : List Operation) (label : String) :
    (run ops).recallOf label = (run (ops.filter (·.label = label))).recallOf label := by
  induction ops using List.reverseRecOn with
  | nil => rfl
  | append_singleton ops op ih =>
    rw [run_concat, recallOf_perform, List.filter_append]
    by_cases hlabel : op.label = label
    · rw [if_pos hlabel, List.filter_cons_of_pos (by simpa using hlabel), List.filter_nil, run_concat,
        recallOf_perform, if_pos hlabel, ih]
    · rw [if_neg hlabel, List.filter_cons_of_neg (by simpa using hlabel), List.filter_nil, List.append_nil, ih]

theorem answers_filter {h h' : History} {label : String} (hsame : h.recallOf label = h'.recallOf label)
    (ops : List Operation) : answers label h ops = answers label h' (ops.filter (·.label = label)) := by
  induction ops generalizing h h' with
  | nil => rfl
  | cons op rest ih =>
    by_cases hlabel : op.label = label
    · have hanswer : (h.perform op).1 = (h'.perform op).1 := by
        rw [perform_eq, perform_eq, hlabel, hsame]
      have hnext : (h.perform op).2.recallOf label = (h'.perform op).2.recallOf label := by
        rw [recallOf_perform, recallOf_perform, hsame]
      rw [List.filter_cons_of_pos (by simpa using hlabel), answers, answers, if_pos hlabel, if_pos hlabel,
        hanswer, ih hnext]
    · have hnext : (h.perform op).2.recallOf label = h'.recallOf label := by
        rw [recallOf_perform, if_neg hlabel, hsame]
      rw [List.filter_cons_of_neg (by simpa using hlabel), answers, if_neg hlabel, ih hnext]

theorem atEnd_of_settles {op : Operation} {label : String} (hop : op.Settles label) (h : History) :
    ((h.perform op).2.recallOf label).AtEnd := by
  rw [recallOf_perform]
  rcases hop with rfl | ⟨value, hvalue, rfl⟩
  · have hlabel : (Operation.reset label).label = label := rfl
    rw [if_pos hlabel]
    exact Recall.atEnd_reset _
  · have hlabel : (Operation.add label value).label = label := rfl
    rw [if_pos hlabel]
    exact Recall.atEnd_add hvalue

theorem recallOf_run_previous (ops : List Operation) (label : String) (n : Nat) :
    (run (ops ++ List.replicate n (.previous label))).recallOf label = ((run ops).recallOf label).back n := by
  induction n with
  | zero => rw [List.replicate_zero, List.append_nil, Recall.back]
  | succ n ih =>
    rw [List.replicate_succ', ← List.append_assoc, run_concat, recallOf_perform, ih]
    exact if_pos rfl

/-- The entries of a label are the values that were recorded for it, each once and where it was recorded last. Its
cursor stays among them, and what is done for other labels neither changes its history nor what is found in it. Going
back from past the newest entry leads through all entries and stays at the oldest, and going on undoes going back. -/
theorem run_entries_recency (ops : List Operation) (label : String) :
    ((run ops).recallOf label).entries = (recorded label ops).dedup ∧
      ((run ops).recallOf label).cursor ≤ ((run ops).recallOf label).entries.length ∧
      (run ops).recallOf label = (run (ops.filter (·.label = label))).recallOf label ∧
      answers label {} ops = answers label {} (ops.filter (·.label = label)) ∧
      (∀ op : Operation, op.Settles label → ∀ n,
        let settled := run (ops ++ [op])
        let walked := run (ops ++ [op] ++ List.replicate n (.previous label))
        (walked.previous label).1 = (settled.recallOf label).entries.reverse[n]? ∧
          ((settled.recallOf label).entries.length ≤ n →
            (walked.previous label).2.recallOf label = walked.recallOf label)) ∧
      ∀ e, ((run ops).previous label).1 = some e →
        (((run ops).previous label).2.next label).1 = ((run ops).recallOf label).get? := by
  refine ⟨entries_run ops label, inRange_run ops label, recallOf_run_filter ops label, answers_filter rfl ops, ?_, ?_⟩
  · intro op hop n settled walked
    have hend : (settled.recallOf label).AtEnd := by
      rw [show settled = ((run ops).perform op).2 from run_concat ops op]
      exact atEnd_of_settles hop _
    have hwalked : walked.recallOf label = (settled.recallOf label).back n :=
      recallOf_run_previous (ops ++ [op]) label n
    refine ⟨?_, fun hn => ?_⟩
    · change (walked.recallOf label).previous.1 = _
      rw [hwalked]
      exact hend.previous_back n
    · change (walked.setRecall label (walked.recallOf label).previous.2).recallOf label = _
      rw [recallOf_setRecall_self, hwalked]
      exact hend.back_succ_of_length_le hn
  · intro e he
    change ((((run ops).setRecall label _).recallOf label).next).1 = _
    rw [recallOf_setRecall_self]
    exact (inRange_run ops label).next_previous he

theorem run_entries_recency_resubmitting :
    let ops : List Operation := [.add "q:" "one", .add "tag:" "+todo", .add "q:" "two", .previous "q:", .previous "q:"]
    let op : Operation := .add "q:" "one"
    op.Settles "q:" ∧ ((run (ops ++ [op])).recallOf "q:").entries = ["two", "one"] ∧
      ((run (ops ++ [op] ++ List.replicate 1 (.previous "q:"))).previous "q:").1 = some "two" ∧
      ((run (ops ++ [op])).recallOf "q:").entries.length ≤ 2 ∧
      ((run (ops ++ [op] ++ List.replicate 2 (.previous "q:"))).previous "q:").1 = none ∧
      ((run (ops.take 4)).previous "q:").1 = some "one" ∧
      (((run (ops.take 4)).previous "q:").2.next "q:").1 = some "two" := by
  intro ops op
  have hsettles : op.Settles "q:" := .inr ⟨"one", by decide, rfl⟩
  have hlength : ((run (ops ++ [op])).recallOf "q:").entries.length ≤ 2 := by decide
  have hentry : ((run (ops.take 4)).previous "q:").1 = some "one" := by decide
  obtain ⟨-, -, -, -, hwalk, -⟩ := run_entries_recency ops "q:"
  obtain ⟨hentries, -⟩ := run_entries_recency (ops ++ [op]) "q:"
  obtain ⟨-, -, -, -, -, hundo⟩ := run_entries_recency (ops.take 4) "q:"
  exact ⟨hsettles, hentries, (hwalk op hsettles 1).1, hlength, (hwalk op hsettles 2).1, hentry, hundo "one" hentry⟩

end History
end Triage
