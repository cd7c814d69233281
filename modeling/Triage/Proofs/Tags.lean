import Mathlib.Data.List.Nodup
import Mathlib.Tactic.Tauto
import Triage.Mail.Message

/-! What a list of operations makes of a message's tags. For each tag only the last operation that names it counts. -/

namespace Triage

namespace TagOperation

def Removes (text : String) (tag : Tag) : Prop := text = "-" ++ tag

def IsBare (text : String) : Prop := text.toList.head? ≠ some '-' ∧ text.toList.head? ≠ some '+'

def Adds (text : String) (tag : Tag) : Prop := text = "+" ++ tag ∨ text = tag ∧ IsBare text

def Names (text : String) (tag : Tag) : Prop := Removes text tag ∨ Adds text tag

instance (text : String) (tag : Tag) : Decidable (Removes text tag) := inferInstanceAs (Decidable (_ = _))

instance (text : String) : Decidable (IsBare text) := inferInstanceAs (Decidable (_ ∧ _))

instance (text : String) (tag : Tag) : Decidable (Adds text tag) := inferInstanceAs (Decidable (_ ∨ _))

instance (text : String) (tag : Tag) : Decidable (Names text tag) := inferInstanceAs (Decidable (_ ∨ _))

def LastAdds (operations : List String) (tag : Tag) : Prop :=
  ∃ earlier text later, operations = earlier ++ text :: later ∧ Adds text tag ∧ ∀ other ∈ later, ¬ Names other tag

def unnamed (operations : List String) (tag : Tag) : Bool := operations.all fun text => !decide (Names text tag)

def applyAll (operations : List String) (tags : List Tag) : List Tag :=
  operations.foldl (fun tags text => (parse text).apply tags) tags

variable {text : String} {tag : Tag} {tags : List Tag}

theorem removes_iff : Removes text tag ↔ text.toList = '-' :: tag.toList := by
  rw [Removes, ← String.toList_inj, String.toList_append]
  rfl

theorem adds_iff : Adds text tag ↔ text.toList = '+' :: tag.toList ∨ text = tag ∧ IsBare text := by
  rw [Adds, ← String.toList_inj, String.toList_append]
  rfl

theorem parse_eq_remove_iff : parse text = .remove tag ↔ Removes text tag := by
  rw [removes_iff]
  unfold parse
  split
  · next cs hcs =>
    rw [hcs, remove.injEq, ← String.toList_inj, String.toList_ofList, List.cons.injEq, and_iff_right rfl]
  · next cs hcs => simp [hcs]
  · next hminus _ => exact ⟨nofun, fun h => (hminus _ h).elim⟩

theorem parse_eq_add_iff : parse text = .add tag ↔ Adds text tag := by
  rw [adds_iff]
  unfold parse IsBare
  split
  · next cs hcs => simp [hcs]
  · next cs hcs => simp [hcs, ← String.toList_inj]
  · next hminus hplus =>
    have hbare : text.toList.head? ≠ some '-' ∧ text.toList.head? ≠ some '+' :=
      ⟨fun h => (List.head?_eq_some_iff.mp h).elim hminus, fun h => (List.head?_eq_some_iff.mp h).elim hplus⟩
    rw [add.injEq, and_iff_left hbare, or_iff_right (hplus _)]

theorem Adds.not_removes (h : Adds text tag) : ¬ Removes text tag := by
  rw [← parse_eq_add_iff] at h
  rw [← parse_eq_remove_iff, h]
  nofun

theorem mem_apply : tag ∈ (parse text).apply tags ↔ Adds text tag ∧ tag ≠ "" ∨ tag ∈ tags ∧ ¬ Removes text tag := by
  rw [← parse_eq_add_iff, ← parse_eq_remove_iff]
  cases parse text with
  | remove t =>
    simp only [apply, List.mem_filter, bne_iff_ne, remove.injEq, reduceCtorEq, false_and, false_or, ne_comm]
  | add t =>
    simp only [apply, add.injEq, reduceCtorEq, not_false_eq_true, and_true]
    split
    · next h =>
      refine ⟨.inr, fun hadd => hadd.elim ?_ id⟩
      rintro ⟨rfl, hne⟩
      exact h.resolve_left hne
    · next h =>
      have hne : t ≠ "" := fun ht => h (.inl ht)
      rw [List.mem_append, List.mem_singleton]
      constructor
      · rintro (hmem | rfl)
        · exact .inr hmem
        · exact .inl ⟨rfl, hne⟩
      · rintro (⟨rfl, -⟩ | hmem)
        · exact .inr rfl
        · exact .inl hmem

theorem filter_apply {keep : Tag → Bool} (hkeep : ∀ t, Names text t → keep t = false) :
    ((parse text).apply tags).filter keep = tags.filter keep := by
  cases hparse : parse text with
  | remove t =>
    have hdrop : keep t = false := hkeep t (.inl (parse_eq_remove_iff.mp hparse))
    rw [apply, List.filter_filter]
    refine List.filter_congr fun s _ => ?_
    by_cases hs : s = t <;> simp [hs, hdrop]
  | add t =>
    have hdrop : keep t = false := hkeep t (.inr (parse_eq_add_iff.mp hparse))
    rw [apply]
    split
    · rfl
    · simp [hdrop]

theorem nodup_apply (h : tags.Nodup) (op : TagOperation) : (op.apply tags).Nodup := by
  cases op with
  | remove t => exact h.filter _
  | add t =>
    rw [apply]
    split
    · exact h
    · next hnew =>
      have hnew : t ∉ tags := fun hmem => hnew (.inr hmem)
      exact h.append (List.nodup_singleton t) (List.disjoint_singleton.mpr hnew)

theorem lastAdds_cons {operations : List String} :
    LastAdds (text :: operations) tag ↔
      LastAdds operations tag ∨ Adds text tag ∧ ∀ other ∈ operations, ¬ Names other tag := by
  constructor
  · rintro ⟨earlier, last, later, hsplit, hadds, hlater⟩
    cases earlier with
    | nil =>
      obtain ⟨rfl, rfl⟩ := List.cons.inj hsplit
      exact .inr ⟨hadds, hlater⟩
    | cons first earlier =>
      obtain ⟨-, rfl⟩ := List.cons.inj hsplit
      exact .inl ⟨earlier, last, later, rfl, hadds, hlater⟩
  · rintro (⟨earlier, last, later, rfl, hadds, hlater⟩ | ⟨hadds, hlater⟩)
    · exact ⟨text :: earlier, last, later, rfl, hadds, hlater⟩
    · exact ⟨[], text, operations, rfl, hadds, hlater⟩

theorem mem_applyAll (operations : List String) (hne : tag ≠ "") :
    tag ∈ applyAll operations tags ↔
      LastAdds operations tag ∨ (∀ text ∈ operations, ¬ Names text tag) ∧ tag ∈ tags := by
  induction operations generalizing tags with
  | nil => simp [applyAll, LastAdds]
  | cons text operations ih =>
    have hexclusive : Adds text tag → ¬ Removes text tag := Adds.not_removes
    change tag ∈ applyAll operations ((parse text).apply tags) ↔ _
    rw [ih, mem_apply, lastAdds_cons, List.forall_mem_cons, Names]
    tauto

theorem empty_mem_applyAll (operations : List String) :
    "" ∈ applyAll operations tags ↔ "" ∈ tags ∧ ∀ text ∈ operations, ¬ Removes text "" := by
  induction operations generalizing tags with
  | nil => simp [applyAll]
  | cons text operations ih =>
    change "" ∈ applyAll operations ((parse text).apply tags) ↔ _
    rw [ih, mem_apply, List.forall_mem_cons]
    tauto

theorem filter_applyAll {keep : Tag → Bool} {operations : List String}
    (hkeep : ∀ text ∈ operations, ∀ t, Names text t → keep t = false) :
    (applyAll operations tags).filter keep = tags.filter keep := by
  induction operations generalizing tags with
  | nil => rfl
  | cons text operations ih =>
    obtain ⟨hfirst, hrest⟩ := List.forall_mem_cons.mp hkeep
    exact (ih hrest).trans (filter_apply hfirst)

theorem nodup_applyAll (h : tags.Nodup) (operations : List String) : (applyAll operations tags).Nodup := by
  induction operations generalizing tags with
  | nil => exact h
  | cons text operations ih => exact ih (nodup_apply h _)

theorem mem_applyAll_twice (operations : List String) :
    tag ∈ applyAll operations (applyAll operations tags) ↔ tag ∈ applyAll operations tags := by
  by_cases hne : tag = ""
  · subst hne
    rw [empty_mem_applyAll, empty_mem_applyAll]
    tauto
  · rw [mem_applyAll operations hne, mem_applyAll operations hne]
    tauto

end TagOperation

namespace Message

open TagOperation

theorem hasTag_iff {m : Message} {tag : Tag} : m.hasTag tag ↔ tag ∈ m.tags := List.contains_iff_mem

/-- A tag is there afterwards if the last operation that names it adds it, or if none names it and it was there before.
The empty tag never comes, unnamed tags stay as they stood, no tag comes to be there twice, and the same operations
once more change no tag. -/
theorem applyTags_lastWins (m : Message) (operations : List String) :
    (∀ tag, tag ≠ "" → ((m.applyTags operations).hasTag tag ↔
        LastAdds operations tag ∨ (∀ text ∈ operations, ¬ Names text tag) ∧ m.hasTag tag)) ∧
      ((m.applyTags operations).hasTag "" → m.hasTag "") ∧
      (m.applyTags operations).tags.filter (unnamed operations) = m.tags.filter (unnamed operations) ∧
      (m.tags.Nodup → (m.applyTags operations).tags.Nodup) ∧
      ∀ tag, ((m.applyTags operations).applyTags operations).hasTag tag ↔ (m.applyTags operations).hasTag tag := by
  simp only [hasTag_iff]
  refine ⟨fun tag hne => mem_applyAll operations hne, fun h => ((empty_mem_applyAll operations).mp h).1,
    filter_applyAll fun text htext tag hnames => ?_, fun h => nodup_applyAll h operations,
    fun tag => mem_applyAll_twice operations⟩
  exact List.all_eq_false.mpr ⟨text, htext, by simpa using hnames⟩

theorem applyTags_lastWins_readding :
    ["todo", "inbox"].Nodup ∧ LastAdds ["-todo", "todo", "--todo"] "todo" ∧
      (({ tags := ["todo", "inbox"] } : Message).applyTags ["-todo", "todo", "--todo"]).hasTag "todo" ∧
      (({ tags := ["todo", "inbox"] } : Message).applyTags ["-todo", "todo", "--todo"]).tags.Nodup := by
  have hlast : LastAdds ["-todo", "todo", "--todo"] "todo" :=
    ⟨["-todo"], "todo", ["--todo"], rfl, by decide, by decide⟩
  have hnodup : ["todo", "inbox"].Nodup := by decide
  obtain ⟨hpresent, -, -, hstays, -⟩ := applyTags_lastWins { tags := ["todo", "inbox"] } ["-todo", "todo", "--todo"]
  exact ⟨hnodup, hlast, (hpresent "todo" (by decide)).mpr (.inl hlast), hstays hnodup⟩

example : let m := ({} : Message).applyTags ["-a", "a", "b"]
    m.tags = ["a", "b"] ∧ (m.applyTags ["-a", "a", "b"]).tags = ["b", "a"] := by decide

end Message
end Triage
