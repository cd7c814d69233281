import Triage.History

/-! The histories of different labels are apart, and none has an empty entry. A cursor past the newest entry goes back
to that one first. -/

namespace Triage

namespace Recall

def Sound (r : Recall) : Prop := "" ∉ r.entries

variable {r : Recall}

theorem Sound.reset (h : r.Sound) : r.reset.Sound := h

theorem Sound.add (h : r.Sound) (value : String) : (r.add value).Sound := by
  unfold Recall.add
  split
  · exact h
  · next hvalue =>
    intro hempty
    rcases List.mem_append.mp hempty with hmem | hmem
    · exact h (List.mem_filter.mp hmem).1
    · exact hvalue (List.mem_singleton.mp hmem).symm

theorem Sound.previous (h : r.Sound) : r.previous.2.Sound := by
  unfold Recall.previous
  split <;> exact h

theorem Sound.next (h : r.Sound) : r.next.2.Sound := h

theorem Sound.ne_empty (h : r.Sound) {e : String} (he : r.get? = some e) : e ≠ "" := by
  rintro rfl
  exact h (List.mem_of_getElem? he)

/-- Going back either finds the entry under the cursor it moved, or moves nothing and leaves a draft as it is. -/
theorem get?_previous {draft : Option String} (hdraft : ∀ e, draft = some e → r.get? = some e) {e : String}
    (h : r.previous.1.or draft = some e) : r.previous.2.get? = some e := by
  by_cases hcursor : r.cursor = 0
  · rw [Recall.previous, if_pos hcursor] at h ⊢
    exact hdraft e h
  · rw [Recall.previous, if_neg hcursor] at h ⊢
    rcases Option.or_eq_some_iff.mp h with hentry | ⟨hnone, hkept⟩
    · exact hentry
    · -- The draft is the entry under the old cursor, and then there is one before it as well.
      have hlt : r.cursor < r.entries.length := (List.getElem?_eq_some_iff.mp (hdraft e hkept)).1
      have hle : r.entries.length ≤ r.cursor - 1 := List.getElem?_eq_none_iff.mp hnone
      omega

def AtEnd (r : Recall) : Prop := r.cursor = r.entries.length

theorem atEnd_reset (r : Recall) : r.reset.AtEnd := rfl

theorem atEnd_add {value : String} (h : value ≠ "") : (r.add value).AtEnd := by
  rw [Recall.add, if_neg h]
  exact atEnd_reset _

theorem add_empty (r : Recall) : r.add "" = r := if_pos rfl

theorem lt_length_of_get? {e : String} (h : r.get? = some e) : r.cursor < r.entries.length :=
  (List.getElem?_eq_some_iff.mp h).1

theorem previous_of_le (h : r.cursor ≤ r.entries.length) : r.previous = (none, r) ∨ ∃ e, r.previous.1 = some e := by
  unfold Recall.previous
  split
  · exact .inl rfl
  · next hcursor =>
    have hlt : r.cursor - 1 < r.entries.length := by omega
    exact .inr ⟨_, List.getElem?_eq_getElem hlt⟩

theorem next_cases (r : Recall) : r.next.2.AtEnd ∨ ∃ e, r.next.1 = some e := by
  by_cases h : r.cursor + 1 < r.entries.length
  · have hlt : min (r.cursor + 1) r.entries.length < r.entries.length := by omega
    exact .inr ⟨_, List.getElem?_eq_getElem hlt⟩
  · refine .inl ?_
    change min (r.cursor + 1) r.entries.length = r.entries.length
    omega

theorem AtEnd.previous (h : r.AtEnd) : r.previous.1 = r.last? := by
  have hcursor : r.cursor = r.entries.length := h
  unfold Recall.previous last?
  split
  · next hzero =>
    rw [List.length_eq_zero_iff.mp (hcursor.symm.trans hzero)]
    rfl
  · change r.entries[r.cursor - 1]? = _
    rw [List.getLast?_eq_getElem?, hcursor]

theorem last?_add (r : Recall) (value : String) :
    (r.add value).last? = if value = "" then r.last? else some value := by
  unfold Recall.add
  split
  · rfl
  · exact List.getLast?_concat

theorem last?_reset (r : Recall) : r.reset.last? = r.last? := rfl

theorem last?_next (r : Recall) : r.next.2.last? = r.last? := rfl

theorem last?_previous (r : Recall) : r.previous.2.last? = r.last? := by
  unfold Recall.previous
  split <;> rfl

end Recall

namespace History

variable {h : History}

theorem recallOf_setRecall (h : History) (label label' : String) (r : Recall) :
    (h.setRecall label r).recallOf label' = if label' = label then r else h.recallOf label' := by
  unfold recallOf setRecall
  by_cases hlabel : label' = label
  · subst hlabel
    rw [List.lookup_cons_self, if_pos rfl, Option.getD_some]
  · have hother : (h.recalls.filter (·.1 != label)).lookup label' = h.recalls.lookup label' := by
      induction h.recalls with
      | nil => rfl
      | cons entry rest ih =>
        obtain ⟨key, old⟩ := entry
        by_cases hkey : key = label
        · have hne : (label' == key) = false := by simpa [hkey] using hlabel
          rw [List.filter_cons_of_neg (by simpa using hkey), ih, List.lookup_cons, hne]
        · rw [List.filter_cons_of_pos (by simpa using hkey), List.lookup_cons, List.lookup_cons, ih]
    have hne : (label' == label) = false := by simpa using hlabel
    rw [List.lookup_cons, hne, if_neg hlabel, hother]

theorem recallOf_setRecall_self (h : History) (label : String) (r : Recall) :
    (h.setRecall label r).recallOf label = r := by
  rw [recallOf_setRecall, if_pos rfl]

theorem recallOf_setRecall_of_ne (h : History) {label label' : String} (hne : label' ≠ label) (r : Recall) :
    (h.setRecall label r).recallOf label' = h.recallOf label' := by
  rw [recallOf_setRecall, if_neg hne]

theorem last?_setRecall {h : History} {label : String} {r : Recall} (hr : r.last? = (h.recallOf label).last?)
    (label' : String) : ((h.setRecall label r).recallOf label').last? = (h.recallOf label').last? := by
  rw [recallOf_setRecall]
  split
  · next hlabel => rw [hr, hlabel]
  · rfl

def Sound (h : History) : Prop := ∀ label, (h.recallOf label).Sound

theorem sound_default : Sound {} := fun _ => List.not_mem_nil

theorem Sound.setRecall (hs : h.Sound) {r : Recall} (hr : r.Sound) (label : String) : (h.setRecall label r).Sound := by
  intro label'
  rw [recallOf_setRecall]
  split
  · exact hr
  · exact hs label'

theorem Sound.add (hs : h.Sound) (label value : String) : (h.add label value).Sound :=
  hs.setRecall ((hs label).add value) label

theorem Sound.reset (hs : h.Sound) (label : String) : (h.reset label).Sound := hs.setRecall (hs label).reset label

theorem Sound.previous (hs : h.Sound) (label : String) : (h.previous label).2.Sound :=
  hs.setRecall (hs label).previous label

theorem Sound.next (hs : h.Sound) (label : String) : (h.next label).2.Sound := hs.setRecall (hs label).next label

end History
end Triage
