import Triage.Proofs.App.Colors
import Triage.Proofs.Rows

/-! The message rows on the screen: as many as fit, one after another as in the listing, around the selected one. Words
of 64 bits are enough to find them. -/

namespace Triage.App.Screen

theorem windowStart_add_le (selected count rows : Nat) : windowStart selected count rows + min count rows ≤ count := by
  unfold windowStart
  split <;> omega

theorem windowStart_le (selected count rows : Nat) : windowStart selected count rows ≤ selected := by
  unfold windowStart
  split <;> omega

theorem lt_windowStart_add {selected count rows : Nat} (h : selected < count) (hrows : 0 < rows) :
    selected < windowStart selected count rows + min count rows := by
  unfold windowStart
  split <;> omega

def sum? (a b : UInt64) : Option UInt64 :=
  if a.toNat + b.toNat < 0x10000000000000000 then some (a + b) else none

def difference? (a b : UInt64) : Option UInt64 := if b ≤ a then some (a - b) else none

def differenceOrZero (a b : UInt64) : UInt64 := if b ≤ a then a - b else 0

/-- The first row of the window and the row after its last in words, unless a step on the way wraps. -/
def windowOfWords? (selected count rows : UInt64) : Option (UInt64 × UInt64) :=
  if count ≤ rows then some (0, count)
  else do
    let last ← difference? count rows
    let first := min (differenceOrZero selected (rows / 2)) last
    return (first, ← sum? first rows)

theorem toNat_differenceOrZero (a b : UInt64) : (differenceOrZero a b).toNat = a.toNat - b.toNat := by
  unfold differenceOrZero
  split
  · next hle => exact UInt64.toNat_sub_of_le _ _ hle
  · next hgt =>
    have hlt : a.toNat ≤ b.toNat := Nat.le_of_not_le fun hle => hgt (UInt64.le_iff_toNat_le.mpr hle)
    exact (Nat.sub_eq_zero_of_le hlt).symm

theorem windowOfWords?_of_lt (selected : UInt64) {count rows : UInt64} (h : rows < count) :
    ∃ first, windowOfWords? selected count rows = some (first, first + rows) ∧
      first.toNat = windowStart selected.toNat count.toNat rows.toNat ∧
      (first + rows).toNat = windowStart selected.toNat count.toNat rows.toNat + rows.toNat := by
  have hlt : rows.toNat < count.toNat := UInt64.lt_iff_toNat_lt.mp h
  have hle : rows ≤ count := UInt64.le_iff_toNat_le.mpr (Nat.le_of_lt hlt)
  have hwide : ¬ count ≤ rows := fun hle => Nat.not_le_of_lt hlt (UInt64.le_iff_toNat_le.mp hle)
  have hhalf : (rows / 2).toNat = rows.toNat / 2 := UInt64.toNat_div rows 2
  let first := min (differenceOrZero selected (rows / 2)) (count - rows)
  have hfirst : first.toNat = windowStart selected.toNat count.toNat rows.toNat := by
    rw [Listing.toNat_min, toNat_differenceOrZero, hhalf, UInt64.toNat_sub_of_le _ _ hle, windowStart,
      if_neg (Nat.not_le_of_lt hlt)]
  -- The window ends with the listing at the latest, so its last row is a word as well.
  have hstop := windowStart_add_le selected.toNat count.toNat rows.toNat
  rw [Nat.min_eq_right (Nat.le_of_lt hlt)] at hstop
  have hsum : first.toNat + rows.toNat < 0x10000000000000000 := by
    rw [hfirst]
    exact Nat.lt_of_le_of_lt hstop count.toNat_lt
  refine ⟨first, ?_, hfirst, ?_⟩
  · rw [windowOfWords?, if_neg hwide, difference?, if_pos hle]
    change (sum? first rows).bind _ = _
    rw [sum?, if_pos hsum]
    rfl
  · rw [UInt64.toNat_add, Nat.mod_eq_of_lt hsum, hfirst]

theorem windowOfWords?_eq_some (selected count rows : UInt64) :
    ∃ first stop, windowOfWords? selected count rows = some (first, stop) ∧
      first.toNat = windowStart selected.toNat count.toNat rows.toNat ∧
      stop.toNat = windowStart selected.toNat count.toNat rows.toNat + min count.toNat rows.toNat := by
  by_cases hfits : count ≤ rows
  · have hle : count.toNat ≤ rows.toNat := UInt64.le_iff_toNat_le.mp hfits
    have hstart : windowStart selected.toNat count.toNat rows.toNat = 0 := if_pos hle
    rw [hstart, Nat.min_eq_left hle, Nat.zero_add]
    exact ⟨0, count, if_pos hfits, rfl, rfl⟩
  · have hlt : rows < count := UInt64.not_le.mp hfits
    obtain ⟨first, hwindow, hfirst, hstop⟩ := windowOfWords?_of_lt selected hlt
    rw [Nat.min_eq_right (UInt64.le_iff_toNat_le.mp (UInt64.le_of_lt hlt))]
    exact ⟨first, first + rows, hwindow, hfirst, hstop⟩

/-- A column of so many characters: a text and spaces after it, or the beginning of the text and an ellipsis. -/
structure IsFitted (width : Nat) (text column : String) : Prop where
  length : column.length = width
  whole : text.length ≤ width → ∃ n, column = text ++ spaces n
  cut : width < text.length → ∃ start rest, text.toList = start ++ rest ∧
    column.toList = start ++ [SearchQuery.ellipsis]

theorem length_spaces (n : Nat) : (spaces n).length = n := by
  rw [spaces, String.length_ofList, List.length_replicate]

theorem fit_isFitted {width : Nat} (h : 0 < width) (text : String) : IsFitted width text (fit width text) := by
  unfold fit
  split
  · next hle =>
    refine ⟨?_, fun _ => ⟨_, rfl⟩, fun hlt => absurd hle (Nat.not_le_of_lt hlt)⟩
    rw [String.length_append, length_spaces]
    omega
  · next hgt =>
    refine ⟨?_, fun hle => absurd hle hgt,
      fun _ => ⟨text.toList.take (width - 1), text.toList.drop (width - 1), ?_, ?_⟩⟩
    · rw [String.length_ofList, List.length_append, List.length_take, List.length_singleton, String.length_toList]
      omega
    · exact (List.take_append_drop _ _).symm
    · exact String.toList_ofList

def cursorText (l : Listing) (row : Nat) : String := if row = l.selected then ">" else " "

def markText (l : Listing) (row : Nat) : String := if row ∈ l.marked then "*" else " "

/-- The line of a row: its cursor and its mark, then the columns of its message, each in one color. -/
inductive IsLine (s : State) (now : Instant) (clock : Clock) (row : Nat) : String → Prop where
  | mk {m : Message} {sender senderColor subjectColor : String} :
      s.messages.get? row = some m → IsFitted senderWidth m.senderName sender →
      IsLine s now clock row (String.join
        [paintText (cursorText s.messages row) s.theme.accent,
         paintText (markText s.messages row) s.theme.secondaryBright, " ",
         paintText (alignRight 6 (dateText now clock m.date)) s.theme.muted, " ",
         paintText sender senderColor, " ", paintText m.subject subjectColor, " ",
         paintText (" ".intercalate m.tags) s.theme.tertiary, "\n"])

variable {s : State}

theorem uncolored_join {cursor mark : String} (hcursor : IsBare cursor) (hmark : IsBare mark) (color color' : String)
    (rest : List String) : uncolored (String.join (paintText cursor color :: paintText mark color' :: " " :: rest)) =
      cursor ++ (mark ++ (" " ++ uncolored (String.join rest))) := by
  rw [String.join_cons, uncolored_paintText_append hcursor, String.join_cons, uncolored_paintText_append hmark,
    String.join_cons, uncolored_append (by decide)]

theorem IsLine.exists_uncolored_eq {now : Instant} {clock : Clock} {row : Nat} {line : String}
    (h : IsLine s now clock row line) :
    ∃ rest, uncolored line = cursorText s.messages row ++ (markText s.messages row ++ (" " ++ rest)) := by
  have hcursor : IsBare (cursorText s.messages row) := by
    unfold cursorText
    split <;> decide
  have hmark : IsBare (markText s.messages row) := by
    unfold markText
    split <;> decide
  cases h with
  | mk => exact ⟨_, uncolored_join hcursor hmark _ _ _⟩

theorem paint_append (theme : Theme) (ps qs : List Piece) :
    paint theme (ps ++ qs) = paint theme ps ++ paint theme qs := by
  unfold paint
  rw [List.map_append, String.join_append]

theorem paint_flatMap {α : Type} (theme : Theme) (as : List α) (pieces : α → List Piece) :
    paint theme (as.flatMap pieces) = String.join (as.map fun a => paint theme (pieces a)) := by
  induction as with
  | nil => rfl
  | cons a as ih => rw [List.flatMap_cons, paint_append, ih, List.map_cons, String.join_cons]

theorem map_rowsShown (l : Listing) (rows : Nat) :
    (rowsShown l rows).map some = (window l.selected l.count rows).map fun index =>
      (l.get? index).map fun message =>
        { index, message, isSelected := index == l.selected, isMarked := l.isMarked index } := by
  refine Listing.map_filterMap_some fun index hindex => ?_
  rw [Option.isSome_map, l.isSome_get?_iff]
  obtain ⟨i, hi, rfl⟩ := List.mem_range'.mp hindex
  have hend := windowStart_add_le l.selected l.count rows
  omega

theorem length_rowsShown (l : Listing) (rows : Nat) : (rowsShown l rows).length = min l.count rows := by
  have hlength := congrArg List.length (map_rowsShown l rows)
  rwa [List.length_map, List.length_map, window, List.length_range'] at hlength

theorem getElem?_rowsShown {l : Listing} {rows i : Nat} {r : Row} (h : (rowsShown l rows)[i]? = some r) :
    r.index = windowStart l.selected l.count rows + i ∧ l.get? r.index = some r.message ∧
      r.isSelected = (r.index == l.selected) ∧ r.isMarked = l.isMarked r.index := by
  have hrow := congrArg (·[i]?) (map_rowsShown l rows)
  simp only [List.getElem?_map, h, Option.map_some, window] at hrow
  obtain ⟨index, hindex, hr⟩ := Option.map_eq_some_iff.mp hrow.symm
  obtain ⟨m, hm, rfl⟩ := Option.map_eq_some_iff.mp hr
  obtain ⟨hi, hi'⟩ := List.getElem?_eq_some_iff.mp hindex
  rw [List.getElem_range', Nat.one_mul] at hi'
  exact ⟨hi'.symm, hm, rfl, rfl⟩

@[simp]
theorem paintPiece_plain (theme : Theme) (text : String) : paintPiece theme (.plain text) = text := rfl

@[simp]
theorem paintPiece_colored (theme : Theme) (text : String) (color : Theme → String) :
    paintPiece theme (.colored text color) = paintText text (color theme) := rfl

theorem isLine_paint {now : Instant} {clock : Clock} {r : Row} (hmessage : s.messages.get? r.index = some r.message)
    (hselected : r.isSelected = (r.index == s.messages.selected))
    (hmarked : r.isMarked = s.messages.isMarked r.index) :
    IsLine s now clock r.index (paint s.theme (rowPieces now clock r)) := by
  have hcursor : (if r.isSelected then ">" else " ") = cursorText s.messages r.index := by
    simp [cursorText, hselected]
  have hmark : (if r.isMarked then "*" else " ") = markText s.messages r.index := by
    simp [markText, hmarked, Listing.isMarked]
  have hsender : IsFitted senderWidth r.message.senderName _ := fit_isFitted (by decide) r.message.senderName
  rw [rowPieces, hcursor, hmark, paint]
  simp only [List.map_cons, List.map_nil, paintPiece_plain, paintPiece_colored]
  exact .mk hmessage hsender

/-- The screen has the lines of consecutive rows between the queries and the status: as many as fit, the selected row
among them, with a cursor on that row and a mark on the marked ones. Words of 64 bits never wrap on the way to them. -/
theorem render_rows (h : s.messages.selected ≤ s.messages.count - 1) (prompt : Option Prompt) (rows : Nat)
    (now : Instant) (clock : Clock) : ∃ (first : Nat) (lines : List String),
      render s prompt rows now clock = paint s.theme (tabPieces s.queries) ++ String.join lines ++
        paint s.theme (statusPieces s now ++ prompt.elim [] (promptPieces s)) ∧
      lines.length = min s.messages.count rows ∧ first + lines.length ≤ s.messages.count ∧
      (0 < rows → 0 < s.messages.count → first ≤ s.messages.selected ∧ s.messages.selected < first + lines.length) ∧
      (∀ (i : Nat) line, lines[i]? = some line → IsLine s now clock (first + i) line ∧
        ∃ rest, uncolored line =
          cursorText s.messages (first + i) ++ (markText s.messages (first + i) ++ (" " ++ rest))) ∧
      ∀ selected count height : UInt64, selected.toNat = s.messages.selected → count.toNat = s.messages.count →
        height.toNat = rows → ∃ start stop, windowOfWords? selected count height = some (start, stop) ∧
          start.toNat = first ∧ stop.toNat = first + lines.length := by
  have hlength := length_rowsShown s.messages rows
  refine ⟨windowStart s.messages.selected s.messages.count rows,
    (rowsShown s.messages rows).map fun r => paint s.theme (rowPieces now clock r), ?_, ?_, ?_, ?_, ?_, ?_⟩
  · rw [render, pieces, paint_append, paint_append, paint_append, paint_flatMap, paint_append, String.append_assoc]
  · rw [List.length_map, hlength]
  · rw [List.length_map, hlength]
    exact windowStart_add_le _ _ _
  · intro hrows hcount
    rw [List.length_map, hlength]
    exact ⟨windowStart_le _ _ _, lt_windowStart_add (by omega) hrows⟩
  · intro i line hline
    rw [List.getElem?_map] at hline
    obtain ⟨r, hr, rfl⟩ := Option.map_eq_some_iff.mp hline
    obtain ⟨hindex, hmessage, hselected, hmarked⟩ := getElem?_rowsShown hr
    have hrow : IsLine s now clock r.index _ := isLine_paint hmessage hselected hmarked
    rw [hindex] at hrow
    exact ⟨hrow, hrow.exists_uncolored_eq⟩
  · rintro selected count height hselected hcount rfl
    rw [List.length_map, hlength, ← hselected, ← hcount]
    exact windowOfWords?_eq_some selected count height

theorem render_rows_atEnd :
    let s : State := { deskOfThree with messages := deskOfThree.messages.move 5 }
    s.messages.selected ≤ s.messages.count - 1 ∧ 0 < 2 ∧ 0 < s.messages.count ∧
      (2 : UInt64).toNat = s.messages.selected ∧ (3 : UInt64).toNat = s.messages.count ∧ (2 : UInt64).toNat = 2 ∧
      ∃ above line, render s (some tagPrompt) 2 0 = paint s.theme (tabPieces s.queries) ++ String.join [above, line] ++
          paint s.theme (statusPieces s 0 ++ promptPieces s tagPrompt) ∧
        IsLine s 0 {} 1 above ∧ (∃ rest, uncolored line = ">" ++ ("*" ++ (" " ++ rest))) ∧
        ∃ start stop, windowOfWords? 2 3 2 = some (start, stop) ∧ start.toNat = 1 ∧ stop.toNat = 3 := by
  intro s
  have hselected : s.messages.selected = 2 := by decide +kernel
  have hcount : s.messages.count = 3 := by decide +kernel
  have hlast : s.messages.selected ≤ s.messages.count - 1 := by rw [hselected, hcount]
  obtain ⟨first, lines, hrender, hlength, hend, hcontains, hlines, hwords⟩ :=
    render_rows hlast (some tagPrompt) 2 0 {}
  have hsome : 0 < s.messages.count := by rw [hcount]; decide
  obtain ⟨-, hlt⟩ := hcontains (by decide) hsome
  have htwo : lines.length = 2 := by rw [hlength, hcount]; decide
  obtain ⟨above, line, rfl⟩ := List.length_eq_two.mp htwo
  obtain rfl : first = 1 := by
    rw [htwo] at hend hlt
    omega
  refine ⟨hlast, by decide, hsome, hselected.symm, hcount.symm, rfl, above, line, hrender, (hlines 0 above rfl).1, ?_,
    hwords 2 3 2 hselected.symm hcount.symm rfl⟩
  have hcursor : cursorText s.messages (1 + 1) = ">" := by decide +kernel
  have hmark : markText s.messages (1 + 1) = "*" := by decide +kernel
  rw [← hcursor, ← hmark]
  exact (hlines 1 line rfl).2

end Triage.App.Screen
