import Triage.Index.SavedQueries
import Triage.Proofs.Text.Parts

/-! Saved queries in a configuration of any text. Each line is the entry of one query or of none, and queries that are
written there, among whatever other lines, are read back in their order. -/

namespace Triage.Index

def entryLine (name text : List Char) : List Char := "query.".toList ++ (name ++ '=' :: text)

/-- A line is the entry of a query: its name ends at the first `=`. -/
structure IsEntry (q : SearchQuery) (line : List Char) : Prop where
  line_eq : line = entryLine q.name.toList q.text.toList
  noEquals : '=' ∉ q.name.toList
  hasName : q.name ≠ ""
  hasText : q.text ≠ ""

inductive IsOther : List Char → Prop where
  | elsewhere {line : List Char} : ¬ "query.".toList <+: line → IsOther line
  | noEquals {rest : List Char} : '=' ∉ rest → IsOther ("query.".toList ++ rest)
  | noName (text : List Char) : IsOther (entryLine [] text)
  | noText {name : List Char} : '=' ∉ name → IsOther (entryLine name [])

theorem afterStart?_append (start rest : List Char) : afterStart? start (start ++ rest) = some rest := by
  induction start with
  | nil => rfl
  | cons s start ih => rw [List.cons_append, afterStart?, if_pos rfl, ih]

theorem afterStart?_eq_none {start cs : List Char} (h : ¬ start <+: cs) : afterStart? start cs = none := by
  induction start generalizing cs with
  | nil => exact absurd List.nil_prefix h
  | cons s start ih =>
    cases cs with
    | nil => rfl
    | cons c cs =>
      rw [afterStart?]
      split
      · next hs => exact ih fun hprefix => h (List.cons_prefix_cons.mpr ⟨hs, hprefix⟩)
      · rfl

theorem savedQuery?_entryLine {name : List Char} (h : '=' ∉ name) (text : List Char) :
    savedQuery? (entryLine name text) =
      if name.isEmpty || text.isEmpty then none else some ⟨.ofList name, .ofList text⟩ := by
  have hname : ∀ c ∈ name, (c != '=') = true := fun c hc => bne_iff_ne.mpr fun heq => h (heq ▸ hc)
  have hspan : (name ++ '=' :: text).span (· != '=') = (name, '=' :: text) := Text.span_append hname (by simp)
  unfold entryLine
  rw [savedQuery?, afterStart?_append]
  dsimp only
  rw [hspan]

theorem savedQuery?_of_noEquals {rest : List Char} (h : '=' ∉ rest) :
    savedQuery? ("query.".toList ++ rest) = none := by
  have hrest : ∀ c ∈ rest, (c != '=') = true := fun c hc => bne_iff_ne.mpr fun heq => h (heq ▸ hc)
  have hspan : rest.span (· != '=') = (rest, []) := by
    have happend : (rest ++ []).span (· != '=') = (rest, []) := Text.span_append hrest nofun
    rwa [List.append_nil] at happend
  rw [savedQuery?, afterStart?_append]
  dsimp only
  rw [hspan]

theorem IsOther.savedQuery?_eq {line : List Char} (h : IsOther line) : savedQuery? line = none := by
  cases h with
  | elsewhere h => rw [savedQuery?, afterStart?_eq_none h]
  | noEquals h => exact savedQuery?_of_noEquals h
  | noName text => exact savedQuery?_entryLine List.not_mem_nil text
  | noText h => rw [savedQuery?_entryLine h, List.isEmpty_nil, Bool.or_true, if_pos rfl]

theorem IsEntry.savedQuery?_eq {q : SearchQuery} {line : List Char} (h : IsEntry q line) :
    savedQuery? line = some q := by
  have hname : q.name.toList.isEmpty = false := by simpa using h.hasName
  have htext : q.text.toList.isEmpty = false := by simpa using h.hasText
  rw [h.line_eq, savedQuery?_entryLine h.noEquals, hname, htext, String.ofList_toList, String.ofList_toList]
  rfl

theorem isEntry_or_isOther (line : List Char) : (∃ q, IsEntry q line) ∨ IsOther line := by
  by_cases hprefix : "query.".toList <+: line
  · obtain ⟨rest, rfl⟩ := hprefix
    by_cases hequals : '=' ∈ rest
    · obtain ⟨name, text, rfl, hname⟩ := List.eq_append_cons_of_mem hequals
      rcases name with _ | ⟨c, name⟩
      · exact .inr (.noName text)
      · rcases text with _ | ⟨d, text⟩
        · exact .inr (.noText hname)
        · refine .inl ⟨⟨.ofList (c :: name), .ofList (d :: text)⟩, ?_, ?_, ?_, ?_⟩
          · simp only [String.toList_ofList]
            rfl
          · simpa only [String.toList_ofList] using hname
          · simp
          · simp
    · exact .inr (.noEquals hequals)
  · exact .inr (.elsewhere hprefix)

theorem savedQuery?_eq_some_iff {line : List Char} {q : SearchQuery} : savedQuery? line = some q ↔ IsEntry q line := by
  refine ⟨fun h => ?_, IsEntry.savedQuery?_eq⟩
  rcases isEntry_or_isOther line with ⟨q', hentry⟩ | hother
  · rw [hentry.savedQuery?_eq] at h
    exact Option.some.inj h ▸ hentry
  · rw [hother.savedQuery?_eq] at h
    cases h

theorem savedQuery?_dropReturn_eq_none {line : List Char} (h : savedQuery? line = none) :
    savedQuery? (Text.dropReturn line) = none := by
  by_cases hreturn : line.getLast? = some '\r'
  · obtain ⟨line, rfl⟩ := List.getLast?_eq_some_iff.mp hreturn
    rw [Text.dropReturn_append]
    cases hq : savedQuery? line with
    | none => rfl
    | some q =>
      have hentry := savedQuery?_eq_some_iff.mp hq
      have hlonger : IsEntry ⟨q.name, .ofList (q.text.toList ++ ['\r'])⟩ (line ++ ['\r']) :=
        { line_eq := by
            rw [hentry.line_eq]
            unfold entryLine
            simp
          noEquals := hentry.noEquals
          hasName := hentry.hasName
          hasText := by simp }
      rw [hlonger.savedQuery?_eq] at h
      cases h
  · rw [Text.dropReturn_of_getLast? hreturn]
    exact h

inductive ConfigLine where
  | entry (q : SearchQuery)
  | other (line : List Char)

inductive LineEnd where
  | feed
  | returnFeed

def LineEnd.chars : LineEnd → List Char
  | .feed => ['\n']
  | .returnFeed => ['\r', '\n']

namespace ConfigLine

def chars : ConfigLine → List Char
  | entry q => entryLine q.name.toList q.text.toList
  | other line => line

def query? : ConfigLine → Option SearchQuery
  | entry q => some q
  | other _ => none

/-- What may be written: no part of an entry is empty, no name holds `=`, no text ends in a carriage return, and no
line holds a line feed. -/
inductive IsWritable : ConfigLine → Prop where
  | entry {q : SearchQuery} : q.name ≠ "" → q.text ≠ "" → '=' ∉ q.name.toList → '\n' ∉ q.name.toList →
      '\n' ∉ q.text.toList → q.text.toList.getLast? ≠ some '\r' → IsWritable (entry q)
  | other {line : List Char} : IsOther line → '\n' ∉ line → IsWritable (other line)

variable {l : ConfigLine}

theorem IsWritable.savedQuery?_eq (h : l.IsWritable) : savedQuery? l.chars = l.query? := by
  cases h with
  | entry hname htext hequals => exact IsEntry.savedQuery?_eq ⟨rfl, hequals, hname, htext⟩
  | other hother => exact hother.savedQuery?_eq

theorem IsWritable.not_mem_chars (h : l.IsWritable) : '\n' ∉ l.chars := by
  cases h with
  | @entry q _ _ _ hname htext =>
    have hstart : '\n' ∉ "query.".toList := by decide
    unfold chars entryLine
    simp only [List.mem_append, List.mem_cons]
    rintro (hmem | hmem | hmem | hmem)
    · exact hstart hmem
    · exact hname hmem
    · exact absurd hmem (by decide)
    · exact htext hmem
  | other _ hline => exact hline

theorem IsWritable.savedQuery?_dropReturn (h : l.IsWritable) : savedQuery? (Text.dropReturn l.chars) = l.query? := by
  have hread := h.savedQuery?_eq
  cases h with
  | @entry q _ htext _ _ _ hreturn =>
    have hne : q.text.toList ≠ [] := by simpa using htext
    have hlast : (entryLine q.name.toList q.text.toList).getLast? ≠ some '\r' := by
      unfold entryLine
      rwa [List.getLast?_append_of_ne_nil _ (by simp), List.getLast?_append_of_ne_nil _ (by simp),
        List.getLast?_cons_of_ne_nil hne]
    have hchars : Text.dropReturn (ConfigLine.entry q).chars = (ConfigLine.entry q).chars :=
      Text.dropReturn_of_getLast? hlast
    rwa [hchars]
  | other => exact savedQuery?_dropReturn_eq_none hread

theorem IsWritable.exists_line (h : l.IsWritable) (stop : LineEnd) (rest : List Char) :
    ∃ line, Text.linesOf (Text.splitOn '\n' (l.chars ++ (stop.chars ++ rest))) =
      line :: Text.linesOf (Text.splitOn '\n' rest) ∧ savedQuery? line = l.query? := by
  cases stop with
  | feed => exact ⟨_, Text.linesOf_splitOn_append h.not_mem_chars rest, h.savedQuery?_dropReturn⟩
  | returnFeed =>
    have hline := Text.linesOf_splitOn_append (Text.not_mem_append_return h.not_mem_chars) rest
    rw [Text.dropReturn_append, List.append_assoc] at hline
    exact ⟨_, hline, h.savedQuery?_eq⟩

theorem IsWritable.filterMap_savedQuery?_last (h : l.IsWritable) :
    (Text.linesOf (Text.splitOn '\n' l.chars)).filterMap savedQuery? = l.query?.toList := by
  have hread := h.savedQuery?_eq
  rw [Text.splitOn_of_not_mem h.not_mem_chars, Text.linesOf]
  split
  · next hempty =>
    rw [List.isEmpty_iff.mp hempty] at hread
    rw [← hread]
    rfl
  · rw [List.filterMap_cons, hread]
    cases l.query? <;> rfl

end ConfigLine

def configOf (lines : List (ConfigLine × LineEnd)) (last : Option ConfigLine) : List Char :=
  lines.flatMap (fun l => l.1.chars ++ l.2.chars) ++ last.elim [] ConfigLine.chars

theorem filterMap_savedQuery?_configOf {lines : List (ConfigLine × LineEnd)} {last : Option ConfigLine}
    (hlines : ∀ l ∈ lines, l.1.IsWritable) (hlast : ∀ l ∈ last, l.IsWritable) :
    (Text.linesOf (Text.splitOn '\n' (configOf lines last))).filterMap savedQuery? =
      (lines.map (·.1) ++ last.toList).filterMap ConfigLine.query? := by
  induction lines with
  | nil =>
    cases last with
    | none => rfl
    | some l =>
      have hread := (hlast l rfl).filterMap_savedQuery?_last
      rw [List.map_nil, List.nil_append, Option.toList_some, List.filterMap_cons]
      refine hread.trans ?_
      cases l.query? <;> rfl
  | cons l rest ih =>
    obtain ⟨l, stop⟩ := l
    have hl : l.IsWritable := hlines _ List.mem_cons_self
    have hrest := ih fun l hl => hlines l (List.mem_cons_of_mem _ hl)
    have hconfig : configOf ((l, stop) :: rest) last = l.chars ++ (stop.chars ++ configOf rest last) := by
      simp [configOf]
    obtain ⟨line, hline, hread⟩ := hl.exists_line stop (configOf rest last)
    rw [hconfig, hline, List.filterMap_cons, hread, hrest, List.map_cons, List.cons_append, List.filterMap_cons]

/-- Queries that are written as lines of a configuration, each with either end and among any lines that are no entries,
are read back as they are and in their order. In any text at all, each line is the entry of at most one query. -/
theorem savedQueries_configOf :
    (∀ (lines : List (ConfigLine × LineEnd)) (last : Option ConfigLine), (∀ l ∈ lines, l.1.IsWritable) →
      (∀ l ∈ last, l.IsWritable) → savedQueries (.ofList (configOf lines last)) =
        (lines.map (·.1) ++ last.toList).filterMap ConfigLine.query?) ∧
    ∀ config : String, ∃ (lines : List (List Char)) (found : List (Option SearchQuery)),
      Text.HasLines config.toList lines ∧ List.Forall₂ (fun line f => ∀ q, f = some q ↔ IsEntry q line) lines found ∧
        savedQueries config = found.filterMap id := by
  refine ⟨fun lines last hlines hlast => ?_, fun config => ?_⟩
  · rw [savedQueries, String.toList_ofList]
    exact filterMap_savedQuery?_configOf hlines hlast
  · let lines := Text.linesOf (Text.splitOn '\n' config.toList)
    refine ⟨lines, lines.map savedQuery?, Text.hasLines_iff.mpr rfl, ?_, ?_⟩
    · exact List.forall₂_map_right_iff.mpr (List.forall₂_same.mpr fun line _ q => savedQuery?_eq_some_iff)
    · rw [List.filterMap_map]
      rfl

theorem savedQueries_configOf_mixed :
    let lines : List (ConfigLine × LineEnd) :=
      [(.entry ⟨"inbox", "tag:inbox"⟩, .returnFeed), (.other (entryLine "none".toList []), .feed),
       (.entry ⟨"a\rb", "query.x=y\rz"⟩, .feed), (.other "user.name=query.a=b\r".toList, .returnFeed)]
    let last : Option ConfigLine := some (.entry ⟨"todo", "tag:todo"⟩)
    (∀ l ∈ lines, l.1.IsWritable) ∧ (∀ l ∈ last, l.IsWritable) ∧
      String.ofList (configOf lines last) = "query.inbox=tag:inbox\r\nquery.none=\nquery.a\rb=query.x=y\rz\n" ++
        "user.name=query.a=b\r\r\nquery.todo=tag:todo" ∧
      savedQueries (.ofList (configOf lines last)) =
        [⟨"inbox", "tag:inbox"⟩, ⟨"a\rb", "query.x=y\rz"⟩, ⟨"todo", "tag:todo"⟩] := by
  intro lines last
  have hlines : ∀ l ∈ lines, l.1.IsWritable := by
    simp only [lines, List.forall_mem_cons]
    exact ⟨.entry (by decide) (by decide) (by decide) (by decide) (by decide) (by decide),
      .other (.noText (by decide)) (by decide),
      .entry (by decide) (by decide) (by decide) (by decide) (by decide) (by decide),
      .other (.elsewhere (by decide)) (by decide), nofun⟩
  have hlast : ∀ l ∈ last, l.IsWritable := by
    rintro l hl
    obtain rfl := Option.some.inj hl
    exact .entry (by decide) (by decide) (by decide) (by decide) (by decide) (by decide)
  exact ⟨hlines, hlast, by decide +kernel, savedQueries_configOf.1 lines last hlines hlast⟩

end Triage.Index
