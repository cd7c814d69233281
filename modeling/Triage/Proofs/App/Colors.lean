import Triage.App.Screen

/-! Colors leave the text of the screen alone: without its color codes, a screen in any theme is the screen in a theme
without colors. -/

namespace Triage.App.Screen

def escape : Char := '\x1b'

/-- The characters outside color codes. A code goes from an escape character to the next `m`. -/
def dropCodes (inCode : Bool) : List Char → List Char
  | [] => []
  | c :: cs =>
    if inCode then dropCodes (c != 'm') cs
    else if c = escape then dropCodes true cs
    else c :: dropCodes false cs

def uncolored (screen : String) : String := .ofList (dropCodes false screen.toList)

def IsBare (text : String) : Prop := escape ∉ text.toList

instance (text : String) : Decidable (IsBare text) := inferInstanceAs (Decidable (escape ∉ text.toList))

theorem dropCodes_append {cs : List Char} (h : escape ∉ cs) (rest : List Char) :
    dropCodes false (cs ++ rest) = cs ++ dropCodes false rest := by
  induction cs with
  | nil => rfl
  | cons c cs ih =>
    have hc : c ≠ escape := fun hc => h (hc ▸ List.mem_cons_self)
    have hcs : escape ∉ cs := fun hcs => h (List.mem_cons_of_mem c hcs)
    rw [List.cons_append, dropCodes, if_neg Bool.false_ne_true, if_neg hc, ih hcs, List.cons_append]

theorem dropCodes_code {cs : List Char} (h : 'm' ∉ cs) (rest : List Char) :
    dropCodes false (escape :: (cs ++ 'm' :: rest)) = dropCodes false rest := by
  have hinside : dropCodes true (cs ++ 'm' :: rest) = dropCodes false rest := by
    induction cs with
    | nil => rfl
    | cons c cs ih =>
      have hc : (c != 'm') = true := bne_iff_ne.mpr fun hc => h (hc ▸ List.mem_cons_self)
      rw [List.cons_append, dropCodes, if_pos rfl, hc, ih fun hcs => h (List.mem_cons_of_mem c hcs)]
  exact hinside

theorem isDigit_of_mem_toString {n : Nat} {c : Char} (h : c ∈ (toString n).toList) : c.isDigit = true := by
  rw [Nat.toString_eq_repr, Nat.toList_repr] at h
  exact Nat.isDigit_of_mem_toDigits (by decide) (by decide) h

theorem uncolored_append {text : String} (h : IsBare text) (rest : String) :
    uncolored (text ++ rest) = text ++ uncolored rest := by
  rw [uncolored, String.toList_append, dropCodes_append h, String.ofList_append, String.ofList_toList, uncolored]

theorem uncolored_paintText_append {text : String} (h : IsBare text) (color rest : String) :
    uncolored (paintText text color ++ rest) = text ++ uncolored rest := by
  unfold paintText
  split
  · next n _ =>
    have hopens : "\x1b[38;5;".toList = escape :: ['[', '3', '8', ';', '5', ';'] := rfl
    have hcloses : "m".toList = ['m'] := rfl
    have hresets : "\x1b[0m".toList = escape :: (['[', '0'] ++ ['m']) := rfl
    have hcode : 'm' ∉ ['[', '3', '8', ';', '5', ';'] ++ (toString n).toList := by
      intro hm
      rcases List.mem_append.mp hm with hm | hm
      · exact absurd hm (by decide)
      · exact absurd (isDigit_of_mem_toString hm) (by decide)
    have hreset : dropCodes false (escape :: (['[', '0'] ++ 'm' :: rest.toList)) = _ :=
      dropCodes_code (by decide) rest.toList
    have hopen := dropCodes_code hcode (text.toList ++ (escape :: (['[', '0'] ++ 'm' :: rest.toList)))
    rw [uncolored, uncolored, ← String.toList_inj]
    simp only [String.toList_append, String.toList_ofList, hopens, hcloses, hresets, List.append_assoc,
      List.cons_append, List.nil_append] at hopen hreset ⊢
    rw [hopen, dropCodes_append h, hreset]
  · exact uncolored_append h rest

theorem IsBare.append {s t : String} (hs : IsBare s) (ht : IsBare t) : IsBare (s ++ t) := by
  unfold IsBare
  rw [String.toList_append, List.mem_append]
  exact fun h => h.elim hs ht

theorem isBare_toString (n : Nat) : IsBare (toString n) := fun h => absurd (isDigit_of_mem_toString h) (by decide)

theorem isBare_spaces (n : Nat) : IsBare (spaces n) := by
  unfold IsBare spaces
  rw [String.toList_ofList, List.mem_replicate]
  exact fun h => absurd h.2 (by decide)

theorem IsBare.alignRight {text : String} (h : IsBare text) (width : Nat) : IsBare (alignRight width text) :=
  (isBare_spaces _).append h

theorem IsBare.fit {text : String} (h : IsBare text) (width : Nat) : IsBare (fit width text) := by
  unfold Screen.fit
  split
  · exact h.append (isBare_spaces _)
  · unfold IsBare
    rw [String.toList_ofList, List.mem_append, List.mem_singleton]
    rintro (hkept | hellipsis)
    · exact h (List.mem_of_mem_take hkept)
    · exact absurd hellipsis (by decide)

theorem isBare_intercalate {separator : String} (hseparator : IsBare separator) {texts : List String}
    (h : ∀ t ∈ texts, IsBare t) : IsBare (separator.intercalate texts) := by
  induction texts with
  | nil =>
    rw [String.intercalate_nil]
    decide
  | cons t rest ih =>
    have hrest := ih fun t ht => h t (List.mem_cons_of_mem _ ht)
    cases rest with
    | nil =>
      rw [String.intercalate_singleton]
      exact h t List.mem_cons_self
    | cons u rest =>
      rw [String.intercalate_cons_cons]
      exact ((h t List.mem_cons_self).append hseparator).append hrest

theorem isBare_twoDigits (n : Nat) : IsBare (Calendar.twoDigits n) := by
  refine IsBare.append ?_ (isBare_toString n)
  split <;> decide

theorem isBare_monthDay (date : Seconds) : IsBare (Calendar.monthDay date) := by
  have hnames : ∀ name ∈ "" :: Calendar.monthNames, IsBare name := by decide
  have hname (i : Nat) : IsBare (Calendar.monthNames.getD i "") := by
    refine hnames _ ?_
    rw [List.getD_eq_getElem?_getD]
    cases hname : Calendar.monthNames[i]? with
    | none => exact List.mem_cons_self
    | some name => exact List.mem_cons_of_mem _ (List.mem_of_getElem? hname)
  exact ((hname _).append (by decide)).append (isBare_twoDigits _)

theorem isBare_clockTime (date : Seconds) : IsBare (Calendar.clockTime date) :=
  ((isBare_twoDigits _).append (by decide)).append (isBare_twoDigits _)

theorem isBare_dateText (now : Instant) (clock : Clock) (date : Option Seconds) :
    IsBare (dateText now clock date) := by
  unfold dateText
  dsimp only
  split
  · decide
  · split
    · exact isBare_clockTime _
    · exact isBare_monthDay _

def HasNoColors (theme : Theme) : Prop := ∀ color ∈ Theme.colors, paletteNumber? (color.get theme) = none

instance (theme : Theme) : Decidable (HasNoColors theme) := inferInstanceAs (Decidable (∀ color ∈ Theme.colors, _))

structure IsUncolored (theme : Theme) (p : Piece) : Prop where
  text : IsBare p.text
  color : ∀ color ∈ p.color, paletteNumber? (color theme) = none

variable {blank : Theme}

theorem isUncolored_plain {text : String} (h : IsBare text) : IsUncolored blank (.plain text) := ⟨h, nofun⟩

theorem HasNoColors.colored (hblank : HasNoColors blank) {text : String} (h : IsBare text) {color : Theme → String}
    (hcolor : color ∈ Theme.colors.map (·.get)) : IsUncolored blank (.colored text color) := by
  refine ⟨h, fun color' hcolor' => ?_⟩
  obtain rfl : color = color' := Option.some.inj hcolor'
  obtain ⟨named, hnamed, rfl⟩ := List.mem_map.mp hcolor
  exact hblank named hnamed

theorem IsUncolored.paintPiece_eq {p : Piece} (h : IsUncolored blank p) : paintPiece blank p = p.text := by
  unfold paintPiece
  split
  · next color hcolor => rw [paintText, h.color color hcolor]
  · rfl

theorem IsUncolored.uncolored_append {p : Piece} (h : IsUncolored blank p) (theme : Theme) (rest : String) :
    uncolored (paintPiece theme p ++ rest) = p.text ++ uncolored rest := by
  unfold paintPiece
  split
  · exact uncolored_paintText_append h.text _ rest
  · exact Screen.uncolored_append h.text rest

theorem uncolored_paint {ps : List Piece} (h : ∀ p ∈ ps, IsUncolored blank p) (theme : Theme) :
    uncolored (paint theme ps) = paint blank ps := by
  unfold paint
  induction ps with
  | nil => rfl
  | cons p rest ih =>
    have hp := h p List.mem_cons_self
    rw [List.map_cons, String.join_cons, hp.uncolored_append, ih fun p hp => h p (List.mem_cons_of_mem _ hp),
      List.map_cons, String.join_cons, hp.paintPiece_eq]

/-- No text that is shown has an escape character. -/
structure ShowsNoEscape (s : State) (prompt : Option Prompt) (rows : Nat) (now : Instant) : Prop where
  name : ∀ q ∈ s.queries.all, IsBare q.name
  query : IsBare s.queries.current.text
  sender : ∀ r ∈ rowsShown s.messages rows, IsBare r.message.senderName
  subject : ∀ r ∈ rowsShown s.messages rows, IsBare r.message.subject
  tag : ∀ r ∈ rowsShown s.messages rows, ∀ t ∈ r.message.tags, IsBare t
  status : IsBare (s.status.currentAt now)
  label : ∀ p ∈ prompt, IsBare p.label
  draft : ∀ p ∈ prompt, ∀ d ∈ s.draft, IsBare d
  hint : ∀ p ∈ prompt, s.draft = none → IsBare (hint s p)

variable {s : State} {prompt : Option Prompt} {rows : Nat} {now : Instant} {clock : Clock}

theorem HasNoColors.tabPieces (hblank : HasNoColors blank) {q : Queries} (h : ∀ query ∈ q.all, IsBare query.name) :
    ∀ p ∈ tabPieces q, IsUncolored blank p := by
  refine List.forall_mem_append.mpr ⟨fun p hp => ?_, fun p hp => ?_⟩
  · obtain ⟨i, hi, rfl⟩ := List.mem_mapIdx.mp hp
    have hname := h _ (List.getElem_mem hi)
    split
    · exact hblank.colored ((IsBare.append (by decide) hname).append (by decide)) (by simp [Theme.colors])
    · exact hblank.colored ((IsBare.append (by decide) hname).append (by decide)) (by simp [Theme.colors])
  · rw [List.mem_singleton.mp hp]
    exact isUncolored_plain (by decide)

theorem HasNoColors.rowPieces (hblank : HasNoColors blank) {r : Row} (hsender : IsBare r.message.senderName)
    (hsubject : IsBare r.message.subject) (htags : ∀ t ∈ r.message.tags, IsBare t) :
    ∀ p ∈ rowPieces now clock r, IsUncolored blank p := by
  have hblankText : IsBare " " := by decide
  have hspace : IsUncolored blank (.plain " ") := isUncolored_plain hblankText
  have hcursor : IsBare (if r.isSelected then ">" else " ") := by split <;> decide
  have hmark : IsBare (if r.isMarked then "*" else " ") := by split <;> decide
  have hdate := (isBare_dateText now clock r.message.date).alignRight 6
  have htag := isBare_intercalate hblankText htags
  have hunread (b : Bool) : (if b then (·.accentBright) else (·.foreground)) ∈ Theme.colors.map (·.get) := by
    cases b <;> simp [Theme.colors]
  have hselected (b : Bool) : (if b then (·.highlight) else (·.foreground)) ∈ Theme.colors.map (·.get) := by
    cases b <;> simp [Theme.colors]
  simp only [Screen.rowPieces, List.forall_mem_cons]
  exact ⟨hblank.colored hcursor (by simp [Theme.colors]), hblank.colored hmark (by simp [Theme.colors]), hspace,
    hblank.colored hdate (by simp [Theme.colors]), hspace, hblank.colored (hsender.fit _) (hunread _), hspace,
    hblank.colored hsubject (hselected _), hspace, hblank.colored htag (by simp [Theme.colors]),
    isUncolored_plain (by decide), nofun⟩

theorem HasNoColors.statusPieces (hblank : HasNoColors blank) (h : ShowsNoEscape s prompt rows now) :
    ∀ p ∈ statusPieces s now, IsUncolored blank p := by
  simp only [Screen.statusPieces, List.forall_mem_cons]
  refine ⟨hblank.colored h.query (by simp [Theme.colors]), isUncolored_plain ?_, nofun⟩
  have hnumber := isBare_toString
  exact (((((((IsBare.append (by decide) (hnumber _)).append (by decide)).append (hnumber _)).append
    (by decide)).append (hnumber _)).append (by decide)).append h.status).append (by decide)

theorem HasNoColors.promptPieces (hblank : HasNoColors blank) (h : ShowsNoEscape s prompt rows now) {p : Prompt}
    (hp : p ∈ prompt) : ∀ piece ∈ promptPieces s p, IsUncolored blank piece := by
  refine List.forall_mem_cons.mpr ⟨hblank.colored (h.label p hp) (by simp [Theme.colors]), ?_⟩
  split
  · next draft hdraft =>
    exact List.forall_mem_singleton.mpr (hblank.colored (h.draft p hp draft hdraft) (by simp [Theme.colors]))
  · next hdraft =>
    split
    · exact nofun
    · exact List.forall_mem_singleton.mpr (hblank.colored
        ((IsBare.append (by decide) (h.hint p hp hdraft)).append (by decide)) (by simp [Theme.colors]))

theorem HasNoColors.pieces (hblank : HasNoColors blank) (h : ShowsNoEscape s prompt rows now) :
    ∀ p ∈ pieces s prompt rows now clock, IsUncolored blank p := by
  simp only [Screen.pieces, List.forall_mem_append]
  refine ⟨⟨⟨hblank.tabPieces h.name, fun p hp => ?_⟩, hblank.statusPieces h⟩, ?_⟩
  · obtain ⟨r, hr, hp⟩ := List.mem_flatMap.mp hp
    exact hblank.rowPieces (h.sender r hr) (h.subject r hr) (h.tag r hr) p hp
  · cases hprompt : prompt with
    | none => exact nofun
    | some p => exact hblank.promptPieces h (hprompt ▸ rfl)

/-- A screen on which no escape character is shown has the same text in any two themes, whatever their colors: the text
that it has in a theme without colors. -/
theorem uncolored_render (h : ShowsNoEscape s prompt rows now) (hblank : HasNoColors blank) (theme theme' : Theme)
    (clock : Clock) :
    uncolored (render { s with theme } prompt rows now clock) =
        uncolored (render { s with theme := theme' } prompt rows now clock) ∧
      uncolored (render { s with theme } prompt rows now clock) =
        render { s with theme := blank } prompt rows now clock := by
  have hpieces (theme : Theme) : uncolored (render { s with theme } prompt rows now clock) =
      render { s with theme := blank } prompt rows now clock :=
    uncolored_paint (hblank.pieces h) theme
  exact ⟨(hpieces theme).trans (hpieces theme').symm, hpieces theme⟩

def deskOfThree : State where
  messages :=
    { threads := [{ messages := [{ id := "a", sender := "Ann <ann@example.com>", subject := "Lunch?", date := some 0 },
        { id := "b", sender := "\"The committee for colors\" <c@example.com>", tags := ["inbox", "unread"] }] },
        { messages := [{ id := "c", sender := "<carol@example.com>", subject := "Re: Lunch?" }] }]
      selected := 1
      marked := [2] }
  history := ({} : History).add "Tag: " "todo"

def tagPrompt : Prompt := ⟨"Tag: ", "", ⟨"input_1"⟩⟩

theorem uncolored_render_prompting :
    let plain : Theme := ⟨"none", "256", "-1", "", "+", "red", "1 ", "0x1", "#fff", "1e1"⟩
    ShowsNoEscape deskOfThree (some tagPrompt) 2 0 ∧ HasNoColors plain ∧
      uncolored (render deskOfThree (some tagPrompt) 2 0) =
        uncolored (render { deskOfThree with theme := { accent := "+009", muted := "x" } } (some tagPrompt) 2 0) ∧
      uncolored (render deskOfThree (some tagPrompt) 2 0) =
        render { deskOfThree with theme := plain } (some tagPrompt) 2 0 ∧
      render deskOfThree (some tagPrompt) 2 0 ≠ render { deskOfThree with theme := plain } (some tagPrompt) 2 0 := by
  intro plain
  have hshown : ShowsNoEscape deskOfThree (some tagPrompt) 2 0 :=
    { name := by decide +kernel, query := by decide +kernel, sender := by decide +kernel, subject := by decide +kernel
      tag := by decide +kernel, status := by decide +kernel
      label := fun p hp => by
        obtain rfl := Option.some.inj hp
        decide +kernel
      draft := fun _ _ => nofun
      hint := fun p hp _ => by
        obtain rfl := Option.some.inj hp
        decide +kernel }
  have hplain : HasNoColors plain := by decide +kernel
  obtain ⟨hthemes, hcolorless⟩ := uncolored_render hshown hplain {} { accent := "+009", muted := "x" } {}
  exact ⟨hshown, hplain, hthemes, hcolorless, by decide +kernel⟩

end Triage.App.Screen
