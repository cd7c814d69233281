import Mathlib.Data.List.DropRight
import Mathlib.Data.List.Infix
import Triage.Mail.Flags

/-! Which flags a file name gives. They stand behind its last `2,`, whether or not that is the info suffix `:2,` of its
last component. So they are those of the suffix unless a later `2,` stands in it, and without a suffix none may follow
any `2,` of the path. -/

namespace Triage.Flags

/-- The rest follows the last occurrence of a mark in a text. -/
def FollowsLast (mark text rest : List Char) : Prop :=
  mark ++ rest <:+ text ∧ ∀ other ∈ text.tails, mark <+: other → (mark ++ rest).length ≤ other.length

instance (mark text rest : List Char) : Decidable (FollowsLast mark text rest) := inferInstanceAs (Decidable (_ ∧ _))

variable {mark text rest : List Char}

theorem FollowsLast.isInfix (h : FollowsLast mark text rest) : mark <:+: text :=
  List.IsInfix.trans (List.prefix_append mark rest).isInfix h.1.isInfix

theorem FollowsLast.unique {rest' : List Char} (h : FollowsLast mark text rest) (h' : FollowsLast mark text rest') :
    rest = rest' := by
  have hle := h.2 _ ((List.mem_tails _ _).mpr h'.1) (List.prefix_append mark rest')
  have hge := h'.2 _ ((List.mem_tails _ _).mpr h.1) (List.prefix_append mark rest)
  have hsuffix : mark ++ rest <:+ mark ++ rest' := List.suffix_of_suffix_length_le h.1 h'.1 hle
  exact List.append_cancel_left (hsuffix.eq_of_length_le hge)

theorem FollowsLast.exists_iff {p : List Char → Prop} (h : FollowsLast mark text rest) :
    (∃ rest', FollowsLast mark text rest' ∧ p rest') ↔ p rest :=
  ⟨fun ⟨_, hlast, hp⟩ => h.unique hlast ▸ hp, fun hp => ⟨rest, h, hp⟩⟩

theorem FollowsLast.forall_iff {p : List Char → Prop} (h : FollowsLast mark text rest) :
    (∀ rest', FollowsLast mark text rest' → p rest') ↔ p rest :=
  ⟨fun hp => hp rest h, fun hp _ hlast => h.unique hlast ▸ hp⟩

theorem followsLast_cons {c : Char} :
    FollowsLast mark (c :: text) rest ↔ FollowsLast mark text rest ∨ ¬ mark <:+: text ∧ mark ++ rest = c :: text := by
  constructor
  · rintro ⟨hsuffix, hlast⟩
    rcases List.suffix_cons_iff.mp hsuffix with heq | hsuffix
    · refine .inr ⟨fun hinfix => ?_, heq⟩
      obtain ⟨other, hmarked, hother⟩ := List.infix_iff_prefix_suffix.mp hinfix
      have hle := hlast other ((List.mem_tails _ _).mpr (hother.trans (List.suffix_cons c text))) hmarked
      rw [heq] at hle
      exact absurd (hle.trans hother.length_le) (Nat.not_succ_le_self _)
    · refine .inl ⟨hsuffix, fun other hother => hlast other ?_⟩
      exact (List.mem_tails _ _).mpr (((List.mem_tails _ _).mp hother).trans (List.suffix_cons c text))
  · rintro (⟨hsuffix, hlast⟩ | ⟨hno, heq⟩)
    · refine ⟨hsuffix.trans (List.suffix_cons c text), fun other hother hmarked => ?_⟩
      rcases List.suffix_cons_iff.mp ((List.mem_tails _ _).mp hother) with rfl | hother
      · exact hsuffix.length_le.trans (Nat.le_succ _)
      · exact hlast other ((List.mem_tails _ _).mpr hother) hmarked
    · refine ⟨heq ▸ List.suffix_rfl, fun other hother hmarked => ?_⟩
      rcases List.suffix_cons_iff.mp ((List.mem_tails _ _).mp hother) with rfl | hother
      · exact Nat.le_of_eq (congrArg List.length heq)
      · exact absurd (hmarked.isInfix.trans hother.isInfix) hno

theorem exists_followsLast (h : mark <:+: text) : ∃ rest, FollowsLast mark text rest := by
  induction text with
  | nil =>
    obtain rfl := List.infix_nil.mp h
    exact ⟨[], by decide⟩
  | cons c text ih =>
    by_cases hlater : mark <:+: text
    · obtain ⟨rest, hrest⟩ := ih hlater
      exact ⟨rest, followsLast_cons.mpr (.inl hrest)⟩
    · obtain ⟨rest, hrest⟩ := (List.infix_cons_iff.mp h).resolve_right hlater
      exact ⟨rest, followsLast_cons.mpr (.inr ⟨hlater, hrest⟩)⟩

theorem followsLast_of_suffix {part : List Char} (hpart : part <:+ text) (hmark : mark <:+: part) :
    FollowsLast mark text rest ↔ FollowsLast mark part rest := by
  have hkeep {rest : List Char} (h : FollowsLast mark part rest) : FollowsLast mark text rest := by
    refine ⟨h.1.trans hpart, fun other hother hmarked => ?_⟩
    rcases List.suffix_or_suffix_of_suffix ((List.mem_tails _ _).mp hother) hpart with hinside | hbeyond
    · exact h.2 other ((List.mem_tails _ _).mpr hinside) hmarked
    · exact h.1.length_le.trans hbeyond.length_le
  obtain ⟨rest', hrest'⟩ := exists_followsLast hmark
  exact ⟨fun h => h.unique (hkeep hrest') ▸ hrest', hkeep⟩

theorem infoOf_cons_of_some {c : Char} {cs info : List Char} (h : infoOf cs = some info) :
    infoOf (c :: cs) = some info := by
  simp only [infoOf, h]

theorem infoOf_cons_of_none {c : Char} {cs info : List Char} (h : infoOf cs = none) :
    infoOf (c :: cs) = some info ↔ ['2', ','] ++ info = c :: cs := by
  simp only [infoOf, h]
  split
  · next hc =>
    subst hc
    split
    · next later => simp [eq_comm]
    · next hother => exact ⟨nofun, fun heq => (hother info (List.cons.inj heq).2.symm).elim⟩
  · next hc => exact ⟨nofun, fun heq => (hc (List.cons.inj heq).1.symm).elim⟩

theorem infoOf_eq_some_iff {cs info : List Char} : infoOf cs = some info ↔ FollowsLast ['2', ','] cs info := by
  induction cs generalizing info with
  | nil => simp [infoOf, FollowsLast]
  | cons c cs ih =>
    rw [followsLast_cons]
    cases hcs : infoOf cs with
    | some later =>
      rw [infoOf_cons_of_some hcs, ← hcs, ih]
      exact (or_iff_left fun h => h.1 (ih.mp hcs).isInfix).symm
    | none =>
      have hno : ¬ ['2', ','] <:+: cs := fun hinfix => by
        obtain ⟨rest, hrest⟩ := exists_followsLast hinfix
        rw [ih.mpr hrest] at hcs
        cases hcs
      rw [infoOf_cons_of_none hcs, ← ih, hcs]
      simp [hno]

theorem followsLast_mark {info tail : List Char} :
    FollowsLast ['2', ','] (['2', ','] ++ info) tail ↔
      FollowsLast ['2', ','] info tail ∨ ¬ ['2', ','] <:+: info ∧ tail = info := by
  simp [followsLast_cons, List.infix_cons_iff]

def flagLetters : List Char := ['D', 'F', 'P', 'R', 'S', 'T']

def Counts (info : List Char) (letter : Char) : Prop :=
  ∃ earlier later, info = earlier ++ letter :: later ∧ 'Z' ∉ earlier

theorem counts_cons {c letter : Char} {info : List Char} :
    Counts (c :: info) letter ↔ c = letter ∨ c ≠ 'Z' ∧ Counts info letter := by
  constructor
  · rintro ⟨earlier, later, hsplit, hearlier⟩
    cases earlier with
    | nil => exact .inl (List.cons.inj hsplit).1
    | cons first earlier =>
      obtain ⟨rfl, rfl⟩ := List.cons.inj hsplit
      obtain ⟨hfirst, hearlier⟩ := List.ne_and_not_mem_of_not_mem_cons hearlier
      exact .inr ⟨hfirst.symm, earlier, later, rfl, hearlier⟩
  · rintro (rfl | ⟨hc, earlier, later, rfl, hearlier⟩)
    · exact ⟨[], info, rfl, List.not_mem_nil⟩
    · exact ⟨c :: earlier, later, rfl, List.not_mem_cons_of_ne_of_not_mem hc.symm hearlier⟩

theorem counts_iff {info : List Char} {letter : Char} (h : letter ≠ 'Z') :
    Counts info letter ↔ letter ∈ info.takeWhile (· != 'Z') := by
  induction info with
  | nil => simp [Counts]
  | cons c info ih =>
    rw [counts_cons, ih]
    by_cases hc : c = 'Z'
    · subst hc
      simp [h.symm]
    · rw [List.takeWhile_cons_of_pos (by simpa using hc), List.mem_cons, and_iff_right hc, eq_comm]

theorem letters_ofInfo (info : List Char) :
    (ofInfo info).letters.toList = flagLetters.filter (info.takeWhile (· != 'Z')).contains := by
  have hpairs : [((ofInfo info).draft, 'D'), ((ofInfo info).flagged, 'F'), ((ofInfo info).passed, 'P'),
      ((ofInfo info).replied, 'R'), ((ofInfo info).seen, 'S'), ((ofInfo info).trashed, 'T')] =
      flagLetters.map fun letter => ((info.takeWhile (· != 'Z')).contains letter, letter) := rfl
  rw [letters, String.toList_ofList, hpairs, List.filterMap_map, ← List.filterMap_eq_filter]
  refine List.filterMap_congr fun letter _ => ?_
  simp [Option.guard]

theorem mem_letters_ofInfo {info : List Char} {letter : Char} :
    letter ∈ (ofInfo info).letters.toList ↔ letter ∈ flagLetters ∧ Counts info letter := by
  rw [letters_ofInfo, List.mem_filter, List.contains_iff_mem]
  refine and_congr_right fun hletter => (counts_iff ?_).symm
  rintro rfl
  exact absurd hletter (by decide)

theorem mem_letters_ofFilename {path : String} {letter : Char} :
    letter ∈ (ofFilename path).letters.toList ↔
      letter ∈ flagLetters ∧ ∃ info, FollowsLast ['2', ','] path.toList info ∧ Counts info letter := by
  unfold ofFilename
  cases hinfo : infoOf path.toList with
  | none =>
    refine ⟨nofun, fun ⟨_, info, hlast, _⟩ => ?_⟩
    rw [infoOf_eq_some_iff.mpr hlast] at hinfo
    cases hinfo
  | some info =>
    rw [mem_letters_ofInfo, (infoOf_eq_some_iff.mp hinfo).exists_iff]

def lastComponent (path : List Char) : List Char := path.rtakeWhile (· != '/')

/-- The info follows the last `:2,` of the last component. -/
def InfoSuffix (path : String) (info : List Char) : Prop :=
  FollowsLast [':', '2', ','] (lastComponent path.toList) info

def MeetsSuffix (path : String) : Prop :=
  ∀ letter, letter ∈ (ofFilename path).letters.toList ↔
    letter ∈ flagLetters ∧ ∃ info, InfoSuffix path info ∧ Counts info letter

variable {path : String}

theorem suffix_of_infoSuffix {info : List Char} (h : InfoSuffix path info) : ['2', ','] ++ info <:+ path.toList :=
  (List.suffix_cons ':' _).trans (h.1.trans (List.rtakeWhile_suffix _ _))

theorem isInfix_of_infoSuffix {info : List Char} (h : InfoSuffix path info) : ['2', ','] <:+: path.toList :=
  (List.prefix_append _ _).isInfix.trans (suffix_of_infoSuffix h).isInfix

theorem followsLast_of_infoSuffix {info tail : List Char} (h : InfoSuffix path info) :
    FollowsLast ['2', ','] path.toList tail ↔
      FollowsLast ['2', ','] info tail ∨ ¬ ['2', ','] <:+: info ∧ tail = info := by
  rw [followsLast_of_suffix (suffix_of_infoSuffix h) (List.prefix_append _ _).isInfix, followsLast_mark]

theorem meetsSuffix_iff {tail : List Char} (h : FollowsLast ['2', ','] path.toList tail) :
    MeetsSuffix path ↔
      ∀ letter ∈ flagLetters, (Counts tail letter ↔ ∃ info, InfoSuffix path info ∧ Counts info letter) := by
  unfold MeetsSuffix
  simp only [mem_letters_ofFilename, h.exists_iff, and_congr_right_iff]

theorem meetsSuffix_of_no_mark (h : ¬ ['2', ','] <:+: path.toList) : MeetsSuffix path := by
  intro letter
  rw [mem_letters_ofFilename]
  refine and_congr_right fun _ => ⟨fun ⟨_, hlast, _⟩ => (h hlast.isInfix).elim, fun ⟨info, hinfo, _⟩ => ?_⟩
  exact (h (isInfix_of_infoSuffix hinfo)).elim

theorem meetsSuffix_iff_of_infoSuffix {info : List Char} (hinfo : InfoSuffix path info) :
    MeetsSuffix path ↔
      ∀ tail, FollowsLast ['2', ','] info tail → ∀ letter ∈ flagLetters,
        (Counts tail letter ↔ Counts info letter) := by
  have hpromised (letter : Char) : (∃ info, InfoSuffix path info ∧ Counts info letter) ↔ Counts info letter :=
    FollowsLast.exists_iff hinfo
  by_cases hmark : ['2', ','] <:+: info
  · obtain ⟨tail, htail⟩ := exists_followsLast hmark
    rw [meetsSuffix_iff ((followsLast_of_infoSuffix hinfo).mpr (.inl htail)), htail.forall_iff]
    simp only [hpromised]
  · rw [meetsSuffix_iff ((followsLast_of_infoSuffix hinfo).mpr (.inr ⟨hmark, rfl⟩))]
    simp only [hpromised]
    exact ⟨fun _ tail htail => (hmark htail.isInfix).elim, fun _ _ _ => trivial⟩

theorem meetsSuffix_iff_of_no_infoSuffix (hno : ¬ [':', '2', ','] <:+: lastComponent path.toList) :
    MeetsSuffix path ↔
      ∀ tail, FollowsLast ['2', ','] path.toList tail → ∀ letter ∈ flagLetters, ¬ Counts tail letter := by
  have hnone (info : List Char) : ¬ InfoSuffix path info := fun hinfo => hno hinfo.isInfix
  by_cases hmark : ['2', ','] <:+: path.toList
  · obtain ⟨tail, htail⟩ := exists_followsLast hmark
    rw [meetsSuffix_iff htail, htail.forall_iff]
    simp only [hnone, false_and, exists_false, iff_false]
  · exact ⟨fun _ tail htail => (hmark htail.isInfix).elim, fun _ => meetsSuffix_of_no_mark hmark⟩

/-- The flags are those whose letters follow the last `2,` of the whole path, up to a `Z`. With an info suffix they are
its flags if and only if a later `2,` in it does not matter, and without one if and only if no flag follows any `2,`.
-/
theorem ofFilename_meetsSuffix_iff (path : String) :
    (∀ letter, letter ∈ (ofFilename path).letters.toList ↔
        letter ∈ flagLetters ∧ ∃ info, FollowsLast ['2', ','] path.toList info ∧ Counts info letter) ∧
      (∀ info, InfoSuffix path info → (MeetsSuffix path ↔
        ∀ tail, FollowsLast ['2', ','] info tail → ∀ letter ∈ flagLetters,
          (Counts tail letter ↔ Counts info letter))) ∧
      (¬ [':', '2', ','] <:+: lastComponent path.toList → (MeetsSuffix path ↔
        ∀ tail, FollowsLast ['2', ','] path.toList tail → ∀ letter ∈ flagLetters, ¬ Counts tail letter)) :=
  ⟨fun _ => mem_letters_ofFilename, fun _ => meetsSuffix_iff_of_infoSuffix, meetsSuffix_iff_of_no_infoSuffix⟩

theorem ofFilename_meetsSuffix_iff_sized :
    InfoSuffix "/mail/cur/1.host2,S=4541:2,FR" ['F', 'R'] ∧ MeetsSuffix "/mail/cur/1.host2,S=4541:2,FR" ∧
      ¬ [':', '2', ','] <:+: lastComponent "/mail/2,S/new/1.host".toList ∧ ¬ MeetsSuffix "/mail/2,S/new/1.host" := by
  have hinfo : InfoSuffix "/mail/cur/1.host2,S=4541:2,FR" ['F', 'R'] := by
    unfold InfoSuffix
    decide
  have hclean : ¬ ['2', ','] <:+: ['F', 'R'] := by decide
  have hno : ¬ [':', '2', ','] <:+: lastComponent "/mail/2,S/new/1.host".toList := by decide
  have hlast : FollowsLast ['2', ','] "/mail/2,S/new/1.host".toList "S/new/1.host".toList := by decide
  obtain ⟨-, hsuffix, -⟩ := ofFilename_meetsSuffix_iff "/mail/cur/1.host2,S=4541:2,FR"
  obtain ⟨-, -, hbare⟩ := ofFilename_meetsSuffix_iff "/mail/2,S/new/1.host"
  refine ⟨hinfo, (hsuffix _ hinfo).mpr fun tail htail => (hclean htail.isInfix).elim, hno, fun hmeets => ?_⟩
  exact (hbare hno).mp hmeets _ hlast 'S' (by decide) ⟨[], "/new/1.host".toList, by decide, List.not_mem_nil⟩

/-- A message that nobody has read yet has the size field of its file name taken for the flag of a read one. -/
theorem sized_not_meetsSuffix : ¬ MeetsSuffix "/mail/new/1700000000.123_4.host2,S=4541" := by
  have hno : ¬ [':', '2', ','] <:+: lastComponent "/mail/new/1700000000.123_4.host2,S=4541".toList := by decide
  intro hmeets
  obtain ⟨-, info, hinfo, -⟩ := (hmeets 'S').mp (by decide)
  exact hno hinfo.isInfix

end Triage.Flags
