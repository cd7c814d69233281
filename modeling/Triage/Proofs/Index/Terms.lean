import Triage.Index.Client

/-! Command lines that tag messages. Whatever stands in the ids and in the operations, each request has a command line
of its own, and each id is read back from its search term whole. -/

namespace Triage.Index

def readQuoted : List Char → Option (List Char × List Char)
  | [] => none
  | '"' :: '"' :: cs => (readQuoted cs).map fun (text, rest) => ('"' :: text, rest)
  | '"' :: cs => some ([], cs)
  | c :: cs => (readQuoted cs).map fun (text, rest) => (c :: text, rest)

/-- The id of a search term, and what follows the term. -/
def readTerm : List Char → Option (MessageId × List Char)
  | 'i' :: 'd' :: ':' :: '"' :: cs => (readQuoted cs).map fun (text, rest) => (.ofList text, rest)
  | _ => none

theorem readQuoted_doubleQuotes (cs : List Char) {rest : List Char} (h : rest.head? ≠ some '"') :
    readQuoted (doubleQuotes cs ++ '"' :: rest) = some (cs, rest) := by
  induction cs with
  | nil =>
    change readQuoted ('"' :: rest) = _
    cases rest with
    | nil => rfl
    | cons c rest =>
      have hc : c ≠ '"' := fun hc => h (congrArg some hc)
      simp [readQuoted, hc]
  | cons c cs ih =>
    rw [doubleQuotes, List.flatMap_cons, List.append_assoc]
    change readQuoted (_ ++ (doubleQuotes cs ++ _)) = _
    by_cases hc : c = '"'
    · subst hc
      simp [readQuoted, ih]
    · simp [readQuoted, hc, ih]

theorem readTerm_append (id : MessageId) {rest : List Char} (h : rest.head? ≠ some '"') :
    readTerm ((idTerm id).toList ++ rest) = some (id, rest) := by
  have hterm : (idTerm id).toList = ['i', 'd', ':', '"'] ++ doubleQuotes id.toList ++ ['"'] := String.toList_ofList
  rw [hterm, List.append_assoc, List.append_assoc]
  change (readQuoted (doubleQuotes id.toList ++ '"' :: rest)).map _ = _
  rw [readQuoted_doubleQuotes _ h]
  exact congrArg (fun text => some (text, rest)) String.ofList_toList

theorem readTerm_idTerm (id : MessageId) : readTerm (idTerm id).toList = some (id, []) := by
  have hread : readTerm ((idTerm id).toList ++ []) = some (id, []) := readTerm_append id nofun
  rwa [List.append_nil] at hread

theorem idTerm_injective : Function.Injective idTerm := by
  intro id id' h
  have hread := readTerm_idTerm id
  rw [h, readTerm_idTerm] at hread
  exact (congrArg Prod.fst (Option.some.inj hread)).symm

theorem separator_not_mem_terms (ids : List MessageId) : "--" ∉ ids.map idTerm := by
  intro hmem
  obtain ⟨id, -, hid⟩ := List.mem_map.mp hmem
  have hread := readTerm_idTerm id
  rw [hid] at hread
  cases hread

theorem append_cons_inj_of_not_mem {α : Type} {separator : α} {before before' after after' : List α}
    (h : separator ∉ after) (h' : separator ∉ after') :
    before ++ separator :: after = before' ++ separator :: after' ↔ before = before' ∧ after = after' := by
  constructor
  · intro heq
    rcases List.append_eq_append_iff.mp heq with ⟨middle, rfl, hmiddle⟩ | ⟨middle, rfl, hmiddle⟩
    · cases middle with
      | nil => exact ⟨(List.append_nil _).symm, (List.cons.inj hmiddle).2⟩
      | cons first middle =>
        rw [(List.cons.inj hmiddle).2] at h
        exact (h (List.mem_append_right _ List.mem_cons_self)).elim
    · cases middle with
      | nil => exact ⟨List.append_nil _, (List.cons.inj hmiddle).2.symm⟩
      | cons first middle =>
        rw [(List.cons.inj hmiddle).2] at h'
        exact (h' (List.mem_append_right _ List.mem_cons_self)).elim
  · rintro ⟨rfl, rfl⟩
    rfl

theorem tagArguments_split (ids : List MessageId) (operations before after : List String) :
    ("tag" :: before ++ "--" :: after = tagArguments ids operations ∧ "--" ∉ after) ↔
      before = operations ∧ after = ids.map idTerm := by
  have hterms := separator_not_mem_terms ids
  unfold tagArguments
  rw [List.cons_append, List.cons_append, List.cons.injEq, and_iff_right rfl]
  constructor
  · rintro ⟨heq, hafter⟩
    exact (append_cons_inj_of_not_mem hafter hterms).mp heq
  · rintro ⟨rfl, rfl⟩
    exact ⟨rfl, hterms⟩

theorem Client.tag_congr {c c' : Client} {ids : List MessageId} {operations : List String}
    (hprogram : c.program = c'.program)
    (hrun : c.run (tagArguments ids operations) = c'.run (tagArguments ids operations)) :
    c.tag ids operations = c'.tag ids operations := by
  unfold tag call start
  rw [hprogram, hrun]

/-- A command line has its operations before the last separator and one term for each id after it. Each term is read as
its id and ends with its last character, so that no id closes its term early. Different requests have different command
lines, and a request runs no command but its own. -/
theorem tagArguments_unambiguous (ids : List MessageId) (operations : List String) :
    (∀ before after, ("tag" :: before ++ "--" :: after = tagArguments ids operations ∧ "--" ∉ after) ↔
        before = operations ∧ after = ids.map idTerm) ∧
      (∀ id ∈ ids, readTerm (idTerm id).toList = some (id, [])) ∧
      (∀ id ∈ ids, ∀ rest, rest.head? ≠ some '"' → readTerm ((idTerm id).toList ++ rest) = some (id, rest)) ∧
      (∀ ids' operations', tagArguments ids' operations' = tagArguments ids operations ↔
        ids' = ids ∧ operations' = operations) ∧
      ∀ c c' : Client, c.program = c'.program →
        c.run (tagArguments ids operations) = c'.run (tagArguments ids operations) →
          c.tag ids operations = c'.tag ids operations := by
  refine ⟨tagArguments_split ids operations, fun id _ => readTerm_idTerm id, fun id _ rest => readTerm_append id,
    fun ids' operations' => ⟨fun h => ?_, fun ⟨hids, hoperations⟩ => by rw [hids, hoperations]⟩,
    fun _ _ => Client.tag_congr⟩
  obtain ⟨hoperations, hterms⟩ :=
    (tagArguments_split ids operations operations' (ids'.map idTerm)).mp ⟨h, separator_not_mem_terms ids'⟩
  exact ⟨(List.map_inj_right fun _ _ heq => idTerm_injective heq).mp hterms, hoperations⟩

theorem tagArguments_unambiguous_hostile :
    let ids : List MessageId := ["\" or id:\"b", "--"]
    let counting : Client := { run := fun arguments => .ok { exit := .code arguments.length } }
    let constant : Client := { run := fun _ => .ok { exit := .code 5 } }
    "\" or id:\"b" ∈ ids ∧ (" id:\"--\"".toList).head? ≠ some '"' ∧
      readTerm ((idTerm "\" or id:\"b").toList ++ " id:\"--\"".toList) =
        some ("\" or id:\"b", " id:\"--\"".toList) ∧
      tagArguments ["--"] ["--", "id:\"--\""] ≠ tagArguments ids ["--"] ∧
      counting.program = constant.program ∧
      counting.run (tagArguments ids ["--"]) = constant.run (tagArguments ids ["--"]) ∧
      counting.tag ids ["--"] = constant.tag ids ["--"] := by
  intro ids counting constant
  have hmem : "\" or id:\"b" ∈ ids := by decide
  have hrest : (" id:\"--\"".toList).head? ≠ some '"' := by decide
  obtain ⟨-, -, hread, hinjective, htag⟩ := tagArguments_unambiguous ids ["--"]
  exact ⟨hmem, hrest, hread _ hmem _ hrest, fun h => absurd ((hinjective _ _).mp h).1 (by decide), rfl, rfl,
    htag counting constant rfl rfl⟩

end Triage.Index
