import Triage.Proofs.Assembly
import Triage.Proofs.Index.Documents

/-! How deep replies may be nested. A document may have 127 containers open where it is read, and each level of replies
takes two of them. -/

namespace Triage.Index

open Json

theorem mapM_forestWithin_ok {levels : Nat} {forests : List Forest}
    (h : ∀ forest ∈ forests, forestHeight forest ≤ levels) : forests.mapM (forestWithin levels) = .ok forests := by
  induction forests with
  | nil => rfl
  | cons forest rest ih =>
    rw [List.mapM_cons, ih fun f hf => h f (List.mem_cons_of_mem _ hf), forestWithin,
      if_pos (h forest List.mem_cons_self)]
    rfl

theorem mapM_forestWithin_error {levels : Nat} {forests : List Forest} {forest : Forest} (hmem : forest ∈ forests)
    (h : levels < forestHeight forest) : forests.mapM (forestWithin levels) = .error .syntaxFault := by
  induction forests with
  | nil => exact absurd hmem List.not_mem_nil
  | cons first rest ih =>
    rw [List.mapM_cons]
    by_cases hfirst : forestHeight first ≤ levels
    · have hrest : forest ∈ rest := by
        rcases List.mem_cons.mp hmem with rfl | hrest
        · omega
        · exact hrest
      rw [forestWithin, if_pos hfirst, ih hrest]
      rfl
    · rw [forestWithin, if_neg hfirst]
      rfl

theorem readThreads_documents {summaries : List Summary} {forests : List Forest} {found shown : Bytes}
    (hfound : IsFound summaries found) (hshown : IsShown forests shown) :
    readThreads found shown =
      match forests.mapM (forestWithin 62) with
      | .ok forests => assemble summaries forests
      | .error fault => .error (.json fault) := by
  unfold readThreads
  rw [readSummaries_found hfound, readForests_shown hshown]
  cases forests.mapM (forestWithin 62) <;> rfl

/-- A search result is read with every message in it as long as no reply tree has more than 62 levels. One deeper tree,
and the whole result is refused. -/
theorem readThreads_levels {summaries : List Summary} {forests : List Forest} {found shown : Bytes}
    (hfound : IsFound summaries found) (hshown : IsShown forests shown) (hlength : summaries.length = forests.length) :
    ((∀ forest ∈ forests, forestHeight forest ≤ 62) →
      ∃ threads, readThreads found shown = .ok threads ∧ threads.length = forests.length ∧
        ∀ (i : Nat) forest, forests[i]? = some forest →
          ∃ t places, threads[i]? = some t ∧ Listed t.id (.node none forest) places t.messages) ∧
    ∀ forest ∈ forests, 62 < forestHeight forest → readThreads found shown = .error (.json .syntaxFault) := by
  have hread := readThreads_documents hfound hshown
  constructor
  · intro hlevels
    rw [mapM_forestWithin_ok hlevels] at hread
    refine ⟨List.zipWith threadOf summaries forests, hread.trans (if_pos hlength), ?_, ?_⟩
    · rw [List.length_zipWith, hlength, Nat.min_self]
    · intro i forest hforest
      have hi : i < summaries.length := hlength ▸ (List.getElem?_eq_some_iff.mp hforest).1
      obtain ⟨places, hlisted⟩ := exists_listed_forest summaries[i].thread forest
      exact ⟨threadOf summaries[i] forest, places,
        List.getElem?_zipWith_eq_some.mpr ⟨_, forest, List.getElem?_eq_getElem hi, hforest, rfl⟩, hlisted⟩
  · intro forest hforest hdeep
    rw [hread, mapM_forestWithin_error hforest hdeep]

def isPlain (c : Char) : Bool := c != '"' && c != '\\' && 0x20 ≤ c.toNat

def quoted (s : String) : Bytes := 0x22 :: (s.toList.flatMap String.utf8EncodeChar ++ [0x22])

theorem isText_quoted {s : String} (h : s.toList.all isPlain = true) : IsText s (quoted s) := by
  have hspells : ∀ cs : List Char, cs.all isPlain = true → Spells cs (cs.flatMap String.utf8EncodeChar) := by
    intro cs hcs
    induction cs with
    | nil => exact .nil
    | cons c cs ih =>
      rw [List.all_cons, Bool.and_eq_true] at hcs
      obtain ⟨⟨hquote, hback⟩, hmin⟩ : (c ≠ '"' ∧ c ≠ '\\') ∧ 0x20 ≤ c.toNat := by simpa [isPlain] using hcs.1
      exact .plain hquote hback hmin (ih hcs.2)
  exact .mk (hspells s.toList h)

def joinedBytes (close : UInt8) (gap : Bytes) : Bool → List Bytes → Bytes
  | _, [] => gap ++ [close]
  | true, item :: rest => gap ++ (item ++ joinedBytes close gap false rest)
  | false, item :: rest => gap ++ 0x2C :: (gap ++ (item ++ joinedBytes close gap false rest))

def objectBytes (gap : Bytes) (members : List (String × Bytes)) : Bytes :=
  0x7B :: joinedBytes 0x7D gap true (members.map fun m => NamedText.bytes ⟨quoted m.1, gap, gap, m.2⟩)

def listBytes (gap : Bytes) (items : List Bytes) : Bytes := 0x5B :: joinedBytes 0x5D gap true items

theorem joined_joinedBytes {gap : Bytes} (hgap : Blanks gap) (close : UInt8) (isFirst : Bool) (items : List Bytes) :
    Joined close isFirst items (joinedBytes close gap isFirst items) := by
  induction items generalizing isFirst with
  | nil => exact .done hgap
  | cons item rest ih =>
    cases isFirst with
    | false => exact .next hgap hgap (ih false)
    | true => exact .first hgap (ih false)

theorem isList_listBytes {α : Type} {IsItem : α → Bytes → Prop} {gap : Bytes} (hgap : Blanks gap) {as : List α}
    {items : List Bytes} (h : List.Forall₂ IsItem as items) : IsList IsItem as (listBytes gap items) :=
  .mk (joined_joinedBytes hgap 0x5D true items) h

theorem isRecord_objectBytes {fields : List Field} {gap : Bytes} (hgap : Blanks gap) {members : List (String × Bytes)}
    (hplain : members.all (fun m => m.1.toList.all isPlain) = true)
    (hknown : ∀ m ∈ members, ∀ f ∈ fields, f.name = m.1 → f.IsValue m.2)
    (hunknown : ∀ m ∈ members, (∀ f ∈ fields, f.name ≠ m.1) → IsValue m.2)
    (honce : ∀ f ∈ fields, (members.map (·.1)).count f.name ≤ 1)
    (hgiven : ∀ f ∈ fields, f.MayBeOmitted ∨ f.name ∈ members.map (·.1)) :
    IsRecord fields (objectBytes gap members) := by
  let written : List (String × NamedText) := members.map fun m => (m.1, ⟨quoted m.1, gap, gap, m.2⟩)
  have hnames : written.map (·.1) = members.map (·.1) := by simp [written]
  have hlayout : Joined 0x7D true (written.map (·.2.bytes)) (joinedBytes 0x7D gap true _) :=
    joined_joinedBytes hgap 0x7D true _
  have hwritten : written.map (·.2.bytes) = members.map fun m => NamedText.bytes ⟨quoted m.1, gap, gap, m.2⟩ := by
    simp [written]
  rw [objectBytes, ← hwritten]
  rw [← hnames] at hgiven
  refine .mk hlayout ?_ ?_ ?_ ?_ (by rwa [hnames]) hgiven
  · exact List.forall_mem_map.mpr fun m _ => ⟨hgap, hgap⟩
  · exact List.forall_mem_map.mpr fun m hm => isText_quoted (List.all_eq_true.mp hplain m hm)
  · exact List.forall_mem_map.mpr hknown
  · exact List.forall_mem_map.mpr hunknown

theorem joined_nil (close : UInt8) : Joined close true [] [close] := joined_joinedBytes blanks_nil close true []

theorem joined_one (close : UInt8) (item : Bytes) : Joined close true [item] (item ++ [close]) :=
  joined_joinedBytes blanks_nil close true [item]

theorem joined_two (close : UInt8) (first second : Bytes) :
    Joined close true [first, second] ((first ++ 0x2C :: second) ++ [close]) := by
  have hjoined := joined_joinedBytes blanks_nil close true [first, second]
  simpa [joinedBytes] using hjoined

def singleBytes (name value : String) : Bytes := 0x7B :: (quoted name ++ 0x3A :: quoted value ++ [0x7D])

theorem isRecord_single {fields : List Field} {name value : String} (hname : name.toList.all isPlain = true)
    (hknown : ∃ f ∈ fields, f.name = name) (hvalue : ∀ f ∈ fields, f.name = name → f.IsValue (quoted value))
    (hgiven : ∀ f ∈ fields, f.MayBeOmitted ∨ f.name = name) : IsRecord fields (singleBytes name value) := by
  change IsRecord fields (objectBytes [] [(name, quoted value)])
  have hplain : [(name, quoted value)].all (fun m => m.1.toList.all isPlain) = true := by
    rw [List.all_cons, hname, List.all_nil, Bool.and_true]
  refine isRecord_objectBytes blanks_nil hplain ?_ ?_ ?_ ?_
  all_goals simp only [List.map_cons, List.map_nil, List.mem_singleton, forall_eq]
  · exact hvalue
  · intro hnone
    obtain ⟨f, hf, hfname⟩ := hknown
    exact absurd hfname (hnone f hf)
  · intro f _
    rw [List.count_singleton]
    split <;> decide
  · exact hgiven

def bracketed (items : Bytes) : Bytes := 0x5B :: (items ++ [0x5D])

theorem isList_one {α : Type} {IsItem : α → Bytes → Prop} {a : α} {item : Bytes} (h : IsItem a item) :
    IsList IsItem [a] (bracketed item) := .mk (joined_one 0x5D item) (.cons h .nil)

theorem isDocument_self {α : Type} {IsValue : α → Bytes → Prop} {a : α} {bytes : Bytes} (h : IsValue a bytes) :
    IsDocument IsValue a bytes := by
  have hdocument : IsDocument IsValue a ([] ++ (bytes ++ [])) := .mk blanks_nil h blanks_nil
  simpa using hdocument

def chain : Nat → Node
  | 0 => .node (some { id := "m" }) []
  | levels + 1 => .node (some { id := "m" }) [chain levels]

def chainBytes : Nat → Bytes
  | 0 => bracketed (singleBytes "id" "m" ++ 0x2C :: bracketed [])
  | levels + 1 => bracketed (singleBytes "id" "m" ++ 0x2C :: bracketed (chainBytes levels))

def chainFound : Bytes := bracketed (singleBytes "thread" "t")

def chainShown (levels : Nat) : Bytes := bracketed (bracketed (chainBytes levels))

theorem forestHeight_chain (levels : Nat) : forestHeight [chain levels] = levels + 1 := by
  induction levels with
  | zero => rfl
  | succ levels ih =>
    rw [forestHeight, chain, Node.height, ih]
    rfl

theorem isNode_chain (levels : Nat) : IsNode (chain levels) (chainBytes levels) := by
  have hm : IsText "m" (quoted "m") := isText_quoted rfl
  have hmessage : IsOptional (fun s => IsRecord s.fields) (some ({ id := "m" } : Shown)) (singleBytes "id" "m") :=
    .some (isRecord_single rfl (by simp [Shown.fields]) (by simp [Shown.fields, hm])
      (by simp [Shown.fields]))
  induction levels with
  | zero => exact .mk (joined_two 0x5D _ _) hmessage (joined_nil 0x5D) .nil
  | succ levels ih => exact .mk (joined_two 0x5D _ _) hmessage (joined_one 0x5D _) (.cons ih .nil)

theorem isFound_chain : IsFound [{ thread := "t" }] chainFound := by
  have ht : IsText "t" (quoted "t") := isText_quoted rfl
  exact isDocument_self (isList_one (isRecord_single rfl (by simp [Summary.fields])
    (by simp [Summary.fields, ht]) (by simp [Summary.fields])))

theorem isShown_chain (levels : Nat) : IsShown [[chain levels]] (chainShown levels) :=
  isDocument_self (isList_one (isList_one (isNode_chain levels)))

theorem readThreads_levels_chain :
    ∃ t places, readThreads chainFound (chainShown 61) = .ok [t] ∧
      Listed t.id (.node none [chain 61]) places t.messages := by
  have hlevels : ∀ forest ∈ [[chain 61]], forestHeight forest ≤ 62 := by
    simp [forestHeight_chain]
  obtain ⟨threads, hread, hlength, hall⟩ := (readThreads_levels isFound_chain (isShown_chain 61) rfl).1 hlevels
  obtain ⟨t, places, ht, hlisted⟩ := hall 0 [chain 61] rfl
  obtain ⟨t', rfl⟩ := List.length_eq_one_iff.mp hlength
  obtain rfl := Option.some.inj ht
  exact ⟨t', places, hread, hlisted⟩

/-- One more reply, and the search fails. -/
theorem chain_refused :
    IsFound [{ thread := "t" }] chainFound ∧ IsShown [[chain 62]] (chainShown 62) ∧
      readThreads chainFound (chainShown 62) = .error (.json .syntaxFault) := by
  refine ⟨isFound_chain, isShown_chain 62, ?_⟩
  have hdeep : 62 < forestHeight [chain 62] := by
    rw [forestHeight_chain]
    decide
  rw [readThreads_documents isFound_chain (isShown_chain 62),
    mapM_forestWithin_error (List.mem_singleton.mpr rfl) hdeep]

end Triage.Index
