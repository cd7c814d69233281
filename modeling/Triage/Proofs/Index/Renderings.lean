import Triage.Proofs.Index.Depth

/-! Search results in two writings. Whatever they add, leave out or put in another order, as long as they say the same
of the members that are known, the same threads are read from both. -/

namespace Triage.Index

open Json

structure Shown.Alike (s s' : Shown) : Prop where
  id : s.id = s'.id
  filename : s.filename.first = s'.filename.first
  timestamp : s.timestamp = s'.timestamp
  tags : s.tags = s'.tags
  headers : s.headers = s'.headers

inductive Node.Alike : Node → Node → Prop where
  | mk {message message' : Option Shown} {replies replies' : List Node} : Option.Rel Shown.Alike message message' →
      List.Forall₂ Node.Alike replies replies' → Node.Alike (.node message replies) (.node message' replies')

theorem Shown.Alike.messageOf_eq {s s' : Shown} (h : s.Alike s') (threadId : String) :
    messageOf threadId s = messageOf threadId s' := by
  unfold messageOf
  rw [h.id, h.filename, h.timestamp, h.tags, h.headers]

mutual

theorem Node.Alike.messages_eq (n : Node) {n' : Node} (h : n.Alike n') (threadId : String) :
    n.messages threadId = n'.messages threadId := by
  cases n with
  | node message replies =>
    cases h with
    | mk hmessage hreplies =>
      rw [Node.messages, Node.messages, forestMessages_eq_of_alike replies hreplies]
      cases hmessage with
      | none => rfl
      | some hshown => rw [Option.map_some, Option.map_some, hshown.messageOf_eq]

theorem forestMessages_eq_of_alike (forest : Forest) {forest' : Forest} (h : List.Forall₂ Node.Alike forest forest')
    (threadId : String) : forestMessages threadId forest = forestMessages threadId forest' := by
  cases forest with
  | nil =>
    cases h
    rfl
  | cons n rest =>
    cases h with
    | cons hn hrest =>
      rw [forestMessages, forestMessages, hn.messages_eq n, forestMessages_eq_of_alike rest hrest]

end

mutual

theorem Node.Alike.height_eq (n : Node) {n' : Node} (h : n.Alike n') : n.height = n'.height := by
  cases n with
  | node message replies =>
    cases h with
    | mk _ hreplies => rw [Node.height, Node.height, forestHeight_eq_of_alike replies hreplies]

theorem forestHeight_eq_of_alike (forest : Forest) {forest' : Forest} (h : List.Forall₂ Node.Alike forest forest') :
    forestHeight forest = forestHeight forest' := by
  cases forest with
  | nil =>
    cases h
    rfl
  | cons n rest =>
    cases h with
    | cons hn hrest => rw [forestHeight, forestHeight, hn.height_eq n, forestHeight_eq_of_alike rest hrest]

end

theorem threadOf_eq_of_alike (summary : Summary) {forest forest' : Forest}
    (h : List.Forall₂ Node.Alike forest forest') : threadOf summary forest = threadOf summary forest' := by
  unfold threadOf
  rw [forestMessages_eq_of_alike forest h]

/-- Two documents that render a search result, a summary and a reply tree for each thread. They are free to choose the
order of members, members that are not known, which defaults they write, blanks, and whether a file stands in a list.
-/
structure IsRendering (result : List (Summary × Forest)) (found shown : Bytes) : Prop where
  found : IsFound (result.map (·.1)) found
  shown : ∃ forests, List.Forall₂ (List.Forall₂ Node.Alike) (result.map (·.2)) forests ∧ IsShown forests shown

/-- Each level of a tree takes two containers inside the two lists around all trees, and a message of the last level
has room for itself and one list more where the replies would be. -/
def FitsLimit (forest : Forest) : Prop := 2 + 2 * forestHeight forest + 1 ≤ depthLimit

instance (forest : Forest) : Decidable (FitsLimit forest) := inferInstanceAs (Decidable (_ ≤ _))

theorem fitsLimit_iff (forest : Forest) : FitsLimit forest ↔ forestHeight forest ≤ 62 := by
  unfold FitsLimit depthLimit
  omega

section

variable {result : List (Summary × Forest)} {forests : List Forest}
  (h : List.Forall₂ (List.Forall₂ Node.Alike) (result.map (·.2)) forests)

include h

theorem zipWith_threadOf_of_alike :
    List.zipWith threadOf (result.map (·.1)) forests = result.map fun t => threadOf t.1 t.2 := by
  induction result generalizing forests with
  | nil => rfl
  | cons t rest ih =>
    cases h with
    | cons hforest hrest =>
      rw [List.map_cons, List.zipWith_cons_cons, List.map_cons, ih hrest, threadOf_eq_of_alike t.1 hforest]

theorem assemble_of_alike : assemble (result.map (·.1)) forests = .ok (result.map fun t => threadOf t.1 t.2) := by
  have hlength : (result.map (·.1)).length = forests.length := by
    rw [← h.length_eq, List.length_map, List.length_map]
  rw [assemble, if_pos hlength, zipWith_threadOf_of_alike h]

theorem map_forestHeight_of_alike : forests.map forestHeight = result.map fun t => forestHeight t.2 := by
  have hheights : List.Forall₂ (· = ·) ((result.map (·.2)).map forestHeight) (forests.map forestHeight) :=
    List.forall₂_map_left_iff.mpr
      (List.forall₂_map_right_iff.mpr (h.imp fun forest _ => forestHeight_eq_of_alike forest))
  rw [List.forall₂_eq_eq_eq, List.map_map] at hheights
  exact hheights.symm

end

theorem readThreads_rendering {result : List (Summary × Forest)} {found shown : Bytes}
    (h : IsRendering result found shown) :
    readThreads found shown = if ∀ t ∈ result, FitsLimit t.2 then .ok (result.map fun t => threadOf t.1 t.2)
      else .error (.json .syntaxFault) := by
  obtain ⟨hfound, forests, halike, hshown⟩ := h
  have hheights := map_forestHeight_of_alike halike
  rw [readThreads_documents hfound hshown]
  split_ifs with hfits
  · have hlevels : ∀ forest ∈ forests, forestHeight forest ≤ 62 := by
      intro forest hforest
      have hheight := List.mem_map_of_mem (f := forestHeight) hforest
      rw [hheights] at hheight
      obtain ⟨t, ht, hheight⟩ := List.mem_map.mp hheight
      exact hheight ▸ (fitsLimit_iff t.2).mp (hfits t ht)
    rw [mapM_forestWithin_ok hlevels]
    exact assemble_of_alike halike
  · obtain ⟨t, ht, hdeep⟩ : ∃ t ∈ result, ¬ FitsLimit t.2 := by
      simpa using hfits
    have hheight : forestHeight t.2 ∈ forests.map forestHeight := by
      rw [hheights]
      exact List.mem_map_of_mem ht
    obtain ⟨forest, hforest, heq⟩ := List.mem_map.mp hheight
    rw [fitsLimit_iff, ← heq, Nat.not_le] at hdeep
    rw [mapM_forestWithin_error hforest hdeep]

/-- Two renderings of one search result are read alike: as the threads that are put together from its known members, if
its trees fit the limit of the reader, and not at all otherwise. -/
theorem readThreads_eq_of_renderings {result : List (Summary × Forest)} {found shown found' shown' : Bytes}
    (h : IsRendering result found shown) (h' : IsRendering result found' shown') :
    readThreads found shown = readThreads found' shown' ∧
      ((∀ t ∈ result, FitsLimit t.2) → readThreads found shown = .ok (result.map fun t => threadOf t.1 t.2)) ∧
      (¬ (∀ t ∈ result, FitsLimit t.2) → readThreads found shown = .error (.json .syntaxFault)) := by
  have hread := readThreads_rendering h
  exact ⟨hread.trans (readThreads_rendering h').symm, fun hfits => hread.trans (if_pos hfits),
    fun hdeep => hread.trans (if_neg hdeep)⟩

section

variable {gap : Bytes} (hgap : Blanks gap)

include hgap

theorem isNode_listBytes {message : Option Shown} {replies : List Node} {first : Bytes} {items : List Bytes}
    (hmessage : IsOptional (fun s => IsRecord s.fields) message first) (hreplies : List.Forall₂ IsNode replies items) :
    IsNode (.node message replies) (listBytes gap [first, listBytes gap items]) :=
  .mk (joined_joinedBytes hgap 0x5D true _) hmessage (joined_joinedBytes hgap 0x5D true items) hreplies

theorem isFound_listBytes {summaries : List Summary} {items : List Bytes}
    (h : List.Forall₂ (fun s => IsRecord s.fields) summaries items) : IsFound summaries (listBytes gap items) :=
  isDocument_self (isList_listBytes hgap h)

theorem isShown_listBytes {n : Node} {item : Bytes} (h : IsNode n item) :
    IsShown [[n]] (listBytes gap [listBytes gap [item]]) :=
  isDocument_self (isList_listBytes hgap (.cons (isList_listBytes hgap (.cons h .nil)) .nil))

end

def lone : Shown := { id := "m", filename := .one "f" }

def loneBytes : Bytes := objectBytes [] [("id", quoted "m"), ("filename", quoted "f")]

def laxBytes (gap : Bytes) : Bytes :=
  objectBytes gap
    [("tags", listBytes gap []), ("match", literalBytes "true"), ("filename", listBytes gap [quoted "f", quoted "g"]),
     ("headers", objectBytes gap [("Date", literalBytes "null")]), ("match", listBytes gap [literalBytes "null"]),
     ("timestamp", literalBytes "null"), ("id", quoted "m")]

def laxSummaryBytes (gap : Bytes) : Bytes :=
  objectBytes gap
    [("total", literalBytes "null"), ("timestamp", literalBytes "null"), ("thread", quoted "t"),
      ("tags", listBytes gap [])]

theorem isRecord_loneBytes : IsRecord lone.fields loneBytes := by
  have hid : IsText "m" (quoted "m") := isText_quoted rfl
  have hfile : IsFilenames (.one "f") (quoted "f") := .one (isText_quoted rfl)
  refine isRecord_objectBytes blanks_nil (by simp [isPlain]) ?_ ?_ ?_ ?_
  all_goals simp [lone, Shown.fields, hid, hfile]

theorem isRecord_laxBytes {gap : Bytes} (hgap : Blanks gap) :
    IsRecord { lone with filename := .many ["f", "g"] }.fields (laxBytes gap) := by
  have hid : IsText "m" (quoted "m") := isText_quoted rfl
  have hfiles : IsFilenames (.many ["f", "g"]) (listBytes gap [quoted "f", quoted "g"]) :=
    .many (isList_listBytes hgap (.cons (isText_quoted rfl) (.cons (isText_quoted rfl) .nil)))
  have htime : IsOptional IsTimestamp none (literalBytes "null") := .none
  have htags : IsList IsText [] (listBytes gap []) := isList_listBytes hgap .nil
  have hnull : IsValue (literalBytes "null") := .literal (by decide)
  have htrue : IsValue (literalBytes "true") := .literal (by decide)
  have hlist : IsValue (listBytes gap [literalBytes "null"]) :=
    .list (joined_joinedBytes hgap 0x5D true _) (by simpa using hnull)
  have hheaders : IsRecord ({} : Headers).fields (objectBytes gap [("Date", literalBytes "null")]) := by
    refine isRecord_objectBytes hgap (by simp [isPlain]) ?_ ?_ ?_ ?_
    all_goals simp [Headers.fields, hnull]
  refine isRecord_objectBytes hgap (by simp [isPlain]) ?_ ?_ ?_ ?_
  all_goals simp [lone, Shown.fields, hid, hfiles, htime, htags, htrue, hlist, hheaders]

theorem isRecord_laxSummaryBytes {gap : Bytes} (hgap : Blanks gap) :
    IsRecord { thread := "t" : Summary }.fields (laxSummaryBytes gap) := by
  have hthread : IsText "t" (quoted "t") := isText_quoted rfl
  have htime : IsOptional IsTimestamp none (literalBytes "null") := .none
  have htags : IsList IsText [] (listBytes gap []) := isList_listBytes hgap .nil
  have hnull : IsValue (literalBytes "null") := .literal (by decide)
  refine isRecord_objectBytes hgap (by simp [isPlain]) ?_ ?_ ?_ ?_
  all_goals simp [Summary.fields, hthread, htime, htags, hnull]

theorem readThreads_eq_of_renderings_relaid :
    let result : List (Summary × Forest) := [({ thread := "t" }, [.node (some lone) []])]
    let gap : Bytes := [0x20, 0x0A]
    let shown := listBytes [] [listBytes [] [listBytes [] [loneBytes, listBytes [] []]]]
    let found' := listBytes gap [laxSummaryBytes gap]
    let shown' := listBytes gap [listBytes gap [listBytes gap [laxBytes gap, listBytes gap []]]]
    IsRendering result chainFound shown ∧ IsRendering result found' shown' ∧ (∀ t ∈ result, FitsLimit t.2) ∧
      readThreads chainFound shown = readThreads found' shown' ∧
      readThreads found' shown' = .ok (result.map fun t => threadOf t.1 t.2) := by
  intro result gap shown found' shown'
  have hgap : Blanks gap := List.all_eq_true.mp rfl
  have hself : lone.Alike lone := ⟨rfl, rfl, rfl, rfl, rfl⟩
  have hlax : lone.Alike { lone with filename := .many ["f", "g"] } := ⟨rfl, rfl, rfl, rfl, rfl⟩
  have hrendering : IsRendering result chainFound shown :=
    ⟨isFound_chain, _, .cons (.cons (.mk (.some hself) .nil) .nil) .nil,
      isShown_listBytes blanks_nil (isNode_listBytes blanks_nil (.some isRecord_loneBytes) .nil)⟩
  have hrendering' : IsRendering result found' shown' :=
    ⟨isFound_listBytes hgap (.cons (isRecord_laxSummaryBytes hgap) .nil), _,
      .cons (.cons (.mk (.some hlax) .nil) .nil) .nil,
      isShown_listBytes hgap (isNode_listBytes hgap (.some (isRecord_laxBytes hgap)) .nil)⟩
  have hfits : ∀ t ∈ result, FitsLimit t.2 := List.forall_mem_singleton.mpr (by decide)
  obtain ⟨hsame, hread, -⟩ := readThreads_eq_of_renderings hrendering hrendering'
  exact ⟨hrendering, hrendering', hfits, hsame, hsame.symm.trans (hread hfits)⟩

end Triage.Index
