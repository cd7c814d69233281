import Triage.Index.Tree
import Triage.Proofs.Json.Containers

/-! The two documents of a search result in all the ways they may be written, and what reading them gives. -/

namespace Triage.Index

open Json

inductive IsFilenames : Filenames → Bytes → Prop where
  | one {name : String} {bytes : Bytes} : IsText name bytes → IsFilenames (.one name) bytes
  | many {names : List String} {bytes : Bytes} : IsList IsText names bytes → IsFilenames (.many names) bytes

structure IsTimestamp (t : Int) (bytes : Bytes) : Prop where
  isInteger : IsInteger t bytes
  lower : -0x8000000000000000 ≤ t
  upper : t ≤ 0x7FFFFFFFFFFFFFFF

structure IsCount (n : Nat) (bytes : Bytes) : Prop where
  isNatural : IsNatural n bytes
  upper : n ≤ 0xFFFFFFFFFFFFFFFF

def Summary.fields (s : Summary) : List Field :=
  [⟨"thread", IsText s.thread, False⟩,
   ⟨"authors", IsText s.authors, s.authors = ""⟩,
   ⟨"subject", IsText s.subject, s.subject = ""⟩,
   ⟨"tags", IsList IsText s.tags, s.tags = []⟩,
   ⟨"matched", IsCount s.matched, s.matched = 0⟩,
   ⟨"timestamp", IsOptional IsTimestamp s.timestamp, s.timestamp = none⟩]

def Headers.fields (h : Headers) : List Field :=
  [⟨"Subject", IsText h.subject, h.subject = ""⟩,
   ⟨"From", IsText h.sender, h.sender = ""⟩,
   ⟨"To", IsText h.recipient, h.recipient = ""⟩]

def Shown.fields (s : Shown) : List Field :=
  [⟨"id", IsText s.id, False⟩,
   ⟨"filename", IsFilenames s.filename, s.filename = .many []⟩,
   ⟨"timestamp", IsOptional IsTimestamp s.timestamp, s.timestamp = none⟩,
   ⟨"tags", IsList IsText s.tags, s.tags = []⟩,
   ⟨"headers", IsRecord s.headers.fields, s.headers = {}⟩]

inductive IsNode : Node → Bytes → Prop where
  | mk {message : Option Shown} {replies : List Node} {first inner body : Bytes} {items : List Bytes} :
      Joined 0x5D true [first, 0x5B :: inner] body → IsOptional (fun s => IsRecord s.fields) message first →
      Joined 0x5D true items inner → List.Forall₂ IsNode replies items → IsNode (.node message replies) (0x5B :: body)

def IsFound (summaries : List Summary) (bytes : Bytes) : Prop :=
  IsDocument (IsList fun s => IsRecord s.fields) summaries bytes

def IsShown (forests : List Forest) (bytes : Bytes) : Prop := IsDocument (IsList (IsList IsNode)) forests bytes

theorem IsTimestamp.reads {t : Option Int} {bytes : Bytes} (h : IsOptional IsTimestamp t bytes) :
    Reads (optional signed64) bytes (.ok t) := by
  cases h with
  | none => exact reads_none signed64
  | @some t _ ht =>
    have hreads := reads_signed64 ht.isInteger ht.lower ht.upper
    obtain ⟨b, tail, rfl, hb⟩ := ht.isInteger.isNumber.exists_head
    refine reads_some (isSpace_of_number hb) ?_ hreads
    rintro rfl
    cases hb

theorem reads_texts {ss : List String} {bytes : Bytes} (h : IsList IsText ss bytes) (depth : Nat) :
    Reads (list (fun _ => text) (depth + 1)) bytes (.ok ss) :=
  reads_list_ok h fun _ _ h => ⟨h.starts, reads_text h⟩

theorem texts?_map (ss : List String) : Value.texts? (ss.map .text) = some ss := by
  induction ss with
  | nil => rfl
  | cons s ss ih => simp [Value.texts?, ih]

theorem IsFilenames.reads {f : Filenames} {bytes : Bytes} (h : IsFilenames f bytes) (depth : Nat) :
    Reads (readFilename (depth + 1)) bytes (.ok f) := by
  intro gap rest hgap hrest
  unfold readFilename
  cases h with
  | one h =>
    rw [bind_of_ok (reads_value_text h (depth + 1) gap rest hgap hrest)]
    rfl
  | many h =>
    rw [bind_of_ok (reads_value_texts h depth gap rest hgap hrest)]
    dsimp only
    rw [texts?_map]
    rfl

/-- What is known of a member's value once the names of some members were read. -/
def valueIf {α : Type} (name : String) (seen : List String) (a : α) : Option α := if name ∈ seen then some a else none

theorem isSome_valueIf {α : Type} (name : String) (seen : List String) (a : α) :
    (valueIf name seen a).isSome = decide (name ∈ seen) := by
  unfold valueIf
  split <;> simp_all

theorem valueIf_cons_self {α : Type} (name : String) (seen : List String) (a : α) :
    valueIf name (name :: seen) a = some a := if_pos List.mem_cons_self

theorem valueIf_cons {α : Type} {name other : String} (h : name ≠ other) (seen : List String) (a : α) :
    valueIf name (other :: seen) a = valueIf name seen a := by
  simp [valueIf, h]

theorem getD_valueIf {α : Type} {name : String} {seen : List String} {a default : α}
    (h : a = default ∨ name ∈ seen) : (valueIf name seen a).getD default = a := by
  rcases h with rfl | h
  · unfold valueIf
    split <;> rfl
  · rw [valueIf, if_pos h]
    rfl

theorem describes_of {σ α : Type} {depth : Nat} {partway : List String → σ} {m : Member σ} {f : Field}
    {read : Reader α}
    {set : σ → α → σ} {a : α} (hname : m.name = f.name) (hrequired : m.isRequired = true → ¬ f.MayBeOmitted)
    (hgiven : ∀ seen, m.isGiven (partway seen) = decide (f.name ∈ seen))
    (hread : ∀ r, m.read depth r = do return set r (← read))
    (hreads : ∀ value, f.IsValue value → Reads read value (.ok a))
    (hset : ∀ seen, set (partway seen) a = partway (f.name :: seen)) : Describes depth partway m f := by
  refine ⟨hname, hrequired, hgiven, fun seen value hvalue => ?_⟩
  rw [hread, ← hset]
  exact (hreads value hvalue).bind_pure (set (partway seen))

def Headers.partway (h : Headers) (seen : List String) : PartialHeaders :=
  { subject := valueIf "Subject" seen h.subject
    sender := valueIf "From" seen h.sender
    recipient := valueIf "To" seen h.recipient }

theorem Headers.describes (h : Headers) (depth : Nat) :
    List.Forall₂ (Describes depth h.partway) headerMembers h.fields := by
  have hgiven (name : String) (seen : List String) := isSome_valueIf (α := String) name seen
  refine .cons (describes_of rfl (by simp) (fun seen => hgiven _ seen _) (fun _ => rfl) (fun _ => reads_text) ?_)
    (.cons (describes_of rfl (by simp) (fun seen => hgiven _ seen _) (fun _ => rfl) (fun _ => reads_text) ?_)
    (.cons (describes_of rfl (by simp) (fun seen => hgiven _ seen _) (fun _ => rfl) (fun _ => reads_text) ?_) .nil))
  all_goals simp [partway, valueIf_cons_self, valueIf_cons]

theorem Headers.partway_ignores (h : Headers) (name : String) (hname : ∀ f ∈ h.fields, f.name ≠ name)
    (seen : List String) : h.partway (name :: seen) = h.partway seen := by
  simp only [fields, List.forall_mem_cons] at hname
  simp [partway, valueIf_cons, hname]

theorem Headers.reads {h : Headers} {bytes : Bytes} (hrecord : IsRecord h.fields bytes) (depth : Nat) :
    Reads (readHeaders (depth + 1)) bytes (.ok h) := by
  obtain ⟨seen, hseen, hreads⟩ := reads_record (h.describes depth) h.partway_ignores hrecord
  have hcomplete : (h.partway seen).complete = h := by
    simp only [fields, List.forall_mem_cons] at hseen
    simp [partway, PartialHeaders.complete, getD_valueIf, hseen]
  exact (hreads.bind_pure PartialHeaders.complete).congr (congrArg _ hcomplete)

def Summary.partway (s : Summary) (seen : List String) : PartialSummary :=
  { thread := valueIf "thread" seen s.thread
    authors := valueIf "authors" seen s.authors
    subject := valueIf "subject" seen s.subject
    tags := valueIf "tags" seen s.tags
    matched := valueIf "matched" seen s.matched
    timestamp := valueIf "timestamp" seen s.timestamp }

theorem Summary.describes (s : Summary) (depth : Nat) :
    List.Forall₂ (Describes (depth + 1) s.partway) summaryMembers s.fields := by
  refine .cons (describes_of rfl (by simp) (fun seen => isSome_valueIf _ seen _) (fun _ => rfl)
    (fun _ => reads_text) ?_)
    (.cons (describes_of rfl (by simp) (fun seen => isSome_valueIf _ seen _) (fun _ => rfl) (fun _ => reads_text) ?_)
    (.cons (describes_of rfl (by simp) (fun seen => isSome_valueIf _ seen _) (fun _ => rfl) (fun _ => reads_text) ?_)
    (.cons (describes_of rfl (by simp) (fun seen => isSome_valueIf _ seen _) (fun _ => rfl)
      (fun _ h => reads_texts h depth) ?_)
    (.cons (describes_of rfl (by simp) (fun seen => isSome_valueIf _ seen _) (fun _ => rfl)
      (fun _ h => reads_unsigned64 h.isNatural h.upper) ?_)
    (.cons (describes_of rfl (by simp) (fun seen => isSome_valueIf _ seen _) (fun _ => rfl)
      (fun _ => IsTimestamp.reads) ?_) .nil)))))
  all_goals simp [partway, valueIf_cons_self, valueIf_cons]

theorem Summary.partway_ignores (s : Summary) (name : String) (hname : ∀ f ∈ s.fields, f.name ≠ name)
    (seen : List String) : s.partway (name :: seen) = s.partway seen := by
  simp only [fields, List.forall_mem_cons] at hname
  simp [partway, valueIf_cons, hname]

theorem Summary.reads {s : Summary} {bytes : Bytes} (hrecord : IsRecord s.fields bytes) (depth : Nat) :
    Reads (readSummary (depth + 2)) bytes (.ok s) := by
  obtain ⟨seen, hseen, hreads⟩ := reads_record (s.describes depth) s.partway_ignores hrecord
  have hcomplete : (s.partway seen).complete = s := by
    simp only [fields, List.forall_mem_cons, false_or] at hseen
    simp [partway, PartialSummary.complete, getD_valueIf, hseen]
  exact (hreads.bind_pure PartialSummary.complete).congr (congrArg _ hcomplete)

def Shown.partway (s : Shown) (seen : List String) : PartialShown :=
  { id := valueIf "id" seen s.id
    filename := valueIf "filename" seen s.filename
    timestamp := valueIf "timestamp" seen s.timestamp
    tags := valueIf "tags" seen s.tags
    headers := valueIf "headers" seen s.headers }

theorem Shown.describes (s : Shown) (depth : Nat) :
    List.Forall₂ (Describes (depth + 1) s.partway) shownMembers s.fields := by
  refine .cons (describes_of rfl (by simp) (fun seen => isSome_valueIf _ seen _) (fun _ => rfl)
    (fun _ => reads_text) ?_)
    (.cons (describes_of rfl (by simp) (fun seen => isSome_valueIf _ seen _) (fun _ => rfl)
      (fun _ h => h.reads depth) ?_)
    (.cons (describes_of rfl (by simp) (fun seen => isSome_valueIf _ seen _) (fun _ => rfl)
      (fun _ => IsTimestamp.reads) ?_)
    (.cons (describes_of rfl (by simp) (fun seen => isSome_valueIf _ seen _) (fun _ => rfl)
      (fun _ h => reads_texts h depth) ?_)
    (.cons (describes_of rfl (by simp) (fun seen => isSome_valueIf _ seen _) (fun _ => rfl)
      (fun _ h => Headers.reads h depth) ?_) .nil))))
  all_goals simp [partway, valueIf_cons_self, valueIf_cons]

theorem Shown.partway_ignores (s : Shown) (name : String) (hname : ∀ f ∈ s.fields, f.name ≠ name)
    (seen : List String) : s.partway (name :: seen) = s.partway seen := by
  simp only [fields, List.forall_mem_cons] at hname
  simp [partway, valueIf_cons, hname]

theorem Shown.reads {s : Shown} {bytes : Bytes} (hrecord : IsRecord s.fields bytes) (depth : Nat) :
    Reads (readShown (depth + 2)) bytes (.ok s) := by
  obtain ⟨seen, hseen, hreads⟩ := reads_record (s.describes depth) s.partway_ignores hrecord
  have hcomplete : (s.partway seen).complete = s := by
    simp only [fields, List.forall_mem_cons, false_or] at hseen
    simp [partway, PartialShown.complete, getD_valueIf, hseen]
  exact (hreads.bind_pure PartialShown.complete).congr (congrArg _ hcomplete)

mutual

def Node.height : Node → Nat
  | .node _ replies => forestHeight replies + 1

def forestHeight : List Node → Nat
  | [] => 0
  | n :: rest => max n.height (forestHeight rest)

end

def Node.within (levels : Nat) (n : Node) : Except JsonFault Node :=
  if n.height ≤ levels then .ok n else .error .syntaxFault

theorem mapM_within (levels : Nat) (ns : List Node) :
    ns.mapM (Node.within levels) = if forestHeight ns ≤ levels then .ok ns else .error .syntaxFault := by
  induction ns with
  | nil => rfl
  | cons n rest ih =>
    rw [List.mapM_cons, ih, Node.within, forestHeight]
    by_cases hn : n.height ≤ levels
    · by_cases hrest : forestHeight rest ≤ levels
      · rw [if_pos hn, if_pos hrest, if_pos (Nat.max_le.mpr ⟨hn, hrest⟩)]
        rfl
      · rw [if_pos hn, if_neg hrest, if_neg fun h => hrest (Nat.max_le.mp h).2]
        rfl
    · rw [if_neg hn, if_neg fun h => hn (Nat.max_le.mp h).1]
      rfl

theorem IsNode.starts {n : Node} {bytes : Bytes} (h : IsNode n bytes) : Starts bytes := by
  cases h
  exact .mk rfl (by decide)

theorem message_starts {message : Option Shown} {bytes : Bytes}
    (h : IsOptional (fun s => IsRecord s.fields) message bytes) : Starts bytes := by
  cases h with
  | none => exact literalBytes_starts (by decide)
  | some h =>
    cases h
    exact .mk rfl (by decide)

theorem reads_message {message : Option Shown} {bytes : Bytes}
    (h : IsOptional (fun s => IsRecord s.fields) message bytes) (depth : Nat) :
    Reads (Json.optional (readShown (depth + 2))) bytes (.ok message) := by
  cases h with
  | none => exact reads_none _
  | some h =>
    have hreads := Shown.reads h depth
    cases h
    exact reads_some rfl (by decide) hreads

theorem reads_message_zero {message : Option Shown} {bytes : Bytes}
    (h : IsOptional (fun s => IsRecord s.fields) message bytes) :
    ∃ outcome, Reads (Json.optional (readShown 0)) bytes outcome ∧
      ∀ fault, outcome = .error fault → fault = .syntaxFault := by
  cases h with
  | none => exact ⟨_, reads_none _, by simp⟩
  | some h =>
    cases h with
    | @mk written body =>
      have hrecord : Reads (record shownMembers {} 0) (0x7B :: body) (.error .syntaxFault) := by
        intro gap rest hgap _
        unfold record
        rw [List.cons_append, bind_peek? hgap rfl, if_pos (beq_self_eq_true _)]
        rfl
      have hreads := hrecord.bind_pure PartialShown.complete
      exact ⟨_, reads_some rfl (by decide) hreads, by simp [Except.map]⟩

theorem readForest_zero (body : Bytes) : Reads (readForest 0) (0x5B :: body) (.error .syntaxFault) := by
  intro gap rest hgap _
  unfold readForest
  rw [List.cons_append, bind_peek? hgap rfl]
  rfl

theorem readNode_reads {message : Option Shown} {first inner body : Bytes} {depth : Nat}
    {a : Except JsonFault (Option Shown)} {b : Except JsonFault Forest}
    (hbody : Joined 0x5D true [first, 0x5B :: inner] body)
    (hmessage : IsOptional (fun s => IsRecord s.fields) message first)
    (hfirst : Reads (Json.optional (readShown depth)) first a) (hsecond : Reads (readForest depth) (0x5B :: inner) b) :
    Reads (readNode (depth + 1)) (0x5B :: body) (do return .node (← a) (← b)) := by
  have hpair : Reads (pair (fun _ => Json.optional (readShown depth)) (fun _ => readForest depth) (depth + 1)) _ _ :=
    reads_pair hbody (message_starts hmessage) (.mk rfl (by decide)) hfirst hsecond
  have hnode := hpair.bind_pure fun x => Node.node x.1 x.2
  rw [readNode]
  refine hnode.congr ?_
  cases a <;> cases b <;> rfl

mutual

theorem Node.reads (n : Node) {bytes : Bytes} (h : IsNode n bytes) (levels : Nat) :
    Reads (readNode (2 * levels + 1)) bytes (n.within levels) := by
  cases n with
  | node message replies =>
    cases h with
    | mk hbody hmessage hinner hitems =>
      cases levels with
      -- The list of the node is the last that may be opened, so its list of replies is refused, if not its message.
      | zero =>
        obtain ⟨outcome, hfirst, hfault⟩ := reads_message_zero hmessage
        refine (readNode_reads hbody hmessage hfirst (readForest_zero _)).congr ?_
        cases outcome with
        | error fault =>
          obtain rfl := hfault fault rfl
          rfl
        | ok => rfl
      | succ levels =>
        have hreplies : Reads (readForest (2 * levels + 2)) _ _ := reads_list hinner (nodes_read replies hitems levels)
        refine (readNode_reads hbody hmessage (reads_message hmessage _) hreplies).congr ?_
        rw [mapM_within, Node.within, Node.height]
        by_cases hheight : forestHeight replies ≤ levels
        · rw [if_pos hheight, if_pos (Nat.succ_le_succ hheight)]
          rfl
        · rw [if_neg hheight, if_neg fun h => hheight (Nat.le_of_succ_le_succ h)]
          rfl

theorem nodes_read (ns : List Node) {items : List Bytes} (h : List.Forall₂ IsNode ns items) (levels : Nat) :
    List.Forall₂ (fun n item => Starts item ∧ Reads (readNode (2 * levels + 1)) item (n.within levels)) ns items := by
  cases ns with
  | nil =>
    cases h
    exact .nil
  | cons n rest =>
    cases h with
    | cons hn hrest => exact .cons ⟨hn.starts, n.reads hn levels⟩ (nodes_read rest hrest levels)

end

theorem document_reads {α β : Type} {IsValue : α → Bytes → Prop} {a : α} {bytes : Bytes}
    (h : IsDocument IsValue a bytes)
    {read : Reader β} {outcome : Except JsonFault β} (hreads : ∀ value, IsValue a value → Reads read value outcome) :
    document read bytes = outcome := by
  cases h with
  | @mk before value after hbefore hvalue hafter =>
    have hfollows : Follows after := fun b hb => .inl (hafter b (List.mem_of_mem_head? hb))
    have hnothing : (after.dropWhile isSpace).isEmpty = true := by
      rw [← List.append_nil after, dropWhile_blanks hafter]
      rfl
    unfold document
    rw [hreads value hvalue before after hbefore hfollows]
    cases outcome with
    | error => rfl
    | ok => exact if_pos hnothing

theorem readSummaries_found {summaries : List Summary} {found : Bytes} (h : IsFound summaries found) :
    readSummaries found = .ok summaries := by
  refine document_reads h fun value hvalue => reads_list_ok hvalue fun s item hitem => ⟨?_, Summary.reads hitem _⟩
  cases hitem
  exact .mk rfl (by decide)

def forestWithin (levels : Nat) (forest : Forest) : Except JsonFault Forest :=
  if forestHeight forest ≤ levels then .ok forest else .error .syntaxFault

theorem readForests_shown {forests : List Forest} {shown : Bytes} (h : IsShown forests shown) :
    readForests shown = forests.mapM (forestWithin 62) := by
  refine document_reads h fun value hvalue => ?_
  cases hvalue with
  | mk hbody hforests =>
    refine reads_list hbody (hforests.imp fun forest item hitem => ⟨hitem.starts, ?_⟩)
    cases hitem with
    | mk hinner hitems => exact (reads_list hinner (nodes_read forest hitems 62)).congr (mapM_within 62 forest)

end Triage.Index
