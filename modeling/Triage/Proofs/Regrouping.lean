import Mathlib.Data.List.Pairwise
import Mathlib.Logic.Relation
import Triage.Proofs.Commands

/-! Commands in batches, in batches of batches, and so on. The leaves are those commands that are found at some place
among them, in the order of the places, and two lists have the same ones if they differ in their batches alone. -/

namespace Triage.Command

mutual

theorem nested_induction {P : Command → Prop} {Q : List Command → Prop} (leaf : ∀ c, c.IsLeaf → P c)
    (batch : ∀ items, Q items → P (.batch items)) (nil : Q []) (cons : ∀ c rest, P c → Q rest → Q (c :: rest))
    (c : Command) : P c := by
  cases c with
  | batch items => exact batch items (nestedList_induction leaf batch nil cons items)
  | _ => exact leaf _ trivial

theorem nestedList_induction {P : Command → Prop} {Q : List Command → Prop} (leaf : ∀ c, c.IsLeaf → P c)
    (batch : ∀ items, Q items → P (.batch items)) (nil : Q []) (cons : ∀ c rest, P c → Q rest → Q (c :: rest))
    (cs : List Command) : Q cs := by
  cases cs with
  | nil => exact nil
  | cons c rest =>
    exact cons c rest (nested_induction leaf batch nil cons c) (nestedList_induction leaf batch nil cons rest)

end

theorem leavesOf_cons (c : Command) (rest : List Command) : leavesOf (c :: rest) = c.leaves ++ leavesOf rest := rfl

theorem isLeaf_of_mem_leavesOf (cs : List Command) : ∀ c ∈ leavesOf cs, c.IsLeaf := by
  refine nestedList_induction (P := fun c => ∀ d ∈ c.leaves, d.IsLeaf) (Q := fun cs => ∀ d ∈ leavesOf cs, d.IsLeaf)
    (fun c hc d hd => ?_) (fun _ h => h) nofun (fun c rest hc hrest d hd => ?_) cs
  · rw [hc.leaves_eq] at hd
    obtain rfl := List.mem_singleton.mp hd
    exact hc
  · rw [leavesOf_cons] at hd
    exact (List.mem_append.mp hd).elim (hc d) (hrest d)

/-- The command at a place below another one: an item of a batch, an item of that, and so on. -/
def at? : Command → List Nat → Option Command
  | c, [] => some c
  | .batch items, i :: place => items[i]?.bind (·.at? place)
  | _, _ :: _ => none

mutual

def leafPlaces : Command → List (List Nat)
  | .batch items => leafPlacesFrom 0 items
  | _ => [[]]

def leafPlacesFrom (i : Nat) : List Command → List (List Nat)
  | [] => []
  | c :: rest => c.leafPlaces.map (i :: ·) ++ leafPlacesFrom (i + 1) rest

end

theorem leafPlacesFrom_cons (i : Nat) (c : Command) (rest : List Command) :
    leafPlacesFrom i (c :: rest) = c.leafPlaces.map (i :: ·) ++ leafPlacesFrom (i + 1) rest := rfl

theorem IsLeaf.leafPlaces_eq {c : Command} (hc : c.IsLeaf) : c.leafPlaces = [[]] := by
  cases c with
  | batch => exact hc.elim
  | _ => rfl

theorem IsLeaf.at?_eq_some_iff {c d : Command} (hc : c.IsLeaf) {place : List Nat} :
    c.at? place = some d ↔ place = [] ∧ c = d := by
  cases place with
  | nil => simp [at?]
  | cons i place =>
    cases c with
    | batch => exact hc.elim
    | _ => simp [at?]

theorem mem_leafPlaces (c : Command) (place : List Nat) :
    place ∈ c.leafPlaces ↔ ∃ d, c.at? place = some d ∧ d.IsLeaf := by
  refine nested_induction (P := fun c => ∀ place, place ∈ c.leafPlaces ↔ ∃ d, c.at? place = some d ∧ d.IsLeaf)
    (Q := fun cs => ∀ i place, place ∈ leafPlacesFrom i cs ↔
      ∃ j below, place = (i + j) :: below ∧ ∃ d, cs[j]?.bind (·.at? below) = some d ∧ d.IsLeaf)
    (fun c hc place => ?_) (fun items hitems place => ?_) (by simp [leafPlacesFrom])
    (fun c rest hc hrest i place => ?_) c place
  · rw [hc.leafPlaces_eq, List.mem_singleton]
    constructor
    · rintro rfl
      exact ⟨c, rfl, hc⟩
    · rintro ⟨d, hd, -⟩
      exact (hc.at?_eq_some_iff.mp hd).1
  · rw [leafPlaces, hitems]
    cases place with
    | nil => simp [at?, IsLeaf]
    | cons i place =>
      constructor
      · rintro ⟨j, below, heq, hleaf⟩
        obtain ⟨rfl, rfl⟩ := List.cons.inj (heq.trans (by rw [Nat.zero_add]))
        exact hleaf
      · exact fun hleaf => ⟨i, place, by rw [Nat.zero_add], hleaf⟩
  · rw [leafPlacesFrom_cons, List.mem_append, List.mem_map, hrest]
    constructor
    · rintro (⟨below, hbelow, rfl⟩ | ⟨j, below, rfl, hleaf⟩)
      · exact ⟨0, below, rfl, (hc below).mp hbelow⟩
      · exact ⟨j + 1, below, by rw [Nat.add_right_comm, Nat.add_assoc], hleaf⟩
    · rintro ⟨j, below, rfl, hleaf⟩
      cases j with
      | zero => exact .inl ⟨below, (hc below).mpr hleaf, rfl⟩
      | succ j => exact .inr ⟨j, below, by rw [Nat.add_right_comm, Nat.add_assoc], hleaf⟩

theorem le_of_mem_leafPlacesFrom {i : Nat} {cs : List Command} {place : List Nat} (h : place ∈ leafPlacesFrom i cs) :
    ∃ j below, i ≤ j ∧ place = j :: below := by
  induction cs generalizing i with
  | nil => cases h
  | cons c rest ih =>
    rcases List.mem_append.mp (leafPlacesFrom_cons i c rest ▸ h) with h | h
    · obtain ⟨below, -, rfl⟩ := List.mem_map.mp h
      exact ⟨i, below, Nat.le_refl i, rfl⟩
    · obtain ⟨j, below, hle, rfl⟩ := ih h
      exact ⟨j, below, Nat.le_of_succ_le hle, rfl⟩

theorem leafPlaces_pairwise (c : Command) : c.leafPlaces.Pairwise (List.Lex (· < ·)) := by
  refine nested_induction (P := fun c => c.leafPlaces.Pairwise (List.Lex (· < ·)))
    (Q := fun cs => ∀ i, (leafPlacesFrom i cs).Pairwise (List.Lex (· < ·))) (fun c hc => ?_)
    (fun items hitems => hitems 0)
    (fun _ => .nil) (fun c rest hc hrest i => List.pairwise_append.mpr ⟨?_, hrest (i + 1), fun p hp q hq => ?_⟩) c
  · rw [hc.leafPlaces_eq]
    exact List.pairwise_singleton _ _
  · exact List.pairwise_map.mpr (hc.imp fun h => .cons h)
  · obtain ⟨below, -, rfl⟩ := List.mem_map.mp hp
    obtain ⟨j, below', hlt, rfl⟩ := le_of_mem_leafPlacesFrom hq
    exact .rel hlt

theorem map_at?_leafPlaces (c : Command) : c.leafPlaces.map c.at? = c.leaves.map some := by
  refine nested_induction (P := fun c => c.leafPlaces.map c.at? = c.leaves.map some)
    (Q := fun cs => ∀ before,
      (leafPlacesFrom before.length cs).map (batch (before ++ cs)).at? = (leavesOf cs).map some)
    (fun c hc => ?_) (fun items hitems => hitems []) (fun _ => rfl) (fun c rest hc hrest before => ?_) c
  · rw [hc.leafPlaces_eq, hc.leaves_eq]
    rfl
  · have hhere : (c.leafPlaces.map (before.length :: ·)).map (batch (before ++ c :: rest)).at? =
        c.leaves.map some := by
      rw [List.map_map, ← hc]
      refine List.map_congr_left fun place _ => ?_
      simp [at?]
    have hrest := hrest (before ++ [c])
    rw [List.length_append, List.append_assoc] at hrest
    rw [leafPlacesFrom_cons, leavesOf_cons, List.map_append, List.map_append, hhere]
    exact congrArg _ hrest

structure Lists (c : Command) (places : List (List Nat)) (leaves : List Command) : Prop where
  inOrder : places.Pairwise (List.Lex (· < ·))
  complete : ∀ place, place ∈ places ↔ ∃ d, c.at? place = some d ∧ d.IsLeaf
  leaves : places.map c.at? = leaves.map some

theorem lists_leaves (c : Command) : c.Lists c.leafPlaces c.leaves :=
  ⟨c.leafPlaces_pairwise, c.mem_leafPlaces, c.map_at?_leafPlaces⟩

/-- Somewhere among commands the items of a batch take its place. -/
inductive Unwraps : List Command → List Command → Prop where
  | here (before items after : List Command) : Unwraps (before ++ .batch items :: after) (before ++ items ++ after)
  | within {items items' : List Command} (before after : List Command) :
    Unwraps items items' → Unwraps (before ++ .batch items :: after) (before ++ .batch items' :: after)

theorem Unwraps.leavesOf_eq {cs ds : List Command} (h : Unwraps cs ds) : leavesOf cs = leavesOf ds := by
  induction h with
  | here before items after =>
    rw [leavesOf_append, leavesOf_append, leavesOf_append, leavesOf_cons, leaves, List.append_assoc]
  | within before after _ ih =>
    rw [leavesOf_append, leavesOf_append, leavesOf_cons, leavesOf_cons, leaves, leaves, ih]

theorem Unwraps.around {cs ds : List Command} (h : Unwraps cs ds) (before after : List Command) :
    Unwraps (before ++ cs ++ after) (before ++ ds ++ after) := by
  cases h with
  | here first items last => simpa using Unwraps.here (before ++ first) items (last ++ after)
  | within first last h => simpa using Unwraps.within (before ++ first) (last ++ after) h

theorem unwraps_leavesOf (cs : List Command) : Relation.ReflTransGen Unwraps cs (leavesOf cs) := by
  refine nestedList_induction (P := fun c => Relation.ReflTransGen Unwraps [c] c.leaves)
    (Q := fun cs => Relation.ReflTransGen Unwraps cs (leavesOf cs))
    (fun c hc => ?_) (fun items hitems => ?_) .refl (fun c rest hc hrest => ?_) cs
  · rw [hc.leaves_eq]
  · have hfirst : Unwraps [.batch items] items := by simpa using Unwraps.here [] items []
    exact .head hfirst hitems
  · have hhead : Relation.ReflTransGen Unwraps (c :: rest) (c.leaves ++ rest) :=
      hc.lift (· ++ rest) fun ds es h => by simpa using h.around [] rest
    have htail : Relation.ReflTransGen Unwraps (c.leaves ++ rest) (c.leaves ++ leavesOf rest) :=
      hrest.lift (c.leaves ++ ·) fun ds es h => by simpa using h.around c.leaves []
    exact hhead.trans htail

abbrev Regroups : List Command → List Command → Prop := Relation.EqvGen Unwraps

theorem Regroups.leavesOf_eq {cs ds : List Command} (h : Regroups cs ds) : leavesOf cs = leavesOf ds := by
  induction h with
  | rel _ _ h => exact h.leavesOf_eq
  | refl => rfl
  | symm _ _ _ ih => exact ih.symm
  | trans _ _ _ _ _ ih ih' => exact ih.trans ih'

theorem regroups_iff {cs ds : List Command} : Regroups cs ds ↔ leavesOf cs = leavesOf ds := by
  refine ⟨Regroups.leavesOf_eq, fun h => ?_⟩
  have hleaves (es : List Command) : Regroups es (leavesOf es) :=
    Relation.EqvGen.reflTransGen_le_eqvGen Unwraps _ _ (unwraps_leavesOf es)
  exact .trans _ _ _ (hleaves cs) (h ▸ .symm _ _ (hleaves ds))

end Triage.Command
