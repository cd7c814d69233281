import Triage.Proofs.Confined

/-! The functions among the globals are confined as far as what they call is. -/

namespace Triage.Script.Library

variable {σ : Type} [Host σ] {self : Recur σ}

@[grind ←]
theorem badArgument_confined {α : Type} (callers : Callers) (n : Nat) (b : Builtin) (problem : String) :
    Confined (badArgument callers n b problem : Eval σ α) := .fail ..

@[grind ←]
theorem checkAny_confined (b : Builtin) (args : List Value) (n : Nat) (callers : Callers) :
    Confined (checkAny b args n callers : Eval σ Unit) := by
  unfold checkAny
  grind

@[grind ←]
theorem checkTable_confined (b : Builtin) (args : List Value) (n : Nat) (callers : Callers) :
    Confined (checkTable b args n callers : Eval σ Nat) := by
  unfold checkTable
  grind

@[grind ←]
theorem checkText_confined (b : Builtin) (args : List Value) (n : Nat) (callers : Callers) :
    Confined (checkText b args n callers : Eval σ ByteArray) := by
  unfold checkText
  grind

@[grind ←]
theorem checkInt_confined (b : Builtin) (args : List Value) (n : Nat) (callers : Callers) :
    Confined (checkInt b args n callers : Eval σ Int) := by
  unfold checkInt
  grind

@[grind ←]
theorem optInt_confined (b : Builtin) (args : List Value) (n : Nat) (default : Int) (callers : Callers) :
    Confined (optInt b args n default callers : Eval σ Int) := by
  unfold optInt
  grind

@[grind ←]
theorem checkNum_confined (b : Builtin) (args : List Value) (n : Nat) (callers : Callers) :
    Confined (checkNum b args n callers : Eval σ Num) := by
  unfold checkNum
  grind

@[grind ←]
theorem error_confined (args : List Value) (callers : Callers) : Confined (error args callers : Eval σ _) := by
  unfold error
  grind

@[grind ←]
theorem assert_confined (args : List Value) (callers : Callers) : Confined (assert args callers : Eval σ _) := by
  unfold assert
  grind

@[grind ←]
theorem select_confined (args : List Value) (callers : Callers) : Confined (select args callers : Eval σ _) := by
  have from_confined (rest : List Value) (n : Int) : Confined (select.selectFrom callers rest n : Eval σ _) := by
    unfold select.selectFrom
    grind
  unfold select
  grind

@[grind ←]
theorem next_confined (args : List Value) (callers : Callers) : Confined (next args callers : Eval σ _) := by
  unfold next
  grind

@[grind ←]
theorem setmetatable_confined (args : List Value) (callers : Callers) :
    Confined (setmetatable args callers : Eval σ _) := by
  unfold setmetatable
  refine .bind (checkTable_confined ..) fun r => ?_
  split
  all_goals
    refine .bind ?_ fun chosen => .bind (.readHeap _) fun shown => ?_
    · grind
    · grind

@[grind ←]
theorem getmetatable_confined (args : List Value) (callers : Callers) :
    Confined (getmetatable args callers : Eval σ _) := by
  unfold getmetatable
  grind

@[grind ←]
theorem rawset_confined (args : List Value) (callers : Callers) : Confined (rawset args callers : Eval σ _) := by
  unfold rawset
  grind

@[grind ←]
theorem tonumber_confined (args : List Value) (callers : Callers) : Confined (tonumber args callers : Eval σ _) := by
  unfold tonumber
  grind

@[grind ←]
theorem lengthOf_confined (hs : self.IsConfined) (r : Nat) (callers : Callers) :
    Confined (lengthOf self r callers) := by
  unfold lengthOf
  grind

@[grind ←]
theorem getAt_confined (hs : self.IsConfined) (r : Nat) (i : Int) (callers : Callers) :
    Confined (getAt self r i callers) := hs.index ..

@[grind ←]
theorem setAt_confined (hs : self.IsConfined) (r : Nat) (i : Int) (v : Value) (callers : Callers) :
    Confined (setAt self r i v callers) := hs.setIndex ..

@[grind ←]
theorem collect_confined (hs : self.IsConfined) (r : Nat) (callers : Callers) (n : Nat) (i : Int) :
    Confined (collect self r callers n i) := by
  induction n generalizing i with
  | zero => exact .pure _
  | succ n ih =>
    unfold collect
    grind

@[grind ←]
theorem pieces_confined (callers : Callers) (vs : List Value) (i : Int) :
    Confined (concat.pieces callers vs i : Eval σ _) := by
  induction vs generalizing i with
  | nil => exact .pure _
  | cons v vs ih =>
    unfold concat.pieces
    grind

@[grind ←]
theorem concat_confined (hs : self.IsConfined) (args : List Value) (callers : Callers) :
    Confined (concat self args callers) := by
  unfold concat
  grind

@[grind ←]
theorem shiftUp_confined (hs : self.IsConfined) (r : Nat) (callers : Callers) (n : Nat) (i : Int) :
    Confined (shiftUp self r callers n i) := by
  induction n with
  | zero => exact .pure _
  | succ n ih =>
    unfold shiftUp
    grind

@[grind ←]
theorem insert_confined (hs : self.IsConfined) (args : List Value) (callers : Callers) :
    Confined (insert self args callers) := by
  unfold insert
  grind

@[grind ←]
theorem shiftDown_confined (hs : self.IsConfined) (r : Nat) (callers : Callers) (n : Nat) (i : Int) :
    Confined (shiftDown self r callers n i) := by
  induction n generalizing i with
  | zero => exact .pure _
  | succ n ih =>
    unfold shiftDown
    grind

@[grind ←]
theorem remove_confined (hs : self.IsConfined) (args : List Value) (callers : Callers) :
    Confined (remove self args callers) := by
  unfold remove
  grind

@[grind ←]
theorem pack_confined (args : List Value) : Confined (pack args : Eval σ _) := .onHeap fun _ => rfl

@[grind ←]
theorem unpack_confined (hs : self.IsConfined) (args : List Value) (callers : Callers) :
    Confined (unpack self args callers) := by
  unfold unpack
  grind

@[grind ←]
theorem goesBefore_confined (hs : self.IsConfined) (order : Value) (callers : Callers) (a b : Value) :
    Confined (goesBefore self order callers a b) := by
  unfold goesBefore
  grind

section Sorting

variable {before : Value → Value → Eval σ Bool} (hb : ∀ a b, Confined (before a b))
include hb

theorem orderPair_confined (vs : Array Value) (i j : Nat) : Confined (orderPair before vs i j) := by
  unfold orderPair
  grind

theorem scanUp_confined (callers : Callers) (vs : Array Value) (pivot : Value) (last fuel i : Nat) :
    Confined (scanUp before callers vs pivot last fuel i) := by
  induction fuel generalizing i with
  | zero => exact .pure _
  | succ fuel ih =>
    unfold scanUp
    grind

theorem scanDown_confined (callers : Callers) (vs : Array Value) (pivot : Value) (first fuel j : Nat) :
    Confined (scanDown before callers vs pivot first fuel j) := by
  induction fuel generalizing j with
  | zero => exact .pure _
  | succ fuel ih =>
    unfold scanDown
    grind

theorem partition_confined (callers : Callers) (pivot : Value) (up fuel : Nat) (vs : Array Value) (i j : Nat) :
    Confined (partition before callers pivot up fuel vs i j) := by
  induction fuel generalizing vs i j with
  | zero => exact .pure _
  | succ fuel ih =>
    unfold partition
    have up_confined := scanUp_confined hb callers
    have down_confined := scanDown_confined hb callers
    grind

theorem sortRange_confined (callers : Callers) (fuel : Nat) (vs : Array Value) (lo up : Nat) :
    Confined (sortRange before callers fuel vs lo up) := by
  induction fuel generalizing vs lo up with
  | zero => exact .pure _
  | succ fuel ih =>
    unfold sortRange
    have pair_confined := orderPair_confined hb
    have split_confined := partition_confined hb callers
    grind

end Sorting

@[grind ←]
theorem storeAll_confined (hs : self.IsConfined) (r : Nat) (callers : Callers) (vs : List Value) (i : Int) :
    Confined (storeAll self r callers vs i) := by
  induction vs generalizing i with
  | nil => exact .pure _
  | cons v vs ih =>
    unfold storeAll
    grind

@[grind ←]
theorem sort_confined (hs : self.IsConfined) (args : List Value) (callers : Callers) :
    Confined (sort self args callers) := by
  unfold sort
  have range_confined (order : Value) (callers : Callers) :=
    sortRange_confined (goesBefore_confined hs order callers) callers
  grind

@[grind ←]
theorem sub_confined (args : List Value) (callers : Callers) : Confined (sub args callers : Eval σ _) := by
  unfold sub
  grind

@[grind ←]
theorem mapBytes_confined (b : Builtin) (f : UInt8 → UInt8) (args : List Value) (callers : Callers) :
    Confined (mapBytes b f args callers : Eval σ _) := by
  unfold mapBytes
  grind

@[grind ←]
theorem rep_confined (args : List Value) (callers : Callers) : Confined (rep args callers : Eval σ _) := by
  unfold rep
  grind

@[grind ←]
theorem byte_confined (args : List Value) (callers : Callers) : Confined (byte args callers : Eval σ _) := by
  unfold byte
  grind

@[grind ←]
theorem charBytes_confined (args : List Value) (callers : Callers) (vs : List Value) (n : Nat) :
    Confined (charBytes args callers vs n : Eval σ _) := by
  induction vs generalizing n with
  | nil => exact .pure _
  | cons v vs ih =>
    unfold charBytes
    grind

@[grind ←]
theorem find_confined (args : List Value) (callers : Callers) : Confined (find args callers : Eval σ _) := by
  unfold find
  grind

@[grind ←]
theorem match_confined (args : List Value) (callers : Callers) : Confined (match_ args callers : Eval σ _) := by
  unfold match_
  grind

@[grind ←]
theorem gmatch_confined (args : List Value) (callers : Callers) : Confined (gmatch args callers : Eval σ _) := by
  unfold gmatch
  exact .bind (checkText_confined ..) fun t => .bind (checkText_confined ..) fun p =>
    .bind (optInt_confined ..) fun i => .onHeap fun _ => rfl

@[grind ←]
theorem matchesStep_confined (t p : ByteArray) (cell : Nat) (callers : Callers) :
    Confined (matchesStep t p cell callers : Eval σ _) := by
  unfold matchesStep
  grind

@[grind ←]
theorem formatParts_confined (hs : self.IsConfined) (args : List Value) (callers : Callers)
    (parts : List TemplatePart) (n : Nat) : Confined (formatParts self args callers parts n) := by
  induction parts generalizing n with
  | nil => exact .pure _
  | cons part parts ih =>
    unfold formatParts
    grind

@[grind ←]
theorem format_confined (hs : self.IsConfined) (args : List Value) (callers : Callers) :
    Confined (format self args callers) := by
  unfold format
  grind

@[grind ←]
theorem abs_confined (args : List Value) (callers : Callers) : Confined (abs args callers : Eval σ _) := by
  unfold abs
  grind

@[grind ←]
theorem floor_confined (args : List Value) (callers : Callers) : Confined (floor args callers : Eval σ _) := by
  unfold floor
  grind

@[grind ←]
theorem ceil_confined (args : List Value) (callers : Callers) : Confined (ceil args callers : Eval σ _) := by
  unfold ceil
  grind

@[grind ←]
theorem fmod_confined (args : List Value) (callers : Callers) : Confined (fmod args callers : Eval σ _) := by
  unfold fmod
  grind

@[grind ←]
theorem extreme_confined (b : Builtin) (beats : Ordering) (args : List Value) (callers : Callers)
    (n : Nat) (best : Num) (vs : List Value) : Confined (extreme b beats args callers n best vs : Eval σ _) := by
  induction vs generalizing n best with
  | nil => exact .pure _
  | cons v vs ih =>
    unfold extreme
    grind

@[grind ←]
theorem mathType_confined (args : List Value) (callers : Callers) : Confined (mathType args callers : Eval σ _) := by
  unfold mathType
  grind

@[grind ←]
theorem pcall_confined (hs : self.IsConfined) (args : List Value) (callers : Callers) :
    Confined (pcall self args callers) := by
  unfold pcall
  grind

@[grind ←]
theorem xpcall_confined (hs : self.IsConfined) (args : List Value) (callers : Callers) :
    Confined (xpcall self args callers) := by
  unfold xpcall
  grind

@[grind ←]
theorem ipairsStep_confined (hs : self.IsConfined) (args : List Value) (callers : Callers) :
    Confined (ipairsStep self args callers) := by
  unfold ipairsStep
  grind

@[grind ←]
theorem builtin_confined (b : Builtin) : Confined (builtin b : Eval σ _) := .onHeap fun _ => rfl

@[grind ←]
theorem pairs_confined (hs : self.IsConfined) (args : List Value) (callers : Callers) :
    Confined (pairs self args callers) := by
  unfold pairs
  grind

theorem run_confined (hs : self.IsConfined) (b : Builtin) (args : List Value) (callers : Callers) :
    Confined (run self b args callers) := by
  unfold run
  cases b <;> grind

end Triage.Script.Library
