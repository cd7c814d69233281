import Triage.Command
import Triage.Prompts

/-! Commands by their leaves. What a list of commands stands for are its leaves in order; as one command it has the
same ones, and no batch is made without need. -/

namespace Triage.Command

def IsLeaf : Command → Prop
  | .batch _ => False
  | _ => True

theorem IsLeaf.leaves_eq {c : Command} (hc : c.IsLeaf) : c.leaves = [c] := by
  cases c with
  | batch => exact hc.elim
  | _ => rfl

theorem leavesOf_append (cs ds : List Command) : leavesOf (cs ++ ds) = leavesOf cs ++ leavesOf ds := by
  induction cs with
  | nil => rfl
  | cons c cs ih => simp only [List.cons_append, leavesOf, ih, List.append_assoc]

theorem leavesOf_ofList (cs : List Command) : leavesOf (ofList cs).toList = leavesOf cs := by
  match cs with
  | [] => rfl
  | [c] => rfl
  | c :: d :: cs => simp [ofList, leavesOf, leaves]

theorem leavesOf_eq_self {cs : List Command} (hcs : ∀ c ∈ cs, c.IsLeaf) : leavesOf cs = cs := by
  induction cs with
  | nil => rfl
  | cons c cs ih =>
    have hrest := ih fun d hd => hcs d (List.mem_cons_of_mem c hd)
    rw [leavesOf, (hcs c List.mem_cons_self).leaves_eq, hrest, List.singleton_append]

mutual

def isNormal : Command → Bool
  | .batch items => 2 ≤ items.length && areNormal items
  | _ => true

def areNormal : List Command → Bool
  | [] => true
  | c :: rest => c.isNormal && areNormal rest

end

theorem areNormal_append (cs ds : List Command) : areNormal (cs ++ ds) = (areNormal cs && areNormal ds) := by
  induction cs with
  | nil => rfl
  | cons c cs ih => simp only [List.cons_append, areNormal, ih, Bool.and_assoc]

theorem areNormal_ofList {cs : List Command} (hcs : areNormal cs) : areNormal (ofList cs).toList := by
  match cs with
  | [] => rfl
  | [c] => exact hcs
  | c :: d :: cs => simpa [ofList, areNormal, isNormal] using hcs

theorem areNormal_of_isLeaf {cs : List Command} (hcs : ∀ c ∈ cs, c.IsLeaf) : areNormal cs := by
  induction cs with
  | nil => rfl
  | cons c cs ih =>
    have hrest := ih fun d hd => hcs d (List.mem_cons_of_mem c hd)
    have hc := hcs c List.mem_cons_self
    cases c with
    | batch => exact hc.elim
    | _ => simpa [areNormal, isNormal] using hrest

def spawn? : Command → Option SpawnRequest
  | .spawn r => some r
  | _ => none

def prompt? : Command → Option Prompt
  | .openInput label placeholder handle => some ⟨label, placeholder, handle⟩
  | _ => none

theorem leavesOf_spawns (rs : List SpawnRequest) : leavesOf (rs.map .spawn) = rs.map .spawn := by
  refine leavesOf_eq_self fun c hc => ?_
  obtain ⟨r, -, rfl⟩ := List.mem_map.mp hc
  trivial

theorem filterMap_spawn?_spawns (rs : List SpawnRequest) : (rs.map Command.spawn).filterMap spawn? = rs := by
  induction rs with
  | nil => rfl
  | cons r rs ih =>
    rw [List.map_cons, List.filterMap_cons_some (show spawn? (.spawn r) = some r from rfl), ih]

theorem filterMap_prompt?_spawns (rs : List SpawnRequest) : (rs.map Command.spawn).filterMap prompt? = [] := by
  induction rs with
  | nil => rfl
  | cons r rs ih =>
    rw [List.map_cons, List.filterMap_cons_none (show prompt? (.spawn r) = none from rfl)]
    exact ih

end Triage.Command
