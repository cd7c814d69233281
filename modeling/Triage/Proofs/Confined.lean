import Triage.Script.Evaluate

/-! Computations that reach beyond the script's own memory only as capabilities do. What running scripts can do to
the session and the host follows by induction over `Confined`, and the evaluator is gone through only once. -/

namespace Triage.Script

variable {σ : Type}

/-- What scripts are handed without a handle being minted: no batch and no spawn command is among it. -/
def HostObject.IsPlain : HostObject → Prop
  | .command (.openInput ..) => False
  | .command (.batch _) => False
  | .command (.spawn _) => False
  | _ => True

inductive Confined [Host σ] : {α : Type} → Eval σ α → Prop
  | pure {α : Type} (a : α) : Confined (pure a : Eval σ α)
  | raise {α : Type} (v : Value) : Confined (Eval.raise v : Eval σ α)
  | exhausted {α : Type} : Confined (fun _ => .exhausted : Eval σ α)
  | bind {α β : Type} {x : Eval σ α} {f : α → Eval σ β} : Confined x → (∀ a, Confined (f a)) → Confined (x >>= f)
  | attempt {α : Type} {x : Eval σ α} : Confined x → Confined (Eval.attempt x)
  | readHeap {α : Type} (f : Heap → α) : Confined (Eval.readHeap f : Eval σ α)
  | onHeap {α : Type} {f : Heap → α × Heap} :
    (∀ h, (f h).2.objects = h.objects) → Confined (Eval.onHeap f : Eval σ α)
  | newValue {o : HostObject} : o.IsPlain → Confined (o.newValue : Eval σ Value)
  | readHost {α : Type} (f : σ → α) : Confined (Eval.readHost f : Eval σ α)
  | tag (ids : List MessageId) (operations : List String) :
      Confined (Eval.onHost (Host.tag · ids operations) : Eval σ _)
  | setTheme (theme : Theme) : Confined (Eval.modifyHost (Host.setTheme · theme) : Eval σ Unit)
  | log (level message : String) : Confined (Eval.modifyHost (Host.log · level message) : Eval σ Unit)
  | report (e : Error) : Confined (Capability.report e : Eval σ Unit)
  | newPrompt (o : PromptOptions) : Confined (Capability.newPrompt o : Eval σ Value)
  | launch (argv : List String) (timeoutMillis : Option Nat) {offered : Eval σ (Except Error Value)} :
    Confined offered → Confined (Capability.launch argv timeoutMillis offered)

attribute [grind .] Confined.pure Confined.raise Confined.exhausted Confined.bind Confined.attempt Confined.readHeap
  Confined.onHeap Confined.newValue Confined.readHost Confined.report Confined.newPrompt Confined.launch

def Recur.IsConfined [Host σ] (self : Recur σ) : Prop := ∀ t, Confined (self t)

namespace Heap

@[grind =]
theorem rawSet_objects (h : Heap) (r : Nat) (k : Key) (v : Value) : (h.rawSet r k v).objects = h.objects := rfl

@[grind =]
theorem setTable_objects (h : Heap) (r : Nat) (t : Table) : (h.setTable r t).objects = h.objects := rfl

@[grind =]
theorem setCell_objects (h : Heap) (r : Nat) (v : Value) : (h.setCell r v).objects = h.objects := rfl

@[grind =]
theorem newTable_objects (h : Heap) (t : Table) : (h.newTable t).2.objects = h.objects := rfl

@[grind =]
theorem newFunction_objects (h : Heap) (f : Function) : (h.newFunction f).2.objects = h.objects := rfl

end Heap

section Primitives

variable [Host σ] {α : Type} {self : Recur σ}

@[grind ←]
theorem Confined.modifyHeap {f : Heap → Heap} (hf : ∀ h, (f h).objects = h.objects) :
    Confined (Eval.modifyHeap f : Eval σ Unit) := by
  change Confined (Eval.onHeap fun h => ((), f h))
  exact .onHeap hf

@[grind ←]
theorem Confined.fail (callers : Callers) (message : String) (level : Nat) :
    Confined (fail callers message level : Eval σ α) := by
  change Confined (Eval.readHeap (fun h => position h.chunk (callers.lineAt level)) >>= fun at_ =>
    (Eval.raise (.text (at_ ++ message).toUTF8) : Eval σ α))
  exact .bind (.readHeap _) fun _ => .raise _

@[grind ←]
theorem Recur.IsConfined.call (hs : self.IsConfined) (f : Value) (args : List Value) (callers : Callers) :
    Confined (self.call f args callers) := hs _

@[grind ←]
theorem Recur.IsConfined.eval (hs : self.IsConfined) (ctx : Context) (e : Expr) : Confined (self.eval ctx e) := hs _

@[grind ←]
theorem Recur.IsConfined.exec (hs : self.IsConfined) (ctx : Context) (body : Block) :
    Confined (self.exec ctx body) := hs _

@[grind ←]
theorem Recur.IsConfined.index (hs : self.IsConfined) (object key : Value) (callers : Callers) :
    Confined (self.index object key callers) := hs _

@[grind ←]
theorem Recur.IsConfined.setIndex (hs : self.IsConfined) (object key value : Value) (callers : Callers) :
    Confined (self.setIndex object key value callers) := hs _

@[grind ←]
theorem Recur.IsConfined.display (hs : self.IsConfined) (v : Value) (callers : Callers) :
    Confined (self.display v callers) := hs _

@[grind ←]
theorem Recur.IsConfined.call1 (hs : self.IsConfined) (f : Value) (args : List Value) (callers : Callers) :
    Confined (self.call1 f args callers) := by
  unfold Recur.call1
  grind

end Primitives
end Triage.Script
