import Triage.Proofs.ConfinedLibrary

/-! Every evaluation is confined, with any fuel: its parts are, and they are put together by binds and attempts. -/

namespace Triage.Script

variable {σ : Type} [Host σ] {self : Recur σ}

@[grind ←]
theorem newList_confined (vs : List Value) : Confined (newList vs : Eval σ Value) := .onHeap fun _ => rfl

namespace Capability

@[grind ←]
theorem describe_confined (hs : self.IsConfined) (v : Value) (callers : Callers) :
    Confined (describe self v callers) := by
  unfold describe
  grind

@[grind ←]
theorem guarded_confined {α : Type} (hs : self.IsConfined) {x : Eval σ α} (hx : Confined x) (callers : Callers) :
    Confined (guarded self x callers) := by
  unfold guarded
  grind

@[grind ←]
theorem displayText_confined (hs : self.IsConfined) (v : Value) (callers : Callers) :
    Confined (displayText self v callers) := by
  unfold displayText
  split
  · exact .pure _
  · refine .bind (.readHeap _) fun globals => .bind (guarded_confined hs ?_ _) fun shown => ?_
    · grind
    · grind

@[grind ←]
theorem reject_confined (e : Error) (answer : List Value) : Confined (reject e answer : Eval σ _) := by
  unfold reject
  grind

@[grind ←]
theorem tagWith_confined (target : Value) (operations : List String) :
    Confined (tagWith target operations : Eval σ _) := by
  unfold tagWith
  refine .bind (.readHeap _) fun found => ?_
  split
  · exact .pure _
  · split
    · exact .pure _
    · split
      · exact .pure _
      · exact .tag _ operations

@[grind ←]
theorem tagCall_confined (args : List Value) : Confined (tagCall args : Eval σ _) := by
  unfold tagCall
  grind

@[grind ←]
theorem option_confined (hs : self.IsConfined) (options : Nat) (field : String) (callers : Callers) :
    Confined (option self options field callers) := by
  unfold option
  grind

@[grind ←]
theorem textOption_confined (hs : self.IsConfined) (options : Nat) (field : String) (callers : Callers) :
    Confined (textOption self options field callers) := by
  unfold textOption
  grind

@[grind ←]
theorem promptOptions_confined (hs : self.IsConfined) (options : Value) (callers : Callers) :
    Confined (promptOptions self options callers) := by
  unfold promptOptions
  split
  · refine .bind (textOption_confined hs ..) fun label => ?_
    split
    · exact .pure _
    · refine .bind (textOption_confined hs ..) fun placeholder => ?_
      grind
  · exact .pure _

@[grind ←]
theorem inputCall_confined (hs : self.IsConfined) (args : List Value) (callers : Callers) :
    Confined (inputCall self args callers) := by
  unfold inputCall
  grind

@[grind ←]
theorem argvTable_confined (hs : self.IsConfined) (options : Nat) (callers : Callers) :
    Confined (argvTable self options callers) := by
  unfold argvTable
  grind

@[grind ←]
theorem spawnOptions_confined (hs : self.IsConfined) (options : Value) (callers : Callers) :
    Confined (spawnOptions self options callers) := by
  unfold spawnOptions
  split
  · refine .bind (argvTable_confined hs ..) fun list => ?_
    split
    · exact .pure _
    · refine .bind (.readHeap _) fun arguments => ?_
      grind
  · exact .pure _

@[grind ←]
theorem spawnCall_confined (hs : self.IsConfined) (args : List Value) (callers : Callers) :
    Confined (spawnCall self args callers) := by
  unfold spawnCall
  grind

@[grind ←]
theorem readColors_confined (hs : self.IsConfined) (fields : Nat) (callers : Callers) (colors : List Theme.Color)
    (theme : Theme) : Confined (readColors self fields callers colors theme) := by
  induction colors generalizing theme with
  | nil => exact .pure _
  | cons color colors ih =>
    unfold readColors
    grind

@[grind ←]
theorem setThemeCall_confined (hs : self.IsConfined) (args : List Value) (callers : Callers) :
    Confined (setThemeCall self args callers) := by
  unfold setThemeCall
  split
  · refine .bind (readColors_confined hs ..) fun read => ?_
    split
    · exact .bind (.setTheme _) fun _ => .pure _
    · exact reject_confined ..
  · exact reject_confined ..

@[grind ←]
theorem setStatusCall_confined (hs : self.IsConfined) (args : List Value) (callers : Callers) :
    Confined (setStatusCall self args callers) := by
  unfold setStatusCall
  have plain (text : String) : HostObject.IsPlain (.command (.setStatus text)) := trivial
  grind

@[grind ←]
theorem newQueryCall_confined (args : List Value) : Confined (newQueryCall args : Eval σ _) := by
  unfold newQueryCall
  have plain (text : String) : HostObject.IsPlain (.command (.newQuery text)) := trivial
  grind

@[grind ←]
theorem messageValues_confined (ms : List Message) : Confined (messageValues ms : Eval σ _) := by
  induction ms with
  | nil => exact .pure _
  | cons m ms ih =>
    have plain : HostObject.IsPlain (.message m) := trivial
    unfold messageValues
    grind

@[grind ←]
theorem listMessages_confined (get : σ → List Message) : Confined (listMessages get) := by
  unfold listMessages
  grind

@[grind ←]
theorem selectedMessageCall_confined : Confined (selectedMessageCall : Eval σ _) := by
  unfold selectedMessageCall
  have plain (m : Message) : HostObject.IsPlain (.message m) := trivial
  grind

@[grind ←]
theorem logIndexCall_confined (args : List Value) : Confined (logIndexCall args : Eval σ _) := by
  unfold logIndexCall
  grind

@[grind ←]
theorem logLineCall_confined (hs : self.IsConfined) (level : String) (args : List Value) (callers : Callers) :
    Confined (logLineCall self level args callers) := by
  unfold logLineCall
  exact .bind (displayText_confined hs ..) fun message => .bind (.log level message) fun _ => .pure _

theorem run_confined (hs : self.IsConfined) (c : Capability) (args : List Value) (callers : Callers) :
    Confined (run self c args callers) := by
  unfold run
  have plain (a : Action) : HostObject.IsPlain (.command a.command) := by cases a <;> trivial
  cases c <;> grind

end Capability

theorem HostObject.field_confined (name : String) (o : HostObject) {read : Eval σ Value}
    (h : o.field name = some read) : Confined read := by
  cases o with
  | command c =>
    unfold HostObject.field at h
    grind
  | message m =>
    unfold HostObject.field HostObject.messageField at h
    grind

namespace Access

@[grind ←]
theorem objectField_confined (r : Nat) (key : Value) : Confined (objectField r key : Eval σ Value) := by
  unfold objectField
  refine .bind (.readHeap _) fun found => ?_
  cases h : found.bind (HostObject.field (σ := σ) ((key.plainText?.map lossy).getD "")) with
  | none => exact .raise _
  | some read =>
    obtain ⟨o, -, ho⟩ := Option.bind_eq_some_iff.mp h
    exact HostObject.field_confined _ o ho

@[grind ←]
theorem get_confined (hs : self.IsConfined) (key : Value) (callers : Callers) (fuel : Nat) (object : Value) :
    Confined (get self key callers fuel object) := by
  induction fuel generalizing object with
  | zero => exact .fail ..
  | succ fuel ih =>
    unfold get
    have noField_confined (v : Value) : Confined (noField v callers : Eval σ Value) := .fail ..
    grind

@[grind ←]
theorem setOwn_confined (key : Value) (callers : Callers) (r : Nat) (value : Value) :
    Confined (setOwn key callers r value : Eval σ Unit) := by
  unfold setOwn
  grind

@[grind ←]
theorem set_confined (hs : self.IsConfined) (key : Value) (callers : Callers) (value : Value) (fuel : Nat)
    (object : Value) : Confined (set self key callers value fuel object) := by
  induction fuel generalizing object with
  | zero => exact .fail ..
  | succ fuel ih =>
    unfold set
    have noField_confined (v : Value) : Confined (noField v callers : Eval σ Unit) := .fail ..
    have drop_confined (f : Value) (args : List Value) (callers : Callers) :
        Confined (discard (self.call f args callers) : Eval σ Unit) := .bind (hs.call ..) fun _ => .pure _
    grind

@[grind ←]
theorem display_confined (hs : self.IsConfined) (v : Value) (callers : Callers) :
    Confined (display self v callers) := by
  unfold display
  grind

end Access

namespace Operation

@[grind ←]
theorem handlerOf_confined (event : String) (a b : Value) :
    Confined (handlerOf event a b : Eval σ Value) := .readHeap _

@[grind ←]
theorem binary_confined (hs : self.IsConfined) (op : BinaryOp) (a b : Value) (callers : Callers) :
    Confined (binary self op a b callers) := by
  unfold binary
  grind

@[grind ←]
theorem ordered_confined (hs : self.IsConfined) (plain : Option Bool) (event : String) (a b : Value)
    (callers : Callers) : Confined (ordered self plain event a b callers) := by
  unfold ordered notComparable
  grind

@[grind ←]
theorem sameObject_confined (a b : Option HostObject) : Confined (sameObject a b : Eval σ Bool) := by
  unfold sameObject
  grind

@[grind ←]
theorem equal_confined (hs : self.IsConfined) (a b : Value) (callers : Callers) :
    Confined (equal self a b callers) := by
  unfold equal
  grind

@[grind ←]
theorem apply_confined (hs : self.IsConfined) (op : BinaryOp) (a b : Value) (callers : Callers) :
    Confined (apply self op a b callers) := by
  unfold apply less lessEqual
  grind

@[grind ←]
theorem unaryFallback_confined (hs : self.IsConfined) (plain : Applied) (event attempted : String) (v : Value)
    (callers : Callers) : Confined (unaryFallback self plain event attempted v callers) := by
  unfold unaryFallback
  grind

@[grind ←]
theorem length_confined (hs : self.IsConfined) (v : Value) (callers : Callers) : Confined (length self v callers) := by
  unfold length
  grind

@[grind ←]
theorem applyUnary_confined (hs : self.IsConfined) (op : UnaryOp) (v : Value) (callers : Callers) :
    Confined (applyUnary self op v callers) := by
  unfold applyUnary
  grind

end Operation

theorem declareNames_objects (names : List Name) (vs : List Value) (locals : Locals) (h : Heap) :
    (declareNames names vs locals h).2.objects = h.objects := by
  induction names generalizing vs locals h with
  | nil => rfl
  | cons n ns ih => exact ih ..

@[grind ←]
theorem declare_confined (names : List Name) (vs : List Value) (locals : Locals) :
    Confined (declare names vs locals : Eval σ Locals) := .onHeap (declareNames_objects names vs locals)

@[grind ←]
theorem newClosure_confined (f : FunctionBody) (locals : Locals) : Confined (newClosure f locals : Eval σ Value) :=
  .onHeap fun _ => rfl

namespace Expression

@[grind ←]
theorem first_confined (hs : self.IsConfined) (ctx : Context) (e : Expr) : Confined (first self ctx e) := by
  unfold first
  grind

@[grind ←]
theorem all_confined (hs : self.IsConfined) (ctx : Context) (es : List Expr) : Confined (all self ctx es) := by
  induction es with
  | nil => exact .pure _
  | cons e es ih =>
    unfold all
    grind

@[grind ←]
theorem environment_confined (ctx : Context) : Confined (environment ctx : Eval σ Value) := .readHeap _

@[grind ←]
theorem name_confined (hs : self.IsConfined) (ctx : Context) (n : Name) (line : Nat) :
    Confined (name self ctx n line) := by
  unfold name
  grind

@[grind ←]
theorem items_confined (hs : self.IsConfined) (ctx : Context) (is : List Item) : Confined (items self ctx is) := by
  induction is with
  | nil => exact .pure _
  | cons item is ih =>
    unfold items
    grind

@[grind ←]
theorem eval_confined (hs : self.IsConfined) (ctx : Context) (e : Expr) : Confined (eval self ctx e) := by
  unfold eval
  cases e <;> grind

end Expression

namespace Statement

variable (hs : self.IsConfined) (ctx : Context)
include hs

@[grind ←]
theorem place_confined (target : Expr) : Confined (place self ctx target) := by
  unfold place
  grind

@[grind ←]
theorem places_confined (targets : List Expr) : Confined (places self ctx targets) := by
  induction targets with
  | nil => exact .pure _
  | cons target targets ih =>
    unfold places
    grind

@[grind ←]
theorem store_confined (callers : Callers) (ps : List Place) (vs : List Value) :
    Confined (store self callers ps vs) := by
  induction ps generalizing vs with
  | nil => exact .pure _
  | cons p ps ih =>
    unfold store
    grind

omit hs in
@[grind ←]
theorem notANumber_confined {α : Type} (what : String) (v : Value) (callers : Callers) :
    Confined (notANumber what v callers : Eval σ α) := .fail ..

omit hs in
@[grind ←]
theorem startCount_confined (first last step : Value) (callers : Callers) :
    Confined (startCount first last step callers : Eval σ _) := by
  unfold startCount
  split
  · grind
  · grind

omit hs in
@[grind ←]
theorem afterRound_confined (flow : Flow) {again : Eval σ Flow} (h : Confined again) :
    Confined (afterRound ctx flow again) := by
  unfold afterRound
  grind

theorem whileLoop_confined (condition : Expr) (body : Block) : Confined (whileLoop self ctx condition body) := by
  unfold whileLoop
  have again_confined : Confined (α := Flow) (self (.whileLoop ctx condition body)) := hs _
  grind

theorem repeatLoop_confined (body : Block) (condition : Expr) : Confined (repeatLoop self ctx body condition) := by
  unfold repeatLoop
  have again_confined : Confined (α := Flow) (self (.repeatLoop ctx body condition)) := hs _
  grind

theorem countLoop_confined (name : Name) (current step : Num) (limit : CountLimit) (body : Block) :
    Confined (countLoop self ctx name current step limit body) := by
  unfold countLoop
  have again_confined (next : Num) (limit : CountLimit) :
      Confined (α := Flow) (self (.countLoop ctx name next step limit body)) := hs _
  grind

theorem eachLoop_confined (names : List Name) (f state control : Value) (body : Block) (line : Nat) :
    Confined (eachLoop self ctx names f state control body line) := by
  unfold eachLoop
  have again_confined (control : Value) :
      Confined (α := Flow) (self (.eachLoop ctx names f state control body line)) := hs _
  grind

@[grind ←]
theorem ret_confined (values : List Expr) : Confined (ret self ctx values) := by
  unfold ret
  grind

@[grind ←]
theorem exec_confined (s : Stmt) : Confined (exec self ctx s) := by
  have while_confined (condition : Expr) (body : Block) :
      Confined (α := Flow) (self (.whileLoop ctx condition body)) := hs _
  have repeat_confined (body : Block) (condition : Expr) :
      Confined (α := Flow) (self (.repeatLoop ctx body condition)) := hs _
  have count_confined (name : Name) (current step : Num) (limit : CountLimit) (body : Block) :
      Confined (α := Flow) (self (.countLoop ctx name current step limit body)) := hs _
  have each_confined (names : List Name) (f state control : Value) (body : Block) (line : Nat) :
      Confined (α := Flow) (self (.eachLoop ctx names f state control body line)) := hs _
  unfold exec
  cases s <;> grind

@[grind ←]
theorem settle_confined (flow : Flow) : Confined (settle self ctx flow) := by
  unfold settle
  grind

@[grind ←]
theorem close_confined (name : Name) (v : Value) (line : Nat) {rest : Eval σ Flow} (h : Confined rest) :
    Confined (close self ctx name v line rest) := by
  unfold close
  grind

@[grind ←]
theorem statements_confined (body : Block) : Confined (statements self ctx body) := by
  induction body generalizing ctx with
  | nil => exact .pure _
  | cons s body ih =>
    unfold statements
    grind

@[grind ←]
theorem arrive_confined (body : Block) (flow : Flow) : Confined (arrive self ctx body flow) := by
  unfold arrive
  have resume_confined (label : Name) (locals : Locals) :
      Confined (α := Flow) (self (.resume ctx body label locals)) := hs _
  grind

theorem block_confined (body : Block) : Confined (block self ctx body) := by
  unfold block
  grind

theorem resume_confined (body : Block) (label : Name) (locals : Locals) :
    Confined (resume self ctx body label locals) := by
  unfold resume
  grind

end Statement

namespace Evaluate

@[grind ←]
theorem closureCall_confined (hs : self.IsConfined) (body : FunctionBody) (locals : Locals) (args : List Value)
    (callers : Callers) : Confined (closureCall self body locals args callers) := by
  unfold closureCall
  grind

@[grind ←]
theorem otherCall_confined (hs : self.IsConfined) (v : Value) (args : List Value) (callers : Callers) :
    Confined (otherCall self v args callers) := by
  unfold otherCall
  grind

theorem call_confined (hs : self.IsConfined) (f : Value) (args : List Value) (callers : Callers) :
    Confined (call self f args callers) := by
  have builtin_confined (b : Builtin) : Confined (Library.run self b args callers) := Library.run_confined hs ..
  have capability_confined (c : Capability) : Confined (Capability.run self c args callers) :=
    Capability.run_confined hs ..
  unfold call
  grind

theorem step_confined (hs : self.IsConfined) (t : Task) : Confined (step self t) := by
  cases t with
  | call f args callers => exact call_confined hs ..
  | eval ctx e => exact Expression.eval_confined hs ..
  | exec ctx body => exact Statement.block_confined hs ..
  | resume ctx body label locals => exact Statement.resume_confined hs ..
  | whileLoop ctx condition body => exact Statement.whileLoop_confined hs ..
  | repeatLoop ctx body condition => exact Statement.repeatLoop_confined hs ..
  | countLoop ctx name current step limit body => exact Statement.countLoop_confined hs ..
  | eachLoop ctx names f state control body line => exact Statement.eachLoop_confined hs ..
  | index object key callers => exact Access.get_confined hs ..
  | setIndex object key value callers => exact Access.set_confined hs ..
  | display v callers => exact Access.display_confined hs ..

end Evaluate

/-- Whatever a script does, it does through its capabilities. -/
theorem evaluate_confined (fuel : Nat) : (evaluate fuel : Recur σ).IsConfined := by
  induction fuel with
  | zero => exact fun _ => .exhausted
  | succ fuel ih => exact fun t => Evaluate.step_confined ih t

end Triage.Script
