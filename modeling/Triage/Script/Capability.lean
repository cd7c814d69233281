import Triage.Script.Machine
import Triage.Text.Upper
import Triage.Text.Utf8

/-!
The capabilities: what a script may ask of the host. None of them raises. A call with arguments that make no sense is
rejected: it reports one error, gives nothing, and changes nothing.
-/

namespace Triage.Script

variable {σ : Type}

def lossy (b : ByteArray) : String := Text.Utf8.decodeLossy b.toList

namespace HostObject

def newValue (o : HostObject) : Eval σ Value :=
  Eval.onHeap fun h => let (r, h) := h.newObject o; (.object r, h)

end HostObject

def newList (vs : List Value) : Eval σ Value :=
  Eval.onHeap fun h => let (r, h) := h.newTable (.ofList vs 0); (.table r, h)

namespace Capability

def textValue (s : String) : Value := .text s.toUTF8

def describe (self : Recur σ) (v : Value) (callers : Callers) : Eval σ String := do
  match ← Eval.attempt (self.display v callers) with
  | .ok t => pure (lossy t)
  | .error inner =>
    match ← Eval.attempt (self.display inner callers) with
    | .ok t => pure (lossy t)
    | .error _ => pure "error in error handling"

def guarded {α : Type} (self : Recur σ) (x : Eval σ α) (callers : Callers) : Eval σ (Except ScriptError α) := do
  match ← Eval.attempt x with
  | .ok a => pure (.ok a)
  | .error v => return .error (.raised (← describe self v callers))

def textOfResult : Value → Except ScriptError String
  | v =>
    match v.plainText? with
    | some b =>
      if Text.Utf8.isValid b.toList then .ok (lossy b)
      else .error (.conversion "error converting string to text (invalid utf-8)")
    | none => .error (.conversion ("error converting " ++ v.typeName ++ " to text"))

def displayText (self : Recur σ) (v : Value) (callers : Callers) : Eval σ String := do
  match v with
  | .text b => pure (lossy b)
  | v =>
    let globals ← Eval.readHeap (·.globals)
    let shown ← guarded self (do
      match ← self.index (.table globals) (ascii "tostring") callers with
      | .function f => return textOfResult (← self.call1 (.function f) [v] callers)
      | other => return .error (.conversion ("error converting " ++ other.typeName ++ " to function"))) callers
    match shown with
    | .ok (.ok s) => pure s
    | .ok (.error cause) => pure ("<" ++ cause.message ++ ">")
    | .error cause => pure ("<" ++ cause.message)

section Calls

variable [Host σ]

def report (e : Error) : Eval σ Unit := Eval.modifyHost (Host.report · e)

/-- A rejected call gives nothing, or no value at all. -/
def reject (e : Error) (answer : List Value) : Eval σ (List Value) := do
  report e
  pure answer

def messageIds (h : Heap) (vs : List Value) : List MessageId :=
  vs.filterMap fun
    | .object r =>
      match h.objects[r]? with
      | some (.message m) => some m.id
      | _ => none
    | _ => none

def targetIds (h : Heap) : Value → Except ArgumentError (List MessageId)
  | .object r => .ok (messageIds h [.object r])
  | .table r => .ok (messageIds h (h.table r).sequence)
  | v => .error (.tagTarget v.kind)

def tagWith (target : Value) (operations : List String) : Eval σ (Except Error Unit) := do
  match ← Eval.readHeap (targetIds · target) with
  | .error cause => pure (.error (.invalidArguments cause))
  | .ok ids =>
    if ids.isEmpty then pure (.error (.invalidArguments .noMessages))
    else if operations.isEmpty then pure (.error (.invalidArguments .noTags))
    else Eval.onHost (Host.tag · ids operations)

def tagCall (args : List Value) : Eval σ (List Value) := do
  match ← tagWith (args.headD .nil) ((args.drop 1).filterMap (·.plainText?.map lossy)) with
  | .ok () => pure []
  | .error e => reject e []

def option (self : Recur σ) (options : Nat) (field : String) (callers : Callers) : Eval σ (Except Error Value) :=
  return (← guarded self (self.index (.table options) (ascii field) (callers.push none)) callers).mapError .script

def textOption (self : Recur σ) (options : Nat) (field : String) (callers : Callers) :
    Eval σ (Except Error String) := do
  match ← option self options field callers with
  | .error e => pure (.error e)
  | .ok .nil => pure (.ok "")
  | .ok (.text b) => pure (.ok (lossy b))
  | .ok v => pure (.error (.invalidArguments (.optionText field v.kind)))

def offerOf : Value → Offer Nat
  | .nil => .nothing
  | .function f => .function f
  | _ => .other

def promptOptions (self : Recur σ) (options : Value) (callers : Callers) : Eval σ (Except Error PromptOptions) := do
  match options with
  | .table r =>
    match ← textOption self r "prompt" callers with
    | .error e => pure (.error e)
    | .ok label =>
      match ← textOption self r "placeholder" callers with
      | .error e => pure (.error e)
      | .ok placeholder =>
        match ← option self r "with_input" callers with
        | .error e => pure (.error e)
        | .ok callback =>
          match offerOf callback with
          | .other => pure (.error (.invalidArguments (.inputCallback callback.kind)))
          | .nothing => pure (.ok ⟨label, placeholder, none⟩)
          | .function f => pure (.ok ⟨label, placeholder, some f⟩)
  | v => pure (.error (.invalidArguments (.inputOptions v.kind)))

/-- Mints a handle for a prompt, registers its callback, and gives the command that opens it. -/
def newPrompt (o : PromptOptions) : Eval σ Value := do
  let handle ← Eval.onSession (·.mintInput o)
  HostObject.newValue (.command (.openInput o.label o.placeholder handle))

def inputCall (self : Recur σ) (args : List Value) (callers : Callers) : Eval σ (List Value) := do
  match ← promptOptions self (args.headD .nil) callers with
  | .ok o => return [← newPrompt o]
  | .error e => reject e [.nil]

def argvOf : List Value → Except ArgumentError (List String)
  | [] => .error .spawnEmpty
  | vs => vs.mapM fun
    | .text b => .ok (lossy b)
    | v => .error (.spawnArgument v.kind)

/-- The largest number of milliseconds that is kept. -/
def longest : Nat := 0xFFFFFFFFFFFFFFFF

def timeoutMillis : Value → Except ArgumentError (Option Nat)
  | .nil => .ok none
  | .int n => .ok (if 0 < n.toInt then some (min (n.toInt.toNat * 1000) longest) else none)
  | .float x =>
    .ok (if x.isFinite && 0.0 < x then some (max (x * 1000.0).round.toUInt64.toNat 1) else none)
  | v => .error (.spawnTimeout v.kind)

def registerOffer (handle : Handle) (offer : Offer Nat) : Eval σ Unit := do
  let refused ← Eval.onSession fun s =>
    match s.register handle offer with
    | .ok s => (none, s)
    | .error e => (some e, s)
  match refused with
  | some e => report e
  | none => pure ()

def argvTable (self : Recur σ) (options : Nat) (callers : Callers) : Eval σ (Except Error Nat) := do
  match ← option self options "argv" callers with
  | .error e => pure (.error e)
  | .ok (.table r) => pure (.ok r)
  | .ok .nil => pure (.ok options)
  | .ok v => pure (.error (.invalidArguments (.spawnArgv v.kind)))

structure SpawnOptions where
  argv : List String
  timeoutMillis : Option Nat
  table : Nat

def spawnOptions (self : Recur σ) (options : Value) (callers : Callers) : Eval σ (Except Error SpawnOptions) := do
  match options with
  | .table r =>
    match ← argvTable self r callers with
    | .error e => pure (.error e)
    | .ok list =>
      match argvOf (← Eval.readHeap fun h => (h.table list).sequence) with
      | .error cause => pure (.error (.invalidArguments cause))
      | .ok argv =>
        match ← option self r "timeout" callers with
        | .error e => pure (.error e)
        | .ok timeout =>
          match timeoutMillis timeout with
          | .error cause => pure (.error (.invalidArguments cause))
          | .ok timeoutMillis => pure (.ok ⟨argv, timeoutMillis, r⟩)
  | v => pure (.error (.invalidArguments (.spawnOptions v.kind)))

/-- Mints a handle for a program, reads what is to be called with its result, and then accepts the request. -/
def launch (argv : List String) (timeoutMillis : Option Nat) (offered : Eval σ (Except Error Value)) :
    Eval σ (Except Error Unit) := do
  let handle ← Eval.onSession Session.mintSpawn
  match ← offered with
  | .error e => pure (.error e)
  | .ok callback =>
    registerOffer handle (offerOf callback)
    Eval.onSession fun s => (.ok (), s.accept { argv, timeoutMillis, handle })

def spawnCall (self : Recur σ) (args : List Value) (callers : Callers) : Eval σ (List Value) := do
  match ← spawnOptions self (args.headD .nil) callers with
  | .error e => reject e []
  | .ok o =>
    match ← launch o.argv o.timeoutMillis (option self o.table "next" callers) with
    | .ok () => pure []
    | .error e => reject e []

def readColors (self : Recur σ) (fields : Nat) (callers : Callers) :
    List Theme.Color → Theme → Eval σ (Except Error Theme)
  | [], theme => pure (.ok theme)
  | color :: rest, theme => do
    match ← option self fields color.name callers with
    | .error e => pure (.error e)
    | .ok v =>
      let theme := match v.plainText? with
        | some b => color.set theme (lossy b)
        | none => theme
      readColors self fields callers rest theme

def setThemeCall (self : Recur σ) (args : List Value) (callers : Callers) : Eval σ (List Value) := do
  match args.headD .nil with
  | .table r =>
    match ← readColors self r callers Theme.colors {} with
    | .ok theme =>
      Eval.modifyHost (Host.setTheme · theme)
      pure []
    | .error e => reject e []
  | v => reject (.invalidArguments (.theme v.kind)) []

def setStatusCall (self : Recur σ) (args : List Value) (callers : Callers) : Eval σ (List Value) := do
  let text ← match args.headD .nil with
    | .nil => pure ""
    | v => displayText self v (callers.push none)
  return [← HostObject.newValue (.command (.setStatus text))]

def newQueryCall (args : List Value) : Eval σ (List Value) := do
  match args.headD .nil with
  | .text b => return [← HostObject.newValue (.command (.newQuery (lossy b)))]
  | v => reject (.invalidArguments (.queryText v.kind)) [.nil]

def messageValues : List Message → Eval σ (List Value)
  | [] => pure []
  | m :: rest => do
    let v ← HostObject.newValue (.message m)
    return v :: (← messageValues rest)

def listMessages (get : σ → List Message) : Eval σ (List Value) := do
  return [← newList (← messageValues (← Eval.readHost get))]

def selectedMessageCall : Eval σ (List Value) := do
  match ← Eval.readHost Host.selectedMessage? with
  | some m => return [← HostObject.newValue (.message m)]
  | none => pure [.nil]

def logIndexCall (args : List Value) : Eval σ (List Value) := do
  match args.getD 1 .nil with
  | .text level =>
    Eval.onHeap fun h =>
      let (r, h) := h.newFunction (.capability (.logLine (Text.upper (lossy level))))
      ([.function r], h)
  | _ => reject (.invalidArguments .logLevel) [.nil]

def logLineCall (self : Recur σ) (level : String) (args : List Value) (callers : Callers) : Eval σ (List Value) := do
  let message ← displayText self (args.headD .nil) (callers.push none)
  Eval.modifyHost (Host.log · level message)
  pure []

def run (self : Recur σ) (c : Capability) (args : List Value) (callers : Callers) : Eval σ (List Value) :=
  match c with
  | .act a => do return [← HostObject.newValue (.command a.command)]
  | .setStatus => setStatusCall self args callers
  | .getStatus => do return [textValue (← Eval.readHost Host.status)]
  | .allMessages => listMessages Host.allMessages
  | .markedMessages => listMessages Host.markedMessages
  | .selectedMessage => selectedMessageCall
  | .newQuery => newQueryCall args
  | .logIndex => logIndexCall args
  | .logLine level => logLineCall self level args callers
  | .tag => tagCall args
  | .input => inputCall self args callers
  | .spawn => spawnCall self args callers
  | .setTheme => setThemeCall self args callers

end Calls
end Capability
end Triage.Script
