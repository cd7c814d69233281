import Triage.Script.Machine
import Triage.Text.Utf8

/-! What a script finds when it starts: its libraries, the table of keys, and the capabilities. -/

namespace Triage.Script

namespace Heap

def addFunction (h : Heap) (t : Nat) (name : String) (f : Function) : Heap :=
  let (r, h) := h.newFunction f
  h.rawSet t (.text name.toUTF8) (.function r)

def addFunctions (h : Heap) (t : Nat) (members : List (String × Function)) : Heap :=
  members.foldl (fun h (name, f) => h.addFunction t name f) h

def addGroup (h : Heap) (owner : Nat) (name : String) (members : List (String × Function)) : Nat × Heap :=
  let (t, h) := h.newTable {}
  (t, (h.rawSet owner (.text name.toUTF8) (.table t)).addFunctions t members)

end Heap

namespace Globals

def basic : List (String × Function) :=
  [("assert", .builtin .assert), ("error", .builtin .error), ("getmetatable", .builtin .getmetatable),
   ("ipairs", .builtin .ipairs), ("next", .builtin .next), ("pairs", .builtin .pairs), ("pcall", .builtin .pcall),
   ("print", .builtin .print), ("rawequal", .builtin .rawequal), ("rawget", .builtin .rawget),
   ("rawlen", .builtin .rawlen), ("rawset", .builtin .rawset), ("select", .builtin .select),
   ("setmetatable", .builtin .setmetatable), ("tonumber", .builtin .tonumber), ("tostring", .builtin .tostring),
   ("type", .builtin .type), ("xpcall", .builtin .xpcall)]

def tables : List (String × Function) :=
  [("concat", .builtin .concat), ("insert", .builtin .insert), ("pack", .builtin .pack), ("remove", .builtin .remove),
   ("sort", .builtin .sort), ("unpack", .builtin .unpack)]

def texts : List (String × Function) :=
  [("byte", .builtin .byte), ("char", .builtin .char), ("find", .builtin .find), ("format", .builtin .format),
   ("gmatch", .builtin .gmatch), ("len", .builtin .len), ("lower", .builtin .lower), ("match", .builtin .match_),
   ("rep", .builtin .rep), ("reverse", .builtin .reverse), ("sub", .builtin .sub), ("upper", .builtin .upper)]

def numbers : List (String × Function) :=
  [("abs", .builtin .abs), ("ceil", .builtin .ceil), ("floor", .builtin .floor), ("fmod", .builtin .fmod),
   ("max", .builtin .max), ("min", .builtin .min), ("sqrt", .builtin .sqrt), ("tointeger", .builtin .tointeger),
   ("type", .builtin .mathType)]

def constants : List (String × Value) :=
  [("pi", .float 3.141592653589793), ("huge", .float (1.0 / 0.0)), ("maxinteger", .int Int64.maxValue),
   ("mininteger", .int Int64.minValue)]

def act (a : Action) : Function := .capability (.act a)

def capabilities : List (String × Function) :=
  [("quit", act .quit), ("refresh", act .refresh), ("tag", .capability .tag), ("input", .capability .input),
   ("spawn", .capability .spawn), ("set_theme", .capability .setTheme)]

def capabilityGroups : List (String × List (String × Function)) :=
  [("status", [("set", .capability .setStatus), ("get", .capability .getStatus)]),
   ("messages",
    [("all", .capability .allMessages), ("marked", .capability .markedMessages),
      ("selected", .capability .selectedMessage)]),
   ("query", [("new", .capability .newQuery), ("next", act .nextQuery), ("prev", act .previousQuery)]),
   ("marks", [("toggle", act .toggleMarks), ("invert", act .invertMarks), ("clear", act .clearMarks)])]

def addBasics (h : Heap) : Heap :=
  let g := h.globals
  let h := (h.addFunctions g basic).rawSet g (.text "_G".toUTF8) (.table g)
  h.rawSet g (.text "_VERSION".toUTF8) (ascii "Lua 5.4")

def addLibraries (h : Heap) : Heap :=
  let (_, h) := h.addGroup h.globals "table" tables
  let (string, h) := h.addGroup h.globals "string" texts
  let h := h.rawSet h.textMeta (.text "__index".toUTF8) (.table string)
  let (math, h) := h.addGroup h.globals "math" numbers
  constants.foldl (fun h (name, v) => h.rawSet math (.text name.toUTF8) v) h

def addLog (h : Heap) (owner : Nat) : Heap :=
  let (log, h) := h.addGroup owner "log" []
  let (metatable, h) := h.newTable {}
  let h := h.addFunction metatable "__index" (.capability .logIndex)
  h.setTable log { h.table log with metatable := some metatable }

def addCapabilities (h : Heap) : Heap :=
  let (_, h) := h.addGroup h.globals "key" []
  let (root, h) := h.addGroup h.globals "glance" capabilities
  let h := capabilityGroups.foldl (fun h (name, members) => (h.addGroup root name members).2) h
  let h := addLog h root
  h.rawSet h.globals (.text "event".toUTF8) (.table root)

/-- The longest name that positions show whole. -/
def longestName : Nat := 59

def displayName (name : String) : String :=
  let bytes := Text.Utf8.encode name
  if bytes.length ≤ longestName then name
  else "..." ++ Text.Utf8.decodeLossy (bytes.drop (bytes.length - (longestName - 3)))

def heapFor (name : String) : Heap :=
  let (globals, h) := ({ chunk := displayName name } : Heap).newTable {}
  let (textMeta, h) := h.newTable {}
  addCapabilities (addLibraries (addBasics { h with globals, textMeta }))

end Globals
end Triage.Script
