import Triage.Files
import Triage.Text.Lines

/-! A tree of files, and the paths through it. -/

namespace Triage

inductive FileTree where
  | file (bytes : List UInt8)
  | directory (entries : List (String × FileTree))

instance : Inhabited FileTree := ⟨.directory []⟩

namespace FileTree

def components (path : String) : List String := (Text.splitOn '/' path.toList).map .ofList

/-- Goes on from a place by some names. Only a directory can be passed through; nothing and one dot stay where they
are, and two dots go up, as far as there is an above. -/
def walk (here : FileTree) (above : List FileTree) : List String → Except IoError FileTree
  | [] => .ok here
  | name :: rest =>
    match here with
    | .file _ => .error .notADirectory
    | .directory entries =>
      if name = "" ∨ name = "." then walk here above rest
      else if name = ".." then
        match above with
        | [] => walk here [] rest
        | up :: further => walk up further rest
      else
        match entries.lookup name with
        | some next => walk next (here :: above) rest
        | none => .error .notFound

def entryAt (root : FileTree) (path : String) : Entry :=
  if path = "" then .missing .notFound
  else
    match walk root [] (components path) with
    | .ok (.file bytes) => .file bytes
    | .ok (.directory _) => .directory
    | .error cause => .missing cause

def setEntry (entries : List (String × FileTree)) (name : String) (node : FileTree) : List (String × FileTree) :=
  (name, node) :: entries.filter (·.1 != name)

def plainNames (path : String) : List String :=
  ((components path).foldl (fun names name =>
    if name = "" ∨ name = "." then names else if name = ".." then names.drop 1 else name :: names) []).reverse

def put (node : FileTree) (here : FileTree) : List String → Option FileTree
  | [] =>
    match here, node with
    | .directory entries, .directory [] => some (.directory entries)
    | .directory _, .file _ => none
    | .file _, .directory _ => none
    | _, node => some node
  | name :: rest =>
    match here with
    | .file _ => none
    | .directory entries =>
      let start := (entries.lookup name).getD (if rest.isEmpty then node else .directory [])
      (put node start rest).map fun next => .directory (setEntry entries name next)

def makeDirectory (root : FileTree) (path : String) : Option FileTree := put (.directory []) root (plainNames path)

def writeFile (root : FileTree) (path : String) (bytes : List UInt8) : Option FileTree :=
  put (.file bytes) root (plainNames path)

def parent (path : String) : String :=
  let isSlash (c : Char) : Bool := c == '/'
  let above := (path.toList.reverse.dropWhile isSlash).dropWhile (! isSlash ·)
  let directory := above.dropWhile isSlash
  if directory.isEmpty && !above.isEmpty then "/" else .ofList directory.reverse

end FileTree
end Triage
