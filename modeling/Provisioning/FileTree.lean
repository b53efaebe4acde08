import Provisioning.Failure
import Provisioning.Path

/-!
# Files and directories

A tree of files and directories, with the directory that relative paths start from. A path leads step
by step through existing directories; a step that does not start in a directory leads nowhere, and a
step upwards from the top stays there. A regular file may be kept back: it is there, but an attempt
to read it fails.
-/

namespace Provisioning

/-- What a name in a directory stands for. -/
inductive Entry where
  | file (content : Except IoFailure (List UInt8))
  | directory

abbrev Location := List (List UInt8)

structure FileTree where
  entries : List (Location × Entry) := []
  current : Location := []

namespace FileTree

/-- The entry at a location. The directory that relative paths start from is always there, and so are
those above it. -/
def find? (tree : FileTree) (loc : Location) : Option Entry :=
  if loc <+: tree.current then some .directory
  else (tree.entries.find? fun e => e.1 = loc).map Prod.snd

def isDirectory (tree : FileTree) (loc : Location) : Bool :=
  match tree.find? loc with
  | some .directory => true
  | _ => false

def walk? (tree : FileTree) : Location → List (List UInt8) → Option Location
  | loc, [] => some loc
  | loc, piece :: rest =>
    if !tree.isDirectory loc then none
    else if Path.isSilent piece then walk? tree loc rest
    else if piece = [Path.dot, Path.dot] then walk? tree loc.dropLast rest
    else walk? tree (loc ++ [piece]) rest

/-- Whether a path can lead anywhere at all. -/
def isUsable (p : Path) : Bool :=
  !p.bytes.isEmpty && !p.bytes.contains 0

def origin (tree : FileTree) (p : Path) : Location :=
  if p.isAbsolute then [] else tree.current

def locate? (tree : FileTree) (p : Path) : Option Location :=
  if isUsable p then tree.walk? (tree.origin p) (Path.split p.bytes) else none

/-- What an attempt to read the regular file at a path gives, if there is one. -/
def read? (tree : FileTree) (p : Path) : Option (Except IoFailure (List UInt8)) :=
  match (tree.locate? p).bind tree.find? with
  | some (.file content) => some content
  | _ => none

def put (tree : FileTree) (loc : Location) (e : Entry) : FileTree :=
  { tree with entries := (loc, e) :: tree.entries.filter fun e => e.1 ≠ loc }

/-- The tree with directories made along the pieces of a path, and where these lead. -/
def walkMaking : FileTree → Location → List (List UInt8) → FileTree × Option Location
  | tree, loc, [] => (tree, some loc)
  | tree, loc, piece :: rest =>
    let tree := if (tree.find? loc).isNone then tree.put loc .directory else tree
    if !tree.isDirectory loc then (tree, none)
    else if Path.isSilent piece then walkMaking tree loc rest
    else if piece = [Path.dot, Path.dot] then walkMaking tree loc.dropLast rest
    else walkMaking tree (loc ++ [piece]) rest

/-- The tree after a file was written, with the directories that lead to it. -/
def write (tree : FileTree) (p : Path) (content : List UInt8) : FileTree :=
  if !isUsable p then tree
  else
    match walkMaking tree (tree.origin p) (Path.split p.bytes) with
    | (made, some loc) => if made.isDirectory loc then made else made.put loc (.file (.ok content))
    | (made, none) => made

def makeDirectory (tree : FileTree) (p : Path) : FileTree :=
  if !isUsable p then tree
  else
    match walkMaking tree (tree.origin p) (Path.split p.bytes) with
    | (made, some loc) => if (made.find? loc).isNone then made.put loc .directory else made
    | (made, none) => made

def remove? (tree : FileTree) (p : Path) : Option FileTree :=
  match tree.locate? p with
  | some loc =>
    match tree.find? loc with
    | some (.file _) => some { tree with entries := tree.entries.filter fun e => e.1 ≠ loc }
    | _ => none
  | none => none

end FileTree

end Provisioning
