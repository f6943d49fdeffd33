import BoardSupport.Loader.Host

/-! A tree of files, with a working directory in it. -/
namespace BoardSupport.Bench

open Loader (IoError Path)

abbrev Name := List UInt8

/-- The names that lead from the top of the tree to something in it. -/
abbrev Place := List Name

/-- What the file of a device does. -/
inductive Special
  /-- It reads as empty, and takes everything. -/
  | empty
  /-- It never ends, and takes everything. -/
  | endless
  /-- It never ends, and takes nothing. -/
  | full
  /-- It has no device behind it. -/
  | absent
  deriving DecidableEq, Repr

inductive Node
  | file (bytes : List UInt8)
  | directory
  | special (device : Special)
  deriving DecidableEq, Repr

namespace Files

def slash : UInt8 := 0x2F

/-- The names of a path. Where a slash starts or ends it, or follows another, one is empty. -/
def names (path : Path) : List Name :=
  path.foldr (fun b later =>
    match later with
    | [] => [[b]]
    | name :: rest => if b = slash then [] :: later else (b :: name) :: rest) [[]]

/-- A name that stays in place. -/
def here : Name := Text.bytes "."

/-- A name that leads back to the directory above. At the top it stays in place. -/
def above : Name := Text.bytes ".."

/-- The names of a path that lead somewhere else. -/
def steps (path : Path) : List Name :=
  (names path).filter fun name => !name.isEmpty && name != here

/-- What every machine has at the top of its tree, and the files of its devices. The standard
streams lead nowhere, and there is no terminal. -/
def commonNodes : List (String × Node) :=
  ["bin", "boot", "dev", "etc", "home", "lib", "media", "mnt", "opt", "proc", "root", "run", "sbin",
    "srv", "sys", "tmp", "usr", "var"].map (·, .directory) ++
  [("dev/null", .special .empty), ("dev/stdin", .special .empty), ("dev/stdout", .special .empty),
    ("dev/stderr", .special .empty), ("dev/zero", .special .endless), ("dev/full", .special .full),
    ("dev/tty", .special .absent)]

def workingPlace : Place := steps (Text.bytes "tmp/work")

end Files

/-- What exists, by place. The top of the tree always does. -/
structure Files where
  nodes : List (Place × Node) :=
    (Files.workingPlace, .directory) ::
      Files.commonNodes.map fun (path, node) => (Files.steps (Text.bytes path), node)

namespace Files

def node? (files : Files) (place : Place) : Option Node :=
  if place.isEmpty then some .directory else files.nodes.lookup place

/-- Puts something in a place, instead of what was there. -/
def put (files : Files) (place : Place) (node : Node) : Files :=
  ⟨(place, node) :: files.nodes.filter (·.1 != place)⟩

/-- Puts something below the working directory, and directories on the way to it. -/
def add (files : Files) (path : Path) (node : Node) : Files :=
  let way := steps path
  let parents := (List.range (way.length - 1)).map fun i => workingPlace ++ way.take (i + 1)
  let files := parents.foldl (fun f p => if (f.node? p).isSome then f else f.put p .directory) files
  if way.isEmpty then files else files.put (workingPlace ++ way) node

/-- Goes on only from a place that is a directory. -/
def demandDirectory (files : Files) (place : Place) : Except IoError Unit :=
  match files.node? place with
  | none => .error (.system .notFound)
  | some .directory => .ok ()
  | some _ => .error (.system .notDirectory)

/-- The longest name that a directory can hold. -/
def longestName : Nat := 255

/-- Goes one name on from a place, which has to be a directory. -/
def enter (files : Files) (place : Place) (name : Name) : Except IoError Place := do
  files.demandDirectory place
  if name.isEmpty ∨ name = here then return place
  else if name = above then return place.dropLast
  else if longestName < name.length then throw (.system .nameTooLong)
  else return place ++ [name]

/-- The longest path that is looked at. -/
def longestPath : Nat := 4095

/-- Where a path starts: at the top of the tree if a slash starts it, else in the working
directory. -/
def origin (path : Path) : Except IoError Place :=
  if 0 ∈ path then .error .nulInPath
  else if path.isEmpty then .error (.system .notFound)
  else if longestPath < path.length then .error (.system .nameTooLong)
  else .ok (if path.head? = some slash then [] else workingPlace)

def find (files : Files) (path : Path) : Except IoError Node := do
  let place ← (names path).foldlM files.enter (← origin path)
  match files.node? place with
  | some node => return node
  | none => throw (.system .notFound)

def read (files : Files) (path : Path) : Except IoError (List UInt8) := do
  match ← files.find path with
  | .file bytes => return bytes
  | .directory => throw (.system .isDirectory)
  | .special .empty => return []
  | .special .endless | .special .full => throw .outOfMemory
  | .special .absent => throw (.system .noDevice)

/-- The place that a path to be written to leads to. All but its last name have to exist. A path
that ends in a slash can only be that of a directory, whatever is there. -/
def target (files : Files) (path : Path) : Except IoError Place := do
  let start ← origin path
  match (names path).reverse.dropWhile List.isEmpty with
  | [] => return start
  | last :: before =>
    let parent ← before.reverse.foldlM files.enter start
    files.demandDirectory parent
    if path.getLast? = some slash then throw (.system .isDirectory)
    files.enter parent last

def write (files : Files) (path : Path) (bytes : List UInt8) : Except IoError Files := do
  let place ← files.target path
  match files.node? place with
  | none | some (.file _) => return files.put place (.file bytes)
  | some .directory => throw (.system .isDirectory)
  | some (.special .empty) | some (.special .endless) => return files
  | some (.special .full) => if bytes.isEmpty then return files else throw (.system .noSpace)
  | some (.special .absent) => throw (.system .noDevice)

end Files

end BoardSupport.Bench
