import MarketFormula.DataError

/-!
# Trees of files

The files below one directory. A path leads to a place step by step: a name goes down, `.` stays
and `..` goes up, and every step must start in a directory.
-/
namespace MarketFormula

/-- The names on the way down to a place. A way may start with `/`, the root of all directories, or
with `..` for each directory above that of the tree. -/
abbrev Way := List String

namespace Way

def start (path : String) : Way :=
  if path.startsWith "/" then ["/"] else []

def steps (path : String) : List String :=
  (path.splitOn "/").filter (!·.isEmpty)

def step (way : Way) (name : String) : Way :=
  if name = "." then way
  else if name = ".." then
    match way.getLast? with
    | none | some ".." => way ++ [".."]
    | some "/" => way
    | some _ => way.dropLast
  else way ++ [name]

def ofPath (path : String) : Way :=
  (steps path).foldl step (start path)

end Way

namespace Path

open Text (codePoints)

/-- Whether a surrogate stands for a byte that is part of no character. -/
def isLoneByte (n : Nat) : Bool :=
  0xdc80 ≤ n && n < 0xdd00

def byteWidth (n : Nat) : Nat :=
  if n < 0x80 || isLoneByte n then 1
  else if n < 0x800 then 2
  else if n < 0x10000 then 3
  else 4

def byteCount (path : String) : Nat :=
  (codePoints path.toList).foldl (fun count n => count + byteWidth n) 0

def maxNameBytes : Nat := 255

def maxPathBytes : Nat := 4095

/-- A path must be made of bytes other than zero, and not of too many. -/
def check (path : String) : Except DataError Unit :=
  match Text.surrogateRun? isLoneByte (codePoints path.toList) with
  | some run => .error (.straySurrogates run)
  | none =>
    if path.toList.contains '\x00' then .error .zeroByte
    else if maxPathBytes < byteCount path then .error (.nameTooLong path)
    else .ok ()

/-- The same path without steps that stay. -/
def plain (path : String) : String :=
  (if path.startsWith "/" then "/" else "") ++
    "/".intercalate ((Way.steps path).filter (· != "."))

def parent (path : String) : String :=
  (if path.startsWith "/" then "/" else "") ++
    "/".intercalate (((Way.steps path).filter (· != ".")).dropLast)

end Path

structure FileTree where
  files : List (Way × String) := []
  /-- Directories that may be empty. -/
  directories : List Way := []
  deriving Repr

namespace FileTree

inductive Place
  | file (content : String)
  | directory
  | nothing
  deriving DecidableEq, Repr

def ofPaths (files : List (String × String)) (directories : List String) : FileTree :=
  ⟨files.map fun (path, content) => (.ofPath path, content), directories.map .ofPath⟩

/-- Directories are those given, those above anything given, and all above the tree. -/
def isDirectory (tree : FileTree) (way : Way) : Bool :=
  way.all (fun name => name == ".." || name == "/") || tree.directories.any (way.isPrefixOf ·) ||
    tree.files.any fun file => way.isPrefixOf file.1 && way.length < file.1.length

def place (tree : FileTree) (way : Way) : Place :=
  match tree.files.lookup way with
  | some content => .file content
  | none => if tree.isDirectory way then .directory else .nothing

/-- The end of a way with further steps, unless one of them has too long a name or starts elsewhere
than in a directory. -/
def follow (tree : FileTree) (path : String) : Way → List String → Except DataError Way
  | way, [] => .ok way
  | way, name :: rest =>
    match tree.place way with
    | .directory =>
      if Path.maxNameBytes < Path.byteCount name then .error (.nameTooLong path)
      else tree.follow path (way.step name) rest
    | .file _ => .error (.notDirectory path)
    | .nothing => .error (.fileNotFound path)

/-- What a path leads to. A path that ends in a slash leads to a directory. -/
def find (tree : FileTree) (path : String) : Except DataError (Way × Place) := do
  Path.check path
  let steps := Way.steps path ++ if path.endsWith "/" then ["."] else []
  let way ← tree.follow path (.start path) steps
  return (way, tree.place way)

def read (tree : FileTree) (path : String) : Except DataError String :=
  if path.isEmpty then .error (.fileNotFound path)
  else
    match tree.find path with
    | .ok (_, .file content) => .ok content
    | .ok (_, .directory) => .error (.fileIsDirectory path)
    | .ok (_, .nothing) => .error (.fileNotFound path)
    | .error e => .error e

/-- Sets the content of a file; the directory that it stands in must be there. -/
def write (tree : FileTree) (path content : String) : Except DataError FileTree := do
  match tree.find (Path.parent path) with
  | .ok (_, .directory) =>
    Path.check path
    let steps := Way.steps path
    let last := steps.getLast?.getD "."
    let way ← tree.follow path (.start path) steps
    if path.endsWith "/" || last == "." || last == ".." || tree.place way = .directory then
      .error (.fileIsDirectory path)
    else .ok { tree with files := (way, content) :: tree.files.filter (·.1 != way) }
  | .error (.nameTooLong directory) => .error (.nameTooLong directory)
  | _ => .error (.unwritable (Path.parent path))

/-- A name without the suffix after its last point, unless nothing else is left. -/
def stem (name : String) : String :=
  let reversed := name.toList.reverse
  match reversed.dropWhile (· != '.') with
  | _ :: rest =>
    if rest.isEmpty || reversed.head? == some '.' then name else String.ofList rest.reverse
  | [] => name

/-- The names in a directory that end in a suffix, in ascending order. Where there is no directory
there are none. -/
def entries (tree : FileTree) (directory suffix : String) : Except DataError (List String) :=
  match tree.find (Path.plain directory) with
  | .ok (way, .directory) =>
    let names := (tree.files.map (·.1) ++ tree.directories).filterMap fun other =>
      if way.isPrefixOf other then (other.drop way.length).head? else none
    .ok ((names.eraseDups.filter (·.endsWith suffix)).mergeSort Text.atMost)
  | .error (.nameTooLong path) => .error (.nameTooLong path)
  | _ => .ok []

end FileTree

end MarketFormula
