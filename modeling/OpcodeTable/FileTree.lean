import OpcodeTable.Text.Utf8
import OpcodeTable.Text.Words

/-!
# File trees

A tree of directories and files, with a current directory that relative paths start from. A path leads
through directories only; what it leads to may be missing.
-/

namespace OpcodeTable

/-- The names on the way from the root. -/
abbrev Path := List String

/-- What a path leads to. A sink takes everything and holds nothing. -/
inductive FileNode where
  | directory
  | file (content : List UInt8)
  | sink
deriving DecidableEq, Repr

/-- Why a file cannot be used. -/
inductive FileError where
  | notFound | notDirectory | isDirectory | alreadyThere | notPermitted | notExecutable
deriving DecidableEq, Repr

/-- The text that reports why a file cannot be used. -/
def FileError.message : FileError → String
  | .notFound => "No such file or directory (os error 2)"
  | .notDirectory => "Not a directory (os error 20)"
  | .isDirectory => "Is a directory (os error 21)"
  | .alreadyThere => "File exists (os error 17)"
  | .notPermitted => "Permission denied (os error 13)"
  | .notExecutable => "Exec format error (os error 8)"

/-- A tree of directories and files. The root is always a directory. -/
structure FileTree where
  nodes : List (Path × FileNode) := []
  current : Path := []
deriving DecidableEq, Repr

namespace FileTree

/-- What is at a path. -/
def node? (tree : FileTree) (path : Path) : Option FileNode :=
  if path.isEmpty then some .directory else tree.nodes.lookup path

/-- Put something at a path. -/
def put (tree : FileTree) (path : Path) (node : FileNode) : FileTree :=
  { tree with nodes := (path, node) :: tree.nodes.filter fun entry => entry.1 ≠ path }

/-- Take away what is at a path. -/
def remove (tree : FileTree) (path : Path) : FileTree :=
  { tree with nodes := tree.nodes.filter fun entry => entry.1 ≠ path }

/-- Take away what is at a path and below it. -/
def removeAll (tree : FileTree) (path : Path) : FileTree :=
  { tree with nodes := tree.nodes.filter fun entry => !path.isPrefixOf entry.1 }

/-- The names in a directory. -/
def children (tree : FileTree) (path : Path) : List String :=
  tree.nodes.filterMap fun entry =>
    match entry.1.getLast? with
    | some name => if entry.1.dropLast = path then some name else none
    | none => none

/-- Follow names from a path. Each but the last must lead to a directory. -/
def walk (tree : FileTree) : Path → List String → Except FileError Path
  | path, [] => .ok path
  | path, name :: rest =>
      match tree.node? path with
      | some .directory =>
          if name = "" ∨ name = "." then
            tree.walk path rest
          else if name = ".." then
            tree.walk path.dropLast rest
          else
            tree.walk (path ++ [name]) rest
      | some _ => .error .notDirectory
      | none => .error .notFound

/-- The parts of a path between slashes. -/
def parts (text : String) : List String :=
  (Text.pieces (· == '/') text.toList).map String.ofList

/-- Where a path starts: at the root if it opens with a slash, else in the current directory. -/
def start (tree : FileTree) (text : String) : Path :=
  if text.toList.head? = some '/' then [] else tree.current

/-- The path that a text leads to. -/
def resolve (tree : FileTree) (text : String) : Except FileError Path :=
  if text.isEmpty then .error .notFound else tree.walk (tree.start text) (parts text)

/-- The path that a text leads to for writing. A path that ends with a slash can only be a
directory. -/
def resolveTarget (tree : FileTree) (text : String) : Except FileError Path :=
  match tree.walk (tree.start text) (parts text).dropLast with
  | .error error => if text.isEmpty then .error .notFound else .error error
  | .ok _ =>
      if text.toList.getLast? = some '/' then .error .isDirectory else tree.resolve text

/-- The content of a file. -/
def read (tree : FileTree) (text : String) : Except FileError (List UInt8) :=
  match tree.resolve text with
  | .error error => .error error
  | .ok path =>
      match tree.node? path with
      | some (.file content) => .ok content
      | some .sink => .ok []
      | some .directory => .error .isDirectory
      | none => .error .notFound

/-- Put content at a path, unless a directory or a sink is there. -/
def writeAt (tree : FileTree) (path : Path) (content : List UInt8) : Except FileError FileTree :=
  match tree.node? path with
  | some .directory => .error .isDirectory
  | some .sink => .ok tree
  | _ => .ok (tree.put path (.file content))

/-- Write a file, which is made if it is missing. -/
def write (tree : FileTree) (text : String) (content : List UInt8) : Except FileError FileTree :=
  match tree.resolveTarget text with
  | .error error => .error error
  | .ok path => tree.writeAt path content

/-- Make the missing directories along names from a path. -/
def makeAlong (tree : FileTree) : Path → List String → Except FileError FileTree
  | path, [] =>
      match tree.node? path with
      | some .directory => .ok tree
      | some _ => .error .alreadyThere
      | none => .ok (tree.put path .directory)
  | path, name :: rest =>
      let made : Except FileError FileTree :=
        match tree.node? path with
        | some .directory => .ok tree
        | some _ => .error .notDirectory
        | none => .ok (tree.put path .directory)
      match made with
      | .error error => .error error
      | .ok tree =>
          if name = "" ∨ name = "." then
            tree.makeAlong path rest
          else if name = ".." then
            tree.makeAlong path.dropLast rest
          else
            tree.makeAlong (path ++ [name]) rest

/-- Make a directory and all that are missing on the way. -/
def makeDirectories (tree : FileTree) (text : String) : Except FileError FileTree :=
  tree.makeAlong (tree.start text) (parts text)

/-- Take a file away, if it is there. -/
def removeFile (tree : FileTree) (text : String) : FileTree :=
  match tree.resolve text with
  | .error _ => tree
  | .ok path =>
      match tree.node? path with
      | some (.file _) => tree.remove path
      | _ => tree

/-- Take a directory away with all that is in it, if it is there. What is no directory stays. -/
def removeDirectory (tree : FileTree) (text : String) : FileTree :=
  match tree.resolve text with
  | .error _ => tree
  | .ok path =>
      match tree.node? path with
      | some .directory => tree.removeAll path
      | _ => tree

/-- There is something at the path. -/
def hasPath (tree : FileTree) (text : String) : Bool :=
  match tree.resolve text with
  | .error _ => false
  | .ok path => (tree.node? path).isSome

/-- The number of names in a directory. -/
def childCount (tree : FileTree) (text : String) : Nat :=
  match tree.resolve text with
  | .error _ => 0
  | .ok path => (tree.children path).length

/-- A tree with the usual directories and an empty directory to work in. -/
def standard (work : String) : FileTree where
  nodes := [(["tmp"], .directory), (["tmp", work], .directory), (["dev"], .directory),
    (["dev", "null"], .sink)]
  current := ["tmp", work]

end FileTree

end OpcodeTable
