import RouteDoc.Path
/-! A tree of files as a value: what a run of the program finds and what it leaves. -/
namespace RouteDoc

inductive FileNode where
  | directory
  | file (content : List UInt8)
deriving DecidableEq

inductive FileError where
  | notFound
  | notADirectory
  | isADirectory
  | exists
  | nameTooLong
  /-- A path with the character zero leads nowhere, not even to a missing file. -/
  | zeroCharacter
deriving DecidableEq, Repr

/-- Nodes by their parts from the root; the root and the working directory are directories. -/
structure FileTree where
  cwd : List String
  nodes : List (List String × FileNode)
deriving DecidableEq

namespace FileTree

def node? (t : FileTree) (location : List String) : Option FileNode :=
  if location.isPrefixOf t.cwd then some .directory else t.nodes.lookup location

def nameLimit : Nat := 255

def pathLimit : Nat := 4095

/-- Follows parts from a directory. All but the last have to be directories that exist. -/
def walk (t : FileTree) (location : List String) : List String → Except FileError (List String)
  | [] => .ok location
  | c :: r =>
    let next :=
      if c = ".." then location.dropLast
      else if c = "." ∨ c = "" then location
      else location ++ [c]
    if c.utf8ByteSize > nameLimit then .error .nameTooLong
    else
      match r with
      | [] => .ok next
      | _ :: _ =>
        match t.node? next with
        | none => .error .notFound
        | some (.file _) => .error .notADirectory
        | some .directory => t.walk next r

def checkPath (p : Path) : Except FileError Unit :=
  if p.text.toList.contains '\x00' then .error .zeroCharacter
  else if p.text.utf8ByteSize > pathLimit then .error .nameTooLong
  else .ok ()

def locate (t : FileTree) (p : Path) : Except FileError (List String) :=
  match checkPath p with
  | .error e => .error e
  | .ok () => t.walk (if p.isAbsolute then [] else t.cwd) p.parts

def find? (t : FileTree) (p : Path) : Except FileError FileNode :=
  match t.locate p with
  | .error e => .error e
  | .ok l =>
    match t.node? l with
    | some n => .ok n
    | none => .error .notFound

def findTyped? (t : FileTree) (s : String) : Option FileNode :=
  if s = "" then none
  else
    match t.walk (if Path.rootOf s = "" then t.cwd else []) (Path.components s) with
    | .error _ => none
    | .ok l => t.node? l

def readBytes (t : FileTree) (p : Path) : Except FileError (List UInt8) :=
  match t.find? p with
  | .error e => .error e
  | .ok .directory => .error .isADirectory
  | .ok (.file b) => .ok b

def setNode (t : FileTree) (location : List String) (n : FileNode) : FileTree :=
  { t with nodes := (location, n) :: t.nodes.filter (·.1 != location) }

structure Interrupted where
  error : FileError
  files : FileTree

/-- The directories on the way to a location, and the location, as far as they are missing. Those that
were made stay when a later one cannot be made. A file in the way exists already if it stands at the
end or directories were made before it; else it is no directory. -/
def makeDirectoriesAt (t : FileTree) (made : Bool) (done : List String) :
    List String → Except Interrupted FileTree
  | [] => .ok t
  | c :: r =>
    let next := if c = ".." then done.dropLast else done ++ [c]
    if c.utf8ByteSize > nameLimit then .error ⟨.nameTooLong, t⟩
    else
      match t.node? next with
      | some .directory => t.makeDirectoriesAt made next r
      | some (.file _) => .error ⟨if made || r.isEmpty then .exists else .notADirectory, t⟩
      | none => (t.setNode next .directory).makeDirectoriesAt true next r

def makeDirectories (t : FileTree) (p : Path) : Except Interrupted FileTree :=
  match checkPath p with
  | .error e => .error ⟨e, t⟩
  | .ok () => t.makeDirectoriesAt false (if p.isAbsolute then [] else t.cwd) p.parts

def writeBytes (t : FileTree) (p : Path) (b : List UInt8) : Except FileError FileTree :=
  match t.locate p with
  | .error e => .error e
  | .ok l =>
    match t.node? l with
    | some .directory => .error .isADirectory
    | some (.file _) => .ok (t.setNode l (.file b))
    | none =>
      match t.node? l.dropLast with
      | some .directory => .ok (t.setNode l (.file b))
      | some (.file _) => .error .notADirectory
      | none => .error .notFound

/-- A directory's absolute path without `..`; parts that do not exist count as they stand. -/
def resolve (t : FileTree) (p : Path) : Path :=
  ⟨"/", Path.foldParts (if p.isAbsolute then [] else t.cwd) p.parts⟩

end FileTree
end RouteDoc
