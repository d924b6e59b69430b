/-! File paths. Repeated slashes and `.` components make no difference; `..` stays, because what it
leads to depends on the files. -/
namespace RouteDoc

/-- `root` is empty in a relative path; exactly two slashes at the start are a root of their own. -/
structure Path where
  root : String
  parts : List String
deriving DecidableEq, Repr

namespace Path

def components (s : String) : List String := (s.toList.splitOn '/').map String.ofList

def rootOf (s : String) : String :=
  match (s.toList.takeWhile (· = '/')).length with
  | 0 => ""
  | 2 => "//"
  | _ => "/"

def ofText (s : String) : Path :=
  ⟨rootOf s, (components s).filter fun c => c != "" && c != "."⟩

def isAbsolute (p : Path) : Bool := p.root != ""

def text (p : Path) : String :=
  let s := p.root ++ "/".intercalate p.parts
  if s = "" then "." else s

/-- `q` as seen from `p`; an absolute path is the same from everywhere. -/
def join (p q : Path) : Path := if q.isAbsolute then q else ⟨p.root, p.parts ++ q.parts⟩

def parent (p : Path) : Path := ⟨p.root, p.parts.dropLast⟩

/-- Parts in which each `..` has taken back the part before it. -/
def foldParts (seen : List String) : List String → List String
  | [] => seen
  | c :: r =>
    foldParts (if c = ".." then seen.dropLast else if c = "." then seen else seen ++ [c]) r

end Path
end RouteDoc
