import RouteDoc.FileTree
import RouteDoc.Schema
/-! Causes: errors that the messages of other errors quote. -/
namespace RouteDoc

inductive Cause where
  | file (e : FileError)
  | notUtf8
  | notYaml
  | invalid (violations : List Violation)
  | notFields
deriving DecidableEq, Repr

abbrev Wording := Cause → String

namespace Cause

def violations : Cause → List Violation
  | .invalid vs => vs
  | _ => []

def fileError : FileError → String
  | .notFound => "No such file or directory"
  | .notADirectory => "Not a directory"
  | .isADirectory => "Is a directory"
  | .exists => "File exists"
  | .nameTooLong => "File name too long"
  | .zeroCharacter => "A path cannot hold the character zero"

def fault : Fault → String
  | .missing => "field required"
  | .notText => "should be a text"
  | .notUtf8 => "should be UTF-8"
  | .notList => "should be a list"
  | .notMapping => "should be a mapping"
  | .notRecord => "should be a text or a mapping"
  | .notInteger => "should be an integer"
  | .notIntegerText => "cannot be read as an integer"
  | .hasFraction => "should have no fraction"
  | .notFinite => "should be finite"
  | .tooLarge => "is too large"
  | .tooSmall => "is too small"
  | .notPath => "should be a path"
  | .invalid m => m

def violation (v : Violation) : String := ".".intercalate v.location ++ ": " ++ fault v.fault

def describe : Wording
  | .file e => fileError e
  | .notUtf8 => "the file is not UTF-8"
  | .notYaml => "the file is not YAML"
  | .invalid vs => "; ".intercalate (vs.map violation)
  | .notFields => "fields should be a mapping with texts as keys"

end Cause
end RouteDoc
