import RouteDoc.Path
import RouteDoc.Text.Quoted
/-! Notes on what an extraction passes over, and results that come with them. -/
namespace RouteDoc
open Text

inductive Warning where
  | duplicate (tagName name : String) (uri : Option String)
  | responseFileMissing (path : Path) (uri : String)
deriving DecidableEq, Repr

def Warning.message : Warning → String
  | .duplicate tagName name uri =>
    "Duplicate " ++ tagName ++ " " ++ quoted name ++ " on " ++ uri.getD "None" ++
      ", last one wins"
  | .responseFileMissing path uri => "Response file " ++ path.text ++ " for " ++ uri ++ " not found"

structure Outcome (ε α : Type) where
  result : Except ε α
  warnings : List Warning := []

end RouteDoc
