import RouteDoc.Parameter.Rule
import RouteDoc.Parameter.TagLine
import RouteDoc.Synthesizer
/-! Tables of parameters by their names: of rules, and of the tags of one kind. Both are read first, which
needs no generator, and then filled; what stops the reading leaves the draws made before it. -/
namespace RouteDoc

def byName (ps : List (Parameter Value)) : List (String × Parameter Value) :=
  Assoc.ofList (ps.map fun p => (p.name, p))

namespace Synthesizer

def ruleTable (s : Synthesizer) (room : Nat) (rules : List (String × Value)) :
    Except Raised (List (String × Parameter Value)) × Synthesizer :=
  let (ds, raised) := Rule.drafts room rules
  let (ps, s) := s.fillAll ds
  (match raised with
    | some e => .error e
    | none => .ok (byName ps), s)

def table (s : Synthesizer) (kind : ParamKind) (uri : Option String) (tags : List Tag) :
    Outcome TagError (List (String × Parameter Value)) × Synthesizer :=
  let r := Reading.ofTags (some kind) uri tags
  let (ps, s) := s.fillAll r.drafts
  ({ result := match r.error with
      | some e => .error e
      | none => .ok (byName ps)
     warnings := r.warnings uri }, s)

end Synthesizer
end RouteDoc
