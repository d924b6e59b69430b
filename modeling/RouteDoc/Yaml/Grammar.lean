import RouteDoc.Yaml.Node
import RouteDoc.Yaml.Token
/-! The grammar of nodes over tokens. -/
namespace RouteDoc.Yaml

structure Reader where
  tokens : List Token
  failure : ReadError
  handles : List (String × String) := [("!", "!"), ("!!", standardTag)]
  anchors : List (String × Node) := []

namespace Reader

def peek (r : Reader) : Except ReadError Token :=
  match r.tokens with
  | [] => .error r.failure
  | t :: _ => .ok t

def drop (r : Reader) : Reader := { r with tokens := r.tokens.tail }

def accept (t : Token) (r : Reader) : Except ReadError (Bool × Reader) :=
  r.peek.map fun t' => if t' = t then (true, r.drop) else (false, r)

structure Properties where
  anchor : Option String := none
  tag : Option String := none

def resolveTag (r : Reader) (handle : Option String) (suffix : String) : Except ReadError String :=
  match handle with
  | none => .ok suffix
  | some h =>
    match r.handles.lookup h with
    | some start => .ok (start ++ suffix)
    | none => .error .malformed

def takeAnchor (p : Properties) (r : Reader) : Except ReadError (Properties × Reader) := do
  match ← r.peek with
  | .anchor a => return ({ p with anchor := some a }, r.drop)
  | _ => return (p, r)

def takeTag (p : Properties) (r : Reader) : Except ReadError (Properties × Reader) := do
  match ← r.peek with
  | .tag h s => return ({ p with tag := some (← r.resolveTag h s) }, r.drop)
  | _ => return (p, r)

def properties (r : Reader) : Except ReadError (Properties × Reader) := do
  match ← r.peek with
  | .anchor _ =>
    let (p, r) ← takeAnchor {} r
    takeTag p r
  | _ =>
    let (p, r) ← takeTag {} r
    if p.tag.isSome then takeAnchor p r else return (p, r)

def typeFor (p : Properties) (usual : NodeType) : NodeType :=
  match p.tag with
  | none => usual
  | some "!" => usual
  | some t => .ofTag t

/-- Each anchor is set once. While its node is read it stands for a `back` node. -/
def openAnchor (p : Properties) (r : Reader) : Except ReadError Reader :=
  match p.anchor with
  | none => .ok r
  | some a =>
    if (r.anchors.lookup a).isSome then .error .malformed
    else .ok { r with anchors := (a, .back a) :: r.anchors }

def closeAnchor (p : Properties) (n : Node) (r : Reader) : Reader :=
  match p.anchor with
  | none => r
  | some a => { r with anchors := (a, n) :: r.anchors }

def scalarType (p : Properties) (text : String) (plain : Bool) : NodeType :=
  match p.tag with
  | none => if plain then Plain.typeOf text else .text
  | some "!" => Plain.typeOf text
  | some t => .ofTag t

def withoutContent (p : Properties) (r : Reader) : Except ReadError (Node × Reader) := do
  if p.anchor.isNone && p.tag.isNone then throw .malformed
  let r ← openAnchor p r
  let n := Node.scalar (typeFor p .null) ""
  return (n, closeAnchor p n r)

mutual
/-- A node. `block` allows block collections, `flush` allows a sequence at its mapping's column. -/
def node (block flush : Bool) : Nat → Reader → Except ReadError (Node × Reader)
  | 0, _ => .error .malformed
  | fuel + 1, r => do
    match ← r.peek with
    | .alias a =>
      match r.anchors.lookup a with
      | some n => return (n, r.drop)
      | none => throw .malformed
    | _ =>
      let (p, r) ← r.properties
      let collection (inside : Reader → Except ReadError (Node × Reader)) :
          Except ReadError (Node × Reader) := do
        let r ← openAnchor p r
        let (n, r) ← inside r
        return (n, closeAnchor p n r)
      match ← r.peek with
      | .blockEntry =>
        if flush then
          collection fun r => do
            let (items, r) ← flushItems fuel r
            return (.sequence (typeFor p .sequence) items, r)
        else withoutContent p r
      | .scalar text plain =>
        let r ← openAnchor p r
        let n := Node.scalar (scalarType p text plain) text
        return (n, closeAnchor p n r.drop)
      | .flowSequenceStart =>
        collection fun r => do
          let (items, r) ← flowItems true fuel r.drop
          return (.sequence (typeFor p .sequence) items, r)
      | .flowMappingStart =>
        collection fun r => do
          let (entries, r) ← flowEntries true fuel r.drop
          return (.mapping (typeFor p .mapping) entries, r)
      | .blockSequenceStart =>
        if block then
          collection fun r => do
            let (items, r) ← blockItems fuel r.drop
            return (.sequence (typeFor p .sequence) items, r)
        else withoutContent p r
      | .blockMappingStart =>
        if block then
          collection fun r => do
            let (entries, r) ← blockEntries fuel r.drop
            return (.mapping (typeFor p .mapping) entries, r)
        else withoutContent p r
      | _ => withoutContent p r

def blockItems : Nat → Reader → Except ReadError (List Node × Reader)
  | 0, _ => .error .malformed
  | fuel + 1, r => do
    match ← r.peek with
    | .blockEntry =>
      let r := r.drop
      let (n, r) ← match ← r.peek with
        | .blockEntry | .blockEnd => pure (Node.empty, r)
        | _ => node true false fuel r
      let (ns, r) ← blockItems fuel r
      return (n :: ns, r)
    | .blockEnd => return ([], r.drop)
    | _ => throw .malformed

def flushItems : Nat → Reader → Except ReadError (List Node × Reader)
  | 0, _ => .error .malformed
  | fuel + 1, r => do
    match ← r.peek with
    | .blockEntry =>
      let r := r.drop
      let (n, r) ← match ← r.peek with
        | .blockEntry | .key | .value | .blockEnd => pure (Node.empty, r)
        | _ => node true false fuel r
      let (ns, r) ← flushItems fuel r
      return (n :: ns, r)
    | _ => return ([], r)

def blockEntries : Nat → Reader → Except ReadError (List (Node × Node) × Reader)
  | 0, _ => .error .malformed
  | fuel + 1, r => do
    match ← r.peek with
    | .key =>
      let (k, r) ← blockPart fuel r.drop
      let (v, r) ← blockValue fuel r
      let (es, r) ← blockEntries fuel r
      return ((k, v) :: es, r)
    | .blockEnd => return ([], r.drop)
    | _ => throw .malformed

def blockPart : Nat → Reader → Except ReadError (Node × Reader)
  | 0, _ => .error .malformed
  | fuel + 1, r => do
    match ← r.peek with
    | .key | .value | .blockEnd => return (Node.empty, r)
    | _ => node true true fuel r

def blockValue : Nat → Reader → Except ReadError (Node × Reader)
  | 0, _ => .error .malformed
  | fuel + 1, r => do
    match ← r.peek with
    | .value => blockPart fuel r.drop
    | _ => return (Node.empty, r)

/-- The items of a flow sequence up to its end. An item may be a single entry of a mapping. -/
def flowItems (first : Bool) : Nat → Reader → Except ReadError (List Node × Reader)
  | 0, _ => .error .malformed
  | fuel + 1, r => do
    match ← r.peek with
    | .flowSequenceEnd => return ([], r.drop)
    | t =>
      let r ← if first then pure r else if t = .flowEntry then pure r.drop else throw .malformed
      match ← r.peek with
      | .flowSequenceEnd => return ([], r.drop)
      | .key =>
        let (k, r) ←
          flowPart (fun t => t = .value || t = .flowEntry || t = .flowSequenceEnd) fuel r.drop
        let (v, r) ← flowValue (fun t => t = .flowEntry || t = .flowSequenceEnd) fuel r
        let (ns, r) ← flowItems false fuel r
        return (.mapping .mapping [(k, v)] :: ns, r)
      | _ =>
        let (n, r) ← node false false fuel r
        let (ns, r) ← flowItems false fuel r
        return (n :: ns, r)

def flowEntries (first : Bool) : Nat → Reader → Except ReadError (List (Node × Node) × Reader)
  | 0, _ => .error .malformed
  | fuel + 1, r => do
    match ← r.peek with
    | .flowMappingEnd => return ([], r.drop)
    | t =>
      let r ← if first then pure r else if t = .flowEntry then pure r.drop else throw .malformed
      match ← r.peek with
      | .flowMappingEnd => return ([], r.drop)
      | .key =>
        let (k, r) ←
          flowPart (fun t => t = .value || t = .flowEntry || t = .flowMappingEnd) fuel r.drop
        let (v, r) ← flowValue (fun t => t = .flowEntry || t = .flowMappingEnd) fuel r
        let (es, r) ← flowEntries false fuel r
        return ((k, v) :: es, r)
      | _ =>
        let (k, r) ← node false false fuel r
        let (es, r) ← flowEntries false fuel r
        return ((k, Node.empty) :: es, r)

def flowPart (ends : Token → Bool) : Nat → Reader → Except ReadError (Node × Reader)
  | 0, _ => .error .malformed
  | fuel + 1, r => do
    if ends (← r.peek) then return (Node.empty, r) else node false false fuel r

def flowValue (ends : Token → Bool) : Nat → Reader → Except ReadError (Node × Reader)
  | 0, _ => .error .malformed
  | fuel + 1, r => do
    match ← r.peek with
    | .value => flowPart ends fuel r.drop
    | _ => return (Node.empty, r)
end

def directives (version : Bool) (handles : List (String × String)) :
    Nat → Reader → Except ReadError (Unit × Reader)
  | 0, _ => .error .malformed
  | fuel + 1, r => do
    match ← r.peek with
    | .versionDirective major =>
      if version || major ≠ 1 then throw .malformed
      directives true handles fuel r.drop
    | .tagDirective h start =>
      if (handles.lookup h).isSome then throw .malformed
      directives version ((h, start) :: handles) fuel r.drop
    | .otherDirective => directives version handles fuel r.drop
    | _ => return ((), { r with handles := handles ++ r.handles })

def dropDocumentEnds : Nat → Reader → Except ReadError (Unit × Reader)
  | 0, _ => .error .malformed
  | fuel + 1, r => do
    match ← r.peek with
    | .documentEnd => dropDocumentEnds fuel r.drop
    | _ => return ((), r)

def explicitRoot (fuel : Nat) (r : Reader) : Except ReadError (Node × Reader) := do
  match ← r.peek with
  | .versionDirective _ | .tagDirective .. | .otherDirective | .documentStart | .documentEnd
  | .streamEnd => return (Node.empty, r)
  | _ => node true false fuel r

def root (fuel : Nat) (r : Reader) : Except ReadError (Option Node × Reader) := do
  match ← r.peek with
  | .streamEnd => return (none, r)
  | .versionDirective _ | .tagDirective .. | .otherDirective | .documentStart =>
    let (_, r) ← r.directives false [] fuel
    match ← r.peek with
    | .documentStart =>
      let (n, r) ← r.drop.explicitRoot fuel
      return (some n, r)
    | _ => throw .malformed
  | _ =>
    let (n, r) ← r.node true false fuel
    return (some n, r)

def document (fuel : Nat) (r : Reader) : Except ReadError (Option Node × List (String × Node)) := do
  let (n, r) ← r.root fuel
  let (_, r) ← r.dropDocumentEnds fuel
  match ← r.peek with
  | .streamEnd => return (n, r.anchors)
  | _ => throw .malformed

end Reader
end RouteDoc.Yaml
