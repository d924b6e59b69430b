import RouteDoc.Yaml.Grammar
import RouteDoc.Yaml.ScalarValue
import RouteDoc.Yaml.TokenStream
/-! The value of a document. Scalars are read at once, collections level by level, so that of
several errors the one of the outermost level counts. -/
namespace RouteDoc.Yaml
namespace Node

def isDeferred : NodeType → Bool
  | .sequence | .mapping | .set | .orderedMapping | .pairs => true
  | _ => false

mutual
def scalarText : Node → Except ReadError String
  | .scalar _ s => .ok s
  | .mapping _ es => defaultText es
  | _ => .error .malformed

def defaultText : List (Node × Node) → Except ReadError String
  | [] => .error .malformed
  | (k, v) :: es => if k.type = .default then scalarText v else defaultText es
end

def directValue (n : Node) : Except ReadError Value :=
  match n.type with
  | .null | .text | .bool | .int | .float | .binary | .timestamp =>
    n.scalarText.bind (scalarValue n.type)
  | _ => .error .malformed

def asKey : Node → Node
  | .scalar .default s => .scalar .text s
  | n => n

mutual
def mergedEntries : Node → Except ReadError (List (Node × Node))
  | .mapping _ es => (splitMerges es).map fun (merged, own) => merged ++ own
  | .back _ => .ok []
  | _ => .error .malformed

def splitMerges : List (Node × Node) → Except ReadError (List (Node × Node) × List (Node × Node))
  | [] => .ok ([], [])
  | (k, v) :: es =>
    match splitMerges es with
    | .error e => .error e
    | .ok (merged, own) =>
      if k.type = .merge then
        match v with
        | .sequence _ ns => (mergeAll ns).map fun m => (m ++ merged, own)
        | v => (mergedEntries v).map fun m => (m ++ merged, own)
      else .ok (merged, (asKey k, v) :: own)

/-- The entries of several mappings; those of an earlier one come later and so count. -/
def mergeAll : List Node → Except ReadError (List (Node × Node))
  | [] => .ok []
  | n :: ns =>
    match mergedEntries n, mergeAll ns with
    | .ok m, .ok ms => .ok (ms ++ m)
    | .error e, _ => .error e
    | _, .error e => .error e
end

def singleEntries : List Node → Except ReadError (List (Node × Node))
  | [] => .ok []
  | .mapping _ [e] :: ns => (singleEntries ns).map (e :: ·)
  | _ => .error .malformed

def checkChild (later : List Node) : Node → Except ReadError (List Node)
  | .back _ => .ok later
  | n => if isDeferred n.type then .ok (later ++ [n]) else n.directValue.map fun _ => later

def checkKey (later : List Node) (n : Node) : Except ReadError (List Node) :=
  match n with
  | .back _ => .error .malformed
  | n => if isDeferred n.type then .error .malformed else n.directValue.map fun _ => later

def checkEntries (checkFirst : List Node → Node → Except ReadError (List Node))
    (later : List Node) : List (Node × Node) → Except ReadError (List Node)
  | [] => .ok later
  | (k, v) :: es =>
    match checkFirst later k with
    | .error e => .error e
    | .ok later =>
      match checkChild later v with
      | .error e => .error e
      | .ok later => checkEntries checkFirst later es

def checkItems (later : List Node) : List Node → Except ReadError (List Node)
  | [] => .ok later
  | n :: ns => (checkChild later n).bind fun later => checkItems later ns

def checkInside (later : List Node) (n : Node) : Except ReadError (List Node) :=
  match n.type, n with
  | .sequence, .sequence _ ns => checkItems later ns
  | .mapping, n | .set, n => n.mergedEntries.bind (checkEntries checkKey later)
  | .orderedMapping, .sequence _ ns | .pairs, .sequence _ ns =>
    (singleEntries ns).bind (checkEntries checkChild later)
  | _, _ => .error .malformed

def checkLevel (later : List Node) : List Node → Except ReadError (List Node)
  | [] => .ok later
  | n :: ns => (checkInside later n).bind fun later => checkLevel later ns

def checkLevels : Nat → List Node → Except ReadError Unit
  | _, [] => .ok ()
  | 0, _ => .error .malformed
  | depth + 1, ns => (checkLevel [] ns).bind (checkLevels depth)

def unfoldLimit : Nat := 8

/-- The value of a node that has passed the checks. A node that holds itself is unfolded a few times
and then cut off with null. -/
def value (anchors : List (String × Node)) (unfolds : Nat) : Nat → Node → Value
  | 0, _ => .null
  | fuel + 1, n =>
    match n with
    | .back a =>
      match unfolds, anchors.lookup a with
      | u + 1, some n => value anchors u fuel n
      | _, _ => .null
    | n =>
      let part := value anchors unfolds fuel
      match n.type, n with
      | .sequence, .sequence _ ns => .list (ns.map part)
      | .mapping, n => .ofPairs (entries part n)
      | .set, n => .set ((Assoc.keys (Assoc.ofList (entries part n))))
      | .orderedMapping, .sequence _ ns | .pairs, .sequence _ ns =>
        .list (((singleEntries ns).toOption.getD []).map fun (k, v) => .tuple [part k, part v])
      | _, n => (n.directValue.toOption).getD .null
where
  entries (part : Node → Value) (n : Node) : List (Value × Value) :=
    ((n.mergedEntries).toOption.getD []).map fun (k, v) => (part k, part v)

end Node

def read (text : String) : Except ReadError Value :=
  let (tokens, failure) := tokensOf text.toList
  let fuel := 4 * tokens.length + 8
  match Reader.document fuel { tokens, failure := failure.getD .malformed } with
  | .error e => .error e
  | .ok (none, _) => .ok .null
  | .ok (some n, anchors) =>
    match (Node.checkChild [] n).bind (Node.checkLevels fuel) with
    | .error e => .error e
    | .ok () => .ok (n.value anchors Node.unfoldLimit (fuel + fuel * Node.unfoldLimit))

end RouteDoc.Yaml
