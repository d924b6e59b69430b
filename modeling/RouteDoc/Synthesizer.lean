import RouteDoc.Parameter
/-! Sample values for types. Each draw takes its value from a counter and moves the counter on by
one; constants draw nothing. -/
namespace RouteDoc

inductive Recipe where
  | constant (v : Value)
  | integer | numeric | float | boolean | word | image

namespace Recipe

def numericExamples : List Value :=
  [.text "42", .int 1337, .int 1337, .int 1337, .int 1337, .float (.ofInt 1337), .text "02471",
    .text "1337e0", .float (.ofDecimal false 91 (-1))]

def half : Binary64 := .ofDecimal false 5 (-1)

def value (n : Int) : Recipe → Value
  | .constant v => v
  | .integer => .int (n * 7919 % 100000)
  | .numeric => numericExamples.getD (n % numericExamples.length).toNat .null
  | .float => .float ((Binary64.ofInt n).add half)
  | .boolean => .bool (n % 2 == 0)
  | .word => .text ("word" ++ toString n)
  | .image => .text ("https://img.example/" ++ toString n)

def draws : Recipe → Bool
  | .constant _ => false
  | _ => true

def ofType : ParamType → Recipe
  | .integer => .integer
  | .numeric => .numeric
  | .float => .float
  | .boolean => .boolean
  | .string => .word
  | .array => .constant (.text "[]")
  | .json => .constant (.text "\x7b\x7d")
  | .image => .image

end Recipe

/-- The counter, and the recipes registered in place of the first ones or for further types. -/
structure Synthesizer where
  counter : Int := 0
  registered : List (String × Recipe) := []

namespace Synthesizer

def seeded (seed : Option Int) : Synthesizer := { counter := seed.getD 0 }

def register (type : String) (r : Recipe) (s : Synthesizer) : Synthesizer :=
  { s with registered := Assoc.insert type r s.registered }

def recipe? (s : Synthesizer) (type : String) : Option Recipe :=
  match Assoc.get? type s.registered with
  | some r => some r
  | none => (ParamType.ofName? type).map Recipe.ofType

/-- An unknown type has the recipe that strings have at that moment. -/
def recipe (s : Synthesizer) (type : String) : Recipe :=
  match s.recipe? type with
  | some r => r
  | none => (s.recipe? "string").getD .word

def synthesize (s : Synthesizer) (type : String) : Value × Synthesizer :=
  let r := s.recipe type
  (r.value s.counter, if r.draws then { s with counter := s.counter + 1 } else s)

def fill (s : Synthesizer) (d : Draft) : Parameter Value × Synthesizer :=
  match d.sample with
  | .given v => ({ d with sample := v }, s)
  | .wanted t =>
    let (v, s) := s.synthesize t.name
    ({ d with sample := v }, s)

def fillAll (s : Synthesizer) : List Draft → List (Parameter Value) × Synthesizer
  | [] => ([], s)
  | d :: ds =>
    let (p, s) := s.fill d
    let (ps, s) := fillAll s ds
    (p :: ps, s)

end Synthesizer
end RouteDoc
