/-! UTF-8, and text files: every line ending is turned into a line feed. -/
namespace RouteDoc.Text

def unifyLineEnds : List Char → List Char
  | [] => []
  | '\r' :: '\n' :: r => '\n' :: unifyLineEnds r
  | '\r' :: r => '\n' :: unifyLineEnds r
  | c :: r => c :: unifyLineEnds r

def encode (s : String) : List UInt8 := s.toUTF8.data.toList

def decode? (b : List UInt8) : Option String := String.fromUTF8? ⟨b.toArray⟩

def ofFile? (b : List UInt8) : Option String :=
  (decode? b).map fun s => String.ofList (unifyLineEnds s.toList)

end RouteDoc.Text
