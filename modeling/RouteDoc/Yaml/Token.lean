/-! The tokens of a YAML document, and why a document cannot be read. -/
namespace RouteDoc.Yaml

inductive Token where
  | versionDirective (major : Nat)
  | tagDirective (handle start : String)
  | otherDirective
  | documentStart
  | documentEnd
  | streamEnd
  | blockSequenceStart
  | blockMappingStart
  | blockEnd
  | flowSequenceStart
  | flowSequenceEnd
  | flowMappingStart
  | flowMappingEnd
  | blockEntry
  | flowEntry
  | key
  | value
  | alias (name : String)
  | anchor (name : String)
  /-- Without a handle the suffix is the whole tag. -/
  | tag (handle : Option String) (suffix : String)
  | scalar (text : String) (plain : Bool)
deriving DecidableEq, Repr

inductive ReadError where
  | malformed
  | noCharacter
  | escapeTooLarge
  | notANumber
  | emptyNumber
  | notABoolean
  | notATimestamp
  | impossibleDate
deriving DecidableEq, Repr

end RouteDoc.Yaml
