/-!
# Draftboard.Picture.Error

Why a picture text could not be read. Each cause but the last carries the text at fault.
-/

namespace Draftboard

/-- The causes for which reading fails. -/
inductive ReadError
  /-- Not two numbers where a point is expected. -/
  | malformedVector (text : String)
  /-- No number, or a negative one, where a length or a percentage is expected. -/
  | malformedNumber (text : String)
  | unknownUnit (text : String)
  /-- A statement that is picture text but cannot be drawn here. -/
  | unsupported (text : String)
  /-- A text that is none of the known constructs. -/
  | noMatch (text : String)
  /-- A list of vectors without any. -/
  | emptyVectorList
deriving DecidableEq, Repr

namespace ReadError

def message : ReadError → String
  | malformedVector text => "malformed vector: " ++ text
  | malformedNumber text => "malformed number: " ++ text
  | unknownUnit text => "unknown unit: " ++ text
  | unsupported text => "unsupported construct: " ++ text
  | noMatch text => "no rule matches: " ++ text
  | emptyVectorList => "vector list is empty"

end ReadError

end Draftboard
