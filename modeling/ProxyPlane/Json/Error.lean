/-!
# What can be wrong with a JSON text

## What is here

* `Json.Error`, the causes for which a text is refused.
* `Error.category`: a text is not JSON (`syntax` errors), ends early (`eof`), or is JSON of the
  wrong shape (`data`).
* `Error.message`, one line for people.
-/

set_option autoImplicit false
namespace ProxyPlane

/-- Why a JSON text, or a value, could not be read. -/
inductive Json.Error
  /-- The text ends inside a value. -/
  | unfinished
  /-- The text ends behind a comma. -/
  | unfinishedAfterComma
  /-- The text ends inside a number where a digit is needed. -/
  | unfinishedNumber
  /-- A character that cannot stand where it does. -/
  | malformed
  /-- A string that is no text: ill-formed UTF-8, or half of a surrogate pair. -/
  | notText
  /-- A number beyond the largest finite one. -/
  | numberOutOfRange
  /-- Arrays and objects nested beyond the limit. -/
  | tooDeep
  /-- More elements than the fields of a record, in a text. -/
  | surplus
  /-- Something behind the value. -/
  | trailing
  /-- A value of another kind than is needed. -/
  | wrongShape (expected : String)
  /-- A record without a field that it must have. -/
  | missingField (key : String)
  /-- A record with a field that stands twice. -/
  | duplicateField (key : String)
  /-- The bytes could not be read to the end. -/
  | unreadable
deriving DecidableEq, Repr, Inhabited

/-- The kinds of failure that callers tell apart. -/
inductive Json.Category
  | malformed
  | unfinished
  | wrongShape
  | unreadable
deriving DecidableEq, Repr, Inhabited

namespace Json.Error

/-- The kind of a failure. -/
def category : Error → Category
  | unfinished | unfinishedAfterComma | unfinishedNumber => .unfinished
  | malformed | notText | numberOutOfRange | tooDeep | surplus | trailing => .malformed
  | wrongShape _ | missingField _ | duplicateField _ => .wrongShape
  | unreadable => .unreadable

/-- One line for people. -/
def message : Error → String
  | unfinished => "the text ends inside a value"
  | unfinishedAfterComma => "the text ends behind a comma"
  | unfinishedNumber => "the text ends inside a number"
  | malformed => "unexpected character"
  | notText => "a string is not valid Unicode"
  | numberOutOfRange => "number out of range"
  | tooDeep => "arrays and objects are nested too deep"
  | surplus => "more elements than fields"
  | trailing => "unexpected characters behind the value"
  | wrongShape expected => s!"expected {expected}"
  | missingField key => s!"missing field '{key}'"
  | duplicateField key => s!"duplicate field '{key}'"
  | unreadable => "the text could not be read"

end Json.Error
end ProxyPlane
