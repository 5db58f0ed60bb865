/-!
# TOML values

## What is here

* `Toml`, the values of TOML.  A table remembers how it came to be, because that decides who may
  still add entries to it.
* `Toml.Error`, the causes for which a text is refused, with `Toml.Error.message`.
-/

set_option autoImplicit false
namespace ProxyPlane

/-- How a table came to be. -/
inductive Toml.Origin
  /-- It stands between brackets. -/
  | header
  /-- The header of another table names it on the way. -/
  | implied
  /-- A key with dots names it on the way. -/
  | dotted
deriving DecidableEq, Repr, Inhabited

/-- A value of TOML.  Numbers with a fraction and points in time are kept as they were written. -/
inductive Toml
  | string (value : String)
  | integer (value : Int)
  | float (text : String)
  | bool (value : Bool)
  | moment (text : String)
  | array (items : List Toml)
  /-- A table between braces; `dotted` if a key with dots made it inside of another. -/
  | inlineTable (dotted : Bool) (entries : List (String × Toml))
  | table (origin : Toml.Origin) (entries : List (String × Toml))
  /-- The tables of repeated headers between double brackets, each by its entries. -/
  | tables (items : List (List (String × Toml)))
deriving Inhabited

namespace Toml

/-- Why a text, or a value of it, was refused. -/
inductive Error
  /-- Something stands where it cannot. -/
  | malformed
  /-- An integer or a number that is too large. -/
  | outOfRange
  /-- Values or keys nested beyond the limit. -/
  | tooDeep
  /-- A key that has a value, or a table that is complete, already. -/
  | duplicateKey (key : String)
  /-- A key whose value is no table is used as one. -/
  | notTable (key : String)
  /-- A value that does not fit the key. -/
  | wrongShape (key : String)
deriving DecidableEq, Repr, Inhabited

/-- One line for people. -/
def Error.message : Error → String
  | malformed => "the text is not TOML"
  | outOfRange => "number out of range"
  | tooDeep => "values or keys are nested too deep"
  | duplicateKey key => s!"duplicate key '{key}'"
  | notTable key => s!"'{key}' is not a table"
  | wrongShape key => s!"unexpected value for '{key}'"

end Toml
end ProxyPlane
