import AdmissionControl.Text

/-!
# JSON values

Objects keep the order of their members.  A number with a fraction or a power of ten is kept as it
is written; so are the constants `NaN`, `Infinity` and `-Infinity`.
-/

namespace AdmissionControl.Json

inductive Value
  | null
  | bool (b : Bool)
  | integer (n : Int)
  | decimal (literal : Text)
  | string (s : Text)
  | array (items : List Value)
  | object (members : List (Text × Value))
deriving Repr, Inhabited

namespace Value

/-- A string value with the characters of a literal. -/
def ofString (s : String) : Value := .string (Text.ofString s)

instance : Coe String Value := ⟨ofString⟩

def ofNat (n : Nat) : Value := .integer n

/-- The given text, or null. -/
def ofText? : Option Text → Value
  | some s => .string s
  | none => .null

/-- An object whose names are written as literals. -/
def record (members : List (String × Value)) : Value :=
  .object (members.map fun m => (Text.ofString m.1, m.2))

/-- The first member of an object with the given name. -/
def field? (name : Text) : Value → Option Value
  | .object members => (members.find? fun m => m.1 = name).map (·.2)
  | _ => none

end Value

end AdmissionControl.Json
