/-!
# How deep data may nest

Reading and writing recurse into what they read or write until the stack is used up.  How deep that
is depends on what the caller has left of the stack, so the program is taken at any limits.
-/

namespace AdmissionControl

class Limits where
  /-- Arrays and objects in a JSON text. -/
  json : Nat
  /-- Containers in the literal of a value. -/
  literal : Nat
  /-- Nodes in a YAML document. -/
  yaml : Nat
  /-- Mappings that are merged into each other. -/
  merge : Nat
  /-- A list in an object can be read. -/
  two_le_json : 2 ≤ json

/-- What a call from the outermost level has at least. -/
abbrev Limits.usual : Limits where
  json := 950
  literal := 960
  yaml := 475
  merge := 950
  two_le_json := by decide

end AdmissionControl
