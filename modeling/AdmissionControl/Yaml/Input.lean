import AdmissionControl.Bytes.Portions
import AdmissionControl.Yaml.Cursor

/-!
# Inputs

An input is the text of a document as far as it can be had.  It is read in portions, and a portion
that cannot be decoded or holds a code point that no document may hold is met only by a rule that
looks so far; a document that is refused before is refused for its own reason.

* `Input.ofBytes` reads the text of a file.
* `Input.ofText` is a text that is known as a whole.
-/

namespace AdmissionControl.Yaml

/-- Code points that a text may hold. -/
def isAllowed (c : CodePoint) : Bool :=
  let n := c.val
  n == 0x09 || n == 0x0A || n == 0x0D || (0x20 ≤ n && n ≤ 0x7E) || n == 0x85 ||
  (0xA0 ≤ n && n ≤ 0xD7FF) || (0xE000 ≤ n && n ≤ 0xFFFD) || 0x10000 ≤ n

structure Input where
  /-- The text before the first failure. -/
  text : Text
  /-- What is met after it; none if the text is whole. -/
  failure : Option Error
deriving Repr

namespace Input

/-- The text of portions that are looked at one after the other, and what is met after them. -/
def ofChecked (portions : List Text) (failure : Option Error) : Input :=
  let good := portions.takeWhile fun portion => portion.all isAllowed
  ⟨good.flatten, if good.length < portions.length then
    some (.malformed "a code point is not allowed") else failure⟩

/-- An input whose first two portions are looked at together. -/
def ofPortions (portions : List Text) (failure : Option Error) : Input :=
  match portions, failure with
  | first :: second :: rest, _ => ofChecked ((first ++ second) :: rest) failure
  | _, some e => ⟨[], some e⟩
  | _, none => ofChecked portions none

def ofBytes (bytes : List UInt8) : Input :=
  let (portions, fault) := Utf8.portions bytes
  ofPortions portions (fault.map fun e => .fault (.undecodable e))

def ofText (text : Text) : Input := ofPortions [text] none

end Input

end AdmissionControl.Yaml
