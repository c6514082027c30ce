import AdmissionControl.Json.Value
import AdmissionControl.Text.Hex

/-!
# Writing JSON

A printer is given the way in which a code point stands inside a string.

* `Value.render` writes ASCII only: every code point beyond it, and every control character, is an
  escape by number, a code point above U+FFFF as a pair of surrogates.
* `Value.renderPlain` escapes quotes, backslashes and control characters alone.
-/

namespace AdmissionControl.Json

def unitEscape (n : Nat) : Text := "\\u" ++ Text.hexPadded 4 n

/-- The escapes that have letters. -/
def letterEscape? (c : CodePoint) : Option Text :=
  if c = '"' then some "\\\""
  else if c = '\\' then some "\\\\"
  else if c = '\n' then some "\\n"
  else if c = '\r' then some "\\r"
  else if c = '\t' then some "\\t"
  else if c = '\x08' then some "\\b"
  else if c = '\x0C' then some "\\f"
  else none

def asciiEscape (c : CodePoint) : Text :=
  match letterEscape? c with
  | some s => s
  | none =>
    if 0x20 ≤ c.val ∧ c.val ≤ 0x7E then [c]
    else if c.val ≤ 0xFFFF then unitEscape c.val
    else unitEscape (0xD800 + (c.val - 0x10000) / 0x400) ++ unitEscape (0xDC00 + c.val % 0x400)

def plainEscape (c : CodePoint) : Text :=
  match letterEscape? c with
  | some s => s
  | none => if c.val < 0x20 then unitEscape c.val else [c]

def renderString (escape : CodePoint → Text) (s : Text) : Text :=
  ("\"" : Text) ++ s.flatMap escape ++ ("\"" : Text)

namespace Value

mutual

def renderWith (escape : CodePoint → Text) : Value → Text
  | .null => "null"
  | .bool b => if b then "true" else "false"
  | .integer n => Text.ofInt n
  | .decimal literal => literal
  | .string s => renderString escape s
  | .array items => ("[" : Text) ++ renderItems escape items ++ ("]" : Text)
  | .object members => ("\x7b" : Text) ++ renderMembers escape members ++ ("\x7d" : Text)

def renderItems (escape : CodePoint → Text) : List Value → Text
  | [] => []
  | [v] => renderWith escape v
  | v :: rest => renderWith escape v ++ (',' : CodePoint) :: renderItems escape rest

def renderMembers (escape : CodePoint → Text) : List (Text × Value) → Text
  | [] => []
  | [(name, v)] => renderString escape name ++ (':' : CodePoint) :: renderWith escape v
  | (name, v) :: rest =>
    renderString escape name ++ (':' : CodePoint) :: renderWith escape v ++
      (',' : CodePoint) :: renderMembers escape rest

end

def render (v : Value) : Text := renderWith asciiEscape v

def renderPlain (v : Value) : Text := renderWith plainEscape v

end Value

example : (Value.array [.null, .ofNat 7]).render = Text.ofString "[null,7]" := by decide

end AdmissionControl.Json
