import AdmissionControl.Fault

/-!
# A cursor over a YAML text

A cursor holds the text that is left and its place: index, line and column.  The text has had its
line ends made U+000A already; U+0085, U+2028 and U+2029 end a line as well.  The text may break off
with a failure, which a rule meets that looks beyond it.

* `forward` moves a cursor on.
* `refuse` is an error at a cursor, and `mustGoOn` the failure of a text that breaks off there.
* The classes of code points have names here, so that the rules read as they are stated.
-/

namespace AdmissionControl.Yaml

/-- A text is no YAML document for the given reason, or reading it meets a fault. -/
inductive Error
  | malformed (reason : String)
  | fault (f : Fault)
deriving DecidableEq, Repr

/-! ### Classes of code points -/

def isBreak (c : CodePoint) : Bool :=
  c = '\n' || c.val == 0x85 || c.val == 0x2028 || c.val == 0x2029

def isSpace (c : CodePoint) : Bool := c = ' '

def isSpaceOrTab (c : CodePoint) : Bool := c = ' ' || c = '\t'

/-- A letter or digit of ASCII, a hyphen or an underscore. -/
def isWord (c : CodePoint) : Bool :=
  c.isAsciiDigit || c.isAsciiUpper || c.isAsciiLower || c = '-' || c = '_'

/-- Code points that may stand in a tag. -/
def isTagCharacter (c : CodePoint) : Bool :=
  isWord c || (Text.ofString ";/?:@&=+$,.!~*'()[]%").contains c

/-- Punctuation that opens or closes collections in flow style, and the comma. -/
def isFlowMark (c : CodePoint) : Bool :=
  c = ',' || c = '[' || c = ']' || c = '{' || c = '}'

def byteOrderMark : CodePoint := '\uFEFF'

/-! ### The cursor -/

structure Cursor where
  rest : Text
  index : Nat
  line : Nat
  column : Nat
  /-- The length of the whole text, which bounds what is left. -/
  size : Nat
  /-- What is met after the text; none if the text ends there. -/
  failure : Option Error
deriving Repr, Inhabited

namespace Cursor

def start (text : Text) (failure : Option Error) : Cursor :=
  ⟨text, 0, 0, 0, text.length, failure⟩

/-- A fuel for loops that move forward with every turn but the last. -/
def fuel (c : Cursor) : Nat := c.size + 1

def peek? (c : Cursor) : Option CodePoint := c.rest.head?

def peekAt? (c : Cursor) (n : Nat) : Option CodePoint := c.rest[n]?

/-- Whether the next code point is the given one. -/
def sees (c : Cursor) (x : Char) : Bool := c.rest.head? == some (x : CodePoint)

/-- Whether the text ends here. -/
def atEnd (c : Cursor) : Bool := c.rest.isEmpty

def next (c : Cursor) : Cursor :=
  match c.rest with
  | [] => c
  | x :: rest =>
    if isBreak x then { c with rest := rest, index := c.index + 1, line := c.line + 1, column := 0 }
    else
      { c with
        rest := rest
        index := c.index + 1
        column := if x = byteOrderMark then c.column else c.column + 1 }

def forward (c : Cursor) : Nat → Cursor
  | 0 => c
  | n + 1 => c.next.forward n

/-- An error here, found by looking at the given number of code points; if the text breaks off
before them, its failure is found instead. -/
def refuse {α : Type} (c : Cursor) (looked : Nat) (reason : String) : Except Error α :=
  match c.failure with
  | some e => .error (if c.rest.length < looked then e else .malformed reason)
  | none => .error (.malformed reason)

/-- The failure of a text that breaks off here. -/
def mustGoOn (c : Cursor) : Except Error Unit :=
  match c.failure with
  | some e => if c.rest.isEmpty then .error e else .ok ()
  | none => .ok ()

/-- The code points at the front with a property. -/
def run (c : Cursor) (p : CodePoint → Bool) : Text := c.rest.takeWhile p

/-- The cursor after the code points at the front with a property. -/
def skip (c : Cursor) (p : CodePoint → Bool) : Cursor := c.forward (c.run p).length

def skipSpaces (c : Cursor) : Cursor := c.skip isSpace

/-- Whether the code point at an offset is the end of the text or has a property. -/
def endsAt (c : Cursor) (n : Nat) (p : CodePoint → Bool) : Bool :=
  match c.peekAt? n with
  | none => true
  | some x => p x

/-- Whether a blank, a line end or the end of the text is at an offset. -/
def isSeparatedAt (c : Cursor) (n : Nat) : Bool :=
  c.endsAt n fun x => isSpaceOrTab x || isBreak x

/-- The same, but a tab does not separate. -/
def isSpacedAt (c : Cursor) (n : Nat) : Bool :=
  c.endsAt n fun x => isSpace x || isBreak x

/-- Reads a line end; U+0085 counts as U+000A, the others as themselves. -/
def lineBreak? (c : Cursor) : Option (CodePoint × Cursor) :=
  match c.rest with
  | [] => none
  | x :: _ =>
    if !isBreak x then none
    else some (if x.val = 0x85 then ('\n' : CodePoint) else x, c.next)

def atBreak (c : Cursor) : Bool := c.lineBreak?.isSome

def skipBreak (c : Cursor) : Cursor :=
  match c.lineBreak? with
  | some (_, c) => c
  | none => c

/-- A comment, up to the end of its line, if there is one here. -/
def skipComment (c : Cursor) : Cursor :=
  if c.sees '#' then c.skip (!isBreak ·) else c

/-- Whether three marks start here and are separated from what follows. -/
def seesMarks (c : Cursor) (mark : Char) : Bool :=
  c.rest.take 3 == List.replicate 3 (mark : CodePoint) && c.isSeparatedAt 3

/-- Whether a line that starts or ends a document is here. -/
def seesDocumentMarks (c : Cursor) : Bool := c.seesMarks '-' || c.seesMarks '.'

/-- Spaces and a comment up to the end of the line, and the line end; anything else is an error. -/
def restOfLine (c : Cursor) (reason : String) : Except Error Cursor :=
  let c := c.skipSpaces.skipComment
  if c.atEnd || c.atBreak then .ok c.skipBreak else .error (.malformed reason)

end Cursor

end AdmissionControl.Yaml
