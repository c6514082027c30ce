import AdmissionControl.Yaml.Cursor

/-!
# The text of scalars

Scalars are written plain, in quotes, or as a block under a header.  Each reader here starts at the
first code point of a scalar and answers the text that it stands for and the cursor after it.

* `quotedScalar` reads single and double quotes, `escapeCode` an escape by number.
* `blockScalar` reads literal and folded blocks, whose lines share an indentation.
* `plainScalar` reads words up to a comment, an indicator or a line that is indented too little.

Readers that loop take a fuel, which the length of the text bounds.
-/

namespace AdmissionControl.Yaml

/-! ### Line folding -/

/-- What a line end stands for with the breaks after it: a lone one is a space. -/
def foldedBreaks (first : CodePoint) (breaks : Text) : Text :=
  if first ≠ '\n' then first :: breaks
  else if breaks.isEmpty then [' '] else breaks

/-! ### Quoted scalars -/

/-- The code point of a one-letter escape. -/
def shortEscape? (c : CodePoint) : Option CodePoint :=
  ([('0', '\x00'), ('a', '\x07'), ('b', '\x08'), ('t', '\t'), ('\t', '\t'), ('n', '\n'),
    ('v', '\x0B'), ('f', '\x0C'), ('r', '\r'), ('e', '\x1B'), (' ', ' '), ('"', '"'),
    ('\\', '\\'), ('/', '/'), ('N', '\u0085'), ('_', '\u00A0'), ('L', '\u2028'),
    ('P', '\u2029')] : List (CodePoint × CodePoint)).lookup c

/-- The number of hexadecimal digits after the letter of an escape. -/
def escapeWidth? (c : CodePoint) : Option Nat :=
  ([('x', 2), ('u', 4), ('U', 8)] : List (CodePoint × Nat)).lookup c

/-- Greatest number that is looked up as a code point at all. -/
def maxCode : Nat := 0x7FFFFFFF

def escapeCode (n : Nat) : Except Error CodePoint :=
  match CodePoint.ofNat? n with
  | some c => .ok c
  | none => .error (.fault (if maxCode < n then .codePointTooLarge else .noSuchCodePoint))

/-- Blanks and line ends inside quotes, after the first line end. -/
def quotedBreaks (fuel : Nat) (done : Text) (c : Cursor) : Except Error (Text × Cursor) :=
  match fuel with
  | 0 => .ok (done.reverse, c)
  | fuel + 1 =>
    if c.seesDocumentMarks then c.refuse 4 "a document ends inside quotes"
    else
      let c := c.skip isSpaceOrTab
      match c.lineBreak? with
      | some (x, c) => quotedBreaks fuel (x :: done) c
      | none => .ok (done.reverse, c)

def quotedSpaces (fuel : Nat) (c : Cursor) : Except Error (Text × Cursor) :=
  let blanks := c.run isSpaceOrTab
  let c := c.forward blanks.length
  if c.atEnd then c.refuse 1 "quotes are not closed"
  else match c.lineBreak? with
    | none => .ok (blanks, c)
    | some (first, c) =>
      match quotedBreaks fuel [] c with
      | .error e => .error e
      | .ok (breaks, c) => .ok (foldedBreaks first breaks, c)

/-- An escape after its backslash. -/
def escaped (fuel : Nat) (c : Cursor) : Except Error (Text × Cursor) :=
  match c.peek? with
  | none => c.refuse 1 "quotes are not closed"
  | some x =>
    match shortEscape? x, escapeWidth? x with
    | some y, _ => .ok ([y], c.next)
    | none, some width =>
      let digits := c.next.rest.take width
      if digits.length = width && digits.all CodePoint.isHexDigit then
        (escapeCode (digits.foldl (fun n d => n * 16 + d.digitValue?.getD 0) 0)).map fun y =>
          ([y], c.next.forward width)
      else
        c.next.refuse ((digits.takeWhile CodePoint.isHexDigit).length + 1) "an escape lacks digits"
    | none, none =>
      if isBreak x then quotedBreaks fuel [] c.next
      else .error (.malformed "an escape is unknown")

/-- The text up to the closing quote; `done` is what came before, in reverse. -/
def quotedText (double : Bool) (fuel : Nat) (done : Text) (c : Cursor) :
    Except Error (Text × Cursor) :=
  match fuel with
  | 0 => c.refuse 1 "quotes are not closed"
  | fuel + 1 =>
    match c.peek? with
    | none => c.refuse 1 "quotes are not closed"
    | some x =>
      if isSpaceOrTab x || isBreak x then
        match quotedSpaces fuel c with
        | .error e => .error e
        | .ok (text, c) => quotedText double fuel (text.reverse ++ done) c
      else if x = '\'' && !double then
        if c.peekAt? 1 = some x then quotedText double fuel (x :: done) (c.forward 2)
        else .ok (done.reverse, c.next)
      else if x = '"' && double then .ok (done.reverse, c.next)
      else if x = '\\' && double then
        match escaped fuel c.next with
        | .error e => .error e
        | .ok (text, c) => quotedText double fuel (text.reverse ++ done) c
      else quotedText double fuel (x :: done) c.next

def quotedScalar (double : Bool) (c : Cursor) : Except Error (Text × Cursor) :=
  quotedText double c.fuel [] c.next

/-! ### Block scalars -/

/-- What becomes of the line ends after the last line of a block. -/
inductive Chomping
  | strip
  | clip
  | keep
deriving DecidableEq, Repr

structure BlockHeader where
  chomping : Chomping
  /-- Indentation beyond that of the block around, if the header gives it. -/
  indentation : Option Nat
deriving Repr

def chomping? (c : Cursor) : Option (Chomping × Cursor) :=
  if c.sees '+' then some (.keep, c.next)
  else if c.sees '-' then some (.strip, c.next)
  else none

/-- A digit from one to nine, if a digit is here. -/
def indentation? (c : Cursor) : Except Error (Option (Nat × Cursor)) :=
  match c.peek? with
  | none => .ok none
  | some x =>
    if !x.isAsciiDigit then .ok none
    else if x = '0' then .error (.malformed "an indentation of zero is given")
    else .ok (some (x.val - 0x30, c.next))

/-- The header of a block: a sign and a digit in either order, then the rest of the line. -/
def blockHeader (c : Cursor) : Except Error (BlockHeader × Cursor) := do
  let (header, c) ← match chomping? c with
    | some (chomping, c) => do
      match ← indentation? c with
      | some (n, c) => pure (⟨chomping, some n⟩, c)
      | none => pure (⟨chomping, none⟩, c)
    | none => do
      match ← indentation? c with
      | some (n, c) =>
        match chomping? c with
        | some (chomping, c) => pure (⟨chomping, some n⟩, c)
        | none => pure (⟨.clip, some n⟩, c)
      | none => pure (⟨.clip, none⟩, c)
  if !c.isSpacedAt 0 then throw (.malformed "a block header has a wrong mark")
  let c ← c.restOfLine "a block header is followed by text"
  return (header, c)

/-- Leading empty lines, and the widest run of spaces among them and before the first text. -/
def leadingBreaks (fuel : Nat) (done : Text) (widest : Nat) (c : Cursor) : Text × Nat × Cursor :=
  match fuel with
  | 0 => (done.reverse, widest, c)
  | fuel + 1 =>
    if c.sees ' ' then leadingBreaks fuel done (max widest c.next.column) c.next
    else match c.lineBreak? with
      | some (x, c) => leadingBreaks fuel (x :: done) widest c
      | none => (done.reverse, widest, c)

/-- Spaces up to a column. -/
def skipIndentation (indent : Nat) (c : Cursor) : Cursor :=
  c.forward (min (c.run isSpace).length (indent - c.column))

/-- Empty lines, each with spaces up to the indentation. -/
def blockBreaks (indent : Nat) (fuel : Nat) (done : Text) (c : Cursor) : Text × Cursor :=
  let c := skipIndentation indent c
  match fuel with
  | 0 => (done.reverse, c)
  | fuel + 1 =>
    match c.lineBreak? with
    | some (x, c) => blockBreaks indent fuel (x :: done) c
    | none => (done.reverse, c)

/-- Whether a line of the block is here. -/
def atBlockLine (indent : Nat) (c : Cursor) : Bool := c.column == indent && !c.atEnd

/-- What stands between two lines of a block. -/
def betweenLines (folded : Bool) (firstStartsBlank : Bool) (c : Cursor) (lineBreak breaks : Text) :
    Text :=
  if folded && lineBreak == ([('\n' : CodePoint)] : Text) && !firstStartsBlank &&
      !(c.peek?.map isSpaceOrTab).getD false then
    if breaks.isEmpty then [' '] else breaks
  else lineBreak ++ breaks

def chomp (chomping : Chomping) (lineBreak breaks : Text) : Text :=
  match chomping with
  | .strip => []
  | .clip => lineBreak
  | .keep => lineBreak ++ breaks

/-- The lines of a block, of which the first is here. -/
def blockLines (folded : Bool) (chomping : Chomping) (indent : Nat) (fuel : Nat) (done : Text)
    (c : Cursor) : Text × Cursor :=
  match fuel with
  | 0 => (done.reverse, c)
  | fuel + 1 =>
    let startsBlank := (c.peek?.map isSpaceOrTab).getD false
    let line := c.run (!isBreak ·)
    let c := c.forward line.length
    let (lineBreak, c) : Text × Cursor := match c.lineBreak? with
      | some (x, c) => ([x], c)
      | none => ([], c)
    let (breaks, c) := blockBreaks indent c.fuel [] c
    let done := line.reverse ++ done
    if atBlockLine indent c then
      blockLines folded chomping indent fuel
        ((betweenLines folded startsBlank c lineBreak breaks).reverse ++ done) c
    else (((chomp chomping lineBreak breaks).reverse ++ done).reverse, c)

/-- A block scalar inside a block that is indented by `outer`, which is -1 at the outermost. -/
def blockScalar (folded : Bool) (outer : Int) (c : Cursor) : Except Error (Text × Cursor) := do
  let (header, c) ← blockHeader c.next
  let least := max 1 (outer + 1).toNat
  let (breaks, indent, c) := match header.indentation with
    | some n =>
      let indent := least + n - 1
      let (breaks, c) := blockBreaks indent c.fuel [] c
      (breaks, indent, c)
    | none =>
      let (breaks, widest, c) := leadingBreaks c.fuel [] 0 c
      (breaks, max least widest, c)
  if atBlockLine indent c then
    return blockLines folded header.chomping indent c.fuel breaks.reverse c
  else return (chomp header.chomping [] breaks, c)

/-! ### Plain scalars -/

/-- A plain scalar with the cursor after it, and whether a line ended on the way there. -/
structure Plain where
  text : Text
  cursor : Cursor
  sawBreak : Bool

/-- Whether a plain word ends at the front of a text. -/
def wordEnds (inFlow : Bool) : Text → Bool
  | [] => true
  | x :: rest =>
    isSpaceOrTab x || isBreak x ||
    (x = ':' && match rest with
      | [] => true
      | y :: _ => isSpaceOrTab y || isBreak y || (inFlow && isFlowMark y)) ||
    (inFlow && (isFlowMark x || x = '?'))

/-- The word at the front of a text. -/
def plainWord (inFlow : Bool) : Text → Text
  | [] => []
  | x :: rest => if wordEnds inFlow (x :: rest) then [] else x :: plainWord inFlow rest

/-- Empty lines and indentation after a line end in a plain scalar; none if a document ends here. -/
def plainBreaks (fuel : Nat) (done : Text) (c : Cursor) : Option Text × Cursor :=
  match fuel with
  | 0 => (some done.reverse, c)
  | fuel + 1 =>
    if c.sees ' ' then plainBreaks fuel done c.next
    else match c.lineBreak? with
      | some (x, c) =>
        if c.seesDocumentMarks then (none, c) else plainBreaks fuel (x :: done) c
      | none => (some done.reverse, c)

/-- What stands between two words of a plain scalar, empty if the scalar ends. -/
def plainSpaces (c : Cursor) : Text × Cursor × Bool :=
  let blanks := c.run isSpace
  let c := c.forward blanks.length
  match c.lineBreak? with
  | none => (blanks, c, false)
  | some (first, c) =>
    if c.seesDocumentMarks then ([], c, true)
    else match plainBreaks c.fuel [] c with
      | (none, c) => ([], c, true)
      | (some breaks, c) => (foldedBreaks first breaks, c, true)

/-- The words of a plain scalar.  `least` is the column that a later line must reach. -/
def plainWords (inFlow : Bool) (least : Int) (fuel : Nat) (done spaces : Text) (sawBreak : Bool)
    (c : Cursor) : Plain :=
  match fuel with
  | 0 => ⟨done.reverse, c, sawBreak⟩
  | fuel + 1 =>
    let word := plainWord inFlow c.rest
    if c.sees '#' || word.isEmpty then ⟨done.reverse, c, sawBreak⟩
    else
      let done := word.reverse ++ (spaces.reverse ++ done)
      let (spaces, c, ended) := plainSpaces (c.forward word.length)
      if spaces.isEmpty || c.sees '#' || (!inFlow && (c.column : Int) < least) then
        ⟨done.reverse, c, ended⟩
      else plainWords inFlow least fuel done spaces ended c

def plainScalar (inFlow : Bool) (outer : Int) (c : Cursor) : Plain :=
  plainWords inFlow (outer + 1) c.fuel [] [] false c

end AdmissionControl.Yaml
