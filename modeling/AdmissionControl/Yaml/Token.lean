import AdmissionControl.Yaml.Input
import AdmissionControl.Yaml.Scalar

/-!
# Tokens

A token is an indicator, a scalar, or a mark that indentation implies.  A mapping key needs no
indicator of its own: whatever may be a key is remembered with its place among the tokens, and if a
colon follows on the same line, within `maxKeyLength` code points, the key mark is inserted there.

* `Lexer` is the state between two tokens; `Lexer.step` reads what comes next.
* `tokens` reads an input and answers the tokens up to the first error, and that error.
-/

namespace AdmissionControl.Yaml

inductive Token
  | versionDirective (major : Nat)
  | tagDirective (handle start : Text)
  | otherDirective
  | documentStart
  | documentEnd
  | streamEnd
  | blockSequenceStart
  | blockMappingStart
  | blockEnd
  | flowSequenceStart
  | flowSequenceEnd
  | flowMappingStart
  | flowMappingEnd
  | flowEntry
  | blockEntry
  | key
  | value
  | alias (name : Text)
  | anchor (name : Text)
  | tag (handle : Option Text) (suffix : Text)
  | scalar (text : Text) (plain : Bool)
deriving DecidableEq, Repr

/-! ### Directives, anchors and tags -/

def directiveNumber (c : Cursor) : Except Error (Nat × Cursor) := do
  let digits := c.run CodePoint.isAsciiDigit
  let after := c.forward digits.length
  after.mustGoOn
  if digits.isEmpty then throw (.malformed "a version lacks a number")
  if Numeral.maxDigits < digits.length then throw (.fault (.tooManyDigits digits.length))
  return (Numeral.ofDigits 10 (digits.filterMap CodePoint.digitValue?), after)

def versionDirective (c : Cursor) : Except Error (Token × Cursor) := do
  let (major, c) ← directiveNumber c.skipSpaces
  if !c.sees '.' then throw (.malformed "a version lacks a point")
  let (_, c) ← directiveNumber c.next
  if !c.isSpacedAt 0 then throw (.malformed "a version is followed by text")
  return (.versionDirective major, c)

/-- A tag handle: one exclamation mark, or two with a word between them. -/
def tagHandle (c : Cursor) : Except Error (Text × Cursor) :=
  if !c.sees '!' then c.refuse 1 "a tag handle lacks its mark"
  else if c.peekAt? 1 = some (' ' : CodePoint) then .ok ("!", c.next)
  else
    let word := c.next.run isWord
    if c.peekAt? (word.length + 1) = some ('!' : CodePoint) then
      .ok (c.rest.take (word.length + 2), c.forward (word.length + 2))
    else c.refuse (word.length + 2) "a tag handle is not closed"

/-- Bytes that are written as a percent sign and two digits. -/
def percentBytes (fuel : Nat) (done : List UInt8) (c : Cursor) :
    Except Error (List UInt8 × Cursor) :=
  match fuel with
  | 0 => .ok (done.reverse, c)
  | fuel + 1 =>
    if !c.sees '%' then .ok (done.reverse, c)
    else
      let digits := c.next.rest.take 2
      if digits.length = 2 && digits.all CodePoint.isHexDigit then
        let n := digits.foldl (fun n d => n * 16 + d.digitValue?.getD 0) 0
        percentBytes fuel (UInt8.ofNat n :: done) (c.forward 3)
      else
        c.next.refuse ((digits.takeWhile CodePoint.isHexDigit).length + 1)
          "an escape in a tag lacks digits"

/-- The part of a tag after its handle. -/
def tagSuffix (fuel : Nat) (done : Text) (c : Cursor) : Except Error (Text × Cursor) :=
  match fuel with
  | 0 => .ok (done, c)
  | fuel + 1 =>
    if c.sees '%' then do
      let (bytes, c) ← percentBytes c.fuel [] c
      match Utf8.decode? bytes with
      | .ok text => tagSuffix fuel (done ++ text) c
      | .error _ => throw (.malformed "an escape in a tag is not UTF-8")
    else
      let part := c.run fun x => isTagCharacter x && x ≠ '%'
      if part.isEmpty then
        if done.isEmpty then c.refuse 1 "a tag is empty" else .ok (done, c)
      else tagSuffix fuel (done ++ part) (c.forward part.length)

def tagText (c : Cursor) : Except Error (Text × Cursor) := tagSuffix c.fuel [] c

def tagDirective (c : Cursor) : Except Error (Token × Cursor) := do
  let (handle, c) ← tagHandle c.skipSpaces
  if !c.sees ' ' then c.refuse 1 "a tag handle is followed by text"
  let (start, c) ← tagText c.skipSpaces
  if !c.isSpacedAt 0 then throw (.malformed "a tag is followed by text")
  return (.tagDirective handle start, c)

def directive (c : Cursor) : Except Error (Token × Cursor) := do
  let name := c.next.run isWord
  let c := c.next.forward name.length
  if name.isEmpty then c.refuse 1 "a directive lacks a name"
  if !c.isSpacedAt 0 then throw (.malformed "a directive has a wrong name")
  let (token, c) ←
    if name = "YAML" then versionDirective c
    else if name = "TAG" then tagDirective c
    else pure (Token.otherDirective, c.skip (!isBreak ·))
  let c ← c.restOfLine "a directive is followed by text"
  return (token, c)

/-- Marks that may follow the name of an anchor at once. -/
def isAfterAnchor (x : CodePoint) : Bool :=
  isSpaceOrTab x || isBreak x || (Text.ofString "?:,]\x7d%@\x60").contains x

/-- The name after the mark of an anchor or an alias. -/
def anchorName (c : Cursor) : Except Error (Text × Cursor) :=
  let name := c.next.run isWord
  let c := c.next.forward name.length
  if name.isEmpty then c.refuse 1 "an anchor lacks a name"
  else if c.endsAt 0 isAfterAnchor then .ok (name, c)
  else .error (.malformed "an anchor has a wrong name")

/-- Whether a second exclamation mark closes a handle before the next blank. -/
def hasHandle (c : Cursor) : Bool :=
  ((c.next.run fun x => !isSpace x && !isBreak x).contains ('!' : CodePoint))

/-- A tag: in angle brackets, a lone mark, or a handle with a suffix. -/
def tagToken (c : Cursor) : Except Error (Token × Cursor) := do
  let (token, c) ←
    if c.peekAt? 1 = some ('<' : CodePoint) then do
      let (suffix, c) ← tagText (c.forward 2)
      if !c.sees '>' then c.refuse 1 "a tag is not closed"
      pure (Token.tag none suffix, c.next)
    else if c.isSeparatedAt 1 then pure (Token.tag none "!", c.next)
    else if hasHandle c then do
      let (handle, c) ← tagHandle c
      let (suffix, c) ← tagText c
      pure (Token.tag (some handle) suffix, c)
    else do
      let (suffix, c) ← tagText c.next
      pure (Token.tag (some "!") suffix, c)
  if !c.isSpacedAt 0 then throw (.malformed "a tag is followed by text")
  return (token, c)

/-! ### The state between tokens -/

/-- A place where a key may turn out to start. -/
structure PossibleKey where
  /-- How many tokens come before it. -/
  position : Nat
  /-- Nothing but a key can stand here. -/
  required : Bool
  index : Nat
  line : Nat
  column : Nat
deriving Repr

/-- Greatest length of a key without an indicator. -/
def maxKeyLength : Nat := 1024

structure Lexer where
  cursor : Cursor
  /-- The tokens so far, the last one first. -/
  done : List Token
  /-- How many tokens there are. -/
  count : Nat
  /-- How many collections in flow style are open. -/
  flowLevel : Nat
  /-- The column of the innermost block, -1 outside of all. -/
  indent : Int
  outerIndents : List Int
  keyAllowed : Bool
  /-- The possible keys by flow level. -/
  possibleKeys : List (Nat × PossibleKey)
deriving Repr

namespace Lexer

def start (input : Input) : Lexer :=
  ⟨Cursor.start input.text input.failure, [], 0, 0, -1, [], true, []⟩

def inFlow (l : Lexer) : Bool := l.flowLevel != 0

def column (l : Lexer) : Int := l.cursor.column

def push (l : Lexer) (token : Token) : Lexer :=
  { l with done := token :: l.done, count := l.count + 1 }

/-- Inserts a token after the first `position` ones. -/
def insertAt (l : Lexer) (position : Nat) (token : Token) : Lexer :=
  let later := l.count - position
  { l with done := l.done.take later ++ token :: l.done.drop later, count := l.count + 1 }

/-- Ends the blocks that are indented further than a column. -/
def unwind (column : Int) : List Int → Lexer → Lexer
  | [], l => l
  | outer :: rest, l =>
    if column < l.indent then
      unwind column rest ({ l with indent := outer, outerIndents := rest }.push .blockEnd)
    else l

def unwindTo (l : Lexer) (column : Int) : Lexer :=
  if l.inFlow then l else unwind column l.outerIndents l

/-- Starts a block at a column if it is further in; the flag says whether it did. -/
def indentTo (l : Lexer) (column : Int) : Bool × Lexer :=
  if l.indent < column then
    (true, { l with indent := column, outerIndents := l.indent :: l.outerIndents })
  else (false, l)

def missingColon {α : Type} : Except Error α := .error (.malformed "a key lacks its colon")

/-- Drops the possible keys that are too far away by now. -/
def dropStaleKeys (l : Lexer) : Except Error Lexer :=
  let isStale (k : Nat × PossibleKey) : Bool :=
    k.2.line != l.cursor.line || maxKeyLength < l.cursor.index - k.2.index
  if l.possibleKeys.any fun k => isStale k && k.2.required then missingColon
  else .ok { l with possibleKeys := l.possibleKeys.filter (!isStale ·) }

def keyHere? (l : Lexer) : Option PossibleKey := l.possibleKeys.lookup l.flowLevel

def forgetKey (l : Lexer) : Lexer :=
  { l with possibleKeys := l.possibleKeys.filter (·.1 != l.flowLevel) }

/-- Drops the possible key of the current flow level, which must not be required. -/
def removeKey (l : Lexer) : Except Error Lexer :=
  match l.keyHere? with
  | some k => if k.required then missingColon else .ok l.forgetKey
  | none => .ok l

/-- Remembers the next token as a possible key, where keys are allowed. -/
def saveKey (l : Lexer) : Except Error Lexer := do
  if !l.keyAllowed then return l
  let required := !l.inFlow && l.indent == l.column
  let l ← l.removeKey
  let k : PossibleKey :=
    ⟨l.count, required, l.cursor.index, l.cursor.line, l.cursor.column⟩
  return { l with possibleKeys := (l.flowLevel, k) :: l.possibleKeys }

def allowKey (allowed : Bool) (l : Lexer) : Lexer := { l with keyAllowed := allowed }

def move (cursor : Cursor) (l : Lexer) : Lexer := { l with cursor := cursor }

/-! ### Reading a token -/

/-- Spaces, comments and line ends; outside of flow style a new line allows a key. -/
def skipToToken (fuel : Nat) (l : Lexer) : Lexer :=
  match fuel with
  | 0 => l
  | fuel + 1 =>
    let c := l.cursor.skipSpaces.skipComment
    match c.lineBreak? with
    | none => l.move c
    | some (_, c) => skipToToken fuel ((l.move c).allowKey (l.keyAllowed || !l.inFlow))

def skipByteOrderMark (l : Lexer) : Lexer :=
  if l.cursor.index == 0 && l.cursor.peek? == some byteOrderMark then l.move l.cursor.next else l

def readStreamEnd (l : Lexer) : Except Error Lexer := do
  let l ← (l.unwindTo (-1)).removeKey
  return ({ l with keyAllowed := false, possibleKeys := [] }).push .streamEnd

def readDirective (l : Lexer) : Except Error Lexer := do
  let l ← (l.unwindTo (-1)).removeKey
  let (token, c) ← directive l.cursor
  return ((l.allowKey false).push token).move c

def readDocumentMark (token : Token) (l : Lexer) : Except Error Lexer := do
  let l ← (l.unwindTo (-1)).removeKey
  return ((l.allowKey false).push token).move (l.cursor.forward 3)

def readFlowStart (token : Token) (l : Lexer) : Except Error Lexer := do
  let l ← l.saveKey
  return (({ l with flowLevel := l.flowLevel + 1 }.allowKey true).push token).move l.cursor.next

def readFlowEnd (token : Token) (l : Lexer) : Except Error Lexer := do
  let l ← l.removeKey
  if l.flowLevel = 0 then throw (.malformed "a closing bracket has no opening one")
  return (({ l with flowLevel := l.flowLevel - 1 }.allowKey false).push token).move l.cursor.next

def readFlowEntry (l : Lexer) : Except Error Lexer := do
  let l ← (l.allowKey true).removeKey
  return (l.push .flowEntry).move l.cursor.next

/-- Starts a block at the current column, unless one is there; keys must be allowed. -/
def openBlock (token : Token) (reason : String) (l : Lexer) : Except Error Lexer :=
  if l.inFlow then .ok l
  else if !l.keyAllowed then .error (.malformed reason)
  else match l.indentTo l.column with
    | (true, l) => .ok (l.push token)
    | (false, l) => .ok l

def readBlockEntry (l : Lexer) : Except Error Lexer := do
  let l ← l.openBlock .blockSequenceStart "a sequence entry is not allowed here"
  let l ← (l.allowKey true).removeKey
  return (l.push .blockEntry).move l.cursor.next

def readKey (l : Lexer) : Except Error Lexer := do
  let l ← l.openBlock .blockMappingStart "a mapping key is not allowed here"
  let l ← (l.allowKey !l.inFlow).removeKey
  return (l.push .key).move l.cursor.next

/-- A colon: it makes a key of the possible one, or stands for a value without a key. -/
def readValue (l : Lexer) : Except Error Lexer := do
  match l.keyHere? with
  | some k =>
    let l := l.forgetKey.insertAt k.position .key
    let l := if l.inFlow then l else
      match l.indentTo k.column with
      | (true, l) => l.insertAt k.position .blockMappingStart
      | (false, l) => l
    return ((l.allowKey false).push .value).move l.cursor.next
  | none =>
    let l ← l.openBlock .blockMappingStart "a mapping value is not allowed here"
    let l ← (l.allowKey !l.inFlow).removeKey
    return (l.push .value).move l.cursor.next

/-- A token that may be a key or start one. -/
def readKeyable (read : Cursor → Except Error (Token × Cursor)) (l : Lexer) :
    Except Error Lexer := do
  let l ← l.saveKey
  let (token, c) ← read l.cursor
  return ((l.allowKey false).push token).move c

def readBlockScalar (folded : Bool) (l : Lexer) : Except Error Lexer := do
  let l ← (l.allowKey true).removeKey
  let (text, c) ← blockScalar folded l.indent l.cursor
  return (l.push (.scalar text false)).move c

def readQuoted (double : Bool) : Lexer → Except Error Lexer :=
  readKeyable fun c => (quotedScalar double c).map fun (text, c) => (.scalar text false, c)

def readPlain (l : Lexer) : Except Error Lexer := do
  let l ← l.saveKey
  let plain := plainScalar l.inFlow l.indent l.cursor
  return ((l.allowKey plain.sawBreak).push (.scalar plain.text true)).move plain.cursor

/-- Code points with which no plain scalar starts. -/
def isIndicator (x : CodePoint) : Bool :=
  isSpaceOrTab x || isBreak x || (Text.ofString "-?:,[]\x7b\x7d#&*!|>'\"%@\x60").contains x

/-- Whether a plain scalar starts with the given code point. -/
def startsPlain (l : Lexer) (x : CodePoint) : Bool :=
  !isIndicator x ||
  (!l.cursor.isSeparatedAt 1 && (x = '-' || (!l.inFlow && (x = '?' || x = ':'))))

/-- Reads the token that starts with the given code point. -/
def readAt (l : Lexer) (x : CodePoint) : Except Error Lexer :=
  let c := l.cursor
  if x = '%' ∧ c.column = 0 then l.readDirective
  else if x = '-' ∧ c.column = 0 ∧ c.seesMarks '-' then l.readDocumentMark .documentStart
  else if x = '.' ∧ c.column = 0 ∧ c.seesMarks '.' then l.readDocumentMark .documentEnd
  else if x = '[' then l.readFlowStart .flowSequenceStart
  else if x = '{' then l.readFlowStart .flowMappingStart
  else if x = ']' then l.readFlowEnd .flowSequenceEnd
  else if x = '}' then l.readFlowEnd .flowMappingEnd
  else if x = ',' then l.readFlowEntry
  else if x = '-' ∧ c.isSeparatedAt 1 then l.readBlockEntry
  else if x = '?' ∧ (l.inFlow ∨ c.isSeparatedAt 1) then l.readKey
  else if x = ':' ∧ (l.inFlow ∨ c.isSeparatedAt 1) then l.readValue
  else if x = '*' then
    l.readKeyable fun c => (anchorName c).map fun (name, c) => (.alias name, c)
  else if x = '&' then
    l.readKeyable fun c => (anchorName c).map fun (name, c) => (.anchor name, c)
  else if x = '!' then l.readKeyable tagToken
  else if x = '|' ∧ !l.inFlow then l.readBlockScalar false
  else if x = '>' ∧ !l.inFlow then l.readBlockScalar true
  else if x = '\'' then l.readQuoted false
  else if x = '"' then l.readQuoted true
  else if l.startsPlain x then l.readPlain
  else .error (.malformed "a token starts with a wrong mark")

/-- Reads what comes next; the flag says whether that was the end.  Nothing is read up to a place
where the text breaks off. -/
def step (l : Lexer) : Except Error (Lexer × Bool) := do
  let l := l.skipByteOrderMark
  let l := l.skipToToken l.cursor.fuel
  l.cursor.mustGoOn
  let l ← l.dropStaleKeys
  let l := l.unwindTo l.column
  match l.cursor.peek? with
  | none =>
    let l ← l.readStreamEnd
    return (l, true)
  | some x =>
    let l ← l.readAt x
    l.cursor.mustGoOn
    return (l, false)

/-- The tokens before the first place where a key may still be inserted. -/
def settled (l : Lexer) : List Token :=
  let tokens := l.done.reverse
  match (l.possibleKeys.map (·.2.position)).min? with
  | some n => tokens.take n
  | none => tokens

/-- The tokens up to the first error, and that error.  A possible key that is too far away by now
holds no token back from it. -/
def run (fuel : Nat) (l : Lexer) : List Token × Option Error :=
  match fuel with
  | 0 => (l.settled, none)
  | fuel + 1 =>
    match l.dropStaleKeys with
    | .error e => (l.settled, some e)
    | .ok l =>
      match l.step with
      | .error e => (l.settled, some e)
      | .ok (l, true) => (l.done.reverse, none)
      | .ok (l, false) => l.run fuel

end Lexer

/-- The tokens of an input up to the first error, and that error. -/
def tokens (input : Input) : List Token × Option Error :=
  (Lexer.start input).run (input.text.length + 2)

end AdmissionControl.Yaml
