import AdmissionControl.Text.Quoted

/-!
# UTF-8

* `encode?` refuses surrogates and names the first run of them.
* `decode?` reads the shortest forms only.  A refusal names the bytes at fault, their position and
  the reason: a byte that starts no form, a byte that does not continue one, or an end inside one.
-/

namespace AdmissionControl.Utf8

/-- Code points that have no encoding, from `first` up to but not including `stop`. -/
structure EncodeError where
  first : Nat
  stop : Nat
  codePoint : CodePoint
deriving DecidableEq, Repr

def EncodeError.message (e : EncodeError) : Text :=
  if e.stop = e.first + 1 then
    "'utf-8' codec can't encode character '" ++ Text.numberEscape e.codePoint.val ++
      "' in position " ++ Text.ofNat e.first ++ ": surrogates not allowed"
  else
    "'utf-8' codec can't encode characters in position " ++ Text.ofNat e.first ++ "-" ++
      Text.ofNat (e.stop - 1) ++ ": surrogates not allowed"

/-- The one to four bytes of a code point. -/
def encodeOne (c : CodePoint) : List UInt8 :=
  let n := c.val
  if n < 0x80 then [UInt8.ofNat n]
  else if n < 0x800 then [UInt8.ofNat (0xC0 + n / 0x40), UInt8.ofNat (0x80 + n % 0x40)]
  else if n < 0x10000 then
    [UInt8.ofNat (0xE0 + n / 0x1000), UInt8.ofNat (0x80 + n / 0x40 % 0x40),
      UInt8.ofNat (0x80 + n % 0x40)]
  else
    [UInt8.ofNat (0xF0 + n / 0x40000), UInt8.ofNat (0x80 + n / 0x1000 % 0x40),
      UInt8.ofNat (0x80 + n / 0x40 % 0x40), UInt8.ofNat (0x80 + n % 0x40)]

def firstSurrogates? (s : Text) : Option EncodeError :=
  match s.dropWhile (!·.isSurrogate) with
  | [] => none
  | c :: rest =>
    let first := (s.takeWhile (!·.isSurrogate)).length
    some ⟨first, first + 1 + (rest.takeWhile (·.isSurrogate)).length, c⟩

def encode? (s : Text) : Except EncodeError (List UInt8) :=
  match firstSurrogates? s with
  | some e => .error e
  | none => .ok (s.flatMap encodeOne)

inductive DecodeReason
  | invalidStart
  | invalidContinuation
  | unexpectedEnd
deriving DecidableEq, Repr

/-- The `width` bytes at `first` that have no decoding. -/
structure DecodeError where
  first : Nat
  width : Nat
  byte : UInt8
  reason : DecodeReason
deriving DecidableEq, Repr

def DecodeReason.message : DecodeReason → Text
  | .invalidStart => "invalid start byte"
  | .invalidContinuation => "invalid continuation byte"
  | .unexpectedEnd => "unexpected end of data"

def DecodeError.message (e : DecodeError) : Text :=
  if e.width = 1 then
    "'utf-8' codec can't decode byte 0x" ++ Text.hexPadded 2 e.byte.toNat ++ " in position " ++
      Text.ofNat e.first ++ ": " ++ e.reason.message
  else
    "'utf-8' codec can't decode bytes in position " ++ Text.ofNat e.first ++ "-" ++
      Text.ofNat (e.first + e.width - 1) ++ ": " ++ e.reason.message

/-- The result of reading one form at the front of some bytes. -/
inductive Form
  | codePoint (c : CodePoint) (width : Nat)
  | invalid (width : Nat) (reason : DecodeReason)
  /-- The bytes end inside a form that could still go on. -/
  | incomplete
deriving DecidableEq, Repr

def isContinuation (b : UInt8) : Bool := 0x80 ≤ b && b ≤ 0xBF

/-- Whether a second byte is possible after the first; this excludes long forms, surrogates and
numbers beyond the last code point. -/
def isSecond (first second : UInt8) : Bool :=
  isContinuation second &&
  (first != 0xE0 || 0xA0 ≤ second) && (first != 0xED || second ≤ 0x9F) &&
  (first != 0xF0 || 0x90 ≤ second) && (first != 0xF4 || second ≤ 0x8F)

def payload (b : UInt8) : Nat := b.toNat % 0x40

/-- Reads the form that starts with the byte `b`. -/
def readForm (b : UInt8) (rest : List UInt8) : Form :=
  let n := b.toNat
  if b < 0x80 then .codePoint (.ofNat n) 1
  else if b < 0xC2 then .invalid 1 .invalidStart
  else if b < 0xE0 then
    match rest with
    | [] => .incomplete
    | b₁ :: _ =>
      if isContinuation b₁ then .codePoint (.ofNat ((n - 0xC0) * 0x40 + payload b₁)) 2
      else .invalid 1 .invalidContinuation
  else if b < 0xF0 then
    match rest with
    | [] => .incomplete
    | b₁ :: rest =>
      if !isSecond b b₁ then .invalid 1 .invalidContinuation
      else match rest with
        | [] => .incomplete
        | b₂ :: _ =>
          if isContinuation b₂ then
            .codePoint (.ofNat ((n - 0xE0) * 0x1000 + payload b₁ * 0x40 + payload b₂)) 3
          else .invalid 2 .invalidContinuation
  else if b < 0xF5 then
    match rest with
    | [] => .incomplete
    | b₁ :: rest =>
      if !isSecond b b₁ then .invalid 1 .invalidContinuation
      else match rest with
        | [] => .incomplete
        | b₂ :: rest =>
          if !isContinuation b₂ then .invalid 2 .invalidContinuation
          else match rest with
            | [] => .incomplete
            | b₃ :: _ =>
              if isContinuation b₃ then
                .codePoint (.ofNat ((n - 0xF0) * 0x40000 + payload b₁ * 0x1000 +
                  payload b₂ * 0x40 + payload b₃)) 4
              else .invalid 3 .invalidContinuation
  else .invalid 1 .invalidStart

/-- Decodes as far as whole forms go.  The code points come in reverse; with them come the bytes of
a form that is not yet complete.  `skip` counts the bytes of the form that was read last. -/
def decodeFrom (position : Nat) (skip : Nat) (done : List CodePoint) :
    List UInt8 → Except DecodeError (List CodePoint × List UInt8)
  | [] => .ok (done, [])
  | b :: rest =>
    match skip with
    | skip + 1 => decodeFrom (position + 1) skip done rest
    | 0 =>
      match readForm b rest with
      | .codePoint c width => decodeFrom (position + 1) (width - 1) (c :: done) rest
      | .invalid width reason => .error ⟨position, width, b, reason⟩
      | .incomplete => .ok (done, b :: rest)

def unexpectedEnd (position : Nat) (pending : List UInt8) : DecodeError :=
  ⟨position, pending.length, pending.headD 0, .unexpectedEnd⟩

def decode? (bytes : List UInt8) : Except DecodeError Text := do
  let (done, pending) ← decodeFrom 0 0 [] bytes
  if pending.isEmpty then .ok done.reverse
  else .error (unexpectedEnd (bytes.length - pending.length) pending)

end AdmissionControl.Utf8
