import AdmissionControl.Text

/-!
# Hexadecimal digits of a number

`hexPadded` writes lower-case digits, at least as many as asked for.
-/

namespace AdmissionControl.Text

def hexDigits (n : Nat) : Text := (Nat.toDigits 16 n).map CodePoint.ofChar

def hexPadded (width n : Nat) : Text :=
  let digits := hexDigits n
  List.replicate (width - digits.length) ('0' : CodePoint) ++ digits

/-- Two digits for each byte. -/
def hexBytes (bytes : List UInt8) : Text := bytes.flatMap fun b => hexPadded 2 b.toNat

/-- Value of a run of hexadecimal digits; code points that are none count as zero. -/
def hexValue (s : Text) : Nat := s.foldl (fun n c => n * 16 + c.digitValue?.getD 0) 0

example : hexPadded 4 0xE9 = Text.ofString "00e9" := by decide

end AdmissionControl.Text
