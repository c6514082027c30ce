import AdmissionControl.Text

/-!
# Runs of case mappings

Most letters with a capital stand in runs, side by side or one apart, and their capitals stand in a
run of the same kind; the same holds of capitals and their small letters.  A table of such runs maps
single code points to single code points.
-/

namespace AdmissionControl.Text

/-- Code points at equal distances, from the first to the last, with the image of the first; the
images of the others follow at the same distances. -/
structure CaseRun where
  first : Nat
  last : Nat
  step : Nat
  image : Nat
deriving DecidableEq, Repr

namespace CaseRun

def contains (run : CaseRun) (n : Nat) : Bool :=
  run.first ≤ n && n ≤ run.last && (n - run.first) % run.step == 0

/-- The image of a code point under a table, if one of its runs contains it. -/
def image? (runs : List CaseRun) (c : CodePoint) : Option CodePoint :=
  (runs.find? (·.contains c.val)).map fun run => CodePoint.ofNat (run.image + (c.val - run.first))

end CaseRun

end AdmissionControl.Text
