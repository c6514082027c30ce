import AdmissionControl.Text

/-!
# Blank code points and trimming

White space are the code points with the Unicode 14 property `White_Space`; blank are these and the
four separators U+001C to U+001F.  `trim` removes blanks at both ends and nothing between, and
`trimSpace` removes white space only.
-/

namespace AdmissionControl.Text

def isWhiteSpace (c : CodePoint) : Bool :=
  (0x09 ≤ c.val && c.val ≤ 0x0D) || c.val == 0x20 || c.val == 0x85 ||
  c.val == 0xA0 || c.val == 0x1680 || (0x2000 ≤ c.val && c.val ≤ 0x200A) ||
  c.val == 0x2028 || c.val == 0x2029 || c.val == 0x202F || c.val == 0x205F || c.val == 0x3000

def isBlank (c : CodePoint) : Bool :=
  isWhiteSpace c || (0x1C ≤ c.val && c.val ≤ 0x1F)

def trimLeft (s : Text) : Text := s.dropWhile isBlank

def trimRight (s : Text) : Text := (s.reverse.dropWhile isBlank).reverse

def trim (s : Text) : Text := trimRight (trimLeft s)

def trimSpace (s : Text) : Text :=
  ((s.dropWhile isWhiteSpace).reverse.dropWhile isWhiteSpace).reverse

theorem head_trimLeft (s : Text) : ∀ c ∈ (trimLeft s).head?, isBlank c = false := by
  intro c hc
  unfold trimLeft at hc
  induction s with
  | nil => simp at hc
  | cons d rest ih =>
    cases hd : isBlank d with
    | true => rw [List.dropWhile_cons, if_pos hd] at hc; exact ih hc
    | false =>
      rw [List.dropWhile_cons, if_neg (by simp [hd])] at hc
      simp only [List.head?_cons, Option.mem_some_iff] at hc
      rw [← hc, hd]

theorem last_trimRight (s : Text) : ∀ c ∈ (trimRight s).getLast?, isBlank c = false := by
  intro c hc
  rw [trimRight, List.getLast?_reverse] at hc
  exact head_trimLeft s.reverse c hc

example : isBlank '\x1C' = true ∧ isWhiteSpace '\x1C' = false := by decide

example : isBlank '\u200B' = false := by decide

end AdmissionControl.Text
