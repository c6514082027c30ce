import AdmissionControl.Numeral.Integer
import Mathlib.Data.List.DropRight
import Mathlib.Data.List.Infix

/-!
# Which texts are integers in base ten

The grammar of integer literals without the function that reads them.

* `Digits`, `Sign`, `SpellsInteger` — decimal digits of any script with single underscores between
  them, an optional sign before and white space around, and at most `maxDigits` digits.
* `readInteger_eq_ok_iff` — exactly these texts are read, and as the number that they spell.
-/

namespace AdmissionControl

namespace Text

/-! ### Digits of every script -/

theorem decimalDigit?_eq_some {c : CodePoint} {d : Nat} (h : decimalDigit? c = some d) :
    ∃ first ∈ digitZeros, c.val = first + d ∧ d < 10 := by
  obtain ⟨first, hfind, hd⟩ := Option.map_eq_some_iff.mp h
  have hrange := List.find?_some hfind
  simp only [Bool.and_eq_true, decide_eq_true_eq] at hrange
  exact ⟨first, List.mem_of_find?_eq_some hfind, by omega, by omega⟩

/-- No digit of any script is white space. -/
theorem isWhiteSpace_of_decimalDigit? {c : CodePoint} {d : Nat} (h : decimalDigit? c = some d) :
    isWhiteSpace c = false := by
  have hall : ∀ first ∈ digitZeros, ∀ d ∈ List.range 10,
      isWhiteSpace (CodePoint.ofNat (first + d)) = false := by decide +kernel
  obtain ⟨first, hmem, hval, hlt⟩ := decimalDigit?_eq_some h
  have hc : c = CodePoint.ofNat (first + d) :=
    CodePoint.ext_val (by rw [CodePoint.ofNat_val (hval ▸ c.isLt), hval])
  rw [hc]
  exact hall first hmem d (List.mem_range.mpr hlt)

theorem decimalDigit?_isSome_of_isAsciiDigit {c : CodePoint} (h : c.isAsciiDigit = true) :
    (decimalDigit? c).isSome := by
  have hzero : (0x30 : Nat) ∈ digitZeros := by decide
  rw [decimalDigit?, Option.isSome_map, List.find?_isSome]
  exact ⟨0x30, hzero, h⟩

/-! ### Space around a text -/

/-- What is left without the white space at both ends of a text. -/
theorem exists_trimSpace (s : Text) : ∃ before after, s = before ++ trimSpace s ++ after ∧
    ∀ c ∈ before ++ after, isWhiteSpace c = true := by
  refine ⟨s.takeWhile isWhiteSpace, (s.dropWhile isWhiteSpace).rtakeWhile isWhiteSpace, ?_, ?_⟩
  · rw [List.append_assoc]
    exact (List.takeWhile_append_dropWhile.symm).trans
      (congrArg _ List.rdropWhile_append_rtakeWhile.symm)
  · intro c hc
    rcases List.mem_append.mp hc with hc | hc
    · exact List.mem_takeWhile_imp hc
    · exact List.mem_rtakeWhile_imp hc

/-- White space at both ends is all that is taken from a text that has none there otherwise. -/
theorem trimSpace_append {before core after : Text}
    (hspace : ∀ c ∈ before ++ after, isWhiteSpace c = true)
    (hhead : ∀ c ∈ core.head?, isWhiteSpace c = false)
    (hlast : ∀ c ∈ core.getLast?, isWhiteSpace c = false) (hcore : core ≠ []) :
    trimSpace (before ++ core ++ after) = core := by
  have hkeep : ∀ {t : Text} (more : Text), t ≠ [] → (∀ c ∈ t.head?, isWhiteSpace c = false) →
      (t ++ more).dropWhile isWhiteSpace = t ++ more := by
    intro t more hne ht
    cases t with
    | nil => exact absurd rfl hne
    | cons c rest => rw [List.cons_append, List.dropWhile_cons, if_neg (by simp [ht c rfl])]
  have hbefore : ∀ c ∈ before, isWhiteSpace c = true := fun c hc =>
    hspace c (List.mem_append_left _ hc)
  have hafter : ∀ c ∈ after.reverse, isWhiteSpace c = true := fun c hc =>
    hspace c (List.mem_append_right _ (List.mem_reverse.mp hc))
  rw [trimSpace, List.append_assoc, List.dropWhile_append_of_pos hbefore, hkeep after hcore hhead,
    List.reverse_append, List.dropWhile_append_of_pos hafter]
  have hback := hkeep (t := core.reverse) [] (by simpa using hcore) (by simpa using hlast)
  rw [List.append_nil] at hback
  rw [hback, List.reverse_reverse]

end Text

namespace Numeral

/-! ### The grammar -/

/-- Decimal digits of any script with their values, and single underscores between them. -/
inductive Digits : Text → List Nat → Prop
  | last {c : CodePoint} {d : Nat} : Text.decimalDigit? c = some d → Digits [c] [d]
  | next {c : CodePoint} {d : Nat} {rest : Text} {ds : List Nat} :
    Text.decimalDigit? c = some d → Digits rest ds → Digits (c :: rest) (d :: ds)
  | gap {c : CodePoint} {d : Nat} {rest : Text} {ds : List Nat} :
    Text.decimalDigit? c = some d → Digits rest ds →
    Digits (c :: ('_' : CodePoint) :: rest) (d :: ds)

/-- An optional sign, and whether it makes a number negative. -/
inductive Sign : Text → Bool → Prop
  | none : Sign [] false
  | plus : Sign [('+' : CodePoint)] false
  | minus : Sign [('-' : CodePoint)] true

/-- A text that spells an integer in base ten. -/
def SpellsInteger (s : Text) (n : Int) : Prop :=
  ∃ before sign negative body digits after, s = before ++ (sign ++ body) ++ after ∧
    (∀ c ∈ before ++ after, Text.isWhiteSpace c = true) ∧ Sign sign negative ∧
    Digits body digits ∧ digits.length ≤ maxDigits ∧
    n = if negative then -(ofDigits 10 digits : Int) else ofDigits 10 digits

/-- What may follow a digit. -/
def Continues (s : Text) (ds : List Nat) : Prop :=
  s = [] ∧ ds = [] ∨ Digits s ds ∨ ∃ rest, s = ('_' : CodePoint) :: rest ∧ Digits rest ds

theorem not_digits_nil (ds : List Nat) : ¬ Digits [] ds := by
  intro h
  cases h

/-- Digits begin with a digit. -/
theorem Digits.exists_cons {s : Text} {ds : List Nat} (h : Digits s ds) :
    ∃ c rest d, s = c :: rest ∧ Text.decimalDigit? c = some d := by
  cases h with
  | last hc => exact ⟨_, _, _, rfl, hc⟩
  | next hc _ => exact ⟨_, _, _, rfl, hc⟩
  | gap hc _ => exact ⟨_, _, _, rfl, hc⟩

/-- Digits end with a digit. -/
theorem Digits.last_digit {s : Text} {ds : List Nat} (h : Digits s ds) :
    ∀ c ∈ s.getLast?, ∃ d, Text.decimalDigit? c = some d := by
  induction h with
  | last hc =>
    rintro c hmem
    rw [List.getLast?_singleton, Option.mem_some_iff] at hmem
    exact ⟨_, hmem ▸ hc⟩
  | next _ hrest ih =>
    obtain ⟨c', rest', _, rfl, _⟩ := hrest.exists_cons
    rwa [List.getLast?_cons_cons]
  | gap _ hrest ih =>
    obtain ⟨c', rest', _, rfl, _⟩ := hrest.exists_cons
    rwa [List.getLast?_cons_cons, List.getLast?_cons_cons]

theorem digits_cons_iff {c : CodePoint} {d : Nat} (hc : Text.decimalDigit? c = some d)
    {rest : Text} {ds : List Nat} :
    Digits (c :: rest) ds ↔ ∃ more, ds = d :: more ∧ Continues rest more := by
  constructor
  · intro h
    cases h with
    | last h' =>
      rw [hc, Option.some.injEq] at h'
      exact ⟨[], by rw [h'], .inl ⟨rfl, rfl⟩⟩
    | next h' hrest =>
      rw [hc, Option.some.injEq] at h'
      exact ⟨_, by rw [h'], .inr (.inl hrest)⟩
    | gap h' hrest =>
      rw [hc, Option.some.injEq] at h'
      exact ⟨_, by rw [h'], .inr (.inr ⟨_, rfl, hrest⟩)⟩
  · rintro ⟨more, rfl, ⟨rfl, rfl⟩ | hrest | ⟨rest', rfl, hrest⟩⟩
    · exact .last hc
    · exact .next hc hrest
    · exact .gap hc hrest

/-- A text that begins with no digit has no digits. -/
theorem not_digits_cons {c : CodePoint} (hc : Text.decimalDigit? c = none) (rest : Text)
    (ds : List Nat) : ¬ Digits (c :: rest) ds := by
  intro h
  obtain ⟨c', rest', d, heq, hd⟩ := h.exists_cons
  rw [List.cons.injEq] at heq
  rw [← heq.1, hc] at hd
  cases hd

/-! ### Reading digits -/

theorem asciiDigits_cons_digit {c : CodePoint} {d : Nat} (hc : Text.decimalDigit? c = some d)
    (rest : Text) :
    asciiDigits (c :: rest) = CodePoint.ofNat (0x30 + d) :: asciiDigits rest := by
  simp only [asciiDigits, List.map_cons, hc]

theorem asciiDigits_cons_other {c : CodePoint} (hc : Text.decimalDigit? c = none) (rest : Text) :
    asciiDigits (c :: rest) = c :: asciiDigits rest := by
  simp only [asciiDigits, List.map_cons, hc]

theorem ofNat_digit_val {d : Nat} (h : d < 10) : (CodePoint.ofNat (0x30 + d)).val = 0x30 + d :=
  CodePoint.ofNat_val (by omega)

theorem digitsFrom_cons_digit {c : CodePoint} {d : Nat} (hc : Text.decimalDigit? c = some d)
    (after : Bool) (done : List Nat) (rest : Text) :
    digitsFrom 10 after done (asciiDigits (c :: rest)) =
      digitsFrom 10 true (d :: done) (asciiDigits rest) := by
  obtain ⟨_, _, _, hlt⟩ := Text.decimalDigit?_eq_some hc
  have hval := ofNat_digit_val hlt
  have hascii : (CodePoint.ofNat (0x30 + d)).isAsciiDigit = true := by
    simp only [CodePoint.isAsciiDigit, hval, Bool.and_eq_true, decide_eq_true_eq]
    omega
  have hdigit : (CodePoint.ofNat (0x30 + d)).digitValue? = some d := by
    rw [CodePoint.digitValue?, if_pos hascii, hval, Nat.add_sub_cancel_left]
  have hunderscore : CodePoint.ofNat (0x30 + d) ≠ ('_' : CodePoint) := by
    intro h
    have hsame := congrArg CodePoint.val h
    rw [hval, show (('_' : Char) : CodePoint).val = 0x5F from rfl] at hsame
    omega
  rw [asciiDigits_cons_digit hc, digitsFrom, if_neg hunderscore, hdigit]
  exact if_pos hlt

theorem digitsFrom_cons_underscore (after : Bool) (done : List Nat) (rest : Text) :
    digitsFrom 10 after done (asciiDigits (('_' : CodePoint) :: rest)) =
      if after then digitsFrom 10 false done (asciiDigits rest) else none := by
  rw [asciiDigits_cons_other (by decide), digitsFrom, if_pos rfl]

/-- Anything else ends the digits and is left. -/
theorem digitsFrom_cons_other {c : CodePoint} (hc : Text.decimalDigit? c = none)
    (hunderscore : c ≠ ('_' : CodePoint)) (after : Bool) (done : List Nat) (rest : Text) :
    digitsFrom 10 after done (asciiDigits (c :: rest)) =
      if after then some (done.reverse, c :: asciiDigits rest) else none := by
  rw [asciiDigits_cons_other hc, digitsFrom, if_neg hunderscore]
  cases hdigit : c.digitValue? with
  | none => rfl
  | some d =>
    have hlarge : ¬ d < 10 := by
      intro hlt
      -- a digit value below ten belongs to an ASCII digit, which is a digit of a script
      have hascii : c.isAsciiDigit = true := by
        rw [CodePoint.digitValue?] at hdigit
        split at hdigit
        · assumption
        · split at hdigit
          · rw [Option.some.injEq] at hdigit
            omega
          · split at hdigit
            · rw [Option.some.injEq] at hdigit
              omega
            · cases hdigit
      have hsome := Text.decimalDigit?_isSome_of_isAsciiDigit hascii
      rw [hc] at hsome
      cases hsome
    exact if_neg hlarge

/-- The digits that are read from a text of which nothing is left. -/
theorem digitsFrom_eq_some_iff (s : Text) (after : Bool) (done ds : List Nat) :
    digitsFrom 10 after done (asciiDigits s) = some (ds, []) ↔
      ∃ more, ds = done.reverse ++ more ∧ if after then Continues s more else Digits s more := by
  induction s generalizing after done with
  | nil =>
    cases after with
    | true =>
      have hcontinues : ∀ more, Continues [] more ↔ more = [] := by
        intro more
        simp [Continues, not_digits_nil]
      simp only [asciiDigits, List.map_nil, digitsFrom, if_true, hcontinues, Option.some.injEq,
        Prod.mk.injEq, and_true, exists_eq_right, List.append_nil]
      exact eq_comm
    | false => simp [asciiDigits, digitsFrom, not_digits_nil]
  | cons c rest ih =>
    cases hc : Text.decimalDigit? c with
    | some d =>
      have hunderscore : c ≠ ('_' : CodePoint) := by
        rintro rfl
        cases hc.symm.trans (by decide : Text.decimalDigit? '_' = none)
      have hdigits : ∀ more, (if after then Continues (c :: rest) more else Digits (c :: rest) more)
          ↔ ∃ tail, more = d :: tail ∧ Continues rest tail := by
        intro more
        rw [← digits_cons_iff hc]
        cases after with
        | true => simp [Continues, hunderscore]
        | false => rfl
      rw [digitsFrom_cons_digit hc, ih]
      simp only [hdigits, if_true, List.reverse_cons, List.append_assoc, List.singleton_append]
      constructor
      · rintro ⟨tail, rfl, h⟩
        exact ⟨d :: tail, rfl, tail, rfl, h⟩
      · rintro ⟨_, rfl, tail, rfl, h⟩
        exact ⟨tail, rfl, h⟩
    | none =>
      have hdigits := not_digits_cons hc rest
      by_cases hunderscore : c = ('_' : CodePoint)
      · subst hunderscore
        rw [digitsFrom_cons_underscore]
        cases after with
        | true => simp [ih, Continues, hdigits]
        | false => simp [hdigits]
      · rw [digitsFrom_cons_other hc hunderscore]
        cases after with
        | true => simp [Continues, hdigits, hunderscore]
        | false => simp [hdigits]

/-! ### Reading integers -/

theorem splitSign_cons_digit {c : CodePoint} {d : Nat} (hc : Text.decimalDigit? c = some d)
    (rest : Text) :
    splitSign (asciiDigits (c :: rest)) = (false, asciiDigits (c :: rest)) := by
  obtain ⟨_, _, _, hlt⟩ := Text.decimalDigit?_eq_some hc
  have hne : ∀ sign : CodePoint, sign.val < 0x30 → CodePoint.ofNat (0x30 + d) ≠ sign := by
    rintro sign hsign rfl
    rw [ofNat_digit_val hlt] at hsign
    omega
  rw [asciiDigits_cons_digit hc, splitSign, if_neg (hne _ (by decide)), if_neg (hne _ (by decide))]

/-- A sign is taken from the front of a text, and nothing else is. -/
theorem exists_splitSign (s : Text) : ∃ sign body, s = sign ++ body ∧
    (splitSign (asciiDigits s)).2 = asciiDigits body ∧
    Sign sign (splitSign (asciiDigits s)).1 := by
  cases s with
  | nil => exact ⟨[], [], rfl, rfl, .none⟩
  | cons c rest =>
    cases hc : Text.decimalDigit? c with
    | some d =>
      rw [splitSign_cons_digit hc]
      exact ⟨[], c :: rest, rfl, rfl, .none⟩
    | none =>
      by_cases hminus : c = ('-' : CodePoint)
      · subst hminus
        exact ⟨_, rest, rfl, rfl, .minus⟩
      · by_cases hplus : c = ('+' : CodePoint)
        · subst hplus
          exact ⟨_, rest, rfl, rfl, .plus⟩
        · rw [asciiDigits_cons_other hc, splitSign, if_neg hminus, if_neg hplus]
          exact ⟨[], c :: rest, rfl, (asciiDigits_cons_other hc rest).symm, .none⟩

theorem splitSign_append {sign body : Text} {negative : Bool} {digits : List Nat}
    (hsign : Sign sign negative) (hbody : Digits body digits) :
    splitSign (asciiDigits (sign ++ body)) = (negative, asciiDigits body) := by
  cases hsign with
  | none =>
    obtain ⟨c, rest, d, rfl, hc⟩ := hbody.exists_cons
    exact splitSign_cons_digit hc rest
  | plus => rfl
  | minus => rfl

/-- A sign with digits neither begins nor ends with white space. -/
theorem ends_of_signed {sign body : Text} {negative : Bool} {digits : List Nat}
    (hsign : Sign sign negative) (hbody : Digits body digits) :
    (∀ c ∈ (sign ++ body).head?, Text.isWhiteSpace c = false) ∧
      ∀ c ∈ (sign ++ body).getLast?, Text.isWhiteSpace c = false := by
  have hlast : ∀ c ∈ body.getLast?, Text.isWhiteSpace c = false := by
    intro c hc
    obtain ⟨d, hd⟩ := hbody.last_digit c hc
    exact Text.isWhiteSpace_of_decimalDigit? hd
  obtain ⟨c, rest, d, rfl, hc⟩ := hbody.exists_cons
  have hfirst := Text.isWhiteSpace_of_decimalDigit? hc
  cases hsign with
  | none => exact ⟨by simpa using hfirst, hlast⟩
  | plus => exact ⟨by simp; decide, by simpa using hlast⟩
  | minus => exact ⟨by simp; decide, by simpa using hlast⟩

/-- No base ten literal has a prefix. -/
theorem dropBasePrefix_ten (s : Text) : dropBasePrefix 10 s = s := by
  unfold dropBasePrefix
  split
  · rw [if_neg (by simp)]
  · rfl

/-- An integer is read from a text whose sign and digits are all there is between white space. -/
theorem readInteger_eq_ok_iff_digitsFrom (s : Text) (n : Int) :
    readInteger 10 s = .ok n ↔
      ∃ digits, digitsFrom 10 false [] (splitSign (asciiDigits (Text.trimSpace s))).2 =
          some (digits, []) ∧ digits.length ≤ maxDigits ∧
        n = if (splitSign (asciiDigits (Text.trimSpace s))).1 then -(ofDigits 10 digits : Int)
          else ofDigits 10 digits := by
  simp only [readInteger, dropBasePrefix_ten]
  cases digitsFrom 10 false [] (splitSign (asciiDigits (Text.trimSpace s))).2 with
  | none => simp
  | some found =>
    obtain ⟨digits, rest⟩ := found
    by_cases hlong : maxDigits < digits.length
    · have hbase : isPowerOfTwo 10 = false := by decide
      simp only [hlong, hbase, Bool.not_false, decide_true, Bool.and_self, if_true, reduceCtorEq,
        Option.some.injEq, Prod.mk.injEq, false_iff]
      rintro ⟨_, ⟨rfl, _⟩, hle, _⟩
      omega
    · cases rest with
      | nil =>
        have hle : digits.length ≤ maxDigits := by omega
        simp only [hlong, hle, decide_false, Bool.false_and, Bool.false_eq_true, if_false,
          List.isEmpty_nil, Bool.not_true, Except.ok.injEq, Option.some.injEq, Prod.mk.injEq,
          and_true, exists_eq_left', true_and]
        exact eq_comm
      | cons c rest => simp [hlong]

/-- **Exactly the texts that spell an integer are read**, as the integer that they spell. -/
theorem readInteger_eq_ok_iff (s : Text) (n : Int) :
    readInteger 10 s = .ok n ↔ SpellsInteger s n := by
  rw [readInteger_eq_ok_iff_digitsFrom]
  constructor
  · rintro ⟨digits, hdigits, hlength, hn⟩
    obtain ⟨before, after, hs, hspace⟩ := Text.exists_trimSpace s
    obtain ⟨sign, body, hcore, hbody, hsign⟩ := exists_splitSign (Text.trimSpace s)
    rw [hbody] at hdigits
    obtain ⟨_, rfl, hread⟩ := (digitsFrom_eq_some_iff body false [] digits).mp hdigits
    exact ⟨before, sign, _, body, _, after, hcore ▸ hs, hspace, hsign, hread, hlength, hn⟩
  · rintro ⟨before, sign, negative, body, digits, after, rfl, hspace, hsign, hbody, hlength, hn⟩
    obtain ⟨hhead, hlast⟩ := ends_of_signed hsign hbody
    obtain ⟨c, rest, _, hcons, _⟩ := hbody.exists_cons
    have hcore : Text.trimSpace (before ++ (sign ++ body) ++ after) = sign ++ body :=
      Text.trimSpace_append hspace hhead hlast (by simp [hcons])
    rw [hcore, splitSign_append hsign hbody]
    exact ⟨digits, (digitsFrom_eq_some_iff body false [] digits).mpr ⟨digits, rfl, hbody⟩,
      hlength, hn⟩

end Numeral

end AdmissionControl
