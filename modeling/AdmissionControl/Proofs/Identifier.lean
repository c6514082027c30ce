import AdmissionControl.Identifier
import AdmissionControl.Proofs.Text

/-!
# Which identifiers are one and the same

`Equivalent` says when two identifiers stand for the same thing, in terms of how they are written
and not of their normal forms: after trimming, both are hexadecimal addresses with the same digits
up to case, or neither is an address and they are the same up to the case of the letters A to Z.

* `addressDigits?_eq_some_iff` — the digits that are read are the digits as written.
* `canonical_eq_iff` — trimmed texts have one normal form exactly if they match.
* `normalizeText_eq_ok_iff` — which texts have a normal form, and which form that is.
* `normalizeText_agree_iff` — two texts have a normal form in common exactly if they are equivalent.
-/

namespace AdmissionControl.Identifier

/-! ### Addresses as they are written -/

/-- At least one hexadecimal digit, after `0x` or `0X` or on its own. -/
def IsAddress (s digits : Text) : Prop :=
  digits ≠ [] ∧ (∀ c ∈ digits, c.isHexDigit = true) ∧
    (s = digits ∨ s = ('0' : CodePoint) :: ('x' : CodePoint) :: digits ∨
      s = ('0' : CodePoint) :: ('X' : CodePoint) :: digits)

/-- An address with digits of some kind. -/
def HasAddressShape (s : Text) : Prop := ∃ digits, IsAddress s digits

theorem lowerAscii_eq_x_iff (c : CodePoint) :
    c.lowerAscii = ('x' : CodePoint) ↔ c = ('x' : CodePoint) ∨ c = ('X' : CodePoint) := by
  rw [show ('x' : CodePoint) = CodePoint.lowerAscii 'x' by decide,
    CodePoint.lowerAscii_eq_lowerAscii_iff]
  simp only [CodePoint.SameLetter, CodePoint.isAsciiUpper, Bool.and_eq_true, decide_eq_true_eq]
  have hx : (('x' : Char) : CodePoint).val = 0x78 := by decide
  have hX : (('X' : Char) : CodePoint).val = 0x58 := by decide
  have hl : (('x' : Char) : CodePoint).lowerAscii = 'x' := by decide
  rw [hl, hx]
  constructor
  · rintro (h | h | h)
    · exact Or.inl h
    · exact Or.inr (CodePoint.ext_val (by omega))
    · omega
  · rintro (h | h)
    · exact Or.inl h
    · subst h
      exact Or.inr (Or.inl (by decide))

/-- The mark of an address is dropped where it stands. -/
theorem dropHexMark_of_mark {x : CodePoint} (h : x.lowerAscii = ('x' : CodePoint)) (rest : Text) :
    dropHexMark (('0' : CodePoint) :: x :: rest) = rest := by
  rw [dropHexMark, if_pos ⟨rfl, h⟩]

/-- Hexadecimal digits hold no mark, so nothing of them is dropped. -/
theorem dropHexMark_of_digits {s : Text} (h : ∀ c ∈ s, c.isHexDigit = true) :
    dropHexMark s = s := by
  match s, h with
  | [], _ => rfl
  | [_], _ => rfl
  | z :: x :: rest, h =>
    rw [dropHexMark, if_neg]
    rintro ⟨-, hx⟩
    have hdigit : x.isHexDigit = true := h x (by simp)
    rcases (lowerAscii_eq_x_iff x).mp hx with rfl | rfl
    · revert hdigit
      decide
    · revert hdigit
      decide

/-- A text is what the mark leaves of it, with or without the mark in front. -/
theorem eq_dropHexMark (s : Text) :
    s = dropHexMark s ∨ s = ('0' : CodePoint) :: ('x' : CodePoint) :: dropHexMark s ∨
      s = ('0' : CodePoint) :: ('X' : CodePoint) :: dropHexMark s := by
  match s with
  | [] => exact Or.inl rfl
  | [_] => exact Or.inl rfl
  | z :: x :: rest =>
    rw [dropHexMark]
    split
    · rename_i h
      rcases (lowerAscii_eq_x_iff x).mp h.2 with hx | hx
      · exact Or.inr (Or.inl (by rw [h.1, hx]))
      · exact Or.inr (Or.inr (by rw [h.1, hx]))
    · exact Or.inl rfl

theorem addressDigits?_eq_some_iff {s digits : Text} :
    addressDigits? s = some digits ↔ IsAddress s digits := by
  rw [addressDigits?]
  constructor
  · intro h
    split at h
    · rename_i hdigits
      rw [Option.some.injEq] at h
      subst h
      simp only [Bool.and_eq_true, Bool.not_eq_true', List.isEmpty_eq_false_iff,
        List.all_eq_true] at hdigits
      exact ⟨hdigits.1, hdigits.2, eq_dropHexMark s⟩
    · cases h
  · rintro ⟨hne, hdigits, hs⟩
    have hdrop : dropHexMark s = digits := by
      rcases hs with rfl | rfl | rfl
      · exact dropHexMark_of_digits hdigits
      · exact dropHexMark_of_mark (by decide) digits
      · exact dropHexMark_of_mark (by decide) digits
    rw [hdrop, if_pos]
    simp only [Bool.and_eq_true, Bool.not_eq_true', List.isEmpty_eq_false_iff, List.all_eq_true]
    exact ⟨hne, hdigits⟩

theorem addressDigits?_eq_none_iff {s : Text} :
    addressDigits? s = none ↔ ¬ HasAddressShape s := by
  rw [Option.eq_none_iff_forall_ne_some, HasAddressShape, not_exists]
  simp only [ne_eq, addressDigits?_eq_some_iff]

instance (s : Text) : Decidable (HasAddressShape s) :=
  decidable_of_iff (addressDigits? s ≠ none)
    (by rw [ne_eq, addressDigits?_eq_none_iff, not_not])

/-! ### Normal forms of addresses and of other texts -/

theorem isHexDigit_of_mem_lowerAscii {digits : Text} (h : ∀ c ∈ digits, c.isHexDigit = true) :
    ∀ c ∈ Text.lowerAscii digits, c.isHexDigit = true := by
  intro c hc
  rw [Text.lowerAscii, List.mem_map] at hc
  obtain ⟨d, hd, rfl⟩ := hc
  rw [CodePoint.isHexDigit_lowerAscii]
  exact h d hd

/-- The lower-case form of an address is an address with the digits in lower case. -/
theorem IsAddress.lowerAscii {s digits : Text} (h : IsAddress s digits) :
    IsAddress (Text.lowerAscii s) (Text.lowerAscii digits) := by
  obtain ⟨hne, hdigits, hs⟩ := h
  refine ⟨by simpa [Text.lowerAscii] using hne, isHexDigit_of_mem_lowerAscii hdigits, ?_⟩
  have hzero : (('0' : Char) : CodePoint).lowerAscii = '0' := by decide
  have hx : (('x' : Char) : CodePoint).lowerAscii = 'x' := by decide
  have hX : (('X' : Char) : CodePoint).lowerAscii = 'x' := by decide
  rcases hs with rfl | rfl | rfl
  · exact Or.inl rfl
  · exact Or.inr (Or.inl (by simp only [Text.lowerAscii, List.map_cons, hzero, hx]))
  · exact Or.inr (Or.inl (by simp only [Text.lowerAscii, List.map_cons, hzero, hX]))

/-- Lower case makes no address of a text that is none. -/
theorem addressDigits?_lowerAscii_of_none {s : Text} (h : addressDigits? s = none) :
    addressDigits? (Text.lowerAscii s) = none := by
  rw [addressDigits?_eq_none_iff] at h ⊢
  rintro ⟨digits, hne, hdigits, hs⟩
  have hall : ∀ {t : Text}, Text.lowerAscii t = digits → ∀ c ∈ t, c.isHexDigit = true := by
    intro t ht c hc
    rw [← CodePoint.isHexDigit_lowerAscii]
    exact hdigits _ (ht ▸ List.mem_map_of_mem hc)
  have hnil : ∀ {t : Text}, Text.lowerAscii t = digits → t ≠ [] := by
    rintro t ht rfl
    exact hne ht.symm
  rcases hs with hs | hs | hs
  · exact h ⟨s, hnil hs, hall hs, Or.inl rfl⟩
  · -- the text before folding starts with a zero and an x of either case
    rw [Text.lowerAscii, List.map_eq_cons_iff] at hs
    obtain ⟨z, tail, rfl, hz, hs⟩ := hs
    rw [List.map_eq_cons_iff] at hs
    obtain ⟨x, rest, rfl, hx, hrest⟩ := hs
    have hzero : z = ('0' : CodePoint) := by
      have hval : z.lowerAscii.val = 0x30 := by rw [hz]; rfl
      rw [CodePoint.lowerAscii_val] at hval
      apply CodePoint.ext_val
      show z.val = 0x30
      split at hval <;> omega
    refine h ⟨rest, hnil hrest, hall hrest, Or.inr ?_⟩
    rcases (lowerAscii_eq_x_iff x).mp hx with rfl | rfl
    · exact Or.inl (by rw [hzero])
    · exact Or.inr (by rw [hzero])
  · -- no lower-case form holds an upper-case letter
    have hmem : (('X' : Char) : CodePoint) ∈ Text.lowerAscii s := by simp [hs]
    rw [Text.lowerAscii, List.mem_map] at hmem
    obtain ⟨c, -, hc⟩ := hmem
    have hupper := CodePoint.not_isAsciiUpper_lowerAscii c
    rw [hc] at hupper
    revert hupper
    decide

theorem addressDigits?_hexMark {digits : Text} (hne : digits ≠ [])
    (h : ∀ c ∈ digits, c.isHexDigit = true) : addressDigits? (hexMark ++ digits) = some digits :=
  addressDigits?_eq_some_iff.mpr ⟨hne, h, Or.inr (Or.inl rfl)⟩

theorem canonical_of_some {s digits : Text} (h : addressDigits? s = some digits) :
    canonical s = hexMark ++ Text.lowerAscii digits := by
  rw [canonical, h]

theorem canonical_of_none {s : Text} (h : addressDigits? s = none) :
    canonical s = Text.lowerAscii s := by
  rw [canonical, h]

/-- The normal form of an address is an address, and that of another text is none. -/
theorem addressDigits?_canonical (s : Text) :
    addressDigits? (canonical s) = (addressDigits? s).map Text.lowerAscii := by
  cases hs : addressDigits? s with
  | none => rw [canonical_of_none hs, addressDigits?_lowerAscii_of_none hs, Option.map_none]
  | some digits =>
    obtain ⟨hne, hdigits, -⟩ := (addressDigits?_eq_some_iff.mp hs).lowerAscii
    rw [canonical_of_some hs, Option.map_some, addressDigits?_hexMark hne hdigits]

/-! ### Equivalence -/

/-- Two trimmed texts match: both are addresses with the same digits, or neither is an address and
they are the same, each up to the case of the letters A to Z. -/
def Matches (s t : Text) : Prop :=
  (∃ d e, IsAddress s d ∧ IsAddress t e ∧ Text.SameUpToCase d e) ∨
    (¬ HasAddressShape s ∧ ¬ HasAddressShape t ∧ Text.SameUpToCase s t)

/-- Two identifiers stand for the same thing. -/
def Equivalent (s t : Text) : Prop := Matches (Text.trim s) (Text.trim t)

/-- **Trimmed texts have one normal form exactly if they match.** -/
theorem canonical_eq_iff {s t : Text} : canonical s = canonical t ↔ Matches s t := by
  have haddress : ∀ {u d e : Text}, addressDigits? u = some d → IsAddress u e → e = d := by
    intro u d e hu he
    rw [addressDigits?_eq_some_iff.mpr he, Option.some.injEq] at hu
    exact hu
  constructor
  · intro h
    have hdigits := congrArg addressDigits? h
    rw [addressDigits?_canonical, addressDigits?_canonical] at hdigits
    cases hs : addressDigits? s with
    | none =>
      rw [hs, Option.map_none] at hdigits
      have ht : addressDigits? t = none := Option.map_eq_none_iff.mp hdigits.symm
      rw [canonical_of_none hs, canonical_of_none ht, Text.lowerAscii_eq_iff] at h
      exact Or.inr ⟨addressDigits?_eq_none_iff.mp hs, addressDigits?_eq_none_iff.mp ht, h⟩
    | some d =>
      rw [hs, Option.map_some] at hdigits
      obtain ⟨e, ht, he⟩ := Option.map_eq_some_iff.mp hdigits.symm
      exact Or.inl ⟨d, e, addressDigits?_eq_some_iff.mp hs, addressDigits?_eq_some_iff.mp ht,
        Text.lowerAscii_eq_iff.mp he.symm⟩
  · rintro (⟨d, e, hs, ht, h⟩ | ⟨hs, ht, h⟩)
    · rw [canonical_of_some (addressDigits?_eq_some_iff.mpr hs),
        canonical_of_some (addressDigits?_eq_some_iff.mpr ht), Text.lowerAscii_eq_iff.mpr h]
    · rw [canonical_of_none (addressDigits?_eq_none_iff.mpr hs),
        canonical_of_none (addressDigits?_eq_none_iff.mpr ht), Text.lowerAscii_eq_iff.mpr h]

/-! ### Which values have a normal form -/

theorem normalizeText_of_blank {raw : Text} (h : Text.Blank raw) :
    normalizeText raw = .error (.malformed .empty) := by
  rw [normalizeText, if_pos (by rw [Text.trim_eq_nil_iff.mpr h]; rfl)]

theorem normalizeText_of_not_blank {raw : Text} (hb : ¬ Text.Blank raw)
    (hs : Text.SurrogateFree raw) : normalizeText raw = .ok (canonical (Text.trim raw)) := by
  have hne : (Text.trim raw).isEmpty = false := by
    rw [List.isEmpty_eq_false_iff, ne_eq, Text.trim_eq_nil_iff]
    exact hb
  have hnone : Utf8.firstSurrogates? (Text.trim raw) = none := by
    rw [Text.firstSurrogates?_eq_none_iff, Text.surrogateFree_trim_iff]
    exact hs
  rw [normalizeText, hne, hnone]
  rfl

/-- Surrogates that are left after trimming are a fault. -/
theorem normalizeText_of_surrogates {raw : Text} {e : Utf8.EncodeError}
    (h : Utf8.firstSurrogates? (Text.trim raw) = some e) :
    normalizeText raw = .error (.fault (.unencodable e)) := by
  have hne : (Text.trim raw).isEmpty = false := by
    rw [List.isEmpty_eq_false_iff]
    intro hnil
    rw [hnil] at h
    cases h
  rw [normalizeText, hne, h]
  rfl

/-- Trimming leaves every surrogate. -/
theorem exists_firstSurrogates {raw : Text} (h : ¬ Text.SurrogateFree raw) :
    ∃ e, Utf8.firstSurrogates? (Text.trim raw) = some e := by
  rw [← Text.surrogateFree_trim_iff, ← Text.firstSurrogates?_eq_none_iff] at h
  exact Option.ne_none_iff_exists'.mp h

theorem normalizeText_eq_ok_iff {raw normal : Text} :
    normalizeText raw = .ok normal ↔
      ¬ Text.Blank raw ∧ Text.SurrogateFree raw ∧ normal = canonical (Text.trim raw) := by
  constructor
  · intro h
    have hb : ¬ Text.Blank raw := by
      intro hb
      rw [normalizeText_of_blank hb] at h
      cases h
    have hs : Text.SurrogateFree raw := by
      rw [← Text.surrogateFree_trim_iff, ← Text.firstSurrogates?_eq_none_iff]
      rw [normalizeText] at h
      split at h
      · cases h
      · cases he : Utf8.firstSurrogates? (Text.trim raw) with
        | none => rfl
        | some e => rw [he] at h; cases h
    rw [normalizeText_of_not_blank hb hs, Except.ok.injEq] at h
    exact ⟨hb, hs, h.symm⟩
  · rintro ⟨hb, hs, rfl⟩
    exact normalizeText_of_not_blank hb hs

/-- Only texts have a normal form. -/
theorem normalize_eq_ok_iff {v : Value} {normal : Text} :
    normalize v = .ok normal ↔ ∃ raw, v = .text raw ∧ normalizeText raw = .ok normal := by
  constructor
  · intro h
    cases v with
    | text raw => exact ⟨raw, rfl, h⟩
    | _ => cases h
  · rintro ⟨raw, rfl, h⟩
    exact h

/-- **Two texts have a normal form in common exactly if both have one and they are equivalent.** -/
theorem normalizeText_agree_iff {s t : Text} (hs : ¬ Text.Blank s) (hsf : Text.SurrogateFree s)
    {normal : Text} (ht : normalizeText t = .ok normal) :
    normalizeText s = .ok normal ↔ Equivalent s t := by
  obtain ⟨-, -, rfl⟩ := normalizeText_eq_ok_iff.mp ht
  rw [normalizeText_of_not_blank hs hsf, Except.ok.injEq, canonical_eq_iff]
  rfl

end AdmissionControl.Identifier
