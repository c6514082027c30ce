import AdmissionControl.Proofs.Identifier

/-!
# The normal form is canonical

Which texts are in normal form, said without the function that makes them, and what becomes of an
identifier on the way there.

* `IsNormal` — a text with nothing left to trim or to fold, and with its mark if it is an address.
* `isNormal_canonical`, `normalizeText_eq_self_iff` — normal forms are normal, and only normal texts
  are their own normal forms.
* `isAddress_canonical` — a normal form is an address exactly if the identifier was written as one.
* `filter_canonical` — what is not ASCII stays as it is, so it is never taken for something else.
* `normal_form_is_canonical` — all of it, for any two identifiers.
-/

namespace AdmissionControl

namespace Text

/-! ### The ends of a trimmed text -/

theorem trimRight_prefix (s : Text) : trimRight s <+: s := by
  have h := List.reverse_prefix.mpr (List.dropWhile_suffix isBlank (l := s.reverse))
  rwa [List.reverse_reverse] at h

/-- A trimmed text does not start with a blank. -/
theorem head_trim (s : Text) : ∀ c ∈ (trim s).head?, isBlank c = false := by
  intro c hc
  obtain ⟨tail, htail⟩ := trimRight_prefix (trimLeft s)
  refine head_trimLeft s c ?_
  have hhead : (trimRight (trimLeft s)).head? = some c := hc
  rw [← htail, List.head?_append, hhead]
  rfl

/-- A trimmed text does not end with a blank. -/
theorem last_trim (s : Text) : ∀ c ∈ (trim s).getLast?, isBlank c = false :=
  last_trimRight (trimLeft s)

/-- A text without blanks at its ends has nothing to trim. -/
theorem trim_eq_self {s : Text} (hhead : ∀ c ∈ s.head?, isBlank c = false)
    (hlast : ∀ c ∈ s.getLast?, isBlank c = false) : trim s = s := by
  have hkeep : ∀ {t : Text}, (∀ c ∈ t.head?, isBlank c = false) → t.dropWhile isBlank = t := by
    intro t ht
    cases t with
    | nil => rfl
    | cons c rest => rw [List.dropWhile_cons, if_neg (by simp [ht c rfl])]
  rw [trim, trimLeft, hkeep hhead, trimRight, hkeep, List.reverse_reverse]
  rwa [List.head?_reverse]

/-! ### Folding -/

/-- A code point beyond ASCII. -/
def isBeyondAscii (c : CodePoint) : Bool := 0x80 ≤ c.val

theorem isBlank_lowerAscii (c : CodePoint) : isBlank c.lowerAscii = isBlank c := by
  have h := CodePoint.lowerAscii_val c
  rw [Bool.eq_iff_iff]
  simp only [isBlank, isWhiteSpace, Bool.or_eq_true, Bool.and_eq_true, decide_eq_true_eq,
    beq_iff_eq]
  split at h <;> omega

theorem isSurrogate_lowerAscii (c : CodePoint) : c.lowerAscii.isSurrogate = c.isSurrogate := by
  have h := CodePoint.lowerAscii_val c
  rw [Bool.eq_iff_iff]
  simp only [CodePoint.isSurrogate, Bool.and_eq_true, decide_eq_true_eq]
  split at h <;> omega

/-- A code point that is no letter from A to Z stays as it is. -/
theorem lowerAscii_eq_self_iff {c : CodePoint} : c.lowerAscii = c ↔ c.isAsciiUpper = false := by
  constructor
  · intro h
    rw [← h]
    exact CodePoint.not_isAsciiUpper_lowerAscii c
  · intro h
    simp only [CodePoint.isAsciiUpper, Bool.and_eq_false_iff, decide_eq_false_iff_not] at h
    apply CodePoint.ext_val
    rw [CodePoint.lowerAscii_val, if_neg (by omega)]

theorem lowerAscii_eq_self {s : Text} (h : ∀ c ∈ s, c.isAsciiUpper = false) :
    lowerAscii s = s :=
  (List.map_congr_left fun c hc => lowerAscii_eq_self_iff.mpr (h c hc)).trans (List.map_id s)

theorem not_isAsciiUpper_of_mem_lowerAscii {s : Text} {c : CodePoint} (h : c ∈ lowerAscii s) :
    c.isAsciiUpper = false := by
  obtain ⟨d, _, rfl⟩ := List.mem_map.mp h
  exact CodePoint.not_isAsciiUpper_lowerAscii d

/-- The first code point of a folded text is blank if that of the text is. -/
theorem head_lowerAscii {s : Text} (h : ∀ c ∈ s.head?, isBlank c = false) :
    ∀ c ∈ (lowerAscii s).head?, isBlank c = false := by
  intro c hc
  rw [lowerAscii, List.head?_map] at hc
  obtain ⟨d, hd, rfl⟩ := Option.map_eq_some_iff.mp hc
  rw [isBlank_lowerAscii]
  exact h d hd

theorem last_lowerAscii {s : Text} (h : ∀ c ∈ s.getLast?, isBlank c = false) :
    ∀ c ∈ (lowerAscii s).getLast?, isBlank c = false := by
  intro c hc
  rw [lowerAscii, List.getLast?_map] at hc
  obtain ⟨d, hd, rfl⟩ := Option.map_eq_some_iff.mp hc
  rw [isBlank_lowerAscii]
  exact h d hd

/-- Folding keeps what is not ASCII, and makes nothing that is not. -/
theorem filter_lowerAscii (s : Text) :
    (lowerAscii s).filter isBeyondAscii = s.filter isBeyondAscii := by
  have hbeyond : isBeyondAscii ∘ CodePoint.lowerAscii = isBeyondAscii := by
    funext c
    have h := CodePoint.lowerAscii_val c
    rw [Bool.eq_iff_iff]
    simp only [Function.comp_apply, isBeyondAscii, decide_eq_true_eq]
    split at h <;> omega
  rw [lowerAscii, List.filter_map, hbeyond]
  refine (List.map_congr_left fun c hc => ?_).trans (List.map_id _)
  rw [id, lowerAscii_eq_self_iff]
  have hc := (List.mem_filter.mp hc).2
  simp only [isBeyondAscii, decide_eq_true_eq] at hc
  simp only [CodePoint.isAsciiUpper, Bool.and_eq_false_iff, decide_eq_false_iff_not]
  omega

end Text

namespace Identifier

open Text (Blank SurrogateFree isBeyondAscii)

/-- A text in normal form: something, with no blank at either end and no letter from A to Z, and an
address only if its mark stands in front of the digits. -/
structure IsNormal (n : Text) : Prop where
  ne : n ≠ []
  head : ∀ c ∈ n.head?, Text.isBlank c = false
  last : ∀ c ∈ n.getLast?, Text.isBlank c = false
  folded : ∀ c ∈ n, c.isAsciiUpper = false
  marked : ∀ digits, IsAddress n digits → n = hexMark ++ digits

/-! ### Digits -/

theorem isBlank_of_isHexDigit {c : CodePoint} (h : c.isHexDigit = true) :
    Text.isBlank c = false := by
  simp only [CodePoint.isHexDigit, CodePoint.isAsciiDigit, Bool.or_eq_true, Bool.and_eq_true,
    decide_eq_true_eq] at h
  simp only [Text.isBlank, Text.isWhiteSpace, Bool.or_eq_false_iff, Bool.and_eq_false_iff,
    decide_eq_false_iff_not, beq_eq_false_iff_ne]
  omega

theorem isBeyondAscii_of_isHexDigit {c : CodePoint} (h : c.isHexDigit = true) :
    isBeyondAscii c = false := by
  simp only [CodePoint.isHexDigit, CodePoint.isAsciiDigit, Bool.or_eq_true, Bool.and_eq_true,
    decide_eq_true_eq] at h
  simp only [isBeyondAscii, decide_eq_false_iff_not]
  omega

/-- An address is ASCII. -/
theorem IsAddress.filter_eq_nil {s digits : Text} (h : IsAddress s digits) :
    s.filter isBeyondAscii = [] := by
  obtain ⟨_, hdigits, hs⟩ := h
  have hnone : digits.filter isBeyondAscii = [] := by
    rw [List.filter_eq_nil_iff]
    exact fun c hc => by simp [isBeyondAscii_of_isHexDigit (hdigits c hc)]
  rcases hs with rfl | rfl | rfl
  · exact hnone
  · exact hnone
  · exact hnone

/-! ### Normal forms are normal -/

theorem isNormal_of_address {digits : Text} (hne : digits ≠ [])
    (hdigits : ∀ c ∈ digits, c.isHexDigit = true) :
    IsNormal (hexMark ++ Text.lowerAscii digits) := by
  have hhex := isHexDigit_of_mem_lowerAscii hdigits
  have hlower : Text.lowerAscii digits ≠ [] := by simpa [Text.lowerAscii] using hne
  refine ⟨by simp [hlower], fun c hc => ?_, fun c hc => ?_, fun c hc => ?_, fun other h => ?_⟩
  · rw [← Option.some.inj hc]
    rfl
  · rw [List.getLast?_append_of_ne_nil _ hlower] at hc
    exact isBlank_of_isHexDigit (hhex c (List.mem_of_getLast? hc))
  · have hmark : ∀ c ∈ hexMark, c.isAsciiUpper = false := by decide
    rcases List.mem_append.mp hc with hc | hc
    · exact hmark c hc
    · exact Text.not_isAsciiUpper_of_mem_lowerAscii hc
  · have hread := addressDigits?_hexMark hlower hhex
    rw [addressDigits?_eq_some_iff.mpr h, Option.some.injEq] at hread
    rw [hread]

theorem isNormal_of_opaque {s : Text} (hne : s ≠ []) (hhead : ∀ c ∈ s.head?, Text.isBlank c = false)
    (hlast : ∀ c ∈ s.getLast?, Text.isBlank c = false) (hs : addressDigits? s = none) :
    IsNormal (Text.lowerAscii s) where
  ne := by simpa [Text.lowerAscii] using hne
  head := Text.head_lowerAscii hhead
  last := Text.last_lowerAscii hlast
  folded _ := Text.not_isAsciiUpper_of_mem_lowerAscii
  marked digits h := by
    rw [← addressDigits?_eq_some_iff, addressDigits?_lowerAscii_of_none hs] at h
    cases h

/-- **Normal forms are normal.** -/
theorem isNormal_canonical {s : Text} (hne : s ≠ []) (hhead : ∀ c ∈ s.head?, Text.isBlank c = false)
    (hlast : ∀ c ∈ s.getLast?, Text.isBlank c = false) : IsNormal (canonical s) := by
  cases hs : addressDigits? s with
  | none =>
    rw [canonical_of_none hs]
    exact isNormal_of_opaque hne hhead hlast hs
  | some digits =>
    obtain ⟨hdigits, hhex, _⟩ := addressDigits?_eq_some_iff.mp hs
    rw [canonical_of_some hs]
    exact isNormal_of_address hdigits hhex

/-- A normal text is its own normal form. -/
theorem IsNormal.canonical_eq {n : Text} (h : IsNormal n) : canonical n = n := by
  cases hn : addressDigits? n with
  | none => rw [canonical_of_none hn, Text.lowerAscii_eq_self h.folded]
  | some digits =>
    have hmarked := h.marked digits (addressDigits?_eq_some_iff.mp hn)
    have hfolded : Text.lowerAscii digits = digits := Text.lowerAscii_eq_self fun c hc =>
      h.folded c (by rw [hmarked]; exact List.mem_append_right _ hc)
    rw [canonical_of_some hn, hfolded, ← hmarked]

theorem IsNormal.not_blank {n : Text} (h : IsNormal n) : ¬ Blank n := by
  intro hblank
  cases n with
  | nil => exact h.ne rfl
  | cons c rest =>
    have hc := hblank c (List.mem_cons_self ..)
    rw [h.head c rfl] at hc
    cases hc

/-- **The texts that are their own normal forms** are the normal ones without surrogates. -/
theorem normalizeText_eq_self_iff {n : Text} :
    normalizeText n = .ok n ↔ IsNormal n ∧ SurrogateFree n := by
  constructor
  · intro h
    obtain ⟨hblank, hfree, hn⟩ := normalizeText_eq_ok_iff.mp h
    refine ⟨?_, hfree⟩
    rw [hn]
    exact isNormal_canonical (mt Text.trim_eq_nil_iff.mp hblank) (Text.head_trim n)
      (Text.last_trim n)
  · rintro ⟨h, hfree⟩
    rw [normalizeText_eq_ok_iff, Text.trim_eq_self h.head h.last]
    exact ⟨h.not_blank, hfree, h.canonical_eq.symm⟩

/-- What has a normal form has one that is normal and without surrogates. -/
theorem isNormal_of_normalizeText {raw n : Text} (h : normalizeText raw = .ok n) :
    IsNormal n ∧ SurrogateFree n := by
  obtain ⟨hblank, hfree, rfl⟩ := normalizeText_eq_ok_iff.mp h
  refine ⟨isNormal_canonical (mt Text.trim_eq_nil_iff.mp hblank) (Text.head_trim raw)
    (Text.last_trim raw), ?_⟩
  have hlower : ∀ {s : Text}, SurrogateFree s → SurrogateFree (Text.lowerAscii s) := by
    intro s hs c hc
    obtain ⟨d, hd, rfl⟩ := List.mem_map.mp hc
    rw [Text.isSurrogate_lowerAscii]
    exact hs d hd
  have htrim := Text.surrogateFree_trim_iff.mpr hfree
  cases hs : addressDigits? (Text.trim raw) with
  | none =>
    rw [canonical_of_none hs]
    exact hlower htrim
  | some digits =>
    have hmark : SurrogateFree hexMark := by decide
    rw [canonical_of_some hs]
    intro c hc
    rcases List.mem_append.mp hc with hc | hc
    · exact hmark c hc
    · refine hlower (fun d hd => ?_) c hc
      -- the digits stand in the text itself
      obtain ⟨_, _, hwhole | hwhole | hwhole⟩ := addressDigits?_eq_some_iff.mp hs <;>
        exact htrim d (by simp [hwhole, hd])

/-! ### What becomes of an identifier -/

/-- **A normal form is an address** exactly if what it was made of is one. -/
theorem isAddress_canonical (s : Text) :
    isAddress (canonical s) = decide (HasAddressShape s) := by
  have hshape : HasAddressShape s ↔ addressDigits? s ≠ none := by
    rw [ne_eq, addressDigits?_eq_none_iff, not_not]
  rw [Bool.eq_iff_iff, decide_eq_true_eq, hshape, isAddress, addressDigits?_canonical]
  cases hs : addressDigits? s with
  | none => simp
  | some digits =>
    rw [canonical_of_some hs]
    simp [Text.startsWith]

/-- **What is not ASCII stays as it is.** -/
theorem filter_canonical (s : Text) :
    (canonical s).filter isBeyondAscii = s.filter isBeyondAscii := by
  cases hs : addressDigits? s with
  | none => rw [canonical_of_none hs, Text.filter_lowerAscii]
  | some digits =>
    have haddress := addressDigits?_eq_some_iff.mp hs
    obtain ⟨hne, hdigits, _⟩ := haddress.lowerAscii
    have hmarked : IsAddress (hexMark ++ Text.lowerAscii digits) (Text.lowerAscii digits) :=
      ⟨hne, hdigits, .inr (.inl rfl)⟩
    rw [canonical_of_some hs, haddress.filter_eq_nil, hmarked.filter_eq_nil]

/-- **The normal form is canonical.**  Two identifiers that are no blanks and hold no surrogates
have normal forms.  Each is normal and its own normal form; it is recognised as an address exactly
if the identifier is one; and it keeps all that is not ASCII.  They are the same exactly if both
identifiers are addresses with the same digits or neither is an address and they are the same, up to
the case of the letters A to Z; so an address and another identifier never have the same. -/
theorem normal_form_is_canonical {a b : Text} (ha : ¬ Blank a) (hb : ¬ Blank b)
    (hafree : SurrogateFree a) (hbfree : SurrogateFree b) :
    ∃ m n, normalizeText a = .ok m ∧ normalizeText b = .ok n ∧
      IsNormal m ∧ normalizeText m = .ok m ∧
      isAddress? m = .ok (decide (HasAddressShape (Text.trim a))) ∧
      m.filter isBeyondAscii = (Text.trim a).filter isBeyondAscii ∧
      (m = n ↔ Matches (Text.trim a) (Text.trim b)) ∧
      (HasAddressShape (Text.trim a) → ¬ HasAddressShape (Text.trim b) → m ≠ n) := by
  have hm := normalizeText_of_not_blank ha hafree
  have hn := normalizeText_of_not_blank hb hbfree
  obtain ⟨hnormal, hfree⟩ := isNormal_of_normalizeText hm
  refine ⟨_, _, hm, hn, hnormal, normalizeText_eq_self_iff.mpr ⟨hnormal, hfree⟩, ?_,
    filter_canonical _, canonical_eq_iff, fun haddress hopaque heq => ?_⟩
  · rw [← isAddress_canonical, isAddress?, Text.firstSurrogates?_eq_none_iff.mpr hfree]
    by_cases hstart : Text.startsWith (canonical (Text.trim a)) hexMark = true
    · simp [hstart]
    · simp [hstart, isAddress]
  · rcases canonical_eq_iff.mp heq with ⟨_, e, _, he, _⟩ | ⟨hnot, _, _⟩
    · exact hopaque ⟨e, he⟩
    · exact hnot haddress

/-- An address in two spellings has one normal form. -/
theorem spellings_of_address : ∃ m, normalizeText " 0XAb\n" = .ok m ∧ normalizeText "aB" = .ok m ∧
    normalizeText m = .ok m ∧ isAddress? m = .ok true := by
  obtain ⟨m, n, hm, hn, _, hself, haddress, _, heq, _⟩ := normal_form_is_canonical
    (a := " 0XAb\n") (b := "aB") (by decide) (by decide) (by decide) (by decide)
  have hsame : m = n := heq.mpr (canonical_eq_iff.mp (by decide))
  refine ⟨m, hm, hsame ▸ hn, hself, haddress.trans ?_⟩
  rw [decide_eq_true (by decide)]

end Identifier

end AdmissionControl
