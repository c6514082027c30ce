import AdmissionControl.Bytes.Utf8
import AdmissionControl.Text.Blank
import Mathlib.Data.List.Forall2
import Mathlib.Data.List.TakeWhile

/-!
# Trimmed texts, parts of a text, and the case of ASCII letters

What identifiers and inline lists need to know of texts, each operation beside a description that
does not use it.

* `splitOn_eq_iff` — the parts of a text are the parts without a separator that join to it.
* `trim_eq_nil_iff` — a text is trimmed to nothing exactly if it is blank.
* `lowerAscii_eq_iff` — two texts have one lower-case form exactly if they are the same up to the
  case of the letters A to Z.
* `firstSurrogates?_eq_none_iff` — a text has an encoding exactly if it has no surrogate.
* `dropStart?_eq_some_iff` — what follows a beginning.
-/

namespace AdmissionControl

namespace Text

/-! ### Parts between separators -/

theorem joinWith_cons (sep part : Text) {parts : List Text} (h : parts ≠ []) :
    joinWith sep (part :: parts) = part ++ sep ++ joinWith sep parts := by
  cases parts with
  | nil => exact absurd rfl h
  | cons p ps => rfl

theorem joinWith_append (sep : Text) {parts more : List Text} (h : parts ≠ []) (hmore : more ≠ []) :
    joinWith sep (parts ++ more) = joinWith sep parts ++ sep ++ joinWith sep more := by
  induction parts with
  | nil => exact absurd rfl h
  | cons part parts ih =>
    by_cases hparts : parts = []
    · rw [hparts, List.singleton_append, joinWith_cons sep part hmore]
      rfl
    · rw [List.cons_append, joinWith_cons sep part (by simp [hparts]), ih hparts,
        joinWith_cons sep part hparts]
      simp only [List.append_assoc]

theorem splitOn_cons_self (sep : CodePoint) (s : Text) :
    splitOn sep (sep :: s) = [] :: splitOn sep s := by
  rw [splitOn, if_pos rfl]

/-- A code point that is no separator goes to the front of the first part. -/
theorem splitOn_cons_of_ne {sep c : CodePoint} (h : c ≠ sep) (s : Text) :
    ∃ part parts, splitOn sep s = part :: parts ∧ splitOn sep (c :: s) = (c :: part) :: parts := by
  rw [splitOn, if_neg h]
  cases hs : splitOn sep s with
  | nil => exact absurd hs (splitOn_ne_nil sep s)
  | cons part parts => exact ⟨part, parts, rfl, rfl⟩

theorem joinWith_splitOn (sep : CodePoint) (s : Text) : joinWith [sep] (splitOn sep s) = s := by
  induction s with
  | nil => rfl
  | cons c rest ih =>
    by_cases hc : c = sep
    · subst hc
      rw [splitOn_cons_self, joinWith_cons _ _ (splitOn_ne_nil c rest), ih]
      rfl
    · obtain ⟨part, parts, hrest, hcons⟩ := splitOn_cons_of_ne hc rest
      rw [hrest] at ih
      rw [hcons, ← ih]
      cases parts <;> rfl

theorem notMem_of_mem_splitOn {sep : CodePoint} {s part : Text} (h : part ∈ splitOn sep s) :
    sep ∉ part := by
  induction s generalizing part with
  | nil =>
    rw [splitOn, List.mem_singleton] at h
    simp [h]
  | cons c rest ih =>
    by_cases hc : c = sep
    · subst hc
      rw [splitOn_cons_self, List.mem_cons] at h
      rcases h with rfl | h
      · simp
      · exact ih h
    · obtain ⟨first, parts, hrest, hcons⟩ := splitOn_cons_of_ne hc rest
      rw [hcons, List.mem_cons] at h
      rcases h with rfl | h
      · rw [List.mem_cons, not_or]
        exact ⟨fun e => hc e.symm, ih (by simp [hrest])⟩
      · exact ih (by simp [hrest, h])

theorem splitOn_of_notMem {sep : CodePoint} {s : Text} (h : sep ∉ s) : splitOn sep s = [s] := by
  induction s with
  | nil => rfl
  | cons c rest ih =>
    rw [List.mem_cons, not_or] at h
    obtain ⟨part, parts, hrest, hcons⟩ := splitOn_cons_of_ne (fun e => h.1 e.symm) rest
    rw [ih h.2, List.cons.injEq] at hrest
    rw [hcons, ← hrest.1, ← hrest.2]

theorem splitOn_append {sep : CodePoint} {part : Text} (h : sep ∉ part) (s : Text) :
    splitOn sep (part ++ sep :: s) = part :: splitOn sep s := by
  induction part with
  | nil => exact splitOn_cons_self sep s
  | cons c rest ih =>
    rw [List.mem_cons, not_or] at h
    obtain ⟨first, parts, hrest, hcons⟩ :=
      splitOn_cons_of_ne (fun e => h.1 e.symm) (rest ++ sep :: s)
    rw [ih h.2, List.cons.injEq] at hrest
    rw [List.cons_append, hcons, ← hrest.1, ← hrest.2]

/-- A separator between two texts keeps their parts apart. -/
theorem splitOn_append_cons (sep : CodePoint) (s t : Text) :
    splitOn sep (s ++ sep :: t) = splitOn sep s ++ splitOn sep t := by
  induction s with
  | nil => exact splitOn_cons_self sep t
  | cons c rest ih =>
    by_cases hc : c = sep
    · subst hc
      rw [List.cons_append, splitOn_cons_self, splitOn_cons_self, ih]
      rfl
    · obtain ⟨part, parts, hrest, hcons⟩ := splitOn_cons_of_ne hc rest
      obtain ⟨part', parts', hlong, hlong'⟩ := splitOn_cons_of_ne hc (rest ++ sep :: t)
      rw [ih, hrest, List.cons_append, List.cons.injEq] at hlong
      rw [List.cons_append, hlong', hcons, ← hlong.1, ← hlong.2]
      rfl

theorem splitOn_joinWith {sep : CodePoint} {parts : List Text} (hne : parts ≠ [])
    (h : ∀ part ∈ parts, sep ∉ part) : splitOn sep (joinWith [sep] parts) = parts := by
  induction parts with
  | nil => exact absurd rfl hne
  | cons part parts ih =>
    have hpart : sep ∉ part := h part (by simp)
    cases parts with
    | nil => exact splitOn_of_notMem hpart
    | cons next rest =>
      rw [joinWith_cons _ _ (by simp), List.append_assoc, List.singleton_append,
        splitOn_append hpart, ih (by simp) fun p hp => h p (List.mem_cons_of_mem _ hp)]

/-- The parts of a text: at least one, none with a separator, and together the text. -/
theorem splitOn_eq_iff {sep : CodePoint} {s : Text} {parts : List Text} :
    splitOn sep s = parts ↔
      parts ≠ [] ∧ (∀ part ∈ parts, sep ∉ part) ∧ joinWith [sep] parts = s := by
  constructor
  · rintro rfl
    exact ⟨splitOn_ne_nil sep s, fun _ h => notMem_of_mem_splitOn h, joinWith_splitOn sep s⟩
  · rintro ⟨hne, hparts, rfl⟩
    exact splitOn_joinWith hne hparts

/-! ### Trimming -/

/-- A text of blanks only, or of nothing. -/
def Blank (s : Text) : Prop := ∀ c ∈ s, isBlank c = true

instance (s : Text) : Decidable (Blank s) := inferInstanceAs (Decidable (∀ c ∈ s, _))

theorem trim_subset (s : Text) : trim s ⊆ s := by
  intro c hc
  rw [trim, trimRight, List.mem_reverse] at hc
  have hleft : c ∈ trimLeft s := by
    rw [← List.mem_reverse]
    exact (List.dropWhile_sublist _).subset hc
  exact (List.dropWhile_sublist _).subset hleft

theorem trimLeft_eq_nil_iff {s : Text} : trimLeft s = [] ↔ Blank s := List.dropWhile_eq_nil_iff

theorem trim_eq_nil_iff {s : Text} : trim s = [] ↔ Blank s := by
  rw [trim, trimRight, List.reverse_eq_nil_iff, List.dropWhile_eq_nil_iff, ← trimLeft_eq_nil_iff]
  constructor
  · intro h
    -- what is left after trimming the front starts with no blank, so it is empty
    cases hs : trimLeft s with
    | nil => rfl
    | cons c rest =>
      have hblank : isBlank c = true := h c (by simp [hs])
      have hhead : isBlank c = false := head_trimLeft s c (by simp [hs])
      rw [hblank] at hhead
      cases hhead
  · intro h
    simp [h]

/-- A code point that trimming takes away is blank. -/
theorem mem_trim_or_isBlank {s : Text} {c : CodePoint} (h : c ∈ s) :
    c ∈ trim s ∨ isBlank c = true := by
  rw [← List.takeWhile_append_dropWhile (p := isBlank) (l := s), List.mem_append] at h
  rcases h with h | h
  · exact Or.inr (List.mem_takeWhile_imp h)
  · rw [← List.mem_reverse,
      ← List.takeWhile_append_dropWhile (p := isBlank) (l := (s.dropWhile isBlank).reverse),
      List.mem_append] at h
    rcases h with h | h
    · exact Or.inr (List.mem_takeWhile_imp h)
    · exact Or.inl (List.mem_reverse.mpr h)

/-! ### Surrogates -/

def SurrogateFree (s : Text) : Prop := ∀ c ∈ s, c.isSurrogate = false

instance (s : Text) : Decidable (SurrogateFree s) := inferInstanceAs (Decidable (∀ c ∈ s, _))

theorem isSurrogate_eq_false_of_isBlank {c : CodePoint} (h : isBlank c = true) :
    c.isSurrogate = false := by
  simp only [isBlank, isWhiteSpace, Bool.or_eq_true, Bool.and_eq_true, decide_eq_true_eq,
    beq_iff_eq] at h
  simp only [CodePoint.isSurrogate, Bool.and_eq_false_iff, decide_eq_false_iff_not]
  omega

theorem surrogateFree_trim_iff {s : Text} : SurrogateFree (trim s) ↔ SurrogateFree s := by
  constructor
  · intro h c hc
    rcases mem_trim_or_isBlank hc with ht | hb
    · exact h c ht
    · exact isSurrogate_eq_false_of_isBlank hb
  · exact fun h c hc => h c (trim_subset s hc)

theorem firstSurrogates?_eq_none_iff {s : Text} :
    Utf8.firstSurrogates? s = none ↔ SurrogateFree s := by
  have hdrop : s.dropWhile (!·.isSurrogate) = [] ↔ SurrogateFree s := by
    rw [List.dropWhile_eq_nil_iff]
    simp only [SurrogateFree, Bool.not_eq_true']
  rw [← hdrop, Utf8.firstSurrogates?]
  cases s.dropWhile (!·.isSurrogate) <;> simp

/-! ### Literals -/

theorem ofString_inj {s t : String} : ofString s = ofString t ↔ s = t := by
  have hchars : Function.Injective CodePoint.ofChar := fun c d h =>
    Char.toNat_inj.mp (congrArg CodePoint.val h)
  rw [ofString, ofString, (List.map_injective_iff.mpr hchars).eq_iff, String.toList_inj]

/-! ### Beginnings -/

theorem dropStart?_eq_some_iff {s start tail : Text} :
    dropStart? s start = some tail ↔ s = start ++ tail := by
  induction s, start using dropStart?.induct with
  | case1 s => simp [dropStart?]
  | case2 => simp [dropStart?]
  | case3 s d start ih => simp [dropStart?, ih]
  | case4 c s d start h => simp [dropStart?, h]

end Text

/-! ### Case -/

namespace CodePoint

/-- Equal, or the two cases of one letter from A to Z. -/
def SameLetter (c d : CodePoint) : Prop :=
  c = d ∨ (c.isAsciiUpper = true ∧ d.val = c.val + 0x20) ∨
    (d.isAsciiUpper = true ∧ c.val = d.val + 0x20)

instance (c d : CodePoint) : Decidable (SameLetter c d) := inferInstanceAs (Decidable (_ ∨ _))

theorem lowerAscii_eq_lowerAscii_iff {c d : CodePoint} :
    c.lowerAscii = d.lowerAscii ↔ SameLetter c d := by
  have hval : c.lowerAscii = d.lowerAscii ↔ c.lowerAscii.val = d.lowerAscii.val :=
    ⟨congrArg _, ext_val⟩
  have heq : c = d ↔ c.val = d.val := ⟨congrArg _, ext_val⟩
  rw [hval, SameLetter, heq, lowerAscii_val, lowerAscii_val]
  simp only [isAsciiUpper, Bool.and_eq_true, decide_eq_true_eq]
  split <;> split <;> omega

theorem isHexDigit_lowerAscii (c : CodePoint) : c.lowerAscii.isHexDigit = c.isHexDigit := by
  have h := lowerAscii_val c
  rw [Bool.eq_iff_iff]
  simp only [isHexDigit, isAsciiDigit, Bool.or_eq_true, Bool.and_eq_true, decide_eq_true_eq]
  split at h <;> omega

end CodePoint

namespace Text

/-- The same code points up to the case of the letters A to Z. -/
def SameUpToCase (s t : Text) : Prop := List.Forall₂ CodePoint.SameLetter s t

theorem lowerAscii_eq_iff {s t : Text} : lowerAscii s = lowerAscii t ↔ SameUpToCase s t := by
  rw [← List.forall₂_eq_eq_eq, lowerAscii, lowerAscii, List.forall₂_map_left_iff,
    List.forall₂_map_right_iff]
  simp only [CodePoint.lowerAscii_eq_lowerAscii_iff]
  rfl

end Text

end AdmissionControl
