import AdmissionControl.Json.Printer
import AdmissionControl.Proofs.Json.Grammar
import AdmissionControl.Proofs.Text

/-!
# What the printer writes is in the grammar

Every text without surrogates can be written as a string, and every list of such texts as the member
of an object.

* `Escaped` — how the printer writes one code point.
* `spellsString_renderString` — a printed text spells itself.
* `spells_renderPlain_list` — so does a printed object with a list of texts.
-/

namespace AdmissionControl.Json

open Text (SurrogateFree)

/-! ### One code point -/

/-- How a code point is written: with an escape of one letter, by its number, or as it is. -/
inductive Escaped (c : CodePoint) : Text → Prop
  | short {e : CodePoint} (mem : (e, c) ∈ escapes) : Escaped c [backslash, e]
  | number {digits : Text} (four : digits.length = 4) (hex : ∀ d ∈ digits, d.isHexDigit = true)
      (value : CodePoint.ofNat (Text.hexValue digits) = c) :
      Escaped c (backslash :: ('u' : CodePoint) :: digits)
  | plain (notQuote : c ≠ quote) (notBackslash : c ≠ backslash) (notControl : 0x1F < c.val) :
      Escaped c [c]

/-- Four digits are enough for a control character. -/
theorem hexPadded_of_control : ∀ n < 0x20, (Text.hexPadded 4 n).length = 4 ∧
    (∀ d ∈ Text.hexPadded 4 n, d.isHexDigit = true) ∧ Text.hexValue (Text.hexPadded 4 n) = n := by
  decide

theorem escaped_of_letterEscape? {c : CodePoint} {s : Text} (h : letterEscape? c = some s) :
    Escaped c s := by
  rw [letterEscape?] at h
  split_ifs at h with h₁ h₂ h₃ h₄ h₅ h₆ h₇ <;> subst c <;> cases h <;> exact .short (by decide)

theorem escaped_plainEscape (c : CodePoint) : Escaped c (plainEscape c) := by
  rw [plainEscape]
  split
  · next s hs => exact escaped_of_letterEscape? hs
  · next hletter =>
    split
    · next hcontrol =>
      obtain ⟨hfour, hhex, hvalue⟩ := hexPadded_of_control c.val hcontrol
      have hnumber : CodePoint.ofNat (Text.hexValue (Text.hexPadded 4 c.val)) = c := by
        apply CodePoint.ext_val
        rw [hvalue, CodePoint.ofNat_val c.isLt]
      exact .number hfour hhex hnumber
    · next hcontrol =>
      refine .plain ?_ ?_ (by omega)
      · rintro rfl
        cases hletter
      · rintro rfl
        cases hletter

/-- An escape goes in front of what is written already. -/
theorem Escaped.written {c : CodePoint} {s body : Text} {units : List CodePoint} (h : Escaped c s)
    (rest : Written body units) : Written (s ++ body) (c :: units) := by
  cases h with
  | short mem => exact .short mem rest
  | number four hex value =>
    subst value
    exact .number four hex rest
  | plain notQuote notBackslash notControl => exact .plain notQuote notBackslash notControl rest

theorem Escaped.surrogateFree {c : CodePoint} {s : Text} (h : Escaped c s)
    (hc : c.isSurrogate = false) : SurrogateFree s := by
  cases h with
  | @short e mem =>
    have hletters : ∀ p ∈ escapes, p.1.isSurrogate = false := by decide
    exact List.forall_mem_cons.mpr ⟨by decide, List.forall_mem_singleton.mpr (hletters _ mem)⟩
  | number _ hex _ =>
    have hdigit : ∀ {d : CodePoint}, d.isHexDigit = true → d.isSurrogate = false := by
      intro d hd
      simp only [CodePoint.isHexDigit, CodePoint.isAsciiDigit, Bool.or_eq_true, Bool.and_eq_true,
        decide_eq_true_eq] at hd
      simp only [CodePoint.isSurrogate, Bool.and_eq_false_iff, decide_eq_false_iff_not]
      omega
    exact List.forall_mem_cons.mpr ⟨by decide,
      List.forall_mem_cons.mpr ⟨by decide, fun d hd => hdigit (hex d hd)⟩⟩
  | plain => exact List.forall_mem_singleton.mpr hc

/-! ### Strings -/

theorem written_flatMap (s : Text) : Written (s.flatMap plainEscape) s := by
  induction s with
  | nil => exact .nil
  | cons c s ih =>
    rw [List.flatMap_cons]
    exact (escaped_plainEscape c).written ih

/-- Without surrogates there are no pairs of them. -/
theorem joined_self {s : Text} (h : SurrogateFree s) : Joined s s := by
  induction s with
  | nil => exact .nil
  | cons c s ih =>
    obtain ⟨hc, hs⟩ := List.forall_mem_cons.mp h
    refine .single (fun hhigh => ?_) (ih hs)
    simp only [CodePoint.isSurrogate, Bool.and_eq_false_iff, decide_eq_false_iff_not] at hc
    simp only [CodePoint.isHighSurrogate, Bool.and_eq_true, decide_eq_true_eq] at hhigh
    omega

/-- **A printed text spells itself.** -/
theorem spellsString_renderString {s : Text} (h : SurrogateFree s) :
    SpellsString (renderString plainEscape s) s :=
  .mk (written_flatMap s) (joined_self h)

theorem surrogateFree_renderString {s : Text} (h : SurrogateFree s) :
    SurrogateFree (renderString plainEscape s) := by
  have hquote : SurrogateFree ("\"" : Text) := by decide
  intro d hd
  rw [renderString, List.mem_append, List.mem_append, List.mem_flatMap] at hd
  rcases hd with (hd | ⟨c, hc, hd⟩) | hd
  · exact hquote d hd
  · exact (escaped_plainEscape c).surrogateFree (h c hc) d hd
  · exact hquote d hd

/-! ### Lists of texts -/

/-- A value alone, without blanks. -/
theorem Spells.padded {s : Text} {v : Value} (h : Spells s v) : Padded s v := by
  have hpadded := Padded.mk blanks_nil h blanks_nil
  rwa [List.nil_append, List.append_nil] at hpadded

theorem elements_renderItems {x : Text} {xs : List Text} (h : ∀ y ∈ x :: xs, SurrogateFree y) :
    Elements (Value.renderItems plainEscape ((x :: xs).map .string)) ((x :: xs).map .string) := by
  induction xs generalizing x with
  | nil => exact .last (Spells.string (spellsString_renderString (h x List.mem_cons_self))).padded
  | cons y xs ih =>
    obtain ⟨hx, hrest⟩ := List.forall_mem_cons.mp h
    exact .next (Spells.string (spellsString_renderString hx)).padded (ih hrest)

theorem surrogateFree_renderItems {xs : List Text} (h : ∀ x ∈ xs, SurrogateFree x) :
    SurrogateFree (Value.renderItems plainEscape (xs.map .string)) := by
  induction xs with
  | nil => exact nofun
  | cons x xs ih =>
    obtain ⟨hx, hrest⟩ := List.forall_mem_cons.mp h
    have hfirst := surrogateFree_renderString hx
    cases xs with
    | nil => exact hfirst
    | cons y xs =>
      have hcomma : (',' : CodePoint).isSurrogate = false := by decide
      exact List.forall_mem_append.mpr ⟨hfirst, List.forall_mem_cons.mpr ⟨hcomma, ih hrest⟩⟩

theorem spells_renderArray {xs : List Text} (h : ∀ x ∈ xs, SurrogateFree x) :
    Spells (Value.array (xs.map .string)).renderPlain (.array (xs.map .string)) := by
  cases xs with
  | nil => exact .emptyArray blanks_nil
  | cons x xs => exact .array (elements_renderItems h)

/-- **A printed object with a list of texts spells itself**, without surrogates. -/
theorem spells_renderPlain_list {name : Text} {xs : List Text} (hname : SurrogateFree name)
    (h : ∀ x ∈ xs, SurrogateFree x) :
    Spells (Value.object [(name, .array (xs.map .string))]).renderPlain
        (.object [(name, .array (xs.map .string))]) ∧
      SurrogateFree (Value.object [(name, .array (xs.map .string))]).renderPlain := by
  constructor
  · have hmembers := Members.last blanks_nil (spellsString_renderString hname) blanks_nil
      (spells_renderArray h).padded
    exact .object hmembers
  · have hopen : SurrogateFree ("\x7b" : Text) := by decide
    have hclose : SurrogateFree ("\x7d" : Text) := by decide
    have hcolon : (':' : CodePoint).isSurrogate = false := by decide
    have hbracket : SurrogateFree ("[" : Text) ∧ SurrogateFree ("]" : Text) := by decide
    have harray : SurrogateFree (Value.renderWith plainEscape (.array (xs.map .string))) := by
      rw [Value.renderWith]
      exact List.forall_mem_append.mpr ⟨List.forall_mem_append.mpr
        ⟨hbracket.1, surrogateFree_renderItems h⟩, hbracket.2⟩
    rw [Value.renderPlain, Value.renderWith, Value.renderMembers]
    refine List.forall_mem_append.mpr ⟨List.forall_mem_append.mpr ⟨hopen, ?_⟩, hclose⟩
    exact List.forall_mem_append.mpr ⟨surrogateFree_renderString hname,
      List.forall_mem_cons.mpr ⟨hcolon, harray⟩⟩

end AdmissionControl.Json
