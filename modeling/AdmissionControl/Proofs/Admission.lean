import AdmissionControl.Decision
import AdmissionControl.Proofs.Reload.Provenance
import AdmissionControl.Proofs.Value

/-!
# What the gate decides

A decision speaks of raw entries: the gate permits an identifier exactly if some raw entry of the
source behind the current snapshot is equivalent to it.  This holds at every moment of a run, for
every text without surrogates and for every other value that can be written.

* `contains_iff` — an allowlist holds the normal form of a text exactly if its source names an
  equivalent one.
* `check_blank`, `check_text`, `check_of_not_text` — the three ways in which a check ends.
* `Decision.Answers` — what a decision says about an identifier and raw entries.
* `admission_exact` — every check of a run answers so, or the identifier has no literal.
-/

namespace AdmissionControl

open Allowlist (Content)
open Reload (Run)

/-! ### Entries and raw entries -/

namespace Allowlist.Content

/-- A content that gives an allowlist names nothing but texts with a normal form. -/
theorem normalizable_of_names [Limits] {c : Content} {a : Allowlist} (h : c.Gives a)
    {raw : List Json.Value} (hraw : c.Names raw) {s : Text} (hs : .string s ∈ raw) :
    ∃ x, Identifier.normalizeText s = .ok x := by
  obtain ⟨raw', entries, _, hnames, hall, _⟩ := gives_iff.mp h
  rw [hnames.unique hraw] at hall
  exact exists_normalize_of_normalizeFrom hall _ (List.mem_map.mpr ⟨_, hs, rfl⟩)

/-- **An allowlist holds the normal form of a text exactly if its content names a text that is
equivalent to it.** -/
theorem contains_iff [Limits] {c : Content} {a : Allowlist} (h : c.Gives a) {raw : List Json.Value}
    (hraw : c.Names raw) {x normal : Text} (hx : Identifier.normalizeText x = .ok normal) :
    a.contains normal = true ↔ ∃ s, .string s ∈ raw ∧ Identifier.Equivalent s x := by
  rw [Allowlist.contains, List.contains_iff_mem, mem_entries_iff h hraw]
  refine exists_congr fun s => and_congr_right fun hs => ?_
  obtain ⟨y, hy⟩ := normalizable_of_names h hraw hs
  obtain ⟨hblank, hsurrogate, _⟩ := Identifier.normalizeText_eq_ok_iff.mp hy
  exact Identifier.normalizeText_agree_iff hblank hsurrogate hx

end Allowlist.Content

/-! ### The ends of a check -/

namespace Store

variable (s : Store)

theorem check_blank [Limits] {x : Text} (hx : Text.Blank x) :
    s.check (.text x) =
      .ok ⟨none, x, s.version, s.current.allowlist.loadedAt, .malformed⟩ := by
  simp only [check, Snapshot.decide, rawText, Snapshot.decideRaw, Identifier.normalize,
    Identifier.normalizeText_of_blank hx]
  rfl

theorem check_text [Limits] {x normal : Text} (hx : Identifier.normalizeText x = .ok normal) :
    s.check (.text x) = .ok ⟨some normal, x, s.version, s.current.allowlist.loadedAt,
      if s.current.allowlist.contains normal then .listed else .notListed⟩ := by
  simp only [check, Snapshot.decide, rawText, Snapshot.decideRaw, Identifier.normalize, hx]
  rfl

theorem check_of_not_text [Limits] {v : Value} (hv : ∀ x, v ≠ .text x) :
    s.check v = v.literal.map fun raw =>
      ⟨none, raw, s.version, s.current.allowlist.loadedAt, .malformed⟩ := by
  have hraw : rawText v = v.literal := by
    cases v with
    | text x => exact absurd rfl (hv x)
    | _ => rfl
  have hnormal : Identifier.normalize v = .error (.malformed (.notText v.kind)) := by
    cases v with
    | text x => exact absurd rfl (hv x)
    | _ => rfl
  rw [check, Snapshot.decide, hraw]
  cases v.literal with
  | error f => rfl
  | ok raw =>
    simp only [Snapshot.decideRaw, hnormal]
    rfl

/-- **A check permits exactly the texts whose normal form is an entry.** -/
theorem check_permits_iff [Limits] {v : Value} :
    (∃ d, s.check v = .ok d ∧ d.permitted = true) ↔ ∃ x normal, v = .text x ∧
      Identifier.normalizeText x = .ok normal ∧ normal ∈ s.current.allowlist.entries := by
  constructor
  · rintro ⟨d, hd, hp⟩
    rw [check, Snapshot.decide] at hd
    split at hd
    · cases hd
    · simp only [Snapshot.decideRaw] at hd
      split at hd
      · cases hd
      · cases hd
        rw [Decision.permitted_iff] at hp
        cases hp
      · rename_i normal hnormal
        obtain ⟨x, rfl, hx⟩ := Identifier.normalize_eq_ok_iff.mp hnormal
        refine ⟨x, normal, rfl, hx, ?_⟩
        rw [← Except.ok.inj hd, Decision.permitted_iff] at hp
        by_contra hnot
        rw [← List.contains_iff_mem] at hnot
        simp only [Allowlist.contains, hnot] at hp
        cases hp
  · rintro ⟨x, normal, rfl, hx, hmem⟩
    refine ⟨_, s.check_text hx, ?_⟩
    rw [Decision.permitted_iff]
    exact if_pos (List.contains_iff_mem.mpr hmem)

end Store

/-! ### Decisions about raw entries -/

/-- What a decision says about an identifier, in terms of raw entries alone. -/
structure Decision.Answers (d : Decision) (raw : List Json.Value) (v : Value) : Prop where
  permitted : d.permitted = true ↔
    ∃ x, v = .text x ∧ ¬ Text.Blank x ∧ ∃ s, .string s ∈ raw ∧ Identifier.Equivalent s x
  malformed : d.reason = .malformed ↔ ∀ x, v = .text x → Text.Blank x
  identifier : d.identifier = none ↔ ∀ x, v = .text x → Text.Blank x
  notListed : d.permitted = false → d.reason ≠ .malformed → d.reason = .notListed

theorem Decision.notListed_of_not_permitted (d : Decision) (hp : d.permitted = false)
    (hm : d.reason ≠ .malformed) : d.reason = .notListed := by
  cases hd : d.reason with
  | listed =>
    rw [d.permitted_iff.mpr hd] at hp
    cases hp
  | notListed => rfl
  | malformed => exact absurd hd hm

/-- A decision without a normal form answers a value that has none. -/
theorem Decision.answers_malformed {raw : List Json.Value} {v : Value} {written : Text}
    {version : Nat} {loadedAt : Instant} (hv : ∀ x, v = .text x → Text.Blank x) :
    Answers ⟨none, written, version, loadedAt, .malformed⟩ raw v where
  permitted := by
    refine ⟨fun h => ?_, fun ⟨x, hx, hblank, _⟩ => absurd (hv x hx) hblank⟩
    rw [permitted_iff] at h
    cases h
  malformed := iff_of_true rfl hv
  identifier := iff_of_true rfl hv
  notListed := notListed_of_not_permitted _

namespace Store

variable {s : Store} {c : Content} {raw : List Json.Value}

/-- The check of a text without surrogates gives an answer. -/
theorem answers_text [Limits] (h : c.Gives s.current.allowlist) (hraw : c.Names raw) {x : Text}
    (hx : Text.SurrogateFree x) : ∃ d, s.check (.text x) = .ok d ∧ d.Answers raw (.text x) := by
  by_cases hblank : Text.Blank x
  · refine ⟨_, s.check_blank hblank, Decision.answers_malformed ?_⟩
    rintro _ ⟨rfl⟩
    exact hblank
  · have hnormal := Identifier.normalizeText_of_not_blank hblank hx
    have hnot : ¬ ∀ y, Value.text x = .text y → Text.Blank y := fun hall => hblank (hall x rfl)
    have hreason : ∀ b : Bool, (if b then Reason.listed else .notListed) ≠ .malformed := by
      decide
    refine ⟨_, s.check_text hnormal, ?_⟩
    constructor
    · have hnamed : (∃ y, Value.text x = .text y ∧ ¬ Text.Blank y ∧
          ∃ t, .string t ∈ raw ∧ Identifier.Equivalent t y) ↔
          s.current.allowlist.contains (Identifier.canonical (Text.trim x)) = true := by
        rw [Content.contains_iff h hraw hnormal]
        constructor
        · rintro ⟨_, ⟨rfl⟩, _, ht⟩
          exact ht
        · exact fun ht => ⟨x, rfl, hblank, ht⟩
      rw [Decision.permitted_iff, hnamed]
      cases s.current.allowlist.contains (Identifier.canonical (Text.trim x)) <;> simp
    · exact iff_of_false (hreason _) hnot
    · exact iff_of_false (Option.some_ne_none _) hnot
    · exact Decision.notListed_of_not_permitted _

/-- The check of any other value gives an answer exactly if the value can be written. -/
theorem answers_of_not_text [Limits] {v : Value} (hv : ∀ x, v ≠ .text x) :
    (v.Writable → ∃ d, s.check v = .ok d ∧ d.Answers raw v) ∧
      (¬ v.Writable → ∃ f, s.check v = .error f) := by
  have hnone : ∀ x, v = .text x → Text.Blank x := fun x hx => absurd hx (hv x)
  rw [s.check_of_not_text hv, ← v.literal_eq_ok_iff]
  constructor
  · rintro ⟨written, hwritten⟩
    rw [hwritten]
    exact ⟨_, rfl, Decision.answers_malformed hnone⟩
  · intro hnot
    cases hwritten : v.literal with
    | error f => exact ⟨f, rfl⟩
    | ok written => exact absurd ⟨written, hwritten⟩ hnot

end Store

/-! ### Checks of a run -/

/-- **Admission is exact**, at every moment of a run of loads, publishes and overlapping passes that
opens with a loaded allowlist.  The current snapshot was loaded from a content, and for the raw
entries that it names: the check of a text without surrogates, or of another value that can be
written, permits exactly the texts that are not blank and equivalent to a raw entry, and denies
everything else for the right reason.  The check of a value that cannot be written is a fault. -/
theorem admission_exact [Limits] (r : Run) {c₀ : Content} (h : r.OpensWith c₀) (n : Nat) :
    (∃ c raw, r.Loaded n c (r.store n).current.allowlist ∧ c.Names raw) ∧
    ∀ c raw, r.Loaded n c (r.store n).current.allowlist → c.Names raw →
      (∀ x, Text.SurrogateFree x →
        ∃ d, (r.store n).check (.text x) = .ok d ∧ d.Answers raw (.text x)) ∧
      ∀ v, (∀ x, v ≠ .text x) →
        (v.Writable → ∃ d, (r.store n).check v = .ok d ∧ d.Answers raw v) ∧
        (¬ v.Writable → ∃ f, (r.store n).check v = .error f) := by
  constructor
  · obtain ⟨c, hc⟩ := r.exists_loaded h n
    obtain ⟨raw, hraw⟩ := Content.exists_names hc.gives
    exact ⟨c, raw, hc, hraw⟩
  · intro c raw hc hraw
    exact ⟨fun x hx => Store.answers_text hc.gives hraw hx,
      fun v hv => Store.answers_of_not_text hv⟩

attribute [local instance] Limits.usual

/-- A text is answered after a pass has published, and an integer beyond the limit is a fault. -/
theorem openedSample_checks : Run.openedSample.OpensWith (.inline "0xAB,Qm") ∧
    (∃ raw d, (Run.openedSample.store 8).check (.text "X") = .ok d ∧ d.Answers raw (.text "X")) ∧
    ∃ f, (Run.openedSample.store 8).check (.integer (10 ^ Numeral.maxDigits : Nat)) = .error f := by
  have hopens := Run.opensWith_openedSample
  obtain ⟨⟨c, raw, hc, hraw⟩, hall⟩ := admission_exact Run.openedSample hopens 8
  obtain ⟨htext, hother⟩ := hall c raw hc hraw
  have hlong : ¬ (Value.integer (10 ^ Numeral.maxDigits : Nat)).Writable := by
    rw [Value.writable_integer_iff, Int.natAbs_natCast]
    exact Nat.lt_irrefl _
  have hnot : ∀ x, Value.integer (10 ^ Numeral.maxDigits : Nat) ≠ .text x := by
    intro x
    exact Value.noConfusion
  exact ⟨hopens, ⟨raw, htext "X" (by decide)⟩, (hother _ hnot).2 hlong⟩

end AdmissionControl
