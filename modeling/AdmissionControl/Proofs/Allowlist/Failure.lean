import AdmissionControl.Proofs.Allowlist.Accounting
import AdmissionControl.Proofs.FileSystem
import AdmissionControl.Proofs.Json.Nesting

/-!
# Which loads are neither refused nor succeed

A source that cannot be loaded is refused, as one that was not there or as a malformed one.  Three
things are not foreseen by that: a path without bytes, a document that nests too deep, and a text
with a surrogate before any other entry is refused.  A load that comes upon one of them is a fault.

* `Unencodable` — the lists in which such a text comes first.
* `Escapes` — the sources whose load is a fault.
* `ofBytes_fault_iff`, `ofInline_fault_iff` — so it is with either kind of source.
* `load_fault_iff` — so it is with every load.
* `refusal_of_load` — every other load that fails is refused, by the name of its source.
-/

namespace AdmissionControl.Allowlist

open Text (Blank SurrogateFree)

/-! ### Lists -/

/-- A list in which a text with a surrogate stands behind texts with normal forms only. -/
inductive Unencodable : List Json.Value → Prop
  | here {s : Text} {rest : List Json.Value} (notBlank : ¬ Blank s)
      (surrogate : ¬ SurrogateFree s) : Unencodable (.string s :: rest)
  | later {s : Text} {rest : List Json.Value} (notBlank : ¬ Blank s) (free : SurrogateFree s)
      (unencodable : Unencodable rest) : Unencodable (.string s :: rest)

/-- **A list is a fault** exactly if such a text comes first. -/
theorem normalizeFrom_fault_iff {raw : List Json.Value} (index : Nat) (done : List Text) :
    (∃ f, normalizeFrom index done (raw.map rawEntry) = .error (.fault f)) ↔ Unencodable raw := by
  induction raw generalizing index done with
  | nil =>
    refine iff_of_false ?_ ?_
    · rintro ⟨f, hf⟩
      cases hf
    · intro h
      cases h
  | cons v raw ih =>
    rw [List.map_cons, normalizeFrom]
    cases v with
    | string s =>
      have hs : Identifier.normalize (rawEntry (.string s)) = Identifier.normalizeText s := rfl
      rw [hs]
      by_cases hblank : Blank s
      · rw [Identifier.normalizeText_of_blank hblank]
        refine iff_of_false ?_ ?_
        · rintro ⟨f, hf⟩
          cases hf
        · intro h
          cases h with
          | here notBlank | later notBlank => exact notBlank hblank
      by_cases hfree : SurrogateFree s
      · rw [Identifier.normalizeText_of_not_blank hblank hfree]
        refine (ih _ _).trans ⟨.later hblank hfree, fun h => ?_⟩
        cases h with
        | here _ surrogate => exact absurd hfree surrogate
        | later _ _ unencodable => exact unencodable
      · obtain ⟨e, he⟩ := Identifier.exists_firstSurrogates hfree
        rw [Identifier.normalizeText_of_surrogates he]
        exact iff_of_true ⟨_, rfl⟩ (.here hblank hfree)
    | _ =>
      refine iff_of_false ?_ ?_
      · rintro ⟨f, hf⟩
        cases hf
      · intro h
        cases h

theorem entrySet_fault_iff (source : Text) {raw : List Json.Value} :
    (∃ f, entrySet source (raw.map rawEntry) = .error (.fault f)) ↔ Unencodable raw := by
  rw [← normalizeFrom_fault_iff 0 [], entrySet, normalizeAll]
  cases normalizeFrom 0 [] (raw.map rawEntry) with
  | ok entries => simp
  | error e => cases e <;> simp [refuse]

/-- The texts of a list that has a set are without surrogates. -/
theorem textsFree_of_entrySet {source : Text} {raw : List Json.Value} {entries : List Text}
    (h : entrySet source (raw.map rawEntry) = .ok entries) : TextsFree raw := by
  obtain ⟨elements, rfl, heach⟩ := Content.exists_elements_iff.mp
    (exists_normalizeAll_iff.mp ⟨entries, entrySet_eq_ok_iff.mp h⟩)
  intro s hs
  obtain ⟨x, hx, hxs⟩ := List.mem_map.mp hs
  rw [Json.Value.string.injEq] at hxs
  exact hxs ▸ (heach x hx).2

/-! ### Sources -/

/-- The sources whose load is a fault. -/
inductive Escapes [Limits] (disk : FileSystem) : Source → Prop
  | unnamed {path : Text} (notNamed : ¬ disk.Names path) : Escapes disk (.file path)
  | tooDeep {path text : Text} {bytes : List UInt8} (reads : disk.read path = .ok (.ok bytes))
      (decodes : Utf8.decode? bytes = .ok text) (deep : Json.TooDeep text) :
      Escapes disk (.file path)
  | unencodable {source : Source} {c : Content} {raw : List Json.Value}
      (holds : contentOf disk source = some c) (names : c.Names raw)
      (unencodable : Unencodable raw) : Escapes disk source
  | noSource (value : Value) : Escapes disk (.bare value)

theorem parse_fault_iff [Limits] (path : Text) {bytes : List UInt8} :
    (∃ f, parse path bytes = .error (.fault f)) ↔
      ∃ text, Utf8.decode? bytes = .ok text ∧ Json.TooDeep text := by
  simp only [← Json.parse_tooDeep_iff]
  rw [parse]
  cases Utf8.decode? bytes with
  | error e => simp [refuse]
  | ok text =>
    simp only [Except.ok.injEq, exists_eq_left']
    cases Json.parse text with
    | ok document => simp
    | error e => cases e <;> simp [refuse]

theorem rawEntriesOf_ne_fault (path : Text) (document : Json.Value) (f : Fault) :
    rawEntriesOf path document ≠ .error (.fault f) := by
  cases document with
  | object members =>
    rw [rawEntriesOf]
    split <;> simp [refuse]
  | _ => simp [rawEntriesOf, refuse]

/-- **The bytes of a file that are a fault.** -/
theorem ofBytes_fault_iff [Limits] {path : Text} {bytes : List UInt8} {now : Instant} :
    (∃ f, ofBytes path bytes now = .error (.fault f)) ↔
      (∃ text, Utf8.decode? bytes = .ok text ∧ Json.TooDeep text) ∨
        ∃ raw, (Content.file bytes).Names raw ∧ Unencodable raw := by
  rw [← parse_fault_iff path, ofBytes]
  constructor
  · rintro ⟨f, hf⟩
    rcases bind_eq_error_iff.mp hf with hparse | ⟨document, hparse, hf⟩
    · exact .inl ⟨f, hparse⟩
    rcases bind_eq_error_iff.mp hf with hraw | ⟨raw, hraw, hf⟩
    · exact absurd hraw (rawEntriesOf_ne_fault _ _ f)
    obtain ⟨items, hfield, rfl⟩ := Content.rawEntriesOf_eq_ok_iff.mp hraw
    obtain ⟨text, hdecode, hdocument⟩ := Content.parse_eq_ok_iff.mp hparse
    rcases bind_eq_error_iff.mp hf with hset | ⟨entries, _, hf⟩
    · exact .inr ⟨items, .document hdecode hdocument hfield, (entrySet_fault_iff path).mp ⟨f, hset⟩⟩
    · cases hf
  · rintro (⟨f, hf⟩ | ⟨raw, hnames, hraw⟩)
    · exact ⟨f, bind_eq_error_iff.mpr (.inl hf)⟩
    · cases hnames with
      | @document _ text document _ hdecode hdocument hfield =>
        obtain ⟨f, hf⟩ := (entrySet_fault_iff path).mpr hraw
        refine ⟨f, bind_eq_error_iff.mpr (.inr ⟨document, ?_, bind_eq_error_iff.mpr ?_⟩)⟩
        · exact Content.parse_eq_ok_iff.mpr ⟨text, hdecode, hdocument⟩
        · exact .inr ⟨_, Content.rawEntriesOf_eq_ok_iff.mpr ⟨raw, hfield, rfl⟩,
            bind_eq_error_iff.mpr (.inl hf)⟩

/-- **The inline texts that are a fault.** -/
theorem ofInline_fault_iff [Limits] {text location : Text} {now : Instant} :
    (∃ f, ofInline text location now = .error (.fault f)) ↔
      ∃ raw, (Content.inline text).Names raw ∧ Unencodable raw := by
  have hnames : (Content.inline text).Names ((splitInline text).map .string) :=
    Content.names_inline_iff.mpr rfl
  have hraw : (splitInline text).map Value.text =
      ((splitInline text).map Json.Value.string).map rawEntry := by
    rw [List.map_map]
    rfl
  rw [ofInline, hraw]
  constructor
  · rintro ⟨f, hf⟩
    rcases bind_eq_error_iff.mp hf with hset | ⟨entries, hset, hf⟩
    · exact ⟨_, hnames, (entrySet_fault_iff location).mp ⟨f, hset⟩⟩
    · -- what has a set can be encoded
      obtain ⟨bytes, hbytes⟩ := exists_bytes hnames (textsFree_of_entrySet hset)
      rw [Content.bytes?] at hbytes
      cases hencode : Utf8.encode? text with
      | error e =>
        rw [hencode] at hbytes
        cases hbytes
      | ok bytes =>
        rw [hencode] at hf
        cases hf
  · rintro ⟨raw, hraw, hunencodable⟩
    obtain rfl := hnames.unique hraw
    obtain ⟨f, hf⟩ := (entrySet_fault_iff location).mpr hunencodable
    exact ⟨f, bind_eq_error_iff.mpr (.inl hf)⟩

/-! ### Loads -/

theorem readFile_eq_ok_iff {disk : FileSystem} {path : Text} {bytes : List UInt8} :
    readFile disk path = .ok bytes ↔ disk.read path = .ok (.ok bytes) := by
  rw [readFile]
  split <;> simp_all [refuse]

/-- **The loads that are a fault.** -/
theorem load_fault_iff [Limits] (disk : FileSystem) (source : Source) (now : Instant) (t : Trail) :
    (∃ f, (load disk source now).result t = .error (.fault f)) ↔ Escapes disk source := by
  rw [result_load]
  cases source with
  | file path =>
    rw [ofSource, ofRead]
    constructor
    · rintro ⟨f, hf⟩
      rcases bind_eq_error_iff.mp hf with hread | ⟨bytes, hread, hf⟩
      · exact .unnamed ((readFile_eq_fault_iff disk path).mp ⟨f, hread⟩)
      · rcases ofBytes_fault_iff.mp ⟨f, hf⟩ with ⟨text, hdecode, hdeep⟩ | ⟨raw, hnames, hraw⟩
        · exact .tooDeep (readFile_eq_ok_iff.mp hread) hdecode hdeep
        · exact .unencodable (by rw [contentOf, hread]; rfl) hnames hraw
    · have hread : ∀ {bytes : List UInt8}, readFile disk path = .ok bytes →
          (∃ f, ofBytes path bytes now = .error (.fault f)) →
          ∃ f, (readFile disk path >>= fun bytes => ofBytes path bytes now) =
            .error (.fault f) := by
        rintro bytes hbytes ⟨f, hf⟩
        exact ⟨f, bind_eq_error_iff.mpr (.inr ⟨bytes, hbytes, hf⟩)⟩
      intro h
      cases h with
      | unnamed notNamed =>
        obtain ⟨f, hf⟩ := (readFile_eq_fault_iff disk path).mpr notNamed
        exact ⟨f, bind_eq_error_iff.mpr (.inl hf)⟩
      | tooDeep reads decodes deep =>
        exact hread (readFile_eq_ok_iff.mpr reads) (ofBytes_fault_iff.mpr (.inl ⟨_, decodes, deep⟩))
      | unencodable holds names unencodable =>
        rw [contentOf] at holds
        cases hbytes : readFile disk path with
        | error e =>
          rw [hbytes] at holds
          cases holds
        | ok bytes =>
          rw [hbytes] at holds
          obtain rfl := Option.some.inj holds
          rw [← hbytes]
          exact hread hbytes (ofBytes_fault_iff.mpr (.inr ⟨_, names, unencodable⟩))
  | inline content location =>
    cases content with
    | text text =>
      rw [ofSource, ofInline_fault_iff]
      constructor
      · rintro ⟨raw, hnames, hraw⟩
        exact .unencodable rfl hnames hraw
      · intro h
        cases h with
        | unencodable holds names unencodable =>
          obtain rfl := Option.some.inj holds
          exact ⟨_, names, unencodable⟩
    | _ =>
      refine iff_of_false ?_ ?_
      · rintro ⟨f, hf⟩
        cases hf
      · intro h
        cases h with
        | unencodable holds => cases holds
  | bare value => exact iff_of_true ⟨_, rfl⟩ (.noSource value)

/-! ### Refusals -/

/-- A refusal of what a source holds. -/
structure Refusal.Malformed (r : Refusal) (source : Text) : Prop where
  source : r.source = source
  kind : r.kind = "MalformedSource"

/-- A refusal of a source by its own name: the file could not be read, or what the source holds is
malformed. -/
inductive Refusal.Of (r : Refusal) (disk : FileSystem) : Source → Prop
  | unavailable {path : Text} {e : FileError} (reads : disk.read path = .ok (.error e))
      (source : r.source = path) (kind : r.kind = "SourceUnavailable") : Of r disk (.file path)
  | malformed {source : Source} (malformed : r.Malformed (sourceName source))
      (reads : ∀ path, source = .file path → ∃ bytes, disk.read path = .ok (.ok bytes)) :
      Of r disk source

theorem malformed_of_parse [Limits] {path : Text} {bytes : List UInt8} {r : Refusal}
    (h : parse path bytes = .error (.refused r)) : r.Malformed path := by
  rw [parse] at h
  cases hdecode : Utf8.decode? bytes with
  | error e =>
    rw [hdecode] at h
    cases h
    exact ⟨rfl, rfl⟩
  | ok text =>
    rw [hdecode] at h
    cases hparse : Json.parse text with
    | ok document =>
      simp only [hparse] at h
      cases h
    | error e =>
      simp only [hparse] at h
      cases e <;> cases h <;> exact ⟨rfl, rfl⟩

theorem malformed_of_rawEntriesOf {path : Text} {document : Json.Value} {r : Refusal}
    (h : rawEntriesOf path document = .error (.refused r)) : r.Malformed path := by
  cases document with
  | object members =>
    rw [rawEntriesOf] at h
    split at h <;> cases h <;> exact ⟨rfl, rfl⟩
  | _ => cases h; exact ⟨rfl, rfl⟩

theorem malformed_of_entrySet {source : Text} {raw : List Value} {r : Refusal}
    (h : entrySet source raw = .error (.refused r)) : r.Malformed source := by
  rw [entrySet] at h
  split at h <;> cases h
  exact ⟨rfl, rfl⟩

theorem malformed_of_ofBytes [Limits] {path : Text} {bytes : List UInt8} {now : Instant}
    {r : Refusal} (h : ofBytes path bytes now = .error (.refused r)) : r.Malformed path := by
  rcases bind_eq_error_iff.mp h with hparse | ⟨document, _, h⟩
  · exact malformed_of_parse hparse
  rcases bind_eq_error_iff.mp h with hraw | ⟨raw, _, h⟩
  · exact malformed_of_rawEntriesOf hraw
  rcases bind_eq_error_iff.mp h with hset | ⟨entries, _, h⟩
  · exact malformed_of_entrySet hset
  · cases h

theorem malformed_of_ofInline {text location : Text} {now : Instant} {r : Refusal}
    (h : ofInline text location now = .error (.refused r)) : r.Malformed location := by
  rcases bind_eq_error_iff.mp h with hset | ⟨entries, _, h⟩
  · exact malformed_of_entrySet hset
  · split at h <;> cases h

/-- **Every load that is refused** is refused by the name of its source. -/
theorem refusal_of_load [Limits] {disk : FileSystem} {source : Source} {now : Instant} {t : Trail}
    {r : Refusal} (h : (load disk source now).result t = .error (.refused r)) :
    r.Of disk source := by
  rw [result_load] at h
  cases source with
  | file path =>
    rcases bind_eq_error_iff.mp h with hread | ⟨bytes, hread, h⟩
    · rw [readFile] at hread
      split at hread
      · cases hread
      · next e hunread =>
        cases hread
        refine .unavailable hunread rfl ?_
        rw [Problem.ofFileError]
        split <;> rfl
      · cases hread
    · refine .malformed (malformed_of_ofBytes h) ?_
      rintro _ ⟨rfl⟩
      exact ⟨bytes, readFile_eq_ok_iff.mp hread⟩
  | inline content location =>
    have hinline : ∀ path, Source.inline content location = .file path →
        ∃ bytes, disk.read path = .ok (.ok bytes) := by
      intro path hpath
      cases hpath
    cases content with
    | text text => exact .malformed (malformed_of_ofInline h) hinline
    | _ =>
      cases h
      exact .malformed ⟨rfl, rfl⟩ hinline
  | bare value => cases h

end AdmissionControl.Allowlist
