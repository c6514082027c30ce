import AdmissionControl.Proofs.Allowlist
import AdmissionControl.Proofs.Bytes.Utf8
import AdmissionControl.Proofs.Json.Parser

/-!
# The format of a file

Which bytes are those of an allowlist, and what they list, in terms that use neither the decoder nor
the parser.

* `Format` — the bytes of a file that lists texts.
* `Content.names_file_iff` — which raw entries the bytes of a file name.
* `ofBytes_isOk_iff`, `mem_entries_of_format` — the bytes that load are those in the format, and
  their entries are the normal forms of what they list.
* `load_file_format` — so it is with every load of a file, and nothing else of the file has an
  influence on its entries.
-/

namespace AdmissionControl

namespace Json.Value

/-- In an object that repeats no name, what a name stands for is what it stands with. -/
theorem field?_eq_some_iff_mem {members : List (Text × Value)} (h : (members.map (·.1)).Nodup)
    {name : Text} {v : Value} : (object members).field? name = some v ↔ (name, v) ∈ members := by
  rw [field?]
  induction members with
  | nil => simp
  | cons m members ih =>
    obtain ⟨first, value⟩ := m
    rw [List.map_cons, List.nodup_cons] at h
    by_cases hname : first = name
    · subst hname
      have hnot : ∀ v', (first, v') ∉ members := fun v' hmem =>
        h.1 (List.mem_map.mpr ⟨_, hmem, rfl⟩)
      simp [hnot, eq_comm]
    · rw [List.find?_cons_of_neg (by simpa using hname), ih h.2]
      simp [Ne.symm hname]

end Json.Value

namespace Allowlist

/-- A list of values that all have a normal form has a set. -/
theorem exists_normalizeFrom {raw : List Value} (h : ∀ v ∈ raw, ∃ x, Identifier.normalize v = .ok x)
    (index : Nat) (done : List Text) : ∃ entries, normalizeFrom index done raw = .ok entries := by
  induction raw generalizing index done with
  | nil => exact ⟨done, rfl⟩
  | cons v rest ih =>
    obtain ⟨⟨x, hx⟩, hrest⟩ := List.forall_mem_cons.mp h
    obtain ⟨entries, hentries⟩ := ih hrest (index + 1) (insertNew done x)
    exact ⟨entries, by rw [normalizeFrom, hx]; exact hentries⟩

theorem exists_normalizeAll_iff {raw : List Value} :
    (∃ entries, normalizeAll raw = .ok entries) ↔
      ∀ v ∈ raw, ∃ x, Identifier.normalize v = .ok x :=
  ⟨fun ⟨_, h⟩ => exists_normalize_of_normalizeFrom h, fun h => exists_normalizeFrom h 0 []⟩

/-- The bytes of a file that lists texts: the UTF-8, without a byte order mark, of one JSON object
in which no object repeats a name, and which has the list as a member.  Each of the texts has
something beside blanks, and no surrogate. -/
structure Format (bytes : List UInt8) (members : List (Text × Json.Value)) (elements : List Text) :
    Prop where
  document : ∃ text, Text.SurrogateFree text ∧ text.flatMap Utf8.encodeOne = bytes ∧
    text.head? ≠ some Json.byteOrderMark ∧ Json.Padded text (.object members)
  distinct : (Json.Value.object members).NamesDistinct
  listed : (memberName, .array (elements.map .string)) ∈ members
  each : ∀ e ∈ elements, ¬ Text.Blank e ∧ Text.SurrogateFree e

namespace Content

/-- The raw entries that a file names, by its format. -/
theorem names_file_iff [Limits] {bytes : List UInt8} {items : List Json.Value} :
    Names (file bytes) items ↔ ∃ text members, Text.SurrogateFree text ∧
      text.flatMap Utf8.encodeOne = bytes ∧ text.head? ≠ some Json.byteOrderMark ∧
      Json.Padded text (.object members) ∧ (Json.Value.object members).Fits Limits.json ∧
      (memberName, .array items) ∈ members := by
  constructor
  · intro h
    cases h with
    | @document _ text document _ hdecode hparse hfield =>
      obtain ⟨hfree, hbytes⟩ := Utf8.decode?_eq_ok_iff.mp hdecode
      obtain ⟨hmark, hpadded, hfits⟩ := Json.parse_eq_ok_iff.mp hparse
      cases document with
      | object members =>
        obtain ⟨_, _, hnodup, _⟩ := Json.Value.fits_object_iff.mp hfits
        exact ⟨text, members, hfree, hbytes, hmark, hpadded, hfits,
          (Json.Value.field?_eq_some_iff_mem hnodup).mp hfield⟩
      | _ => cases hfield
  · rintro ⟨text, members, hfree, hbytes, hmark, hpadded, hfits, hmem⟩
    obtain ⟨_, _, hnodup, _⟩ := Json.Value.fits_object_iff.mp hfits
    exact .document (Utf8.decode?_eq_ok_iff.mpr ⟨hfree, hbytes⟩)
      (Json.parse_eq_ok_iff.mpr ⟨hmark, hpadded, hfits⟩)
      ((Json.Value.field?_eq_some_iff_mem hnodup).mpr hmem)

/-- Raw entries that all have a normal form are texts, none blank and none with a surrogate. -/
theorem exists_elements_iff {items : List Json.Value} :
    (∀ v ∈ items.map rawEntry, ∃ x, Identifier.normalize v = .ok x) ↔
      ∃ elements : List Text, items = elements.map .string ∧
        ∀ e ∈ elements, ¬ Text.Blank e ∧ Text.SurrogateFree e := by
  induction items with
  | nil => exact ⟨fun _ => ⟨[], rfl, nofun⟩, fun _ => nofun⟩
  | cons r items ih =>
    rw [List.map_cons, List.forall_mem_cons, ih]
    constructor
    · rintro ⟨⟨x, hx⟩, elements, rfl, heach⟩
      obtain ⟨s, rfl, hs⟩ := normalize_rawEntry_iff.mp hx
      obtain ⟨hblank, hfree, _⟩ := Identifier.normalizeText_eq_ok_iff.mp hs
      exact ⟨s :: elements, rfl, List.forall_mem_cons.mpr ⟨⟨hblank, hfree⟩, heach⟩⟩
    · rintro ⟨elements, hitems, heach⟩
      cases elements with
      | nil => cases hitems
      | cons s elements =>
        obtain ⟨rfl, rfl⟩ := List.cons.inj hitems
        obtain ⟨⟨hblank, hfree⟩, heach⟩ := List.forall_mem_cons.mp heach
        have hs := Identifier.normalizeText_of_not_blank hblank hfree
        exact ⟨⟨_, normalize_rawEntry_iff.mpr ⟨s, rfl, hs⟩⟩, elements, rfl, heach⟩

/-- What is in the format names what it lists, if it does not nest too deep. -/
theorem names_of_format [Limits] {bytes : List UInt8} {members : List (Text × Json.Value)}
    {elements : List Text} (h : Format bytes members elements)
    (hdepth : (Json.Value.object members).depth ≤ Limits.json) :
    Names (file bytes) (elements.map .string) := by
  obtain ⟨text, hfree, hbytes, hmark, hpadded⟩ := h.document
  exact names_file_iff.mpr
    ⟨text, members, hfree, hbytes, hmark, hpadded, ⟨hdepth, h.distinct⟩, h.listed⟩

/-- What is in the format names nothing but what it lists. -/
theorem items_of_format [Limits] {bytes : List UInt8} {members : List (Text × Json.Value)}
    {elements : List Text} (h : Format bytes members elements) {items : List Json.Value}
    (hnames : Names (file bytes) items) : items = elements.map .string := by
  obtain ⟨text, members', hfree, hbytes, _, hpadded, hfits, hmem⟩ := names_file_iff.mp hnames
  obtain ⟨text', hfree', hbytes', _, hpadded'⟩ := h.document
  have htext : text = text' := Except.ok.inj
    ((Utf8.decode?_eq_ok_iff.mpr ⟨hfree, hbytes⟩).symm.trans
      (Utf8.decode?_eq_ok_iff.mpr ⟨hfree', hbytes'⟩))
  rw [htext] at hpadded
  have hmembers := hpadded.unique hpadded' hfits.names h.distinct
  rw [Json.Value.object.injEq] at hmembers
  subst hmembers
  obtain ⟨_, _, hnodup, _⟩ := Json.Value.fits_object_iff.mp hfits
  have hfield := (Json.Value.field?_eq_some_iff_mem hnodup).mpr hmem
  rw [(Json.Value.field?_eq_some_iff_mem hnodup).mpr h.listed] at hfield
  exact (Json.Value.array.inj (Option.some.inj hfield)).symm

end Content

variable {path : Text} {bytes : List UInt8} {now : Instant}

/-- **The bytes that load** are those in the format that do not nest too deep. -/
theorem ofBytes_isOk_iff [Limits] : (∃ a, ofBytes path bytes now = .ok a) ↔
    ∃ members elements, Format bytes members elements ∧
      (Json.Value.object members).depth ≤ Limits.json := by
  constructor
  · rintro ⟨a, ha⟩
    obtain ⟨items, entries, hnames, hall, _⟩ := Content.ofBytes_eq_ok_iff.mp ha
    obtain ⟨elements, rfl, heach⟩ := Content.exists_elements_iff.mp
      (exists_normalizeAll_iff.mp ⟨entries, hall⟩)
    obtain ⟨text, members, hfree, hbytes, hmark, hpadded, hfits, hmem⟩ :=
      Content.names_file_iff.mp hnames
    exact ⟨members, elements, ⟨⟨text, hfree, hbytes, hmark, hpadded⟩, hfits.names, hmem, heach⟩,
      hfits.depth⟩
  · rintro ⟨members, elements, hformat, hdepth⟩
    obtain ⟨entries, hall⟩ := exists_normalizeAll_iff.mpr
      (Content.exists_elements_iff.mpr ⟨elements, rfl, hformat.each⟩)
    exact ⟨_, Content.ofBytes_eq_ok_iff.mpr
      ⟨_, entries, Content.names_of_format hformat hdepth, hall, rfl⟩⟩

/-- **The entries of what loads** are the normal forms of what it lists. -/
theorem mem_entries_of_format [Limits] {a : Allowlist} (ha : ofBytes path bytes now = .ok a)
    {members : List (Text × Json.Value)} {elements : List Text}
    (h : Format bytes members elements) (x : Text) :
    x ∈ a.entries ↔ ∃ e ∈ elements, Identifier.normalizeText e = .ok x := by
  obtain ⟨items, _, hnames, _⟩ := Content.ofBytes_eq_ok_iff.mp ha
  rw [Content.mem_entries_iff (gives_of_ofBytes ha) hnames, Content.items_of_format h hnames]
  simp

theorem nodup_entries [Limits] {a : Allowlist} (ha : ofBytes path bytes now = .ok a) :
    a.entries.Nodup := by
  obtain ⟨_, entries, _, hall, rfl⟩ := Content.ofBytes_eq_ok_iff.mp ha
  exact nodup_normalizeAll hall

/-- **The format of a file.**  A file loads exactly if its bytes are in the format and do not nest
too deep.  Its entries are then the normal forms of what it lists; any other file that lists the
same texts, in whatever order, however often, however written and whatever else it says, has the
same entries. -/
theorem load_file_format [Limits] {disk : FileSystem} {path : Text} {bytes : List UInt8}
    (hread : disk.read path = .ok (.ok bytes)) (now : Instant) (t : Trail) :
    ((∃ a, (load disk (.file path) now).result t = .ok a) ↔
      ∃ members elements, Format bytes members elements ∧
        (Json.Value.object members).depth ≤ Limits.json) ∧
    ∀ a, (load disk (.file path) now).result t = .ok a →
      ∀ members elements, Format bytes members elements →
        (∀ x, x ∈ a.entries ↔ ∃ e ∈ elements, Identifier.normalizeText e = .ok x) ∧
        ∀ disk' path' bytes' now' t' a' members' elements',
          FileSystem.read disk' path' = .ok (.ok bytes') →
          (load disk' (.file path') now').result t' = .ok a' →
          Format bytes' members' elements' → (∀ e, e ∈ elements' ↔ e ∈ elements) →
          a'.entries.Perm a.entries := by
  have hresult : ∀ {disk : FileSystem} {path : Text} {bytes : List UInt8},
      disk.read path = .ok (.ok bytes) → ∀ now t,
      (load disk (.file path) now).result t = ofBytes path bytes now := by
    intro disk path bytes hread now t
    rw [result_load_file, readFile, hread]
    rfl
  rw [hresult hread]
  refine ⟨ofBytes_isOk_iff, fun a ha members elements hformat => ?_⟩
  have hmem := mem_entries_of_format ha hformat
  refine ⟨hmem, ?_⟩
  intro disk' path' bytes' now' t' a' members' elements' hread' ha' hformat' hsame
  rw [hresult hread'] at ha'
  refine (List.perm_ext_iff_of_nodup (nodup_entries ha') (nodup_entries ha)).mpr fun x => ?_
  simp only [mem_entries_of_format ha' hformat', hmem, hsame]

/-- What encodes a text that the parser reads is in the format. -/
theorem format_of_parse [Limits] {text : Text} {members : List (Text × Json.Value)}
    {elements : List Text} (hparse : Json.parse text = .ok (.object members))
    (hfree : Text.SurrogateFree text)
    (hlisted : (memberName, .array (elements.map .string)) ∈ members)
    (heach : ∀ e ∈ elements, ¬ Text.Blank e ∧ Text.SurrogateFree e) :
    Format (text.flatMap Utf8.encodeOne) members elements ∧
      (Json.Value.object members).depth ≤ Limits.json := by
  obtain ⟨hmark, hpadded, hfits⟩ := Json.parse_eq_ok_iff.mp hparse
  exact ⟨⟨⟨text, hfree, rfl, hmark, hpadded⟩, hfits.names, hlisted, heach⟩, hfits.depth⟩

/-- A disk with a document in its root directory. -/
def documentDisk (document : String) : FileSystem :=
  ⟨⟨[([[0x61]], .file ((Text.ofString document).flatMap Utf8.encodeOne))]⟩, "/"⟩

/-- A document that lists two texts. -/
def plain : String := "\x7b\"allowlist\": [\"x\", \"0XaB\"]\x7d"

/-- The same texts in another order, one of them twice and with an escape, beside another member. -/
def ornate : String :=
  "\x7b\"n\": [\x7b\x7d, \"\"], \"allowlist\": [\"0XaB\",\"\\u0078\",\n\"x\"]\x7d"

attribute [local instance] Limits.usual

theorem parse_plain : Json.parse (Text.ofString plain) =
    .ok (.object [("allowlist", .array [.string "x", .string "0XaB"])]) := by
  cbv

theorem parse_ornate : Json.parse (Text.ofString ornate) =
    .ok (.object [("n", .array [.object [], .string []]),
      ("allowlist", .array [.string "0XaB", .string "x", .string "x"])]) := by
  cbv

/-- Both documents load, and have the same entries. -/
theorem ornate_file_as_plain :
    ∃ a a', (load (documentDisk plain) (.file "/a") default).result Trail.start = .ok a ∧
      (load (documentDisk ornate) (.file "/a") default).result Trail.start = .ok a' ∧
      a'.entries.Perm a.entries := by
  have hplain : Format _ _ ["x", "0XaB"] ∧ _ :=
    format_of_parse parse_plain (by decide +kernel) (.head _) (by decide +kernel)
  have hornate : Format _ _ ["0XaB", "x", "x"] ∧ _ :=
    format_of_parse parse_ornate (by decide +kernel) (.tail _ (.head _)) (by decide +kernel)
  have hread : (documentDisk plain).read "/a" = .ok (.ok _) := rfl
  have hread' : (documentDisk ornate).read "/a" = .ok (.ok _) := rfl
  obtain ⟨hloads, hsame⟩ := load_file_format hread default Trail.start
  obtain ⟨a, ha⟩ := hloads.mpr ⟨_, _, hplain⟩
  obtain ⟨a', ha'⟩ := (load_file_format hread' default Trail.start).1.mpr ⟨_, _, hornate⟩
  refine ⟨a, a', ha, ha', (hsame a ha _ _ hplain.1).2 _ _ _ _ _ _ _ _ hread' ha' hornate.1 ?_⟩
  intro e
  simp [or_comm]

end Allowlist

end AdmissionControl
