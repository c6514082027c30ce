import AdmissionControl.Proofs.Allowlist.Listing
import AdmissionControl.Proofs.Audit
import AdmissionControl.Proofs.Identifier.Canonical
import AdmissionControl.Proofs.Json.Printer
import Mathlib.Data.Finset.Card
import Mathlib.Data.Finset.Dedup

/-!
# All or nothing, with exact counts

A list of raw entries without surrogates loads exactly if every one of them is a text that is not
blank.  What is recorded of the load then counts the normal forms, those of addresses, and the raw
entries beyond them.  Any other list is refused for the first entry that does not belong there.

* `Accepted`, `Offends` — the raw entries that belong in a list, and what is wrong with the others.
* `normalForms`, `addressForms` — the sets that are counted.
* `normalizeFrom_raw` — the set of a list, or its first offender.
* `Accounted` — an allowlist with everything that is recorded of its load.
* `run_load_of_names` — a load from either kind of source, once it has its raw entries.
* `load_all_or_nothing` — so it is with every load.
-/

namespace AdmissionControl.Allowlist

open Text (Blank SurrogateFree)

/-! ### Raw entries -/

/-- A raw entry that belongs in a list: a text with something beside blanks. -/
inductive Accepted : Json.Value → Prop
  | text {s : Text} (notBlank : ¬ Blank s) : Accepted (.string s)

/-- What is wrong with any other one. -/
inductive Offends : Json.Value → Identifier.Problem → Prop
  | blank {s : Text} (isBlank : Blank s) : Offends (.string s) .empty
  | other {v : Json.Value} (notText : ∀ s, v ≠ .string s) : Offends v (.notText (valueKind v))

theorem Offends.not_accepted {v : Json.Value} {problem : Identifier.Problem}
    (h : Offends v problem) : ¬ Accepted v := by
  rintro ⟨hs⟩
  cases h with
  | blank hblank => exact hs hblank
  | other hother => exact hother _ rfl

/-- No text in a list has a surrogate. -/
def TextsFree (raw : List Json.Value) : Prop := ∀ s, .string s ∈ raw → SurrogateFree s

theorem TextsFree.tail {v : Json.Value} {raw : List Json.Value} (h : TextsFree (v :: raw)) :
    TextsFree raw := fun s hs => h s (List.mem_cons_of_mem v hs)

/-- A raw entry has a normal form, or something is wrong with it. -/
theorem accepted_or_offends {v : Json.Value} (hfree : ∀ s, v = .string s → SurrogateFree s) :
    (Accepted v ∧ ∃ x, Identifier.normalize (rawEntry v) = .ok x) ∨
      ∃ problem, Offends v problem ∧
        Identifier.normalize (rawEntry v) = .error (.malformed problem) := by
  cases v with
  | string s =>
    by_cases hblank : Blank s
    · exact .inr ⟨_, .blank hblank, Identifier.normalizeText_of_blank hblank⟩
    · exact .inl ⟨.text hblank, _, Identifier.normalizeText_of_not_blank hblank (hfree s rfl)⟩
  | _ => exact .inr ⟨_, .other nofun, rfl⟩

/-! ### The sets that are counted -/

/-- The normal form of a raw entry, if it has one. -/
def normalForm? : Json.Value → Option Text
  | .string s => (Identifier.normalizeText s).toOption
  | _ => none

/-- The distinct normal forms of raw entries. -/
def normalForms (raw : List Json.Value) : Finset Text := (raw.filterMap normalForm?).toFinset

def isWrittenAsAddress : Json.Value → Bool
  | .string s => decide (Identifier.HasAddressShape (Text.trim s))
  | _ => false

/-- The distinct normal forms of those raw entries that are written as addresses. -/
def addressForms (raw : List Json.Value) : Finset Text := normalForms (raw.filter isWrittenAsAddress)

theorem normalForm?_eq_some_iff {v : Json.Value} {x : Text} :
    normalForm? v = some x ↔ ∃ s, v = .string s ∧ Identifier.normalizeText s = .ok x := by
  cases v with
  | string s =>
    simp only [normalForm?, Json.Value.string.injEq, exists_eq_left']
    cases Identifier.normalizeText s <;> simp [Except.toOption]
  | _ => simp [normalForm?]

theorem mem_normalForms_iff {raw : List Json.Value} {x : Text} :
    x ∈ normalForms raw ↔ ∃ s, .string s ∈ raw ∧ Identifier.normalizeText s = .ok x := by
  simp only [normalForms, List.mem_toFinset, List.mem_filterMap, normalForm?_eq_some_iff]
  constructor
  · rintro ⟨_, hv, s, rfl, hs⟩
    exact ⟨s, hv, hs⟩
  · rintro ⟨s, hv, hs⟩
    exact ⟨_, hv, s, rfl, hs⟩

/-- There are no more normal forms than raw entries. -/
theorem card_normalForms_le (raw : List Json.Value) : (normalForms raw).card ≤ raw.length :=
  (List.toFinset_card_le _).trans (List.length_filterMap_le normalForm? raw)

/-- **The normal forms of what is written as an address** are those that are addresses. -/
theorem addressForms_eq_filter (raw : List Json.Value) :
    addressForms raw = (normalForms raw).filter fun x => Identifier.isAddress x = true := by
  have hshape : ∀ {s x : Text}, Identifier.normalizeText s = .ok x →
      isWrittenAsAddress (.string s) = Identifier.isAddress x := by
    intro s x hs
    obtain ⟨_, _, rfl⟩ := Identifier.normalizeText_eq_ok_iff.mp hs
    rw [Identifier.isAddress_canonical, isWrittenAsAddress]
  ext x
  simp only [addressForms, Finset.mem_filter, mem_normalForms_iff, List.mem_filter]
  constructor
  · rintro ⟨s, ⟨hmem, haddress⟩, hs⟩
    exact ⟨⟨s, hmem, hs⟩, (hshape hs).symm.trans haddress⟩
  · rintro ⟨⟨s, hmem, hs⟩, haddress⟩
    exact ⟨s, ⟨hmem, (hshape hs).trans haddress⟩, hs⟩

/-! ### The set of a list -/

/-- The first raw entry that does not belong in a list. -/
structure FirstOffender (raw : List Json.Value) (index : Nat) (problem : Identifier.Problem) :
    Prop where
  offends : ∃ v, raw[index]? = some v ∧ Offends v problem
  least : ∀ i < index, ∀ v, raw[i]? = some v → Accepted v

theorem FirstOffender.cons {raw : List Json.Value} {index : Nat} {problem : Identifier.Problem}
    (h : FirstOffender raw index problem) {v : Json.Value} (hv : Accepted v) :
    FirstOffender (v :: raw) (index + 1) problem where
  offends := h.offends
  least i hi w hw := by
    cases i with
    | zero => exact Option.some.inj hw ▸ hv
    | succ i => exact h.least i (Nat.lt_of_succ_lt_succ hi) w hw

theorem FirstOffender.not_accepted {raw : List Json.Value} {index : Nat}
    {problem : Identifier.Problem} (h : FirstOffender raw index problem) :
    ¬ ∀ v ∈ raw, Accepted v := by
  obtain ⟨v, hv, hoffends⟩ := h.offends
  exact fun hall => hoffends.not_accepted (hall v (List.mem_of_getElem? hv))

/-- **The set of a list, or its first offender**, from any index on and beside what is in the set
already. -/
theorem normalizeFrom_raw {raw : List Json.Value} (hfree : TextsFree raw) (index : Nat)
    (done : List Text) :
    ((∀ v ∈ raw, Accepted v) ∧ ∃ entries, normalizeFrom index done (raw.map rawEntry) = .ok entries) ∨
    ∃ i problem, FirstOffender raw i problem ∧
      normalizeFrom index done (raw.map rawEntry) = .error (.refused (index + i) problem) := by
  induction raw generalizing index done with
  | nil => exact .inl ⟨List.forall_mem_nil _, done, rfl⟩
  | cons v raw ih =>
    rw [List.map_cons, normalizeFrom]
    rcases accepted_or_offends fun s hs => hfree s (hs ▸ List.mem_cons_self) with
      ⟨hv, x, hx⟩ | ⟨problem, hoffends, hx⟩
    · rw [hx]
      rcases ih hfree.tail (index + 1) (insertNew done x) with ⟨hall, hset⟩ | ⟨i, problem, hfirst, hset⟩
      · exact .inl ⟨List.forall_mem_cons.mpr ⟨hv, hall⟩, hset⟩
      · refine .inr ⟨i + 1, problem, hfirst.cons hv, hset.trans ?_⟩
        rw [Nat.add_assoc, Nat.add_comm 1 i]
    · rw [hx]
      have hleast : ∀ i < 0, ∀ w, (v :: raw)[i]? = some w → Accepted w := fun i hi =>
        absurd hi (Nat.not_lt_zero i)
      exact .inr ⟨0, problem, ⟨⟨v, rfl, hoffends⟩, hleast⟩, rfl⟩

theorem toFinset_of_normalizeAll {raw : List Json.Value} {entries : List Text}
    (h : normalizeAll (raw.map rawEntry) = .ok entries) : entries.toFinset = normalForms raw := by
  ext x
  rw [List.mem_toFinset, mem_normalizeAll_iff h, mem_normalForms_iff]
  simp only [List.mem_map, exists_exists_and_eq_and, Content.normalize_rawEntry_iff]
  constructor
  · rintro ⟨_, hv, s, rfl, hs⟩
    exact ⟨s, hv, hs⟩
  · rintro ⟨s, hv, hs⟩
    exact ⟨_, hv, s, rfl, hs⟩

theorem size_eq_card {a : Allowlist} {raw : List Json.Value} (hnodup : a.entries.Nodup)
    (h : a.entries.toFinset = normalForms raw) : a.size = (normalForms raw).card := by
  rw [← h, List.toFinset_card_of_nodup hnodup, size]

theorem addressCount_eq_card {a : Allowlist} {raw : List Json.Value} (hnodup : a.entries.Nodup)
    (h : a.entries.toFinset = normalForms raw) : a.addressCount = (addressForms raw).card := by
  rw [addressForms_eq_filter, ← h, addressCount, List.countP_eq_length_filter,
    ← List.toFinset_filter, List.toFinset_card_of_nodup (hnodup.filter _)]

/-! ### Records of a load -/

/-- Records of anything but a load. -/
def Quiet (records : List Record) : Prop := ∀ r ∈ records, r.event ≠ .ofString "Allowlist loaded"

theorem quiet_nil : Quiet [] := nofun

/-- The record of a load, from what was counted. -/
def loadedRecord (a : Allowlist) (count addresses duplicates : Nat) (id : Option Text) :
    Record where
  level := .debug
  event := .ofString "Allowlist loaded"
  fields := Fields.of [("source_kind", .string a.kind.name), ("source", .string a.location),
    ("count", .ofNat count), ("addresses", .ofNat addresses), ("duplicates", .ofNat duplicates)]
  operationId := id

section Records

variable {t : Trail} (ht : t.threshold.admits .debug = true)
include ht

/-- A warning of anything but a load. -/
theorem after_warning {event : String} (h : event ≠ "Allowlist loaded")
    (fields : List (String × Json.Value)) : ∃ records, Quiet records ∧
      ((emit .warning event fields).run t).2 = t.extend records := by
  refine ⟨_, List.forall_mem_singleton.mpr fun heq => h ?_,
    emit_eq_extend (Threshold.admits_of_debug ht .warning) event fields⟩
  rwa [Json.Value.ofString, Json.Value.string.injEq, Text.ofString_inj] at heq

theorem after_recordLoaded (a : Allowlist) (rawCount : Nat) : ∃ rest, Quiet rest ∧
    ((recordLoaded a rawCount).run t).2 =
      t.extend (loadedRecord a a.size a.addressCount (rawCount - a.size) t.operationId :: rest) := by
  have hloaded := emit_eq_extend ht "Allowlist loaded"
    [("source_kind", .string a.kind.name), ("source", .string a.location), ("count", .ofNat a.size),
      ("addresses", .ofNat a.addressCount), ("duplicates", .ofNat (rawCount - a.size))]
  rw [recordLoaded, StateT.run_bind]
  cases a.isEmpty with
  | false => exact ⟨[], quiet_nil, hloaded⟩
  | true =>
    obtain ⟨rest, hquiet, hrest⟩ := after_warning
      (t := t.extend [loadedRecord a a.size a.addressCount (rawCount - a.size) t.operationId]) ht
      (by decide : "Allowlist is empty - every subgraph will be denied" ≠ "Allowlist loaded")
      [("source", .string a.location)]
    refine ⟨rest, hquiet, ?_⟩
    show ((emit .warning _ _).run ((emit .debug _ _).run t).2).2 = _
    rw [hloaded]
    exact hrest.trans (t.extend_extend _ _)

theorem after_rawEntries (path : Text) (document : Json.Value) : ∃ before, Quiet before ∧
    (rawEntries path document).after t = t.extend before := by
  have hnothing : t = t.extend [] := t.extend_nil.symm
  cases document with
  | object members =>
    rw [rawEntries]
    obtain ⟨found, others⟩ := splitMembers members
    cases found with
    | none => exact ⟨[], quiet_nil, hnothing⟩
    | some value =>
      have hwarned : ∃ before, Quiet before ∧
          ((warnUnknown path others).run t).2 = t.extend before := by
        rw [warnUnknown]
        cases others.isEmpty with
        | true => exact ⟨[], quiet_nil, hnothing⟩
        | false =>
          exact after_warning ht (by decide :
            "Allowlist file has unrecognised keys - ignoring" ≠ "Allowlist loaded") _
      cases value with
      | array items => exact hwarned
      | _ => exact hwarned
  | _ => exact ⟨[], quiet_nil, hnothing⟩

end Records

/-! ### Loads -/

/-- What a load does once it has its raw entries. -/
def conclude (kind : SourceKind) (location checksum : Text) (now : Instant) (raw : List Value) :
    Audited LoadError Allowlist := do
  let entries ← liftM (entrySet location raw)
  let allowlist : Allowlist := ⟨entries, kind, location, checksum, now⟩
  recordLoaded allowlist raw.length
  return allowlist

/-- **A load from either kind of source** may leave a warning before it has its raw entries. -/
theorem run_load_of_names [Limits] {c : Content} {raw : List Json.Value} (hnames : c.Names raw)
    {bytes : List UInt8} (hbytes : c.bytes? = some bytes) (location : Text) (now : Instant)
    {t : Trail} (ht : t.threshold.admits .debug = true) : ∃ before, Quiet before ∧
      (c.load location now).run.run t = (conclude c.kind location (Sha256.hexDigest bytes) now
        (raw.map rawEntry)).run.run (t.extend before) := by
  cases c with
  | file found =>
    obtain rfl : found = bytes := Option.some.inj hbytes
    cases hnames with
    | @document _ text document _ hdecode hparse hfield =>
      have hdocument : (liftM (parse location found) : Audited LoadError _).result t =
          .ok document := by
        rw [Audited.result_liftM_except]
        exact Content.parse_eq_ok_iff.mpr ⟨text, hdecode, hparse⟩
      have hraw : (rawEntries location document).result t = .ok (raw.map rawEntry) := by
        rw [result_rawEntries]
        exact Content.rawEntriesOf_eq_ok_iff.mpr ⟨raw, hfield, rfl⟩
      obtain ⟨before, hquiet, hafter⟩ := after_rawEntries ht location document
      refine ⟨before, hquiet, ?_⟩
      rw [Content.load, loadBytes, Audited.run_bind_of_ok hdocument, Audited.after_liftM_except,
        Audited.run_bind_of_ok hraw, hafter]
      rfl
  | inline text =>
    have hraw : raw.map rawEntry = (splitInline text).map Value.text := by
      rw [Content.names_inline_iff.mp hnames, List.map_map]
      rfl
    refine ⟨[], quiet_nil, ?_⟩
    rw [t.extend_nil, Content.load, loadInline, conclude, hraw]
    cases hset : entrySet location ((splitInline text).map Value.text) with
    | error e => rfl
    | ok entries =>
      rw [Content.bytes?] at hbytes
      cases hencode : Utf8.encode? text with
      | error e =>
        rw [hencode] at hbytes
        cases hbytes
      | ok encoded =>
        rw [hencode] at hbytes
        obtain rfl : encoded = bytes := Option.some.inj hbytes
        rw [List.length_map]
        rfl

/-- What has texts without surrogates has a digest. -/
theorem exists_bytes [Limits] {c : Content} {raw : List Json.Value} (hnames : c.Names raw)
    (hfree : TextsFree raw) : ∃ bytes, c.bytes? = some bytes := by
  cases c with
  | file bytes => exact ⟨bytes, rfl⟩
  | inline text =>
    have htext : SurrogateFree text := by
      cases hnames with
      | blank hblank => exact fun c hc => Text.isSurrogate_eq_false_of_isBlank (hblank c hc)
      | parts _ _ _ hjoin =>
        rw [← hjoin]
        exact surrogateFree_joinWith fun part hpart => hfree part (List.mem_map_of_mem hpart)
    refine ⟨text.flatMap Utf8.encodeOne, ?_⟩
    rw [Content.bytes?, Utf8.encode?, Text.firstSurrogates?_eq_none_iff.mpr htext]
    rfl

/-- Where a source is, as an allowlist and a refusal name it. -/
def sourceName : Source → Text
  | .file path => path
  | .inline _ location => location
  | .bare _ => []

theorem run_load_of_contentOf [Limits] {disk : FileSystem} {source : Source} {c : Content}
    (h : contentOf disk source = some c) (now : Instant) (t : Trail) :
    (load disk source now).run.run t = (c.load (sourceName source) now).run.run t := by
  cases source with
  | file path =>
    rw [contentOf] at h
    cases hread : readFile disk path with
    | error e =>
      rw [hread] at h
      cases h
    | ok bytes =>
      rw [hread] at h
      obtain rfl := Option.some.inj h
      have hresult : (liftM (readFile disk path) : Audited LoadError _).result t = .ok bytes := by
        rw [Audited.result_liftM_except, hread]
      rw [load, Audited.run_bind_of_ok hresult, Audited.after_liftM_except]
      rfl
  | inline content location =>
    cases content with
    | text text =>
      obtain rfl := Option.some.inj h
      rfl
    | _ => cases h
  | bare value => cases h

/-! ### Loading the entries again -/

theorem isNormal_of_mem {raw : List Json.Value} {entries : List Text}
    (hset : entries.toFinset = normalForms raw) {x : Text} (hx : x ∈ entries) :
    Identifier.IsNormal x ∧ SurrogateFree x := by
  rw [← List.mem_toFinset, hset] at hx
  obtain ⟨s, _, hs⟩ := mem_normalForms_iff.mp hx
  exact Identifier.isNormal_of_normalizeText hs

/-- **The entries of a list, written as a list** in any order and in any spelling, load again as the
same set. -/
theorem reload_perm [Limits] {raw : List Json.Value} {entries : List Text} (hnodup : entries.Nodup)
    (hset : entries.toFinset = normalForms raw) {xs : List Text} (hperm : xs.Perm entries)
    {bytes : List UInt8} (hnames : (Content.file bytes).Names (xs.map .string)) {disk : FileSystem}
    {path : Text} (hread : disk.read path = .ok (.ok bytes)) (now : Instant) (t : Trail) :
    ∃ b, (load disk (.file path) now).result t = .ok b ∧ b.entries.Perm entries := by
  have hself : ∀ x ∈ xs, Identifier.normalizeText x = .ok x := fun x hx =>
    Identifier.normalizeText_eq_self_iff.mpr (isNormal_of_mem hset (hperm.subset hx))
  have hnormal : ∀ v ∈ (xs.map Json.Value.string).map rawEntry,
      ∃ x, Identifier.normalize v = .ok x := by
    intro v hv
    simp only [List.mem_map, exists_exists_and_eq_and] at hv
    obtain ⟨x, hx, rfl⟩ := hv
    exact ⟨x, hself x hx⟩
  obtain ⟨again, hagain⟩ := exists_normalizeAll_iff.mpr hnormal
  refine ⟨⟨again, .file, path, Sha256.hexDigest bytes, now⟩, ?_,
    (List.perm_ext_iff_of_nodup (nodup_normalizeAll hagain) hnodup).mpr fun x => ?_⟩
  · rw [result_load_file, readFile, hread]
    exact Content.ofBytes_eq_ok_iff.mpr ⟨_, again, hnames, hagain, rfl⟩
  · rw [← List.mem_toFinset, toFinset_of_normalizeAll hagain, mem_normalForms_iff, ← hperm.mem_iff]
    simp only [List.mem_map, Json.Value.string.injEq, exists_eq_right]
    constructor
    · rintro ⟨s, hs, hx⟩
      rw [hself s hs, Except.ok.injEq] at hx
      exact hx ▸ hs
    · exact fun hx => ⟨x, hx, hself x hx⟩

/-- The entries of a list can be written as a list in any order. -/
theorem exists_lists {raw : List Json.Value} {entries : List Text}
    (hset : entries.toFinset = normalForms raw) {xs : List Text} (hperm : xs.Perm entries) :
    ∃ bytes, Lists bytes xs := by
  have hfree : ∀ x ∈ xs, SurrogateFree x := fun x hx =>
    (isNormal_of_mem hset (hperm.subset hx)).2
  have hname : SurrogateFree memberName := by decide
  obtain ⟨hspells, hrendered⟩ := Json.spells_renderPlain_list hname hfree
  exact ⟨_, _, hrendered, rfl, hspells.padded⟩

/-! ### All or nothing -/

/-- An allowlist that was loaded from raw entries, with the records of its load.  The entries are
the normal forms; one record counts them, those of addresses, and the raw entries beyond them; and
the entries load again as the same set, in whatever order a file lists them. -/
structure Accounted [Limits] (a : Allowlist) (raw : List Json.Value) (id : Option Text)
    (added : List Record) : Prop where
  nodup : a.entries.Nodup
  entries : a.entries.toFinset = normalForms raw
  size : a.size = (normalForms raw).card
  record : ∃ before duplicates rest, (normalForms raw).card + duplicates = raw.length ∧
    Quiet before ∧ Quiet rest ∧ added = before ++
      loadedRecord a (normalForms raw).card (addressForms raw).card duplicates id :: rest
  listed : ∀ xs : List Text, xs.Perm a.entries → ∃ bytes, Lists bytes xs
  reloads : ∀ xs : List Text, xs.Perm a.entries → ∀ bytes,
    (Content.file bytes).Names (xs.map .string) → ∀ (disk : FileSystem) path,
      disk.read path = .ok (.ok bytes) → ∀ now t,
        ∃ b, (load disk (.file path) now).result t = .ok b ∧ b.entries.Perm a.entries

/-- A refusal of raw entries for the first one that does not belong there. -/
structure Refusal.RejectsFirst (r : Refusal) (raw : List Json.Value) (source : Text) : Prop where
  kind : r.kind = "MalformedSource"
  source : r.source = source
  cause : ∃ index problem, r.problem = .entry index problem ∧ r.entryIndex? = some index ∧
    FirstOffender raw index problem

theorem run_conclude_of_ok {kind : SourceKind} {location checksum : Text} {now : Instant}
    {raw : List Value} {entries : List Text} (h : normalizeAll raw = .ok entries) (t : Trail) :
    (conclude kind location checksum now raw).run.run t =
      (.ok ⟨entries, kind, location, checksum, now⟩,
        ((recordLoaded ⟨entries, kind, location, checksum, now⟩ raw.length).run t).2) := by
  rw [conclude, entrySet, h]
  rfl

theorem run_conclude_of_refused {kind : SourceKind} {location checksum : Text} {now : Instant}
    {raw : List Value} {index : Nat} {problem : Identifier.Problem}
    (h : normalizeAll raw = .error (.refused index problem)) (t : Trail) :
    (conclude kind location checksum now raw).run.run t =
      (.error (.refused ⟨.entry index problem, location⟩), t) := by
  rw [conclude, entrySet, h]
  rfl

theorem accounted [Limits] {raw : List Json.Value} {a : Allowlist}
    (hset : normalizeAll (raw.map rawEntry) = .ok a.entries) {t : Trail}
    (ht : t.threshold.admits .debug = true) {before : List Record} (hbefore : Quiet before) :
    ∃ added, ((recordLoaded a (raw.map rawEntry).length).run (t.extend before)).2 =
      t.extend added ∧ Accounted a raw t.operationId added := by
  have hnodup := nodup_normalizeAll hset
  have hforms := toFinset_of_normalizeAll hset
  have hsize := size_eq_card hnodup hforms
  have hle := card_normalForms_le raw
  obtain ⟨rest, hrest, hafter⟩ := after_recordLoaded (t := t.extend before) ht a
    (raw.map rawEntry).length
  rw [hsize, addressCount_eq_card hnodup hforms, List.length_map, Trail.extend_extend] at hafter
  rw [List.length_map]
  exact ⟨_, hafter, {
    nodup := hnodup
    entries := hforms
    size := hsize
    record := ⟨before, _, rest, Nat.add_sub_of_le hle, hbefore, hrest, rfl⟩
    listed := fun _ hperm => exists_lists hforms hperm
    reloads := fun _ hperm _ hnames _ _ hread now t =>
      reload_perm hnodup hforms hperm hnames hread now t }⟩

/-- **Loading is all or nothing, with exact counts.**  A source whose raw entries have no surrogates
loads exactly if each of them is a text that is not blank.  Then the allowlist has the normal forms
and nothing else, and the one record of the load has their number, the number of those that are
addresses, and the number of raw entries beyond them.  If it does not load, it is refused for the
first raw entry that does not belong there, and no load is recorded. -/
theorem load_all_or_nothing [Limits] {disk : FileSystem} {source : Source} {c : Content}
    (hc : contentOf disk source = some c) {raw : List Json.Value} (hnames : c.Names raw)
    (hfree : TextsFree raw) (now : Instant) {t : Trail} (ht : t.threshold.admits .debug = true) :
    ((∃ a, (load disk source now).result t = .ok a) ↔ ∀ v ∈ raw, Accepted v) ∧
    ∃ added, ((load disk source now).after t).records = t.records ++ added ∧
      (∀ a, (load disk source now).result t = .ok a → Accounted a raw t.operationId added) ∧
      ∀ e, (load disk source now).result t = .error e → Quiet added ∧
        ∃ r, e = .refused r ∧ r.RejectsFirst raw (sourceName source) := by
  obtain ⟨bytes, hbytes⟩ := exists_bytes hnames hfree
  obtain ⟨before, hbefore, hrun⟩ := run_load_of_names hnames hbytes (sourceName source) now ht
  rw [← run_load_of_contentOf hc] at hrun
  rcases normalizeFrom_raw hfree 0 [] with ⟨hall, entries, hset⟩ | ⟨index, problem, hfirst, hset⟩
  · rw [run_conclude_of_ok hset] at hrun
    obtain ⟨added, hafter, haccounted⟩ := accounted (a := ⟨entries, c.kind, _, _, now⟩) hset ht
      hbefore
    have hresult : (load disk source now).result t = .ok _ := congrArg Prod.fst hrun
    have hleft : (load disk source now).after t = t.extend added :=
      (congrArg Prod.snd hrun).trans hafter
    refine ⟨iff_of_true ⟨_, hresult⟩ hall, added, by rw [hleft]; rfl, fun a ha => ?_, fun e he => ?_⟩
    · exact Except.ok.inj (hresult.symm.trans ha) ▸ haccounted
    · exact nomatch hresult.symm.trans he
  · rw [Nat.zero_add] at hset
    rw [run_conclude_of_refused hset] at hrun
    have hresult : (load disk source now).result t = .error _ := congrArg Prod.fst hrun
    have hleft : (load disk source now).after t = t.extend before := congrArg Prod.snd hrun
    refine ⟨iff_of_false ?_ hfirst.not_accepted, before, by rw [hleft]; rfl, fun a ha => ?_,
      fun e he => ?_⟩
    · rintro ⟨a, ha⟩
      exact nomatch hresult.symm.trans ha
    · exact nomatch hresult.symm.trans ha
    · exact ⟨hbefore, _, (Except.error.inj (hresult.symm.trans he)).symm, rfl, rfl,
        index, problem, rfl, rfl, hfirst⟩

attribute [local instance] Limits.usual

/-- A file that names one of its two texts twice. -/
theorem ornate_accounted : ∃ a added,
    (load (documentDisk ornate) (.file "/a") default).result .start = .ok a ∧
    Accounted a [.string "0XaB", .string "x", .string "x"] none added := by
  have hfree : Text.SurrogateFree (Text.ofString ornate) := by decide +kernel
  have hnames : (Content.file ((Text.ofString ornate).flatMap Utf8.encodeOne)).Names
      [.string "0XaB", .string "x", .string "x"] :=
    .document (Utf8.decode?_eq_ok_iff.mpr ⟨hfree, rfl⟩) parse_ornate rfl
  have htexts : TextsFree [.string "0XaB", .string "x", .string "x"] := by
    intro s hs
    simp only [List.mem_cons, Json.Value.string.injEq, List.not_mem_nil, or_false, or_self] at hs
    rcases hs with rfl | rfl <;> decide
  have hholds : contentOf (documentDisk ornate) (.file "/a") =
      some (.file ((Text.ofString ornate).flatMap Utf8.encodeOne)) := rfl
  obtain ⟨hloads, added, _, haccounted, _⟩ :=
    load_all_or_nothing hholds hnames htexts default (t := Trail.start) rfl
  obtain ⟨a, ha⟩ := hloads.mpr (by
    intro v hv
    simp only [List.mem_cons, List.not_mem_nil, or_false, or_self] at hv
    rcases hv with rfl | rfl <;> exact .text (by decide))
  exact ⟨a, added, ha, haccounted a ha⟩

end AdmissionControl.Allowlist
