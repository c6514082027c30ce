import AdmissionControl.Allowlist.Load
import AdmissionControl.Proofs.Identifier

/-!
# What an allowlist holds

`Content` is what a source held at the moment it was loaded: the bytes of a file or an inline text.
`Content.Names` says which raw entries such a content names, the elements of the list in the
document of a file and the parts between the commas of an inline text, and `Content.Gives` relates
a content to the allowlist that loading it gives.

* `mem_normalizeAll_iff` — the set of a list holds the normal forms of its elements.
* `Content.mem_entries_iff` — the entries of an allowlist are the normal forms of what its content
  names.
* `load_gives` — every load that succeeds loads the content of its source.
-/

namespace AdmissionControl

/-- A computation in two parts succeeds if both of them do. -/
theorem bind_eq_ok_iff {ε α β : Type} {x : Except ε α} {f : α → Except ε β} {b : β} :
    x >>= f = .ok b ↔ ∃ a, x = .ok a ∧ f a = .ok b := by
  cases x with
  | error e => simp [bind, Except.bind]
  | ok a => simp [bind, Except.bind]

/-- A computation in two parts fails where one of them does. -/
theorem bind_eq_error_iff {ε α β : Type} {x : Except ε α} {f : α → Except ε β} {e : ε} :
    x >>= f = .error e ↔ x = .error e ∨ ∃ a, x = .ok a ∧ f a = .error e := by
  cases x with
  | error e' => simp [bind, Except.bind]
  | ok a => simp [bind, Except.bind]

/-! ### Actions that leave records -/

namespace Audited

variable {ε α β : Type}

/-- What an action comes to when it starts on the given trail. -/
def result (action : Audited ε α) (trail : Trail) : Except ε α := (action.run.run trail).1

/-- The trail that an action leaves. -/
def after (action : Audited ε α) (trail : Trail) : Trail := (action.run.run trail).2

theorem result_bind (action : Audited ε α) (next : α → Audited ε β) (trail : Trail) :
    (action >>= next).result trail =
      match action.result trail with
      | .ok a => (next a).result (action.after trail)
      | .error e => .error e := by
  simp only [result, after, ExceptT.run_bind, StateT.run_bind]
  show (StateT.run (match (action.run.run trail).1 with
    | .ok a => (next a).run
    | .error e => pure (.error e)) (action.run.run trail).2).1 = _
  cases (action.run.run trail).1 <;> rfl

/-- An action in two parts succeeds if both of them do, the second from where the first has left. -/
theorem result_bind_eq_ok_iff {action : Audited ε α} {next : α → Audited ε β} {trail : Trail}
    {b : β} : (action >>= next).result trail = .ok b ↔
      ∃ a, action.result trail = .ok a ∧ (next a).result (action.after trail) = .ok b := by
  rw [result_bind]
  cases action.result trail with
  | error e => simp
  | ok a => simp

@[simp] theorem result_pure (a : α) (trail : Trail) :
    (pure a : Audited ε α).result trail = .ok a := rfl

@[simp] theorem result_throw (e : ε) (trail : Trail) :
    (throw e : Audited ε α).result trail = .error e := rfl

/-- A result that needs no trail comes to itself. -/
@[simp] theorem result_liftM_except (r : Except ε α) (trail : Trail) :
    (liftM r : Audited ε α).result trail = r := by
  cases r <;> rfl

/-- Leaving records cannot fail. -/
@[simp] theorem result_liftM_record (action : StateM Trail α) (trail : Trail) :
    (liftM action : Audited ε α).result trail = .ok (action.run trail).1 := rfl

end Audited

namespace Allowlist

/-! ### The set of a list -/

theorem mem_normalizeFrom_iff {index : Nat} {done : List Text} {raw : List Value}
    {entries : List Text} (h : normalizeFrom index done raw = .ok entries) (x : Text) :
    x ∈ entries ↔ x ∈ done ∨ ∃ v ∈ raw, Identifier.normalize v = .ok x := by
  induction raw generalizing index done with
  | nil =>
    rw [normalizeFrom, Except.ok.injEq] at h
    subst h
    simp
  | cons v rest ih =>
    rw [normalizeFrom] at h
    split at h
    · rename_i entry hv
      rw [ih h, mem_insertNew, or_assoc]
      simp only [List.mem_cons, exists_eq_or_imp, hv, Except.ok.injEq]
      exact or_congr_right (or_congr_left eq_comm)
    · cases h
    · cases h

theorem exists_normalize_of_normalizeFrom {index : Nat} {done : List Text} {raw : List Value}
    {entries : List Text} (h : normalizeFrom index done raw = .ok entries) :
    ∀ v ∈ raw, ∃ x, Identifier.normalize v = .ok x := by
  induction raw generalizing index done with
  | nil => simp
  | cons v rest ih =>
    rw [normalizeFrom] at h
    split at h
    · rename_i entry hv
      intro w hw
      rcases List.mem_cons.mp hw with rfl | hw
      · exact ⟨entry, hv⟩
      · exact ih h w hw
    · cases h
    · cases h

/-- **The set of a list holds the normal forms of its elements and nothing else.** -/
theorem mem_normalizeAll_iff {raw : List Value} {entries : List Text}
    (h : normalizeAll raw = .ok entries) (x : Text) :
    x ∈ entries ↔ ∃ v ∈ raw, Identifier.normalize v = .ok x := by
  rw [mem_normalizeFrom_iff h]
  simp

theorem entrySet_eq_ok_iff {source : Text} {raw : List Value} {entries : List Text} :
    entrySet source raw = .ok entries ↔ normalizeAll raw = .ok entries := by
  rw [entrySet]
  constructor
  · intro h
    split at h
    · rename_i found hfound
      rw [hfound, Except.ok.inj h]
    · cases h
    · cases h
  · intro h
    rw [h]

/-! ### Loading without records -/

/-- The raw entries of a document. -/
def rawEntriesOf (path : Text) : Json.Value → Except LoadError (List Value)
  | .object members =>
    match (splitMembers members).1 with
    | none => refuse path .noMember
    | some (.array items) => .ok (items.map rawEntry)
    | some other => refuse path (.notAList (valueKind other))
  | other => refuse path (.notAnObject (valueKind other))

theorem result_rawEntries (path : Text) (document : Json.Value) (t : Trail) :
    (rawEntries path document).result t = rawEntriesOf path document := by
  cases document with
  | object members =>
    rw [rawEntries, rawEntriesOf]
    cases hsplit : splitMembers members with
    | mk found others =>
      cases found with
      | none => exact Audited.result_liftM_except _ t
      | some value =>
        simp only [Audited.result_bind, Audited.result_liftM_record]
        cases value with
        | array items => rfl
        | _ => exact Audited.result_liftM_except _ _
  | _ => exact Audited.result_liftM_except _ t

/-- What the bytes of a file come to. -/
def ofBytes [Limits] (path : Text) (bytes : List UInt8) (now : Instant) :
    Except LoadError Allowlist := do
  let document ← parse path bytes
  let raw ← rawEntriesOf path document
  let entries ← entrySet path raw
  return ⟨entries, .file, path, Sha256.hexDigest bytes, now⟩

/-- The time of a load only stands on the allowlist. -/
theorem ofBytes_loadedAt [Limits] (path : Text) (bytes : List UInt8) (now later : Instant) :
    ofBytes path bytes later =
      (ofBytes path bytes now).map fun a => { a with loadedAt := later } := by
  rw [ofBytes, ofBytes]
  cases parse path bytes with
  | error e => rfl
  | ok document =>
    show (rawEntriesOf path document >>= _) = Except.map _ (rawEntriesOf path document >>= _)
    cases rawEntriesOf path document with
    | error e => rfl
    | ok raw =>
      show (entrySet path raw >>= _) = Except.map _ (entrySet path raw >>= _)
      cases entrySet path raw <;> rfl

theorem result_loadBytes [Limits] (path : Text) (bytes : List UInt8) (now : Instant) (t : Trail) :
    (loadBytes path bytes now).result t = ofBytes path bytes now := by
  rw [loadBytes, ofBytes, Audited.result_bind, Audited.result_liftM_except]
  cases parse path bytes with
  | error e => rfl
  | ok document =>
    show Audited.result _ _ = _
    rw [Audited.result_bind, result_rawEntries]
    show _ = (rawEntriesOf path document >>= _)
    cases rawEntriesOf path document with
    | error e => rfl
    | ok raw =>
      show Audited.result _ _ = (entrySet path raw >>= _)
      rw [Audited.result_bind, Audited.result_liftM_except]
      cases entrySet path raw with
      | error e => rfl
      | ok entries => rfl

/-- What an inline text comes to. -/
def ofInline (text location : Text) (now : Instant) : Except LoadError Allowlist := do
  let entries ← entrySet location ((splitInline text).map Value.text)
  match Utf8.encode? text with
  | .error e => .error (.fault (.unencodable e))
  | .ok bytes => .ok ⟨entries, .inline, location, Sha256.hexDigest bytes, now⟩

theorem result_loadInline (text location : Text) (now : Instant) (t : Trail) :
    (loadInline (.text text) location now).result t = ofInline text location now := by
  rw [loadInline, ofInline, Audited.result_bind, Audited.result_liftM_except]
  cases entrySet location ((splitInline text).map Value.text) with
  | error e => rfl
  | ok entries => cases Utf8.encode? text <;> rfl

/-! ### What a source holds -/

/-- What a source held when it was loaded. -/
inductive Content
  | file (bytes : List UInt8)
  | inline (text : Text)
deriving DecidableEq, Repr

namespace Content

/-- The raw entries that a content names: the elements of the list in a document, or the parts of an
inline text between its commas, of which a blank text has none. -/
inductive Names [Limits] : Content → List Json.Value → Prop
  | document {bytes : List UInt8} {text : Text} {document : Json.Value} {items : List Json.Value} :
      Utf8.decode? bytes = .ok text → Json.parse text = .ok document →
      document.field? memberName = some (.array items) → Names (file bytes) items
  | blank {text : Text} : Text.Blank text → Names (inline text) []
  | parts {text : Text} {parts : List Text} :
      ¬ Text.Blank text → parts ≠ [] → (∀ part ∈ parts, separator ∉ part) →
      Text.joinWith [separator] parts = text → Names (inline text) (parts.map .string)

/-- Loads a content under the name of its source. -/
def load [Limits] : Content → Text → Instant → Audited LoadError Allowlist
  | file bytes, location, now => loadBytes location bytes now
  | inline text, location, now => loadInline (.text text) location now

/-- Loading the content gives the allowlist. -/
def Gives [Limits] (c : Content) (a : Allowlist) : Prop :=
  ∃ t, (c.load a.location a.loadedAt).result t = .ok a

/-- The bytes that the checksum of an allowlist is taken of. -/
def bytes? : Content → Option (List UInt8)
  | file bytes => some bytes
  | inline text => (Utf8.encode? text).toOption

def kind : Content → SourceKind
  | file _ => .file
  | inline _ => .inline

/-! ### Which raw entries a content names -/

theorem names_inline_iff [Limits] {text : Text} {raw : List Json.Value} :
    Names (inline text) raw ↔ raw = (splitInline text).map .string := by
  simp only [splitInline, List.isEmpty_iff, Text.trim_eq_nil_iff]
  constructor
  · intro h
    cases h with
    | blank hb => rw [if_pos hb, List.map_nil]
    | parts hb hne hparts hjoin =>
      rw [if_neg hb, Text.splitOn_eq_iff.mpr ⟨hne, hparts, hjoin⟩]
  · rintro rfl
    by_cases hb : Text.Blank text
    · rw [if_pos hb]
      exact .blank hb
    · rw [if_neg hb]
      obtain ⟨hne, hparts, hjoin⟩ :=
        Text.splitOn_eq_iff.mp (rfl : Text.splitOn separator text = _)
      exact .parts hb hne hparts hjoin

theorem Names.unique [Limits] {c : Content} {raw raw' : List Json.Value} (h : c.Names raw)
    (h' : c.Names raw') : raw = raw' := by
  cases c with
  | inline text => rw [names_inline_iff.mp h, names_inline_iff.mp h']
  | file bytes =>
    cases h with
    | document hd hp hf =>
      cases h' with
      | document hd' hp' hf' =>
        rw [hd, Except.ok.injEq] at hd'
        subst hd'
        rw [hp, Except.ok.injEq] at hp'
        subst hp'
        rw [hf, Option.some.injEq, Json.Value.array.injEq] at hf'
        exact hf'

/-! ### What loading a content gives -/

theorem rawEntriesOf_eq_ok_iff {path : Text} {document : Json.Value} {raw : List Value} :
    rawEntriesOf path document = .ok raw ↔
      ∃ items, document.field? memberName = some (.array items) ∧ raw = items.map rawEntry := by
  cases document with
  | object members =>
    show (match (splitMembers members).1 with
      | none => refuse path .noMember
      | some (.array items) => .ok (items.map rawEntry)
      | some other => refuse path (.notAList (valueKind other))) = _ ↔
      ∃ items, (splitMembers members).1 = some (.array items) ∧ _
    cases (splitMembers members).1 with
    | none => simp [refuse]
    | some found => cases found <;> simp [refuse, eq_comm]
  | _ => simp [rawEntriesOf, Json.Value.field?, refuse]

theorem normalize_rawEntry_iff {r : Json.Value} {x : Text} :
    Identifier.normalize (rawEntry r) = .ok x ↔
      ∃ s, r = .string s ∧ Identifier.normalizeText s = .ok x := by
  rw [Identifier.normalize_eq_ok_iff]
  cases r <;> simp [rawEntry]

theorem parse_eq_ok_iff [Limits] {path : Text} {bytes : List UInt8} {document : Json.Value} :
    parse path bytes = .ok document ↔
      ∃ text, Utf8.decode? bytes = .ok text ∧ Json.parse text = .ok document := by
  rw [parse]
  cases Utf8.decode? bytes with
  | error e => simp [refuse]
  | ok text =>
    simp only [Except.ok.injEq, exists_eq_left']
    cases Json.parse text with
    | ok found => simp
    | error e => cases e <;> simp [refuse]

/-- **What the bytes of a file give**: the set of the raw entries that they name, with the digest of
the bytes. -/
theorem ofBytes_eq_ok_iff [Limits] {path : Text} {bytes : List UInt8} {now : Instant}
    {a : Allowlist} : ofBytes path bytes now = .ok a ↔
      ∃ items entries, Names (file bytes) items ∧ normalizeAll (items.map rawEntry) = .ok entries ∧
        a = ⟨entries, .file, path, Sha256.hexDigest bytes, now⟩ := by
  rw [ofBytes, bind_eq_ok_iff]
  constructor
  · rintro ⟨document, hdocument, h⟩
    obtain ⟨raw, hraw, hrest⟩ := bind_eq_ok_iff.mp h
    obtain ⟨entries, hentries, ha⟩ := bind_eq_ok_iff.mp hrest
    obtain ⟨text, hdecode, hparse⟩ := parse_eq_ok_iff.mp hdocument
    obtain ⟨items, hfield, rfl⟩ := rawEntriesOf_eq_ok_iff.mp hraw
    exact ⟨items, entries, .document hdecode hparse hfield, entrySet_eq_ok_iff.mp hentries,
      (Except.ok.inj ha).symm⟩
  · rintro ⟨items, entries, hnames, hall, rfl⟩
    cases hnames with
    | document hdecode hparse hfield =>
      refine ⟨_, parse_eq_ok_iff.mpr ⟨_, hdecode, hparse⟩, bind_eq_ok_iff.mpr ?_⟩
      refine ⟨_, rawEntriesOf_eq_ok_iff.mpr ⟨items, hfield, rfl⟩, bind_eq_ok_iff.mpr ?_⟩
      exact ⟨entries, entrySet_eq_ok_iff.mpr hall, rfl⟩

/-- **What an inline text gives**: the set of its parts, with the digest of its encoding. -/
theorem ofInline_eq_ok_iff [Limits] {text location : Text} {now : Instant} {a : Allowlist} :
    ofInline text location now = .ok a ↔
      ∃ raw entries bytes, Names (inline text) raw ∧
        normalizeAll (raw.map rawEntry) = .ok entries ∧ Utf8.encode? text = .ok bytes ∧
        a = ⟨entries, .inline, location, Sha256.hexDigest bytes, now⟩ := by
  have hraw : ((splitInline text).map Json.Value.string).map rawEntry =
      (splitInline text).map Value.text := by
    rw [List.map_map]
    rfl
  rw [ofInline, bind_eq_ok_iff]
  constructor
  · rintro ⟨entries, hentries, h⟩
    split at h
    · cases h
    · rename_i bytes hbytes
      refine ⟨_, entries, bytes, names_inline_iff.mpr rfl, ?_, hbytes, (Except.ok.inj h).symm⟩
      rw [hraw]
      exact entrySet_eq_ok_iff.mp hentries
  · rintro ⟨raw, entries, bytes, hnames, hall, hbytes, rfl⟩
    rw [names_inline_iff.mp hnames, hraw] at hall
    exact ⟨entries, entrySet_eq_ok_iff.mpr hall, by rw [hbytes]⟩

theorem gives_file_iff [Limits] {bytes : List UInt8} {a : Allowlist} :
    (file bytes).Gives a ↔ ofBytes a.location bytes a.loadedAt = .ok a := by
  simp only [Gives, load, result_loadBytes]
  exact ⟨fun ⟨_, h⟩ => h, fun h => ⟨Trail.start, h⟩⟩

theorem gives_inline_iff [Limits] {text : Text} {a : Allowlist} :
    (inline text).Gives a ↔ ofInline text a.location a.loadedAt = .ok a := by
  simp only [Gives, load, result_loadInline]
  exact ⟨fun ⟨_, h⟩ => h, fun h => ⟨Trail.start, h⟩⟩

/-- **What a content gives**, for either kind of source. -/
theorem gives_iff [Limits] {c : Content} {a : Allowlist} :
    c.Gives a ↔ ∃ raw entries bytes, c.Names raw ∧ normalizeAll (raw.map rawEntry) = .ok entries ∧
      c.bytes? = some bytes ∧
      a = ⟨entries, c.kind, a.location, Sha256.hexDigest bytes, a.loadedAt⟩ := by
  cases c with
  | file bytes =>
    rw [gives_file_iff, ofBytes_eq_ok_iff]
    constructor
    · rintro ⟨items, entries, hnames, hall, ha⟩
      exact ⟨items, entries, bytes, hnames, hall, rfl, ha⟩
    · rintro ⟨items, entries, bytes', hnames, hall, hbytes, ha⟩
      rw [bytes?, Option.some.injEq] at hbytes
      subst hbytes
      exact ⟨items, entries, hnames, hall, ha⟩
  | inline text =>
    have hbytes : ∀ b, Utf8.encode? text = .ok b ↔ (inline text).bytes? = some b := by
      intro b
      rw [bytes?]
      cases Utf8.encode? text <;> simp [Except.toOption]
    rw [gives_inline_iff, ofInline_eq_ok_iff]
    simp only [hbytes, kind]

/-- **The entries of an allowlist are the normal forms of what its content names.** -/
theorem mem_entries_iff [Limits] {c : Content} {a : Allowlist} (h : c.Gives a)
    {raw : List Json.Value} (hraw : c.Names raw) (x : Text) :
    x ∈ a.entries ↔ ∃ s, .string s ∈ raw ∧ Identifier.normalizeText s = .ok x := by
  obtain ⟨raw', entries, _, hnames, hall, _, ha⟩ := gives_iff.mp h
  rw [hnames.unique hraw] at hall
  have hentries : a.entries = entries := by rw [ha]
  rw [hentries, mem_normalizeAll_iff hall]
  simp only [List.mem_map, exists_exists_and_eq_and, normalize_rawEntry_iff]
  constructor
  · rintro ⟨r, hr, s, rfl, hs⟩
    exact ⟨s, hr, hs⟩
  · rintro ⟨s, hr, hs⟩
    exact ⟨_, hr, s, rfl, hs⟩

theorem exists_names [Limits] {c : Content} {a : Allowlist} (h : c.Gives a) :
    ∃ raw, c.Names raw := by
  obtain ⟨raw, _, _, hnames, _⟩ := gives_iff.mp h
  exact ⟨raw, hnames⟩

theorem kind_of_gives [Limits] {c : Content} {a : Allowlist} (h : c.Gives a) : a.kind = c.kind := by
  obtain ⟨_, _, _, _, _, _, ha⟩ := gives_iff.mp h
  rw [ha]

theorem checksum_of_gives [Limits] {bytes : List UInt8} {a : Allowlist} (h : (file bytes).Gives a) :
    a.checksum = Sha256.hexDigest bytes := by
  obtain ⟨_, _, bytes', _, _, hbytes, ha⟩ := gives_iff.mp h
  rw [bytes?, Option.some.injEq] at hbytes
  rw [ha, hbytes]

/-- A content that gave an allowlist gives it again, under any name and at any time. -/
theorem ofBytes_of_gives [Limits] {bytes : List UInt8} {a : Allowlist} (h : (file bytes).Gives a)
    (path : Text) (now : Instant) :
    ofBytes path bytes now = .ok ⟨a.entries, .file, path, a.checksum, now⟩ := by
  rw [ofBytes_eq_ok_iff]
  obtain ⟨items, entries, hnames, hall, ha⟩ := ofBytes_eq_ok_iff.mp (gives_file_iff.mp h)
  refine ⟨items, entries, hnames, hall, ?_⟩
  rw [checksum_of_gives h, ha]

end Content

/-! ### Loads -/

/-- What a source holds on a disk, if it can be read. -/
def contentOf (disk : FileSystem) : Source → Option Content
  | .file path => (readFile disk path).toOption.map Content.file
  | .inline (.text text) _ => some (.inline text)
  | _ => none

/-- What a file comes to, from the result of reading it. -/
def ofRead [Limits] (path : Text) (now : Instant) (content : Except LoadError (List UInt8)) :
    Except LoadError Allowlist :=
  content >>= fun bytes => ofBytes path bytes now

theorem result_load_file [Limits] (disk : FileSystem) (path : Text) (now : Instant) (t : Trail) :
    (load disk (.file path) now).result t = ofRead path now (readFile disk path) := by
  rw [load, Audited.result_bind, Audited.result_liftM_except, ofRead]
  cases readFile disk path with
  | error e => rfl
  | ok bytes => exact result_loadBytes path bytes now _

/-- What a source comes to. -/
def ofSource [Limits] (disk : FileSystem) (source : Source) (now : Instant) :
    Except LoadError Allowlist :=
  match source with
  | .file path => ofRead path now (readFile disk path)
  | .inline (.text text) location => ofInline text location now
  | .inline content location => refuse location (.notText content.kind)
  | .bare value => .error (.fault (.unsupportedSource value.kind))

/-- **What a load comes to**, whatever is on the trail. -/
theorem result_load [Limits] (disk : FileSystem) (source : Source) (now : Instant) (t : Trail) :
    (load disk source now).result t = ofSource disk source now := by
  cases source with
  | file path => exact result_load_file disk path now t
  | inline content location =>
    cases content with
    | text text => exact result_loadInline text location now t
    | _ => rfl
  | bare value => rfl

theorem gives_of_ofBytes [Limits] {path : Text} {bytes : List UInt8} {now : Instant} {a : Allowlist}
    (h : ofBytes path bytes now = .ok a) : (Content.file bytes).Gives a := by
  rw [Content.gives_file_iff]
  obtain ⟨_, _, _, _, ha⟩ := Content.ofBytes_eq_ok_iff.mp h
  rw [show a.location = path by rw [ha], show a.loadedAt = now by rw [ha], h]

theorem ofRead_eq_ok_iff [Limits] {path : Text} {now : Instant}
    {content : Except LoadError (List UInt8)} {a : Allowlist} :
    ofRead path now content = .ok a ↔
      ∃ bytes, content = .ok bytes ∧ ofBytes path bytes now = .ok a := bind_eq_ok_iff

/-- **Every load that succeeds loads the content of its source.** -/
theorem load_gives [Limits] {disk : FileSystem} {source : Source} {now : Instant} {t : Trail}
    {a : Allowlist} (h : (load disk source now).result t = .ok a) :
    ∃ c, contentOf disk source = some c ∧ c.Gives a := by
  cases source with
  | file path =>
    rw [result_load_file] at h
    obtain ⟨bytes, hread, hbytes⟩ := ofRead_eq_ok_iff.mp h
    exact ⟨.file bytes, by rw [contentOf, hread]; rfl, gives_of_ofBytes hbytes⟩
  | inline content location =>
    cases content with
    | text text =>
      rw [load, result_loadInline] at h
      refine ⟨.inline text, rfl, Content.gives_inline_iff.mpr ?_⟩
      obtain ⟨_, _, _, _, _, _, ha⟩ := Content.ofInline_eq_ok_iff.mp h
      rw [show a.location = location by rw [ha], show a.loadedAt = now by rw [ha], h]
    | _ => cases h
  | bare value => cases h

end Allowlist

end AdmissionControl
