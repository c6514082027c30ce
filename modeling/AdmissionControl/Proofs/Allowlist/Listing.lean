import AdmissionControl.Proofs.Allowlist.Format

/-!
# One list, in a file and in a line

A list of texts can be given as the document of a file or as an inline text with commas between
them.  The two mean the same, but for the one list that an inline text cannot tell from an empty
one: the list of a single blank.

* `Lists` — the bytes of a file that has the list and nothing else.
* `splitInline_joinWith` — an inline text has the parts that were put together.
* `entrySet_texts` — what becomes of a list of texts without surrogates.
* `inline_as_file` — both ways of giving a list load the same, or fail for the same reason.
-/

namespace AdmissionControl.Allowlist

/-- The bytes of a file that has the list and nothing else, in any of its spellings. -/
def Lists (bytes : List UInt8) (xs : List Text) : Prop :=
  ∃ text, Text.SurrogateFree text ∧ text.flatMap Utf8.encodeOne = bytes ∧
    Json.Padded text (.object [(memberName, .array (xs.map .string))])

theorem Lists.names [Limits] {bytes : List UInt8} {xs : List Text} (h : Lists bytes xs) :
    (Content.file bytes).Names (xs.map .string) := by
  obtain ⟨text, hfree, hbytes, hpadded⟩ := h
  have hfits : (Json.Value.object [(memberName, .array (xs.map .string))]).Fits
      Limits.json := by
    obtain ⟨room, hlimit⟩ := Nat.exists_eq_add_of_le' Limits.two_le_json
    rw [Json.Value.fits_object_iff]
    refine ⟨room + 1, hlimit, List.nodup_singleton _, ?_⟩
    simp only [List.mem_singleton, forall_eq, Json.Value.fits_array_iff]
    refine ⟨room, rfl, fun v hv => ?_⟩
    obtain ⟨x, _, rfl⟩ := List.mem_map.mp hv
    exact ⟨Nat.zero_le _, .string x⟩
  exact Content.names_file_iff.mpr ⟨text, _, hfree, hbytes, hpadded.head?_ne_byteOrderMark, hpadded,
    hfits, List.mem_singleton_self _⟩

/-! ### An inline text -/

/-- Texts put together with commas are blank only if there is none, or one that is blank. -/
theorem blank_joinWith_iff {xs : List Text} :
    Text.Blank (Text.joinWith [separator] xs) ↔ xs = [] ∨ ∃ x, xs = [x] ∧ Text.Blank x := by
  have hseparator : Text.isBlank separator = false := by decide
  match xs with
  | [] => exact iff_of_true nofun (.inl rfl)
  | [x] => simp [Text.joinWith]
  | x :: y :: rest =>
    refine iff_of_false (fun hblank => ?_) (by simp)
    have hmem : separator ∈ Text.joinWith [separator] (x :: y :: rest) := by
      rw [Text.joinWith_cons _ _ (List.cons_ne_nil y rest)]
      simp
    rw [hblank separator hmem] at hseparator
    cases hseparator

/-- **An inline text has the parts that were put together.** -/
theorem splitInline_joinWith {xs : List Text} (hparts : ∀ x ∈ xs, separator ∉ x)
    (hblank : ∀ x, xs = [x] → ¬ Text.Blank x) :
    splitInline (Text.joinWith [separator] xs) = xs := by
  simp only [splitInline, List.isEmpty_iff, Text.trim_eq_nil_iff]
  by_cases hne : xs = []
  · rw [if_pos (blank_joinWith_iff.mpr (.inl hne)), hne]
  · have hnot : ¬ Text.Blank (Text.joinWith [separator] xs) := by
      intro hjoined
      rcases blank_joinWith_iff.mp hjoined with hnil | ⟨x, hx, hb⟩
      · exact hne hnil
      · exact hblank x hx hb
    rw [if_neg hnot, Text.splitOn_joinWith hne hparts]

theorem surrogateFree_joinWith {xs : List Text} (h : ∀ x ∈ xs, Text.SurrogateFree x) :
    Text.SurrogateFree (Text.joinWith [separator] xs) := by
  have hseparator : Text.SurrogateFree [separator] := by decide
  induction xs with
  | nil => exact nofun
  | cons x rest ih =>
    obtain ⟨hx, hrest⟩ := List.forall_mem_cons.mp h
    cases rest with
    | nil => exact hx
    | cons y rest =>
      rw [Text.joinWith_cons _ _ (List.cons_ne_nil y rest)]
      intro c hc
      rw [List.mem_append, List.mem_append] at hc
      rcases hc with (hc | hc) | hc
      · exact hx c hc
      · exact hseparator c hc
      · exact ih hrest c hc

/-! ### The set of a list -/

/-- A text without surrogates has a normal form or is refused. -/
theorem normalize_text_ne_fault {x : Text} (h : Text.SurrogateFree x) (f : Fault) :
    Identifier.normalize (.text x) ≠ .error (.fault f) := by
  intro hfault
  have hfault : Identifier.normalizeText x = .error (.fault f) := hfault
  by_cases hblank : Text.Blank x
  · rw [Identifier.normalizeText_of_blank hblank] at hfault
    cases hfault
  · rw [Identifier.normalizeText_of_not_blank hblank h] at hfault
    cases hfault

theorem normalizeFrom_ne_fault {raw : List Value}
    (h : ∀ v ∈ raw, ∀ f, Identifier.normalize v ≠ .error (.fault f)) (index : Nat)
    (done : List Text) (f : Fault) : normalizeFrom index done raw ≠ .error (.fault f) := by
  induction raw generalizing index done with
  | nil =>
    intro hfault
    cases hfault
  | cons v rest ih =>
    obtain ⟨hv, hrest⟩ := List.forall_mem_cons.mp h
    rw [normalizeFrom]
    split
    · exact ih hrest _ _
    · intro hfault
      cases hfault
    · next f' hf' => exact absurd hf' (hv f')

/-- **What becomes of a list of texts without surrogates**, whatever source it is from: a set, or a
refusal that names the entry at fault. -/
theorem entrySet_texts {xs : List Text} (hfree : ∀ x ∈ xs, Text.SurrogateFree x) :
    (∃ entries, ∀ source, entrySet source (xs.map .text) = .ok entries) ∨
    ∃ index problem, ∀ source, entrySet source (xs.map .text) =
      .error (.refused ⟨.entry index problem, source⟩) := by
  have hnone : ∀ v ∈ xs.map Value.text, ∀ f, Identifier.normalize v ≠ .error (.fault f) := by
    intro v hv
    obtain ⟨x, hx, rfl⟩ := List.mem_map.mp hv
    exact normalize_text_ne_fault (hfree x hx)
  simp only [entrySet]
  cases hall : normalizeAll (xs.map .text) with
  | ok entries => exact .inl ⟨entries, fun _ => rfl⟩
  | error e =>
    cases e with
    | refused index problem => exact .inr ⟨index, problem, fun _ => rfl⟩
    | fault f => exact absurd hall (normalizeFrom_ne_fault hnone 0 [] f)

/-! ### Both ways of giving a list -/

/-- What an inline text comes to, from the set of its parts. -/
theorem ofInline_joinWith {xs : List Text} (hparts : ∀ x ∈ xs, separator ∉ x)
    (hfree : ∀ x ∈ xs, Text.SurrogateFree x) (hblank : ∀ x, xs = [x] → ¬ Text.Blank x)
    (location : Text) (now : Instant) : ∃ checksum,
    ofInline (Text.joinWith [separator] xs) location now =
      (entrySet location (xs.map .text)).map fun entries =>
        ⟨entries, .inline, location, checksum, now⟩ := by
  have hencode : Utf8.encode? (Text.joinWith [separator] xs) =
      .ok ((Text.joinWith [separator] xs).flatMap Utf8.encodeOne) := by
    rw [Utf8.encode?, Text.firstSurrogates?_eq_none_iff.mpr (surrogateFree_joinWith hfree)]
  refine ⟨Sha256.hexDigest ((Text.joinWith [separator] xs).flatMap Utf8.encodeOne), ?_⟩
  rw [ofInline, splitInline_joinWith hparts hblank, hencode]
  cases entrySet location (xs.map .text) <;> rfl

/-- What the bytes of a file come to, from the set of what they list. -/
theorem ofBytes_lists [Limits] {bytes : List UInt8} {xs : List Text} (h : Lists bytes xs)
    (path : Text) (now : Instant) : ofBytes path bytes now =
      (entrySet path (xs.map .text)).map fun entries =>
        ⟨entries, .file, path, Sha256.hexDigest bytes, now⟩ := by
  cases h.names with
  | @document _ text document _ hdecode hparse hfield =>
    have hdocument : parse path bytes = .ok document :=
      Content.parse_eq_ok_iff.mpr ⟨text, hdecode, hparse⟩
    have hraw : rawEntriesOf path document = .ok (xs.map .text) :=
      Content.rawEntriesOf_eq_ok_iff.mpr ⟨_, hfield, by rw [List.map_map]; rfl⟩
    rw [ofBytes, hdocument]
    show (rawEntriesOf path document >>= _) = _
    rw [hraw]
    show (entrySet path (xs.map .text) >>= _) = _
    cases entrySet path (xs.map .text) <;> rfl

/-- How a message ends: with its source in brackets, unless that has no name. -/
def sourceNote (source : Text) : Text :=
  if source.isEmpty then [] else " (source: " ++ source ++ Text.ofString ")"

/-- The entry at an index is why a source was refused. -/
structure Refusal.IsEntry (r : Refusal) (origin : Text) (index : Nat) (reason : Text) : Prop where
  kind : r.kind = "MalformedSource"
  source : r.source = origin
  index : r.entryIndex? = some index
  message : r.message = reason ++ sourceNote origin

theorem Refusal.isEntry (source : Text) (index : Nat) (problem : Identifier.Problem) :
    IsEntry ⟨.entry index problem, source⟩ source index (problemMessage (.entry index problem)) :=
  ⟨rfl, rfl, rfl, rfl⟩

/-- **One list means the same in a file and in a line.**  Texts without commas and without
surrogates, other than a single blank one, are put together to an inline text, and written to a file
as the list of its document.  Then either both load, with the same entries, or both are refused as
malformed for the same entry, and the messages only differ in the source that they name. -/
theorem inline_as_file [Limits] {xs : List Text} (hparts : ∀ x ∈ xs, separator ∉ x)
    (hfree : ∀ x ∈ xs, Text.SurrogateFree x) (hblank : ∀ x, xs = [x] → ¬ Text.Blank x)
    {bytes : List UInt8} (hbytes : Lists bytes xs) {disk : FileSystem} {path : Text}
    (hread : disk.read path = .ok (.ok bytes)) (other : FileSystem) (location : Text)
    (now now' : Instant) (t t' : Trail) :
    let line := Source.inline (.text (Text.joinWith [separator] xs)) location
    (∃ a b, (load other line now).result t = .ok a ∧
      (load disk (.file path) now').result t' = .ok b ∧ a.entries = b.entries ∧
      a.size = b.size ∧ a.isEmpty = b.isEmpty) ∨
    ∃ r r' index reason, (load other line now).result t = .error (.refused r) ∧
      (load disk (.file path) now').result t' = .error (.refused r') ∧
      r.IsEntry location index reason ∧ r'.IsEntry path index reason := by
  intro line
  obtain ⟨checksum, hinline⟩ := ofInline_joinWith hparts hfree hblank location now
  have hline := (result_loadInline _ location now t).trans hinline
  have hfile : (load disk (.file path) now').result t' = ofBytes path bytes now' := by
    rw [result_load_file, readFile, hread]
    rfl
  rw [ofBytes_lists hbytes] at hfile
  rcases entrySet_texts hfree with ⟨entries, hset⟩ | ⟨index, problem, hset⟩
  · rw [hset] at hline hfile
    exact .inl ⟨_, _, hline, hfile, rfl, rfl, rfl⟩
  · rw [hset] at hline hfile
    exact .inr ⟨_, _, index, _, hline, hfile, Refusal.isEntry location index problem,
      Refusal.isEntry path index problem⟩

/-- A list whose second text is blank, with an escape in its first. -/
def blankSecond : String := "\x7b\"allowlist\": [\"\\u0078\", \" \", \"0XaB\"]\x7d"

attribute [local instance] Limits.usual

theorem parse_blankSecond : Json.parse (Text.ofString blankSecond) =
    .ok (.object [("allowlist", .array [.string "x", .string " ", .string "0XaB"])]) := by
  cbv

/-- It is refused in both ways, for the same entry. -/
theorem blank_second_refused : ∃ r r' reason,
    (loadInline (.text "x, ,0XaB") inlineVariable default).result .start = .error (.refused r) ∧
    (load (documentDisk blankSecond) (.file "/a") default).result .start = .error (.refused r') ∧
    r.IsEntry inlineVariable 1 reason ∧ r'.IsEntry "/a" 1 reason := by
  have hlists : Lists ((Text.ofString blankSecond).flatMap Utf8.encodeOne) ["x", " ", "0XaB"] :=
    ⟨_, by decide +kernel, rfl, (Json.parse_eq_ok_iff.mp parse_blankSecond).2.1⟩
  have hparts : ∀ x ∈ (["x", " ", "0XaB"] : List Text), separator ∉ x := by decide
  have hsame := inline_as_file hparts (by decide) (by simp) hlists
    (show (documentDisk blankSecond).read "/a" = .ok (.ok _) from rfl) (documentDisk blankSecond)
    inlineVariable default default .start .start
  have hline : (loadInline (.text "x, ,0XaB") inlineVariable default).result .start =
      .error (.refused ⟨.entry 1 .empty, inlineVariable⟩) := by decide +kernel
  rcases hsame with ⟨a, _, ha, _⟩ | ⟨r, r', index, reason, hr, hr', hentry, hentry'⟩
  · exact nomatch hline.symm.trans ha
  · obtain rfl : index = 1 := by
      have heq := hline.symm.trans hr
      rw [Except.error.injEq, LoadError.refused.injEq] at heq
      rw [← heq] at hentry
      exact (Option.some.inj hentry.index).symm
    exact ⟨r, r', reason, hr, hr', hentry, hentry'⟩

end AdmissionControl.Allowlist
