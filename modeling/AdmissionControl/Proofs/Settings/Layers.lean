import AdmissionControl.Proofs.FileSystem
import AdmissionControl.Proofs.Numeral.Integer
import AdmissionControl.Proofs.Settings.Valid

/-!
# The layers of the settings

The settings are layered: what a variable of the environment says stands above what the chosen file
says, and that above the default.

* `Chosen`, `Passed` — the first candidate that leads to a regular file, and those before it.
* `Overridden`, `Above` — a variable replaces what is below it if it is set.
* `NamesSource` — the source that the environment names.
* `Acceptable`, `Layered` — when there are settings at all, and what they are then.
* `load_layers` — settings are loaded exactly if everything is acceptable, and they are layered.
  The one exception is a given path with a tilde and an account name without bytes, a fault.
-/

namespace AdmissionControl

namespace Accounts

/-- The account name after a tilde, if there is one at the front, has bytes. -/
def HomeNamed (path : Text) : Prop :=
  path.head? = some ('~' : CodePoint) → Path.Named (path.tail.takeWhile (· ≠ Path.slash))

instance (path : Text) : Decidable (HomeNamed path) := inferInstanceAs (Decidable (_ → _))

/-- **A path is expanded exactly if its account name has bytes.** -/
theorem exists_expand_iff (accounts : Accounts) (home path : Text) :
    (∃ p, accounts.expand home path = .ok p) ↔ HomeNamed path := by
  cases path with
  | nil => simp [expand, HomeNamed]
  | cons tilde rest =>
    by_cases htilde : tilde = ('~' : CodePoint)
    · have hnamed : HomeNamed (tilde :: rest) ↔
          Path.Named (rest.takeWhile (· ≠ Path.slash)) := by
        simp [HomeNamed, htilde]
      rw [hnamed, ← Path.encode?_eq_ok_iff, expand, if_neg (not_not_intro htilde)]
      by_cases hempty : (rest.takeWhile (· ≠ Path.slash)).isEmpty = true
      · rw [List.isEmpty_iff.mp hempty]
        exact iff_of_true ⟨_, rfl⟩ ⟨[], rfl⟩
      · simp only [hempty, Bool.false_eq_true, if_false]
        cases Path.encode? (rest.takeWhile (· ≠ Path.slash)) with
        | error f => simp
        | ok bytes =>
          refine iff_of_true ?_ ⟨bytes, rfl⟩
          cases accounts.homes.find? _ <;> exact ⟨_, rfl⟩
    · rw [expand, if_pos htilde]
      exact iff_of_true ⟨_, rfl⟩ fun h => absurd (Option.some.inj h) htilde

theorem homeNamed_of_named {path : Text} (h : Path.Named path) : HomeNamed path :=
  fun _ c hc => h c (List.mem_of_mem_tail ((List.takeWhile_sublist _).subset hc))

end Accounts

namespace Environment

variable {env : Environment}

/-- The value of each variable has bytes. -/
def Named (env : Environment) : Prop := ∀ binding ∈ env.bindings, Path.Named binding.2

instance (env : Environment) : Decidable env.Named := inferInstanceAs (Decidable (∀ b ∈ _, _))

theorem Named.lookup (h : env.Named) {name text : Text} (htext : env.lookup? name = some text) :
    Path.Named text := by
  obtain ⟨before, after, hbindings, _⟩ := List.lookup_eq_some_iff.mp htext
  exact h (name, text) (by simp [hbindings])

theorem exists_expand_of_named {path : Text} (h : Path.Named path) :
    ∃ p, env.expand path = .ok p :=
  (env.accounts.exists_expand_iff env.home path).mpr (Accounts.homeNamed_of_named h)

end Environment

namespace Settings

variable {env : Environment} {fs : FileSystem} {given : Option Text}

/-! ### The chosen file -/

/-- A candidate that leads to no regular file. -/
def Passed (env : Environment) (fs : FileSystem) (candidate : Text) : Prop :=
  ∃ path, env.expand candidate = .ok path ∧ fs.regular? path = none

/-- The regular file that the first candidate with one leads to, and what can be read there. -/
inductive FirstFile (env : Environment) (fs : FileSystem) :
    List Text → Text → Except FileError (List UInt8) → Prop
  | here {candidate path : Text} {content : Except FileError (List UInt8)} (rest : List Text) :
    env.expand candidate = .ok path → fs.regular? path = some content →
    FirstFile env fs (candidate :: rest) path content
  | later {candidate path : Text} {content : Except FileError (List UInt8)} {rest : List Text} :
    Passed env fs candidate → FirstFile env fs rest path content →
    FirstFile env fs (candidate :: rest) path content

theorem findFile_eq_some_iff {paths : List Text} {path : Text}
    {content : Except FileError (List UInt8)} :
    findFile env fs paths = .ok (some (path, content)) ↔ FirstFile env fs paths path content := by
  induction paths with
  | nil => exact iff_of_false nofun nofun
  | cons candidate rest ih =>
    rw [findFile, bind_eq_ok_iff]
    constructor
    · rintro ⟨p, hp, h⟩
      split at h
      · rename_i hcontent
        simp only [pure, Except.pure, Except.ok.injEq, Option.some.injEq, Prod.mk.injEq] at h
        obtain ⟨rfl, rfl⟩ := h
        exact .here rest hp hcontent
      · rename_i hnone
        exact .later ⟨p, hp, hnone⟩ (ih.mp h)
    · intro h
      cases h with
      | here _ hpath hcontent => exact ⟨path, hpath, by rw [hcontent]; rfl⟩
      | later hpassed hrest =>
        obtain ⟨p, hp, hnone⟩ := hpassed
        exact ⟨p, hp, by rw [hnone]; exact ih.mpr hrest⟩

theorem findFile_eq_none_iff {paths : List Text} :
    findFile env fs paths = .ok none ↔ ∀ candidate ∈ paths, Passed env fs candidate := by
  induction paths with
  | nil => exact iff_of_true rfl (by simp)
  | cons candidate rest ih =>
    rw [findFile, bind_eq_ok_iff, List.forall_mem_cons, ← ih]
    constructor
    · rintro ⟨p, hp, h⟩
      split at h
      · cases h
      · rename_i hnone
        exact ⟨⟨p, hp, hnone⟩, h⟩
    · rintro ⟨⟨p, hp, hnone⟩, hrest⟩
      exact ⟨p, hp, by rw [hnone]; exact hrest⟩

/-- A search fails only at a candidate that cannot be expanded. -/
theorem exists_findFile (fs : FileSystem) {paths : List Text}
    (h : ∀ candidate ∈ paths, ∃ path, env.expand candidate = .ok path) :
    ∃ found, findFile env fs paths = .ok found := by
  induction paths with
  | nil => exact ⟨none, rfl⟩
  | cons candidate rest ih =>
    rw [List.forall_mem_cons] at h
    obtain ⟨⟨path, hpath⟩, hrest⟩ := h
    obtain ⟨found, hfound⟩ := ih hrest
    rw [findFile, hpath]
    cases hcontent : fs.regular? path with
    | none => exact ⟨found, by simpa only [bind, Except.bind, hcontent] using hfound⟩
    | some content =>
      exact ⟨some (path, content), by simp only [bind, Except.bind, hcontent]; rfl⟩

/-- Every candidate can be expanded if the given one can. -/
theorem exists_expand_of_mem_searchPaths (henv : env.Named)
    (hgiven : ∀ path ∈ given, Accounts.HomeNamed path) :
    ∀ candidate ∈ searchPaths env given, ∃ path, env.expand candidate = .ok path := by
  intro candidate hmem
  refine (env.accounts.exists_expand_iff env.home candidate).mpr ?_
  rw [searchPaths, List.mem_append, List.mem_filter, List.mem_filterMap] at hmem
  rcases hmem with ⟨⟨written, hwritten, rfl⟩, _⟩ | hdefault
  · simp only [List.mem_cons, List.not_mem_nil, or_false] at hwritten
    rcases hwritten with rfl | hconfig
    · exact hgiven candidate rfl
    · exact Accounts.homeNamed_of_named (henv.lookup hconfig.symm)
  · have hall : ∀ candidate ∈ defaultPaths, Accounts.HomeNamed candidate := by decide
    exact hall candidate hdefault

/-- A given path that cannot be expanded ends the search. -/
theorem baseOf_of_not_homeNamed [Limits] (env : Environment) (fs : FileSystem) {path : Text}
    (h : ¬ Accounts.HomeNamed path) : ∃ f, baseOf env fs (some path) = .error (.fault f) := by
  have hnonempty : path.isEmpty = false := by
    cases path with
    | nil => exact absurd (by decide : Accounts.HomeNamed []) h
    | cons c rest => rfl
  have hfirst : ∃ rest, searchPaths env (some path) = path :: rest := by
    cases hconfig : env.lookup? configVariable <;>
      simp [searchPaths, hconfig, hnonempty, List.filter_cons]
  obtain ⟨rest, hrest⟩ := hfirst
  cases hexpand : env.expand path with
  | ok p => exact absurd ((env.accounts.exists_expand_iff env.home path).mp ⟨p, hexpand⟩) h
  | error f =>
    refine ⟨f, ?_⟩
    rw [baseOf, hrest, findFile, hexpand]
    rfl

/-- The file that the settings are read from, and what can be read there. -/
def Chosen (env : Environment) (fs : FileSystem) (given : Option Text) (path : Text)
    (content : Except FileError (List UInt8)) : Prop :=
  FirstFile env fs (searchPaths env given) path content

/-- What the chosen file says, with its path; without a file nothing is said. -/
inductive Said [Limits] (env : Environment) (fs : FileSystem) (given : Option Text) :
    Members → Option Text → Prop
  | nothing : (∀ candidate ∈ searchPaths env given, Passed env fs candidate) →
    Said env fs given [] none
  | members {path : Text} {bytes : List UInt8} {raw : Members} :
    Chosen env fs given path (.ok bytes) → rawOfBytes path bytes = .ok (.dict raw) → Valid raw →
    Said env fs given raw (some path)

theorem ofFile_eq_ok_iff [Limits] {path : Text} {bytes : List UInt8} {s : Settings} :
    ofFile path bytes = .ok s ↔ ∃ raw, rawOfBytes path bytes = .ok (.dict raw) ∧ Valid raw ∧
      Holds raw s ∧ s.source = none ∧ s.path = some path := by
  show rawOfBytes path bytes >>= ofRoot path = .ok s ↔ _
  rw [bind_eq_ok_iff]
  simp only [ofRoot_eq_ok_iff]
  constructor
  · rintro ⟨root, hroot, raw, rfl, h⟩
    exact ⟨raw, hroot, h⟩
  · rintro ⟨raw, hraw, h⟩
    exact ⟨_, hraw, raw, rfl, h⟩

/-- Only a file that can be read gives settings. -/
theorem ofFound_eq_ok_iff [Limits] {path : Text} {content : Except FileError (List UInt8)}
    {s : Settings} :
    ofFound path content = .ok s ↔ ∃ bytes, content = .ok bytes ∧ ofFile path bytes = .ok s := by
  cases content <;> simp [ofFound, refuse]

theorem default_holds : Holds [] Settings.default := by
  constructor <;> rfl

/-- The settings of the file layer are what the chosen file says, or the defaults. -/
theorem baseOf_eq_ok_iff [Limits] {s : Settings} :
    baseOf env fs given = .ok s ↔
      ∃ raw path, Said env fs given raw path ∧ Holds raw s ∧ s.source = none ∧ s.path = path := by
  rw [baseOf]
  constructor
  · intro h
    split at h
    · cases h
    · rename_i hnone
      obtain rfl := Except.ok.inj h
      exact ⟨[], none, .nothing (findFile_eq_none_iff.mp hnone), default_holds, rfl, rfl⟩
    · rename_i path content hsome
      obtain ⟨bytes, rfl, hfile⟩ := ofFound_eq_ok_iff.mp h
      obtain ⟨raw, hraw, hvalid, h⟩ := ofFile_eq_ok_iff.mp hfile
      exact ⟨raw, some path, .members (findFile_eq_some_iff.mp hsome) hraw hvalid, h⟩
  · rintro ⟨raw, path, hsaid, hholds, hsource, hpath⟩
    cases hsaid with
    | nothing hpassed =>
      rw [findFile_eq_none_iff.mpr hpassed, hholds.unique default_holds hsource hpath]
    | members hchosen hraw hvalid =>
      rw [findFile_eq_some_iff.mpr hchosen]
      exact ofFile_eq_ok_iff.mpr ⟨raw, hraw, hvalid, hholds, hsource, hpath⟩

/-! ### Variables above the file -/

/-- What a variable says is above what is below, and that stands without it. -/
def Overridden {α : Type} (text? : Option Text) (spells : Text → α → Prop) (below above : α) :
    Prop :=
  match text? with
  | none => above = below
  | some text => spells text above

/-- A text that says whether something is on: one of the words for it, in any case. -/
def SpellsSwitch (text : Text) (on : Bool) : Prop :=
  ∃ word ∈ if on then trueWords else falseWords, Text.SameUpToCase (Text.trim text) word

/-- What the environment makes of settings; the source apart. -/
structure Above (env : Environment) (below above : Settings) : Prop where
  version : above.version = below.version
  path : above.path = below.path
  options : above.reload.options = below.reload.options
  host : above.server.host = below.server.host
  port : Overridden (env.lookup? portVariable) Numeral.SpellsInteger below.server.port
    above.server.port
  enabled : Overridden (env.lookup? reloadVariable) SpellsSwitch below.reload.enabled
    above.reload.enabled

theorem overridePort_eq_ok_iff {s s' : Settings} :
    overridePort env s = .ok s' ↔ ∃ port,
      Overridden (env.lookup? portVariable) Numeral.SpellsInteger s.server.port port ∧
      s' = { s with server := { s.server with port := port } } := by
  rw [overridePort]
  cases env.lookup? portVariable with
  | none =>
    simp only [Overridden, exists_eq_left, Except.ok.injEq]
    exact eq_comm
  | some text =>
    simp only [Overridden, ← Numeral.readInteger_eq_ok_iff]
    cases Numeral.readInteger 10 text <;> simp [refuse, eq_comm]

/-- Trimmed and in lower case a text is a word exactly if it is the word in any case. -/
theorem lowerAscii_mem_iff {words : List Text}
    (hwords : ∀ word ∈ words, Text.lowerAscii word = word) (s : Text) :
    Text.lowerAscii s ∈ words ↔ ∃ word ∈ words, Text.SameUpToCase s word := by
  constructor
  · intro h
    exact ⟨_, h, Text.lowerAscii_eq_iff.mp (Text.lowerAscii_lowerAscii s).symm⟩
  · rintro ⟨word, hword, hsame⟩
    rw [Text.lowerAscii_eq_iff.mpr hsame, hwords word hword]
    exact hword

theorem spellsSwitch_iff (text : Text) (on : Bool) :
    SpellsSwitch text on ↔
      Text.lowerAscii (Text.trim text) ∈ if on then trueWords else falseWords := by
  rw [SpellsSwitch, lowerAscii_mem_iff]
  cases on <;> decide

theorem overrideReload_eq_ok_iff {s s' : Settings} :
    overrideReload env s = .ok s' ↔ ∃ enabled,
      Overridden (env.lookup? reloadVariable) SpellsSwitch s.reload.enabled enabled ∧
      s' = { s with reload := { s.reload with enabled := enabled } } := by
  rw [overrideReload]
  cases env.lookup? reloadVariable with
  | none =>
    simp only [Overridden, exists_eq_left, Except.ok.injEq]
    exact eq_comm
  | some text =>
    have hdisjoint : ∀ word ∈ trueWords, word ∉ falseWords := by decide
    simp only [Overridden, spellsSwitch_iff, Bool.exists_bool, Bool.false_eq_true, if_false,
      if_true, List.contains_iff_mem]
    generalize Text.lowerAscii (Text.trim text) = word
    by_cases htrue : word ∈ trueWords
    · simp [htrue, hdisjoint word htrue, eq_comm]
    · by_cases hfalse : word ∈ falseWords <;> simp [htrue, hfalse, refuse, eq_comm]

theorem applyEnvironment_eq_ok_iff {below above : Settings} :
    applyEnvironment env below = .ok above ↔
      Above env below above ∧ above.source = below.source := by
  show overridePort env below >>= overrideReload env = .ok above ↔ _
  simp only [bind_eq_ok_iff, overridePort_eq_ok_iff, overrideReload_eq_ok_iff]
  constructor
  · rintro ⟨_, ⟨port, hport, rfl⟩, enabled, henabled, rfl⟩
    exact ⟨⟨rfl, rfl, rfl, rfl, hport, henabled⟩, rfl⟩
  · rintro ⟨⟨hversion, hpath, hoptions, hhost, hport, henabled⟩, hsource⟩
    refine ⟨_, ⟨above.server.port, hport, rfl⟩, above.reload.enabled, henabled, ?_⟩
    obtain ⟨version, source, ⟨enabled, options⟩, ⟨host, port⟩, path⟩ := above
    cases hversion
    cases hpath
    cases hoptions
    cases hhost
    cases hsource
    rfl

/-! ### The source -/

/-- The source that the environment names: a file that is named wins over an inline text. -/
inductive NamesSource (env : Environment) : Source → Prop
  | file {text path : Text} : env.lookup? fileVariable = some text → ¬ Text.Blank text →
    env.expand (Text.trim text) = .ok path → NamesSource env (.file path)
  | inline {text : Text} : Text.Blank ((env.lookup? fileVariable).getD []) →
    env.lookup? inlineVariable = some text →
    NamesSource env (.inline (.text text) inlineVariable)

theorem sourceOf_eq_some_iff {source : Source} :
    sourceOf env = .ok (some source) ↔ NamesSource env source := by
  have hblank : (Text.trim ((env.lookup? fileVariable).getD [])).isEmpty = true ↔
      Text.Blank ((env.lookup? fileVariable).getD []) := by
    rw [List.isEmpty_iff, Text.trim_eq_nil_iff]
  rw [sourceOf]
  constructor
  · intro h
    split at h
    · rename_i hempty
      obtain ⟨text, htext, rfl⟩ := Option.map_eq_some_iff.mp (Except.ok.inj h)
      exact .inline (hblank.mp hempty) htext
    · rename_i hnonempty
      cases htext : env.lookup? fileVariable with
      | none => exact absurd (by rw [htext]; rfl) hnonempty
      | some text =>
        rw [hblank, htext] at hnonempty
        rw [htext] at h
        cases hpath : env.expand (Text.trim text) with
        | error f => simp [Except.map, hpath] at h
        | ok path =>
          simp only [Option.getD_some, hpath, Except.map, Except.ok.injEq, Option.some.injEq] at h
          rw [← h]
          exact .file htext hnonempty hpath
  · intro h
    cases h with
    | file htext hnonblank hpath =>
      have hnonempty := mt hblank.mp (by rwa [htext])
      rw [if_neg hnonempty, htext, Option.getD_some, hpath]
      rfl
    | inline hempty htext => rw [if_pos (hblank.mpr hempty), htext, Option.map_some]

/-- Some source is named exactly if a file or an inline text is given. -/
theorem exists_namesSource_iff (henv : env.Named) :
    (∃ source, NamesSource env source) ↔
      ¬ Text.Blank ((env.lookup? fileVariable).getD []) ∨
        (env.lookup? inlineVariable).isSome := by
  constructor
  · rintro ⟨source, h⟩
    cases h with
    | file htext hnonblank _ => exact .inl (by rwa [htext])
    | inline _ htext => exact .inr (by rw [htext]; rfl)
  · intro h
    by_cases hblank : Text.Blank ((env.lookup? fileVariable).getD [])
    · obtain ⟨text, htext⟩ := Option.isSome_iff_exists.mp (h.resolve_left (not_not_intro hblank))
      exact ⟨_, .inline hblank htext⟩
    · cases htext : env.lookup? fileVariable with
      | none => exact absurd (by rw [htext]; exact nofun) hblank
      | some text =>
        rw [htext] at hblank
        have hnamed : Path.Named (Text.trim text) := fun c hc =>
          henv.lookup htext c (Text.trim_subset text hc)
        obtain ⟨path, hpath⟩ := Environment.exists_expand_of_named hnamed
        exact ⟨_, .file htext hblank hpath⟩

/-- Naming a source is no fault. -/
theorem exists_sourceOf (henv : env.Named) : ∃ source?, sourceOf env = .ok source? := by
  by_cases hsource : ∃ source, NamesSource env source
  · obtain ⟨source, h⟩ := hsource
    exact ⟨_, sourceOf_eq_some_iff.mpr h⟩
  · rw [exists_namesSource_iff henv, not_or, not_not] at hsource
    have hempty : (Text.trim ((env.lookup? fileVariable).getD [])).isEmpty = true := by
      rw [List.isEmpty_iff, Text.trim_eq_nil_iff]
      exact hsource.1
    exact ⟨_, by rw [sourceOf, if_pos hempty]⟩

/-! ### All layers -/

/-- What must be acceptable for settings to be loaded. -/
structure Acceptable [Limits] (env : Environment) (fs : FileSystem) (given : Option Text) :
    Prop where
  /-- The chosen file, if there is one, can be read and is a valid mapping. -/
  file : ∀ path content, Chosen env fs given path content →
    ∃ bytes raw, content = .ok bytes ∧ rawOfBytes path bytes = .ok (.dict raw) ∧ Valid raw
  port : ∀ text, env.lookup? portVariable = some text → ∃ n, Numeral.SpellsInteger text n
  reload : ∀ text, env.lookup? reloadVariable = some text → ∃ on, SpellsSwitch text on
  source : ¬ Text.Blank ((env.lookup? fileVariable).getD []) ∨
    (env.lookup? inlineVariable).isSome

/-- Loaded settings: the source that is named, and the variables above the file above the
defaults. -/
def Layered [Limits] (env : Environment) (fs : FileSystem) (given : Option Text) (s : Settings) :
    Prop :=
  ∃ raw path below source, Said env fs given raw path ∧ Holds raw below ∧ below.path = path ∧
    Above env below s ∧ NamesSource env source ∧ s.source = some source

/-- What is read of the file that is chosen, if there is one, is a document or none, and its values
can be shown. -/
def Legible [Limits] (env : Environment) (fs : FileSystem) (given : Option Text) : Prop :=
  ∀ path bytes, Chosen env fs given path (.ok bytes) → Told (rawOfBytes path bytes) ∧
    ∀ raw, rawOfBytes path bytes = .ok (.dict raw) → Showable raw

/-- Settings are loaded exactly if they are layered. -/
theorem ofEnvironment_eq_ok_iff_layered [Limits] {s : Settings} :
    ofEnvironment env fs given = .ok s ↔ Layered env fs given s := by
  rw [ofEnvironment_eq_ok_iff]
  simp only [baseOf_eq_ok_iff, applyEnvironment_eq_ok_iff, sourceOf_eq_some_iff]
  constructor
  · rintro ⟨below, base, source, ⟨raw, path, hsaid, hholds, _, hpath⟩, ⟨habove, _⟩, hsource, rfl⟩
    exact ⟨raw, path, below, source, hsaid, hholds, hpath,
      ⟨habove.version, habove.path, habove.options, habove.host, habove.port, habove.enabled⟩,
      hsource, rfl⟩
  · rintro ⟨raw, path, below, source, hsaid, hholds, hpath, habove, hsource, hs⟩
    refine ⟨{ below with source := none }, { s with source := none }, source,
      ⟨raw, path, hsaid, ?_, rfl, hpath⟩, ⟨?_, rfl⟩, hsource, ?_⟩
    · exact ⟨hholds.version, hholds.enabled, hholds.forcePolling, hholds.pollDelay,
        hholds.debounce, hholds.rescanInterval, hholds.host, hholds.port⟩
    · exact ⟨habove.version, habove.path, habove.options, habove.host, habove.port,
        habove.enabled⟩
    · rw [← hs]

/-- Something is said exactly if a chosen file can be read and is a valid mapping. -/
theorem exists_said_iff [Limits] (henv : env.Named)
    (hgiven : ∀ path ∈ given, Accounts.HomeNamed path) :
    (∃ raw path, Said env fs given raw path) ↔ ∀ path content, Chosen env fs given path content →
      ∃ bytes raw, content = .ok bytes ∧ rawOfBytes path bytes = .ok (.dict raw) ∧ Valid raw := by
  constructor
  · rintro ⟨raw, said, hsaid⟩ path content hchosen
    have hfound := findFile_eq_some_iff.mpr hchosen
    cases hsaid with
    | nothing hpassed =>
      rw [findFile_eq_none_iff.mpr hpassed] at hfound
      cases hfound
    | members hchosen' hraw hvalid =>
      rw [findFile_eq_some_iff.mpr hchosen'] at hfound
      simp only [Except.ok.injEq, Option.some.injEq, Prod.mk.injEq] at hfound
      obtain ⟨rfl, rfl⟩ := hfound
      exact ⟨_, raw, rfl, hraw, hvalid⟩
  · intro h
    obtain ⟨found, hfound⟩ := exists_findFile fs
      (exists_expand_of_mem_searchPaths henv hgiven)
    cases found with
    | none => exact ⟨[], none, .nothing (findFile_eq_none_iff.mp hfound)⟩
    | some file =>
      obtain ⟨path, content⟩ := file
      have hchosen := findFile_eq_some_iff.mp hfound
      obtain ⟨bytes, raw, rfl, hraw, hvalid⟩ := h path content hchosen
      exact ⟨raw, some path, .members hchosen hraw hvalid⟩

theorem exists_overridden_iff {α : Type} {text? : Option Text} {spells : Text → α → Prop}
    (below : α) : (∃ above, Overridden text? spells below above) ↔
      ∀ text, text? = some text → ∃ above, spells text above := by
  cases text? <;> simp [Overridden]

/-- The environment makes something of settings exactly if its variables can be read. -/
theorem exists_above_iff (below : Settings) : (∃ above, Above env below above) ↔
    (∀ text, env.lookup? portVariable = some text → ∃ n, Numeral.SpellsInteger text n) ∧
      ∀ text, env.lookup? reloadVariable = some text → ∃ on, SpellsSwitch text on := by
  rw [← exists_overridden_iff below.server.port, ← exists_overridden_iff below.reload.enabled]
  constructor
  · rintro ⟨above, h⟩
    exact ⟨⟨_, h.port⟩, _, h.enabled⟩
  · rintro ⟨⟨port, hport⟩, enabled, henabled⟩
    exact ⟨⟨below.version, none, ⟨enabled, below.reload.options⟩, ⟨below.server.host, port⟩,
      below.path⟩, rfl, rfl, rfl, rfl, hport, henabled⟩

/-- What is said holds of some settings. -/
theorem Said.exists_holds [Limits] {raw : Members} {path : Option Text}
    (h : Said env fs given raw path) : ∃ below, Holds raw below ∧ below.path = path := by
  cases h with
  | nothing _ => exact ⟨Settings.default, default_holds, rfl⟩
  | members _ _ hvalid =>
    obtain ⟨below, hholds, _, hpath⟩ := hvalid.exists_holds (some _)
    exact ⟨below, hholds, hpath⟩

/-- There are layered settings exactly if every layer is acceptable. -/
theorem exists_layered_iff [Limits] (henv : env.Named)
    (hgiven : ∀ path ∈ given, Accounts.HomeNamed path) :
    (∃ s, Layered env fs given s) ↔ Acceptable env fs given := by
  constructor
  · rintro ⟨s, raw, path, below, source, hsaid, _, _, habove, hsource, _⟩
    obtain ⟨hport, hreload⟩ := (exists_above_iff below).mp ⟨s, habove⟩
    exact ⟨(exists_said_iff henv hgiven).mp ⟨raw, path, hsaid⟩, hport, hreload,
      (exists_namesSource_iff henv).mp ⟨source, hsource⟩⟩
  · intro h
    obtain ⟨raw, path, hsaid⟩ := (exists_said_iff henv hgiven).mpr h.file
    obtain ⟨below, hholds, hpath⟩ := hsaid.exists_holds
    obtain ⟨above, habove⟩ := (exists_above_iff below).mpr ⟨h.port, h.reload⟩
    obtain ⟨source, hsource⟩ := (exists_namesSource_iff henv).mpr h.source
    exact ⟨{ above with source := some source }, raw, path, below, source, hsaid, hholds, hpath,
      ⟨habove.version, habove.path, habove.options, habove.host, habove.port, habove.enabled⟩,
      hsource, rfl⟩

/-! ### Refusals -/

theorem told_applyEnvironment (s : Settings) : Told (applyEnvironment env s) := by
  refine Told.bind (x := overridePort env s) ?_ fun s _ => ?_
  · rw [overridePort]
    split
    · exact told_ok _
    · split
      · exact told_ok _
      · exact told_refuse _ _
  · rw [overrideReload]
    split
    · exact told_ok _
    · dsimp only
      split_ifs
      · exact told_ok _
      · exact told_ok _
      · exact told_refuse _ _

/-- Settings that can be found and shown are loaded or refused. -/
theorem told_ofEnvironment [Limits] (henv : env.Named)
    (hgiven : ∀ path ∈ given, Accounts.HomeNamed path)
    (hlegible : Legible env fs given) : Told (ofEnvironment env fs given) := by
  refine Told.bind (x := baseOf env fs given) ?_ fun _ _ =>
    Told.bind (told_applyEnvironment _) fun s _ => ?_
  · obtain ⟨found, hfound⟩ := exists_findFile fs
      (exists_expand_of_mem_searchPaths henv hgiven)
    rw [baseOf, hfound]
    cases found with
    | none => exact told_ok _
    | some file =>
      obtain ⟨path, content⟩ := file
      cases content with
      | error e => exact told_refuse _ _
      | ok bytes =>
        obtain ⟨htold, hshowable⟩ := hlegible path bytes (findFile_eq_some_iff.mp hfound)
        exact htold.bind fun root hroot => told_ofRoot fun raw hraw =>
          hshowable raw (hraw ▸ hroot)
  · obtain ⟨source?, hsource⟩ := exists_sourceOf henv
    rw [hsource]
    cases source? with
    | none => exact told_refuse _ _
    | some source => exact told_ok _

/-- **Settings are loaded exactly if every layer is acceptable, and as the layers say**; they are
refused otherwise.  Only a given path whose account name has no bytes is a fault. -/
theorem load_layers [Limits] (env : Environment) (fs : FileSystem) (given : Option Text)
    (henv : env.Named) (t : Trail) :
    ((∀ path ∈ given, Accounts.HomeNamed path) →
      ((∃ s, (load env fs given).result t = .ok s) ↔ Acceptable env fs given) ∧
      (Legible env fs given → ¬ Acceptable env fs given →
        ∃ r, (load env fs given).result t = .error (.refused r))) ∧
    (∀ s, (load env fs given).result t = .ok s → Layered env fs given s) ∧
    ((∃ path ∈ given, ¬ Accounts.HomeNamed path) →
      ∃ f, (load env fs given).result t = .error (.fault f)) := by
  rw [result_load]
  refine ⟨fun hgiven => ?_, fun s => ofEnvironment_eq_ok_iff_layered.mp, ?_⟩
  · have hloaded : (∃ s, ofEnvironment env fs given = .ok s) ↔ Acceptable env fs given := by
      rw [← exists_layered_iff henv hgiven]
      exact exists_congr fun s => ofEnvironment_eq_ok_iff_layered
    refine ⟨hloaded, fun hlegible hnot => ?_⟩
    cases hload : ofEnvironment env fs given with
    | ok s => exact absurd (hloaded.mp ⟨s, hload⟩) hnot
    | error e =>
      cases e with
      | refused r => exact ⟨r, rfl⟩
      | fault f => exact absurd hload (told_ofEnvironment henv hgiven hlegible f)
  · rintro ⟨path, hgiven, hnot⟩
    obtain ⟨f, hf⟩ := baseOf_of_not_homeNamed env fs hnot
    rw [Option.mem_def] at hgiven
    exact ⟨f, by rw [ofEnvironment, hgiven, hf]; rfl⟩

/-- An inline list, and a port with an underscore and white space. -/
def portEnvironment : Environment :=
  ⟨[(portVariable, " 9_400\n"), (inlineVariable, "x")], "/", ⟨[]⟩⟩

def emptyDisk : FileSystem := ⟨.empty, "/"⟩

/-- A tilde with an account name without bytes. -/
def namelessPath : Text := [('~' : CodePoint), ⟨0xD800, by decide⟩, Path.slash, ('x' : CodePoint)]

attribute [local instance] Limits.usual

/-- Without a file the port is that of the variable; the path without an account is a fault. -/
theorem variable_port_loads :
    (∃ s, (load portEnvironment emptyDisk none).result .start = .ok s ∧ s.server.port = 9400) ∧
      ∃ f, (load portEnvironment emptyDisk (some namelessPath)).result .start =
        .error (.fault f) := by
  have hnone :
      findFile portEnvironment emptyDisk (searchPaths portEnvironment none) = .ok none := by
    decide +kernel
  have hport : Numeral.readInteger 10 " 9_400\n" = .ok 9400 := by decide +kernel
  obtain ⟨hloaded, hlayered, _⟩ :=
    load_layers portEnvironment emptyDisk none (by decide +kernel) .start
  obtain ⟨_, _, hnameless⟩ :=
    load_layers portEnvironment emptyDisk (some namelessPath) (by decide +kernel) .start
  have hacceptable : Acceptable portEnvironment emptyDisk none := by
    refine ⟨fun path content hchosen => ?_, fun text htext => ?_, fun text htext => ?_,
      .inr (by decide +kernel)⟩
    · have hfound := findFile_eq_some_iff.mpr hchosen
      rw [hnone] at hfound
      cases hfound
    · obtain rfl : (" 9_400\n" : Text) = text := Option.some.inj htext
      exact ⟨9400, (Numeral.readInteger_eq_ok_iff _ _).mp hport⟩
    · cases htext
  obtain ⟨s, hs⟩ := (hloaded nofun).1.mpr hacceptable
  obtain ⟨_, _, _, _, _, _, _, habove, _, _⟩ := hlayered s hs
  have hspells : Numeral.SpellsInteger " 9_400\n" s.server.port := habove.port
  rw [← Numeral.readInteger_eq_ok_iff, hport, Except.ok.injEq] at hspells
  exact ⟨⟨s, hs, hspells.symm⟩, hnameless ⟨namelessPath, rfl, by decide +kernel⟩⟩

end Settings

end AdmissionControl
