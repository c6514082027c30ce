import AdmissionControl.Proofs.Settings.Layers
import AdmissionControl.Proofs.Yaml.Document

/-!
# Settings that are neither loaded nor refused

Loading the settings ends with settings or with a refusal and its message, and with a fault in these
cases only: a path cannot be expanded, a file cannot be read as a document, the version cannot be
compared, or a refusal would have to show a value that cannot be written.

* `Check`, `FirstMisfit` — what the members of a section must be, and the first that is not so.
* `Unshown` — the mappings that are a fault, and which one.
* `ofRoot_fault_iff` — exactly these are one.
* `unreadable_of_rawOfBytes` — the faults of a file's bytes.
* `Escapes`, `load_told_unless_escapes` — all cases in which loading is a fault.
-/

namespace AdmissionControl.Settings

variable {α β : Type} {path : Option Text} {m raw : Members} {f : Fault}

/-! ### Members that do not fit -/

/-- A name, and what its member must be. -/
abbrev Check := Text × (Value → Bool)

def MemberType.check (type : MemberType α) (name : Text) : Check :=
  (name, fun v => (type.ofValue? v).isSome)

/-- The members of the two sections, in the order in which they are read. -/
def reloadChecks : List Check :=
  [boolType.check "enabled", boolType.check "force_polling", integerType.check "poll_delay_ms",
    integerType.check "debounce_ms", integerType.check rescanName]

def serverChecks : List Check := [textType.check "host", integerType.check "port"]

/-- The member is what it must be, or missing. -/
def Fits (m : Members) (c : Check) : Prop := ∀ v, Value.member? c.1 m = some v → c.2 v = true

/-- The first member that is not what it must be. -/
inductive FirstMisfit (m : Members) : List Check → Value → Prop
  | here {c : Check} {v : Value} (rest : List Check) :
    Value.member? c.1 m = some v → c.2 v = false → FirstMisfit m (c :: rest) v
  | later {c : Check} {rest : List Check} {v : Value} :
    Fits m c → FirstMisfit m rest v → FirstMisfit m (c :: rest) v

/-- The first misfit cannot be written, or there is none and something else is the case. -/
def Stumbles [Limits] (m : Members) (f : Fault) (checks : List Check) (otherwise : Prop) : Prop :=
  (∃ v, FirstMisfit m checks v ∧ v.literal = .error f) ∨ (∀ c ∈ checks, Fits m c) ∧ otherwise

theorem stumbles_nil_iff [Limits] {otherwise : Prop} : Stumbles m f [] otherwise ↔ otherwise := by
  constructor
  · rintro (⟨v, hmisfit, _⟩ | ⟨_, h⟩)
    · cases hmisfit
    · exact h
  · intro h
    exact .inr ⟨by simp, h⟩

theorem stumbles_cons_iff [Limits] {c : Check} {rest : List Check} {otherwise : Prop} :
    Stumbles m f (c :: rest) otherwise ↔
      (∃ v, Value.member? c.1 m = some v ∧ c.2 v = false ∧ v.literal = .error f) ∨
        Fits m c ∧ Stumbles m f rest otherwise := by
  constructor
  · rintro (⟨v, hmisfit, hliteral⟩ | ⟨hall, h⟩)
    · cases hmisfit with
      | here _ hmember hfits => exact .inl ⟨v, hmember, hfits, hliteral⟩
      | later hfits hmisfit => exact .inr ⟨hfits, .inl ⟨v, hmisfit, hliteral⟩⟩
    · rw [List.forall_mem_cons] at hall
      exact .inr ⟨hall.1, .inr ⟨hall.2, h⟩⟩
  · rintro (⟨v, hmember, hfits, hliteral⟩ | ⟨hfits, ⟨v, hmisfit, hliteral⟩ | ⟨hall, h⟩⟩)
    · exact .inl ⟨v, .here rest hmember hfits, hliteral⟩
    · exact .inl ⟨v, .later hfits hmisfit, hliteral⟩
    · exact .inr ⟨List.forall_mem_cons.mpr ⟨hfits, hall⟩, h⟩

section Member

variable {type : MemberType α} {name : Text} {default : α}

theorem exists_member_iff [Limits] :
    (∃ a, member path type name default m = .ok a) ↔ Fits m (type.check name) := by
  rw [member, Fits]
  simp only [MemberType.check]
  cases Value.member? name m with
  | none => simp
  | some v =>
    cases htype : type.ofValue? v with
    | some a => simp [htype]
    | none => cases hliteral : v.literal <;> simp [htype, hliteral, refuse]

theorem member_fault_iff [Limits] : member path type name default m = .error (.fault f) ↔
    ∃ v, Value.member? name m = some v ∧ (type.check name).2 v = false ∧ v.literal = .error f := by
  rw [member]
  simp only [MemberType.check]
  cases Value.member? name m with
  | none => simp
  | some v =>
    cases htype : type.ofValue? v with
    | some a => simp [htype]
    | none => cases hliteral : v.literal <;> simp [htype, hliteral, refuse]

/-- A member and what follows it. -/
theorem member_bind_fault_iff [Limits] {next : α → Except Error β} {rest : List Check}
    {otherwise : Prop} (hnext : ∀ a, member path type name default m = .ok a →
      (next a = .error (.fault f) ↔ Stumbles m f rest otherwise)) :
    member path type name default m >>= next = .error (.fault f) ↔
      Stumbles m f (type.check name :: rest) otherwise := by
  rw [bind_eq_error_iff, stumbles_cons_iff, member_fault_iff, ← exists_member_iff]
  apply or_congr_right
  constructor
  · rintro ⟨a, ha, hfault⟩
    exact ⟨⟨a, ha⟩, (hnext a ha).mp hfault⟩
  · rintro ⟨⟨a, ha⟩, hstumbles⟩
    exact ⟨a, ha, (hnext a ha).mpr hstumbles⟩

end Member

/-! ### The two sections -/

/-- The rescan interval is not positive, and cannot be written. -/
def UnwrittenInterval (m : Members) (f : Fault) : Prop :=
  ∃ n, Value.member? rescanName m = some (.integer n) ∧ n ≤ 0 ∧ Value.integerLiteral n = .error f

theorem reloadOfMembers_fault_iff [Limits] : reloadOfMembers path m = .error (.fault f) ↔
    Stumbles m f reloadChecks (UnwrittenInterval m f) := by
  rw [reloadOfMembers]
  refine member_bind_fault_iff fun _ _ => member_bind_fault_iff fun _ _ =>
    member_bind_fault_iff fun _ _ => member_bind_fault_iff fun _ _ =>
    member_bind_fault_iff fun rescanInterval hread => ?_
  rw [member_eq_ok_iff integerType_reads] at hread
  rw [stumbles_nil_iff, UnwrittenInterval]
  cases hmember : Value.member? rescanName m with
  | none =>
    -- the default is positive
    rw [hmember, Option.getD_none, Value.integer.injEq] at hread
    rw [← hread, if_neg (by decide)]
    constructor
    · intro h
      cases h
    · rintro ⟨n, h, _⟩
      cases h
  | some v =>
    rw [hmember, Option.getD_some] at hread
    subst hread
    simp only [Option.some.injEq, Value.integer.injEq, exists_eq_left']
    by_cases hpositive : rescanInterval ≤ 0
    · cases hliteral : Value.integerLiteral rescanInterval <;>
        simp [hpositive, written, refuse, bind, Except.bind]
    · simp [hpositive, pure, Except.pure]

theorem serverOfMembers_fault_iff [Limits] : serverOfMembers path m = .error (.fault f) ↔
    Stumbles m f serverChecks False := by
  refine member_bind_fault_iff fun _ _ => member_bind_fault_iff fun _ _ => ?_
  rw [stumbles_nil_iff, iff_false]
  intro h
  cases h

/-- A member fits if it is what some value of its type is written as. -/
theorem fits_iff {type : MemberType α} {write : α → Value} (h : type.Reads write) (name : Text)
    (default : α) : Fits m (type.check name) ↔
      ∃ a, (Value.member? name m).getD (write default) = write a := by
  rw [exists_getD_eq_iff, Fits]
  apply forall₂_congr
  intro v _
  rw [MemberType.check, Option.isSome_iff_exists]
  exact exists_congr (h v)

/-- The reload section is read exactly if every member fits and the interval is positive. -/
theorem exists_reloadOfMembers_iff [Limits] : (∃ r, reloadOfMembers path m = .ok r) ↔
    (∀ c ∈ reloadChecks, Fits m c) ∧
      ∀ n, Value.member? rescanName m = some (.integer n) → 0 < n := by
  have hpositive : ∀ n, (Value.member? rescanName m).getD
      (.integer Settings.default.reload.options.rescanInterval) = .integer n →
      (0 < n ↔ ∀ k, Value.member? rescanName m = some (.integer k) → 0 < k) := by
    intro n hn
    cases hmember : Value.member? rescanName m with
    | none =>
      rw [hmember, Option.getD_none, Value.integer.injEq] at hn
      rw [← hn]
      exact iff_of_true (by decide) (by simp)
    | some v =>
      rw [hmember, Option.getD_some] at hn
      simp [hn]
  simp only [reloadOfMembers_eq_ok_iff, reloadChecks, List.forall_mem_cons, List.not_mem_nil,
    false_imp_iff, implies_true, and_true,
    fits_iff boolType_reads "enabled" Settings.default.reload.enabled,
    fits_iff boolType_reads "force_polling" Settings.default.reload.options.forcePolling,
    fits_iff integerType_reads "poll_delay_ms" Settings.default.reload.options.pollDelay,
    fits_iff integerType_reads "debounce_ms" Settings.default.reload.options.debounce,
    fits_iff integerType_reads rescanName Settings.default.reload.options.rescanInterval]
  constructor
  · rintro ⟨r, he, hf, hp, hd, hr, h⟩
    exact ⟨⟨⟨_, he⟩, ⟨_, hf⟩, ⟨_, hp⟩, ⟨_, hd⟩, ⟨_, hr⟩⟩, (hpositive _ hr).mp h⟩
  · rintro ⟨⟨⟨enabled, he⟩, ⟨forcePolling, hf⟩, ⟨pollDelay, hp⟩, ⟨debounce, hd⟩,
      ⟨rescanInterval, hr⟩⟩, h⟩
    exact ⟨⟨enabled, ⟨forcePolling, pollDelay, debounce, rescanInterval⟩⟩, he, hf, hp, hd, hr,
      (hpositive _ hr).mpr h⟩

/-! ### A whole mapping -/

/-- The members of a section, none if it is missing or null. -/
inductive Section (raw : Members) (group : Text) : Members → Prop
  | missing : Value.member? group raw = none → Section raw group []
  | null : Value.member? group raw = some .none → Section raw group []
  | members {inner : Members} : Value.member? group raw = some (.dict inner) →
    Section raw group inner

theorem members_eq_ok_iff {group : Text} {inner : Members} :
    members path group raw = .ok inner ↔ Section raw group inner := by
  rw [members]
  constructor
  · intro h
    split at h
    · rename_i hmember
      rw [← Except.ok.inj h]
      exact .missing hmember
    · rename_i hmember
      rw [← Except.ok.inj h]
      exact .null hmember
    · rename_i hmember
      rw [← Except.ok.inj h]
      exact .members hmember
    · cases h
  · intro h
    cases h with
    | missing hmember | null hmember | members hmember => simp only [hmember]

/-- The version is there, and it is the supported one. -/
def SupportedVersion (raw : Members) : Prop :=
  ∃ v, Value.member? "version" raw = some v ∧ v ≠ .none ∧
    v.same (.integer supportedVersion) = true

/-- The mappings that are a fault: the version cannot be looked up, or the first thing that is wrong
is a value that cannot be written. -/
inductive Unshown [Limits] (raw : Members) : Fault → Prop
  | unhashable {v : Value} : Value.member? "version" raw = some v → ¬ v.Hashable →
    Unshown raw (.unhashable v.kind)
  | version {v : Value} {f : Fault} : Value.member? "version" raw = some v → v ≠ .none →
    v.Hashable → v.same (.integer supportedVersion) = false → v.display = .error f → Unshown raw f
  | reload {inner : Members} {v : Value} {f : Fault} : SupportedVersion raw →
    Section raw "reload" inner → FirstMisfit inner reloadChecks v → v.literal = .error f →
    Unshown raw f
  | interval {inner : Members} {f : Fault} : SupportedVersion raw → Section raw "reload" inner →
    (∀ c ∈ reloadChecks, Fits inner c) → UnwrittenInterval inner f → Unshown raw f
  | server {inner inner' : Members} {v : Value} {f : Fault} : SupportedVersion raw →
    Section raw "reload" inner → (∀ c ∈ reloadChecks, Fits inner c) →
    (∀ n, Value.member? rescanName inner = some (.integer n) → 0 < n) →
    Section raw "server" inner' → FirstMisfit inner' serverChecks v → v.literal = .error f →
    Unshown raw f

theorem checkVersion_fault_iff [Limits] {path : Text} {version : Option Value} :
    checkVersion path version = .error (.fault f) ↔
      ∃ v, version = some v ∧ v ≠ .none ∧
        (¬ v.Hashable ∧ f = .unhashable v.kind ∨
          v.Hashable ∧ v.same (.integer supportedVersion) = false ∧ v.display = .error f) := by
  have hunhashable : ∀ w : Value, ¬ w.Hashable →
      ((.error (.fault (.unhashable w.kind)) : Except Error Unit) = .error (.fault f) ↔
        (¬ w.Hashable ∧ f = .unhashable w.kind ∨
          w.Hashable ∧ w.same (.integer supportedVersion) = false ∧ w.display = .error f)) := by
    intro w hw
    simp only [Except.error.injEq, Error.fault.injEq, hw, not_false_eq_true, true_and, false_and,
      or_false]
    exact eq_comm
  unfold checkVersion
  split
  · simp [refuse]
  · simp [refuse]
  · rename_i v hv
    replace hv : v ≠ .none := hv
    simp only [Option.some.injEq, exists_eq_left', hv, ne_eq, not_false_eq_true, true_and]
    split
    · exact hunhashable _ id
    · exact hunhashable _ id
    · exact hunhashable _ id
    · rename_i hlist hdict hloop
      have hhashable : v.Hashable := by
        cases v with
        | list items => exact hlist items rfl
        | dict members => exact hdict members rfl
        | loop ofList => exact hloop ofList rfl
        | _ => trivial
      by_cases hsame : v.same (.integer supportedVersion) = true
      · simp [hsame, hhashable]
      · rw [if_neg hsame]
        cases hshown : v.display <;> simp [refuse, hsame, hhashable]

theorem ofMembers_fault_iff [Limits] : ofMembers path raw = .error (.fault f) ↔
    ∃ inner, Section raw "reload" inner ∧
      (Stumbles inner f reloadChecks (UnwrittenInterval inner f) ∨
        (∃ r, reloadOfMembers path inner = .ok r) ∧
          ∃ inner', Section raw "server" inner' ∧ Stumbles inner' f serverChecks False) := by
  have hmembers : ∀ group, members path group raw ≠ .error (.fault f) :=
    fun group => told_members f
  simp only [ofMembers, bind_eq_error_iff, hmembers, false_or, members_eq_ok_iff,
    reloadOfMembers_fault_iff, serverOfMembers_fault_iff]
  refine exists_congr fun inner => and_congr_right fun _ => or_congr_right ?_
  constructor
  · rintro ⟨r, hr, inner', hsection, hfault | ⟨_, _, hnone⟩⟩
    · exact ⟨⟨r, hr⟩, inner', hsection, hfault⟩
    · cases hnone
  · rintro ⟨⟨r, hr⟩, inner', hsection, hfault⟩
    exact ⟨r, hr, inner', hsection, .inl hfault⟩

/-- **Which roots are a fault**, and which fault. -/
theorem ofRoot_fault_iff [Limits] {path : Text} {root : Value} :
    ofRoot path root = .error (.fault f) ↔ ∃ raw, root = .dict raw ∧ Unshown raw f := by
  cases root with
  | dict raw =>
    rw [ofRoot, bind_eq_error_iff, checkVersion_fault_iff, ofMembers_fault_iff]
    simp only [Value.dict.injEq, exists_eq_left']
    constructor
    · rintro (⟨v, hversion, hnull, ⟨hhashable, rfl⟩ | ⟨hhashable, hsame, hdisplay⟩⟩ |
        ⟨_, hsupported, inner, hreload, hfault⟩)
      · exact .unhashable hversion hhashable
      · exact .version hversion hnull hhashable hsame hdisplay
      · rw [checkVersion_eq_ok_iff] at hsupported
        rw [exists_reloadOfMembers_iff] at hfault
        rcases hfault with (⟨v, hmisfit, hliteral⟩ | ⟨hfits, hinterval⟩) |
          ⟨⟨hfits, hpositive⟩, inner', hserver, ⟨v, hmisfit, hliteral⟩ | ⟨_, hfalse⟩⟩
        · exact .reload hsupported hreload hmisfit hliteral
        · exact .interval hsupported hreload hfits hinterval
        · exact .server hsupported hreload hfits hpositive hserver hmisfit hliteral
        · exact hfalse.elim
    · have hchecked : SupportedVersion raw → checkVersion path (Value.member? "version" raw) =
          .ok () := checkVersion_eq_ok_iff.mpr
      intro h
      cases h with
      | @unhashable v hversion hhashable =>
        have hnull : v ≠ .none := by
          rintro rfl
          exact hhashable trivial
        exact .inl ⟨v, hversion, hnull, .inl ⟨hhashable, rfl⟩⟩
      | @version v _ hversion hnull hhashable hsame hdisplay =>
        exact .inl ⟨v, hversion, hnull, .inr ⟨hhashable, hsame, hdisplay⟩⟩
      | @reload inner v _ hsupported hreload hmisfit hliteral =>
        exact .inr ⟨(), hchecked hsupported, inner, hreload, .inl (.inl ⟨v, hmisfit, hliteral⟩)⟩
      | @interval inner _ hsupported hreload hfits hinterval =>
        exact .inr ⟨(), hchecked hsupported, inner, hreload, .inl (.inr ⟨hfits, hinterval⟩)⟩
      | @server inner inner' v _ hsupported hreload hfits hpositive hserver hmisfit hliteral =>
        have hread : ∃ r, reloadOfMembers (some path) inner = .ok r :=
          exists_reloadOfMembers_iff.mpr ⟨hfits, hpositive⟩
        exact .inr ⟨(), hchecked hsupported, inner, hreload,
          .inr ⟨hread, inner', hserver, .inl ⟨v, hmisfit, hliteral⟩⟩⟩
  | _ => simp [ofRoot, refuse]

/-! ### All that the settings come from -/

section Environment

variable {env : Environment} {fs : FileSystem} {given : Option Text}

/-- The search for a file is a fault where a candidate cannot be expanded. -/
theorem exists_of_findFile_fault {paths : List Text} (h : findFile env fs paths = .error f) :
    ∃ candidate ∈ paths, env.expand candidate = .error f := by
  induction paths with
  | nil => cases h
  | cons candidate rest ih =>
    rw [findFile, bind_eq_error_iff] at h
    rcases h with hexpand | ⟨path, hpath, hrest⟩
    · exact ⟨candidate, List.mem_cons_self, hexpand⟩
    · split at hrest
      · cases hrest
      · obtain ⟨later, hlater, hexpand⟩ := ih hrest
        exact ⟨later, List.mem_cons_of_mem _ hlater, hexpand⟩

/-- A given path that cannot be expanded is the first candidate. -/
theorem findFile_of_unexpanded {path : Text} (h : env.expand path = .error f) :
    findFile env fs (searchPaths env (some path)) = .error f := by
  have hnonempty : path.isEmpty = false := by
    cases path with
    | nil => cases h
    | cons c rest => rfl
  have hfirst : ∃ rest, searchPaths env (some path) = path :: rest := by
    cases hconfig : env.lookup? configVariable <;>
      simp [searchPaths, hconfig, hnonempty, List.filter_cons]
  obtain ⟨rest, hrest⟩ := hfirst
  rw [hrest, findFile, h]
  rfl

/-- **The cases in which loading is a fault.** -/
inductive Escapes [Limits] (env : Environment) (fs : FileSystem) (given : Option Text) :
    Fault → Prop
  /-- The given path starts with a tilde and an account name without bytes. -/
  | account {path : Text} {f : Fault} : path ∈ given → env.expand path = .error f →
    Escapes env fs given f
  /-- The bytes of the file are a fault before they are a document. -/
  | document {path : Text} {bytes : List UInt8} {f : Fault} :
    Chosen env fs given path (.ok bytes) → rawOfBytes path bytes = .error (.fault f) →
    Escapes env fs given f
  /-- The version cannot be looked up, or a refusal would have to show what cannot be written. -/
  | members {path : Text} {bytes : List UInt8} {raw : Members} {f : Fault} :
    Chosen env fs given path (.ok bytes) → rawOfBytes path bytes = .ok (.dict raw) →
    Unshown raw f → Escapes env fs given f

/-- Bytes are a fault before they are settings only where they are one as a document. -/
theorem unreadable_of_rawOfBytes [Limits] {path : Text} {bytes : List UInt8}
    (h : rawOfBytes path bytes = .error (.fault f)) : Yaml.Unreadable bytes f := by
  unfold rawOfBytes at h
  split at h
  · cases h
  · rename_i f' hdocument
    obtain rfl := Error.fault.inj (Except.error.inj h)
    exact Yaml.unreadable_of_ofInput? hdocument
  · cases h
  · cases h

theorem ofFile_fault_iff [Limits] {path : Text} {bytes : List UInt8} :
    ofFile path bytes = .error (.fault f) ↔ rawOfBytes path bytes = .error (.fault f) ∨
      ∃ raw, rawOfBytes path bytes = .ok (.dict raw) ∧ Unshown raw f := by
  show rawOfBytes path bytes >>= ofRoot path = .error (.fault f) ↔ _
  rw [bind_eq_error_iff]
  apply or_congr_right
  simp only [ofRoot_fault_iff]
  constructor
  · rintro ⟨_, hroot, raw, rfl, hunshown⟩
    exact ⟨raw, hroot, hunshown⟩
  · rintro ⟨raw, hraw, hunshown⟩
    exact ⟨_, hraw, raw, rfl, hunshown⟩

/-- Only the given path can be without bytes. -/
theorem findFile_fault_iff (henv : env.Named) :
    findFile env fs (searchPaths env given) = .error f ↔
      ∃ path ∈ given, env.expand path = .error f := by
  constructor
  · intro h
    have hall : (∀ path ∈ given, Accounts.HomeNamed path) → False := by
      intro hgiven
      obtain ⟨candidate, hmem, hexpand⟩ := exists_of_findFile_fault h
      obtain ⟨path, hpath⟩ := exists_expand_of_mem_searchPaths henv hgiven candidate hmem
      rw [hpath] at hexpand
      cases hexpand
    cases given with
    | none => exact (hall (by simp)).elim
    | some path =>
      cases hexpand : env.expand path with
      | ok p =>
        have hnamed := (env.accounts.exists_expand_iff env.home path).mp ⟨p, hexpand⟩
        exact (hall fun q hq => Option.some.inj hq ▸ hnamed).elim
      | error f' =>
        rw [findFile_of_unexpanded hexpand, Except.error.injEq] at h
        rw [← h]
        exact ⟨path, rfl, hexpand⟩
  · rintro ⟨path, hgiven, hexpand⟩
    rw [Option.mem_def] at hgiven
    rw [hgiven, findFile_of_unexpanded hexpand]

theorem baseOf_fault_iff [Limits] (henv : env.Named) :
    baseOf env fs given = .error (.fault f) ↔ Escapes env fs given f := by
  rw [baseOf]
  constructor
  · intro h
    split at h
    · rename_i found hfound
      obtain rfl := Error.fault.inj (Except.error.inj h)
      obtain ⟨path, hgiven, hexpand⟩ := (findFile_fault_iff henv).mp hfound
      exact .account hgiven hexpand
    · cases h
    · rename_i path content hfound
      have hchosen : Chosen env fs given path content := findFile_eq_some_iff.mp hfound
      cases content with
      | error e => cases h
      | ok bytes =>
        rcases ofFile_fault_iff.mp h with hdocument | ⟨raw, hraw, hunshown⟩
        · exact .document hchosen hdocument
        · exact .members hchosen hraw hunshown
  · intro h
    cases h with
    | account hgiven hexpand =>
      rw [(findFile_fault_iff henv).mpr ⟨_, hgiven, hexpand⟩]
    | document hchosen hdocument =>
      rw [findFile_eq_some_iff.mpr hchosen]
      exact ofFile_fault_iff.mpr (.inl hdocument)
    | members hchosen hraw hunshown =>
      rw [findFile_eq_some_iff.mpr hchosen]
      exact ofFile_fault_iff.mpr (.inr ⟨_, hraw, hunshown⟩)

/-- **Loading is a fault exactly if something escapes.** -/
theorem ofEnvironment_fault_iff [Limits] (henv : env.Named) :
    ofEnvironment env fs given = .error (.fault f) ↔ Escapes env fs given f := by
  rw [ofEnvironment, bind_eq_error_iff, baseOf_fault_iff henv, or_iff_left]
  rintro ⟨below, _, h⟩
  -- neither the variables nor the source are a fault
  obtain ⟨source?, hsource⟩ := exists_sourceOf henv
  have htold : Told (applyEnvironment env below >>= fun s => complete s (sourceOf env)) := by
    refine (told_applyEnvironment below).bind fun s _ => ?_
    rw [hsource]
    cases source? with
    | none => exact told_refuse _ _
    | some source => exact told_ok _
  exact htold f h

/-- **Settings are loaded, or refused with a message, unless something escapes**, and then that is
the fault which ends the load.  What escapes from the bytes of a file is one of the faults that
bytes can be as a document. -/
theorem load_told_unless_escapes [Limits] (env : Environment) (fs : FileSystem)
    (given : Option Text) (henv : env.Named) (t : Trail) :
    (∀ f, (load env fs given).result t = .error (.fault f) ↔ Escapes env fs given f) ∧
    ((∀ f, ¬ Escapes env fs given f) →
      (∃ s, (load env fs given).result t = .ok s) ∨
      ∃ r, (load env fs given).result t = .error (.refused r) ∧
        Text.startsWith r.message "CONFIG ERROR: " = true) ∧
    ∀ path bytes, Chosen env fs given path (.ok bytes) →
      ∀ f, rawOfBytes path bytes = .error (.fault f) → Yaml.Unreadable bytes f := by
  have hfault : ∀ f, (load env fs given).result t = .error (.fault f) ↔ Escapes env fs given f := by
    intro f
    rw [result_load]
    exact ofEnvironment_fault_iff henv
  refine ⟨hfault, ?_, fun _ _ _ _ => unreadable_of_rawOfBytes⟩
  intro hnone
  cases hload : (load env fs given).result t with
  | ok s => exact .inl ⟨s, rfl⟩
  | error e =>
    cases e with
    | fault f => exact absurd ((hfault f).mp hload) (hnone f)
    | refused r =>
      refine .inr ⟨r, rfl, ?_⟩
      rw [Text.startsWith, List.isPrefixOf_iff_prefix]
      exact List.prefix_append _ _

end Environment

/-- A settings file whose version is an empty mapping. -/
def versionDisk : FileSystem :=
  (FileSystem.new "/").write ".subgraph-gate/config.yaml"
    ((Text.ofString "version: {}\n").flatMap Utf8.encodeOne)

def inlineEnvironment : Environment := ⟨[(inlineVariable, "0xaaa")], "/", ⟨[]⟩⟩

/-- The fault that ends a computation, if one does. -/
def fault? {α : Type} : Except Error α → Option Fault
  | .error (.fault f) => some f
  | _ => none

theorem fault?_eq_some_iff {x : Except Error α} : fault? x = some f ↔ x = .error (.fault f) := by
  rcases x with (_ | _) | _ <;> simp [fault?]

attribute [local instance] Limits.usual

/-- A mapping as the version cannot be looked up. -/
theorem versionDisk_escapes :
    (load inlineEnvironment versionDisk none).result .start =
      .error (.fault (.unhashable "dict")) ∧
    Escapes inlineEnvironment versionDisk none (.unhashable "dict") := by
  have hload : (load inlineEnvironment versionDisk none).result .start =
      .error (.fault (.unhashable "dict")) := by
    rw [← fault?_eq_some_iff]
    decide +kernel
  have hnamed : inlineEnvironment.Named := by decide +kernel
  obtain ⟨hfault, _, _⟩ := load_told_unless_escapes inlineEnvironment versionDisk none hnamed .start
  exact ⟨hload, (hfault _).mp hload⟩

end AdmissionControl.Settings
