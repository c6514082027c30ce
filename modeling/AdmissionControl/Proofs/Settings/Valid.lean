import AdmissionControl.Proofs.Settings
import AdmissionControl.Proofs.Value

/-!
# Which settings files are valid

The mappings that are accepted as settings and what they give, said without the functions that read
them one member after another.

* `setting?` — what a mapping says of a setting in one of its two sections.
* `Valid` — the version is there and is the supported one, the sections are mappings, each setting
  has its type, and the rescan interval is positive.
* `Holds`, `Holds.unique` — each setting is what the mapping says of it, or the default.
* `ofRoot_eq_ok_iff`, `Valid.exists_holds` — exactly the valid mappings are accepted.
* `told_ofRoot` — if a message can show their values, the others are refused.
-/

namespace AdmissionControl

namespace Value

/-- A value that can be looked up among keys. -/
def Hashable : Value → Prop
  | list _ | dict _ | loop _ => False
  | _ => True

/-- A value within the limits of writing can be shown. -/
theorem exists_display [Limits] {v : Value} (h : v.Writable) : ∃ shown, v.display = .ok shown := by
  cases v with
  | text s => exact ⟨s, rfl⟩
  | date d => exact ⟨_, rfl⟩
  | dateTime t => exact ⟨_, rfl⟩
  | _ => exact (literal_eq_ok_iff _).mpr h

end Value

namespace Settings

variable {α : Type} {path : Option Text} {raw : Members}

/-! ### Members of a type -/

/-- The values of a type, and no others, are read. -/
def MemberType.Reads (type : MemberType α) (write : α → Value) : Prop :=
  ∀ v a, type.ofValue? v = some a ↔ v = write a

theorem boolType_reads : boolType.Reads Value.bool := by
  intro v a
  cases v <;> simp [boolType]

theorem integerType_reads : integerType.Reads Value.integer := by
  intro v a
  cases v <;> simp [integerType]

theorem textType_reads : textType.Reads Value.text := by
  intro v a
  cases v <;> simp [textType]

section Member

variable {type : MemberType α} {write : α → Value} (h : type.Reads write)

include h

/-- A member is read as what is there, or as the default. -/
theorem member_eq_ok_iff [Limits] {name : Text} {default a : α} :
    member path type name default raw = .ok a ↔
      (Value.member? name raw).getD (write default) = write a := by
  have hinj : ∀ {a b : α}, write a = write b ↔ a = b := by
    refine ⟨fun heq => ?_, congrArg write⟩
    have hread := (h _ _).mpr heq
    rwa [(h _ _).mpr rfl, Option.some.injEq] at hread
  rw [member]
  cases Value.member? name raw with
  | none => simp only [Except.ok.injEq, Option.getD_none, hinj]
  | some v =>
    rw [Option.getD_some, ← h]
    cases htype : type.ofValue? v with
    | some b => simp only [htype, Except.ok.injEq, Option.some.injEq]
    | none => cases hliteral : v.literal <;> simp [htype, hliteral, refuse]

end Member

/-- What a mapping says of a setting, if it says anything. -/
def setting? (group name : Text) (raw : Members) : Option Value :=
  match Value.member? group raw with
  | some (.dict inner) => Value.member? name inner
  | _ => none

/-- A section is missing, null or a mapping. -/
def IsSection (raw : Members) (name : Text) : Prop :=
  ∀ v, Value.member? name raw = some v → v = .none ∨ ∃ inner, v = .dict inner

/-- The members of a section are what the mapping says of its settings. -/
theorem members_eq_ok {group : Text} {inner : Members} (h : members path group raw = .ok inner)
    (name : Text) : Value.member? name inner = setting? group name raw := by
  rw [members] at h
  rw [setting?]
  split at h
  · rename_i hmember
    rw [← Except.ok.inj h, hmember]
    rfl
  · rename_i hmember
    rw [← Except.ok.inj h, hmember]
    rfl
  · rename_i hmember
    rw [← Except.ok.inj h, hmember]
  · cases h

theorem exists_members_iff {group : Text} :
    (∃ inner, members path group raw = .ok inner) ↔ IsSection raw group := by
  rw [members, IsSection]
  cases hmember : Value.member? group raw with
  | none => simp
  | some v => cases v <;> simp [refuse]

/-! ### The settings of a mapping -/

/-- Each setting is what the mapping says of it, or the default. -/
structure Holds (raw : Members) (s : Settings) : Prop where
  version : s.version = (Value.member? "version" raw).getD Settings.default.version
  enabled : (setting? "reload" "enabled" raw).getD (.bool Settings.default.reload.enabled) =
    .bool s.reload.enabled
  forcePolling : (setting? "reload" "force_polling" raw).getD
    (.bool Settings.default.reload.options.forcePolling) = .bool s.reload.options.forcePolling
  pollDelay : (setting? "reload" "poll_delay_ms" raw).getD
    (.integer Settings.default.reload.options.pollDelay) = .integer s.reload.options.pollDelay
  debounce : (setting? "reload" "debounce_ms" raw).getD
    (.integer Settings.default.reload.options.debounce) = .integer s.reload.options.debounce
  rescanInterval : (setting? "reload" rescanName raw).getD
    (.integer Settings.default.reload.options.rescanInterval) =
      .integer s.reload.options.rescanInterval
  host : (setting? "server" "host" raw).getD (.text Settings.default.server.host) =
    .text s.server.host
  port : (setting? "server" "port" raw).getD (.integer Settings.default.server.port) =
    .integer s.server.port

/-- The settings that hold are unique, up to their source and their path. -/
theorem Holds.unique {s s' : Settings} (h : Holds raw s) (h' : Holds raw s')
    (hsource : s.source = s'.source) (hpath : s.path = s'.path) : s = s' := by
  have hversion := h.version.trans h'.version.symm
  have henabled := Value.bool.inj (h.enabled.symm.trans h'.enabled)
  have hforcePolling := Value.bool.inj (h.forcePolling.symm.trans h'.forcePolling)
  have hpollDelay := Value.integer.inj (h.pollDelay.symm.trans h'.pollDelay)
  have hdebounce := Value.integer.inj (h.debounce.symm.trans h'.debounce)
  have hrescanInterval := Value.integer.inj (h.rescanInterval.symm.trans h'.rescanInterval)
  have hhost := Value.text.inj (h.host.symm.trans h'.host)
  have hport := Value.integer.inj (h.port.symm.trans h'.port)
  obtain ⟨_, _, ⟨_, ⟨_, _, _, _⟩⟩, ⟨_, _⟩, _⟩ := s
  obtain ⟨_, _, ⟨_, ⟨_, _, _, _⟩⟩, ⟨_, _⟩, _⟩ := s'
  simp only [Settings.mk.injEq, ReloadSettings.mk.injEq, Reload.Options.mk.injEq,
    ServerSettings.mk.injEq]
  exact ⟨hversion, hsource, ⟨henabled, hforcePolling, hpollDelay, hdebounce, hrescanInterval⟩,
    ⟨hhost, hport⟩, hpath⟩

/-- A mapping that is accepted as settings. -/
structure Valid (raw : Members) : Prop where
  version : ∃ v, Value.member? "version" raw = some v ∧ v ≠ .none ∧
    v.same (.integer supportedVersion) = true
  sections : ∀ group ∈ (["reload", "server"] : List Text), IsSection raw group
  truthValues : ∀ name ∈ (["enabled", "force_polling"] : List Text),
    ∀ v, setting? "reload" name raw = some v → ∃ b, v = .bool b
  integers : ∀ name ∈ (["poll_delay_ms", "debounce_ms", rescanName] : List Text),
    ∀ v, setting? "reload" name raw = some v → ∃ n, v = .integer n
  positive : ∀ n, setting? "reload" rescanName raw = some (.integer n) → 0 < n
  host : ∀ v, setting? "server" "host" raw = some v → ∃ s, v = .text s
  port : ∀ v, setting? "server" "port" raw = some v → ∃ n, v = .integer n

/-- A default stands for what a mapping does not say. -/
theorem exists_getD_eq_iff {v? : Option Value} {write : α → Value} {default : α} :
    (∃ a, v?.getD (write default) = write a) ↔ ∀ v, v? = some v → ∃ a, v = write a := by
  cases v? with
  | none => simp
  | some v => simp

theorem reloadOfMembers_eq_ok_iff [Limits] {m : Members} {r : ReloadSettings} :
    reloadOfMembers path m = .ok r ↔
      (Value.member? "enabled" m).getD (.bool Settings.default.reload.enabled) =
        .bool r.enabled ∧
      (Value.member? "force_polling" m).getD
        (.bool Settings.default.reload.options.forcePolling) = .bool r.options.forcePolling ∧
      (Value.member? "poll_delay_ms" m).getD
        (.integer Settings.default.reload.options.pollDelay) = .integer r.options.pollDelay ∧
      (Value.member? "debounce_ms" m).getD
        (.integer Settings.default.reload.options.debounce) = .integer r.options.debounce ∧
      (Value.member? rescanName m).getD
        (.integer Settings.default.reload.options.rescanInterval) =
          .integer r.options.rescanInterval ∧
      0 < r.options.rescanInterval := by
  obtain ⟨enabled, forcePolling, pollDelay, debounce, rescanInterval⟩ := r
  simp only [reloadOfMembers, bind_eq_ok_iff, member_eq_ok_iff boolType_reads,
    member_eq_ok_iff integerType_reads]
  constructor
  · rintro ⟨e, he, f, hf, p, hp, d, hd, r, hr, h⟩
    split at h
    · obtain ⟨_, _, h⟩ := bind_eq_ok_iff.mp h
      cases h
    · rename_i hpositive
      simp only [pure, Except.pure, Except.ok.injEq, ReloadSettings.mk.injEq,
        Reload.Options.mk.injEq] at h
      obtain ⟨rfl, rfl, rfl, rfl, rfl⟩ := h
      exact ⟨he, hf, hp, hd, hr, by omega⟩
  · rintro ⟨he, hf, hp, hd, hr, hpositive⟩
    refine ⟨_, he, _, hf, _, hp, _, hd, _, hr, ?_⟩
    rw [if_neg (by omega)]
    rfl

theorem serverOfMembers_eq_ok_iff [Limits] {m : Members} {s : ServerSettings} :
    serverOfMembers path m = .ok s ↔
      (Value.member? "host" m).getD (.text Settings.default.server.host) = .text s.host ∧
      (Value.member? "port" m).getD (.integer Settings.default.server.port) = .integer s.port := by
  obtain ⟨host, port⟩ := s
  simp only [serverOfMembers, bind_eq_ok_iff, member_eq_ok_iff textType_reads,
    member_eq_ok_iff integerType_reads, pure, Except.pure, Except.ok.injEq, ServerSettings.mk.injEq]
  constructor
  · rintro ⟨h, hh, p, hp, rfl, rfl⟩
    exact ⟨hh, hp⟩
  · rintro ⟨hh, hp⟩
    exact ⟨_, hh, _, hp, rfl, rfl⟩

/-- The settings that a mapping gives, apart from its version. -/
theorem ofMembers_eq_ok_iff [Limits] {s : Settings} :
    ofMembers path raw = .ok s ↔ IsSection raw "reload" ∧ IsSection raw "server" ∧ Holds raw s ∧
      0 < s.reload.options.rescanInterval ∧ s.source = none ∧ s.path = path := by
  rw [ofMembers]
  simp only [bind_eq_ok_iff]
  constructor
  · rintro ⟨inner, hinner, reload, hreload, inner', hinner', server, hserver, h⟩
    rw [reloadOfMembers_eq_ok_iff] at hreload
    rw [serverOfMembers_eq_ok_iff] at hserver
    simp only [members_eq_ok hinner] at hreload
    simp only [members_eq_ok hinner'] at hserver
    obtain rfl := Except.ok.inj h
    obtain ⟨he, hf, hp, hd, hr, hpositive⟩ := hreload
    exact ⟨exists_members_iff.mp ⟨_, hinner⟩, exists_members_iff.mp ⟨_, hinner'⟩,
      ⟨rfl, he, hf, hp, hd, hr, hserver.1, hserver.2⟩, hpositive, rfl, rfl⟩
  · rintro ⟨hreload, hserver, hs, hpositive, hsource, hpath⟩
    obtain ⟨inner, hinner⟩ := exists_members_iff.mpr hreload
    obtain ⟨inner', hinner'⟩ := exists_members_iff.mpr hserver
    refine ⟨inner, hinner, s.reload, ?_, inner', hinner', s.server, ?_, ?_⟩
    · rw [reloadOfMembers_eq_ok_iff]
      simp only [members_eq_ok hinner]
      exact ⟨hs.enabled, hs.forcePolling, hs.pollDelay, hs.debounce, hs.rescanInterval, hpositive⟩
    · rw [serverOfMembers_eq_ok_iff]
      simp only [members_eq_ok hinner']
      exact ⟨hs.host, hs.port⟩
    · obtain ⟨version, source, reload, server, path⟩ := s
      rw [← hs.version, ← hpath, ← hsource]
      rfl

/-! ### Valid mappings -/

theorem checkVersion_eq_ok_iff [Limits] {path : Text} {version : Option Value} :
    checkVersion path version = .ok () ↔
      ∃ v, version = some v ∧ v ≠ .none ∧ v.same (.integer supportedVersion) = true := by
  unfold checkVersion
  split
  · simp [refuse]
  · simp [refuse]
  · rename_i v hv
    replace hv : v ≠ .none := hv
    split
    · simp [Value.same, Value.asInteger?]
    · simp [Value.same, Value.asInteger?]
    · simp [Value.same, Value.asInteger?]
    · by_cases hsame : v.same (.integer supportedVersion) = true
      · simp [hsame, hv]
      · rw [if_neg hsame]
        cases hshown : v.display <;> simp [refuse, hsame]

/-- The rescan interval that holds is positive if the mapping does not say otherwise. -/
theorem Holds.positive_iff {s : Settings} (h : Holds raw s) :
    0 < s.reload.options.rescanInterval ↔
      ∀ n, setting? "reload" rescanName raw = some (.integer n) → 0 < n := by
  have hr := h.rescanInterval
  cases hsetting : setting? "reload" rescanName raw with
  | none =>
    rw [hsetting, Option.getD_none, Value.integer.injEq] at hr
    rw [← hr]
    exact iff_of_true (by decide) nofun
  | some v =>
    rw [hsetting, Option.getD_some] at hr
    simp [hr]

/-- Settings that hold are of their types. -/
theorem Holds.valid {s : Settings} (h : Holds raw s) (hreload : IsSection raw "reload")
    (hserver : IsSection raw "server") (hpositive : 0 < s.reload.options.rescanInterval)
    (hversion : ∃ v, Value.member? "version" raw = some v ∧ v ≠ .none ∧
      v.same (.integer supportedVersion) = true) : Valid raw where
  version := hversion
  sections := by simp [hreload, hserver]
  truthValues := by
    simp only [List.forall_mem_cons, List.not_mem_nil, false_imp_iff, implies_true, and_true]
    exact ⟨exists_getD_eq_iff.mp ⟨_, h.enabled⟩, exists_getD_eq_iff.mp ⟨_, h.forcePolling⟩⟩
  integers := by
    simp only [List.forall_mem_cons, List.not_mem_nil, false_imp_iff, implies_true, and_true]
    exact ⟨exists_getD_eq_iff.mp ⟨_, h.pollDelay⟩, exists_getD_eq_iff.mp ⟨_, h.debounce⟩,
      exists_getD_eq_iff.mp ⟨_, h.rescanInterval⟩⟩
  positive := h.positive_iff.mp hpositive
  host := exists_getD_eq_iff.mp ⟨_, h.host⟩
  port := exists_getD_eq_iff.mp ⟨_, h.port⟩

/-- A valid mapping gives settings. -/
theorem Valid.exists_holds (h : Valid raw) (path : Option Text) :
    ∃ s, Holds raw s ∧ s.source = none ∧ s.path = path := by
  obtain ⟨enabled, he⟩ := exists_getD_eq_iff.mpr (h.truthValues "enabled" (by simp))
  obtain ⟨forcePolling, hf⟩ := exists_getD_eq_iff.mpr (h.truthValues "force_polling" (by simp))
  obtain ⟨pollDelay, hp⟩ := exists_getD_eq_iff.mpr (h.integers "poll_delay_ms" (by simp))
  obtain ⟨debounce, hd⟩ := exists_getD_eq_iff.mpr (h.integers "debounce_ms" (by simp))
  obtain ⟨rescanInterval, hr⟩ := exists_getD_eq_iff.mpr (h.integers rescanName (by simp))
  obtain ⟨host, hhost⟩ := exists_getD_eq_iff.mpr h.host
  obtain ⟨port, hport⟩ := exists_getD_eq_iff.mpr h.port
  exact ⟨⟨_, none, ⟨enabled, ⟨forcePolling, pollDelay, debounce, rescanInterval⟩⟩, ⟨host, port⟩,
    path⟩, ⟨rfl, he, hf, hp, hd, hr, hhost, hport⟩, rfl, rfl⟩

/-- **Exactly the valid mappings are accepted**, and as the settings that hold. -/
theorem ofRoot_eq_ok_iff [Limits] {path : Text} {root : Value} {s : Settings} :
    ofRoot path root = .ok s ↔
      ∃ raw, root = .dict raw ∧ Valid raw ∧ Holds raw s ∧ s.source = none ∧ s.path = some path := by
  cases root with
  | dict raw =>
    simp only [ofRoot, bind_eq_ok_iff, ofMembers_eq_ok_iff, Value.dict.injEq, exists_eq_left']
    constructor
    · rintro ⟨_, hversion, hreload, hserver, hs, hpositive, hsource, hpath⟩
      exact ⟨hs.valid hreload hserver hpositive (checkVersion_eq_ok_iff.mp hversion), hs, hsource,
        hpath⟩
    · rintro ⟨hvalid, hs, hsource, hpath⟩
      exact ⟨(), checkVersion_eq_ok_iff.mpr hvalid.version, hvalid.sections _ (by simp),
        hvalid.sections _ (by simp), hs, hs.positive_iff.mpr hvalid.positive, hsource, hpath⟩
  | _ => simp [ofRoot, refuse]

/-! ### Refusals -/

/-- A failure that is told as a refusal, if it fails at all. -/
def Told (x : Except Error α) : Prop := ∀ f, x ≠ .error (.fault f)

theorem told_ok (a : α) : Told (.ok a) := by
  intro f
  simp

theorem told_refuse (path : Option Text) (problem : Problem) :
    Told (refuse (α := α) path problem) := by
  intro f
  simp [refuse]

/-- Two parts are told if each of them is. -/
theorem Told.bind {β : Type} {x : Except Error α} {next : α → Except Error β} (hx : Told x)
    (hnext : ∀ a, x = .ok a → Told (next a)) : Told (x >>= next) := by
  cases x with
  | ok a => exact hnext a rfl
  | error e => exact fun f h => hx f (by simpa [Bind.bind, Except.bind] using h)

/-- Values that a message may have to show can be shown. -/
structure Showable [Limits] (raw : Members) : Prop where
  version : ∀ v, Value.member? "version" raw = some v → v.Hashable ∧ v.Writable
  settings : ∀ group name v, setting? group name raw = some v → v.Writable

theorem told_member [Limits] {type : MemberType α} {name : Text} {default : α}
    (h : ∀ v, Value.member? name raw = some v → v.Writable) :
    Told (member path type name default raw) := by
  rw [member]
  split
  · exact told_ok _
  · rename_i v hmember
    split
    · exact told_ok _
    · obtain ⟨literal, hliteral⟩ := (Value.literal_eq_ok_iff v).mpr (h v hmember)
      rw [hliteral]
      exact told_refuse _ _

theorem told_members {group : Text} : Told (members path group raw) := by
  rw [members]
  split <;> first | exact told_ok _ | exact told_refuse _ _

theorem told_reloadOfMembers [Limits] {m : Members}
    (h : ∀ name v, Value.member? name m = some v → v.Writable) : Told (reloadOfMembers path m) := by
  rw [reloadOfMembers]
  refine (told_member (h _)).bind fun _ _ => (told_member (h _)).bind fun _ _ =>
    (told_member (h _)).bind fun _ _ => (told_member (h _)).bind fun _ _ =>
    (told_member (h _)).bind fun rescanInterval hread => ?_
  rw [member_eq_ok_iff integerType_reads] at hread
  split
  · rename_i hnegative
    refine Told.bind ?_ fun _ _ => (told_refuse _ _).bind fun _ _ => told_ok _
    -- the default is positive, so the mapping says the interval
    cases hmember : Value.member? rescanName m with
    | none =>
      rw [hmember, Option.getD_none, Value.integer.injEq] at hread
      rw [← hread] at hnegative
      exact absurd hnegative (by decide)
    | some v =>
      rw [hmember, Option.getD_some] at hread
      obtain ⟨literal, hliteral⟩ := (Value.literal_eq_ok_iff _).mpr (h _ _ (hread ▸ hmember))
      have hshown : Value.integerLiteral rescanInterval = .ok literal := hliteral
      rw [hshown]
      exact told_ok _
  · exact told_ok _

theorem told_serverOfMembers [Limits] {m : Members}
    (h : ∀ name v, Value.member? name m = some v → v.Writable) : Told (serverOfMembers path m) :=
  (told_member (h _)).bind fun _ _ => (told_member (h _)).bind fun _ _ => told_ok _

theorem told_checkVersion [Limits] {path : Text} (h : Showable raw) :
    Told (checkVersion path (Value.member? "version" raw)) := by
  unfold checkVersion
  split
  · exact told_refuse _ _
  · exact told_refuse _ _
  · rename_i v _ hv
    obtain ⟨hhashable, hwritable⟩ := h.version v hv
    split
    · exact absurd hhashable id
    · exact absurd hhashable id
    · exact absurd hhashable id
    · split
      · exact told_ok _
      · obtain ⟨shown, hshown⟩ := Value.exists_display hwritable
        rw [hshown]
        exact told_refuse _ _

/-- **A mapping whose values can be shown is accepted or refused**, and so is what is no mapping. -/
theorem told_ofRoot [Limits] {path : Text} {root : Value}
    (h : ∀ raw, root = .dict raw → Showable raw) : Told (ofRoot path root) := by
  cases root with
  | dict raw =>
    have hraw := h raw rfl
    refine (told_checkVersion hraw).bind fun _ _ => told_members.bind fun inner hinner =>
      Told.bind ?_ fun _ _ => told_members.bind fun inner' hinner' =>
      Told.bind ?_ fun _ _ => told_ok _
    · exact told_reloadOfMembers fun name v hv =>
        hraw.settings _ name v ((members_eq_ok hinner name).symm.trans hv)
    · exact told_serverOfMembers fun name v hv =>
        hraw.settings _ name v ((members_eq_ok hinner' name).symm.trans hv)
  | _ => exact told_refuse _ _

end Settings

end AdmissionControl
