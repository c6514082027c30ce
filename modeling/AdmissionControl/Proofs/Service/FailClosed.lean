import AdmissionControl.Proofs.Service.Live

/-!
# An application fails closed

An application is ready only with settings and an allowlist that were loaded; before and after, all
that knows of the allowlist answers 503.  A file that is named for the allowlist shuts out the
inline variable: no answer of the whole life depends on it.

* `Loads` — the settings, the source and the allowlist that a startup comes to.
* `Application.Decides` — the decisions that requests get.
* `FailsClosed` — what a startup and the life after it are held to.
* `startup_fails_closed` — every startup is.
-/

namespace AdmissionControl.Service

open Reload (Process)
open Settings (inlineVariable fileVariable)

/-- The environment and the files give these settings with this source, and it gives this
allowlist. -/
structure Loads [Limits] (env : Environment) (fs : FileSystem) (now : Instant) (s : Settings)
    (source : Source) (a : Allowlist) : Prop where
  settings : ∀ t, (Settings.load env fs none).result t = .ok s
  named : s.source = some source
  allowlist : ∀ t, (Allowlist.load fs source now).result t = .ok a

theorem loads_iff [Limits] {env : Environment} {fs : FileSystem} {now : Instant} {s : Settings}
    {source : Source} {a : Allowlist} : Loads env fs now s source a ↔
      s.source = some source ∧ Application.loadedFor env fs now = .ok (s, a) := by
  have hsource : s.source = some source → Application.sourceOf s = source := by
    intro h
    rw [Application.sourceOf, h]
    rfl
  rw [Application.loadedFor_eq_ok_iff]
  constructor
  · intro h
    have hsettings := h.settings .start
    have hallowlist := h.allowlist .start
    rw [Settings.result_load] at hsettings
    rw [Allowlist.result_load, ← hsource h.named] at hallowlist
    exact ⟨h.named, hsettings, hallowlist⟩
  · rintro ⟨hsome, hsettings, hallowlist⟩
    rw [hsource hsome] at hallowlist
    exact ⟨fun t => (Settings.result_load ..).trans hsettings, hsome,
      fun t => (Allowlist.result_load ..).trans hallowlist⟩

/-- Whatever was loaded has a source. -/
theorem loads_of_loadedFor [Limits] {env : Environment} {fs : FileSystem} {now : Instant}
    {s : Settings} {a : Allowlist} (h : Application.loadedFor env fs now = .ok (s, a)) :
    ∃ source, Loads env fs now s source a := by
  obtain ⟨_, _, source, _, _, _, hs⟩ := Settings.ofEnvironment_eq_ok_iff.mp
    (Application.loadedFor_eq_ok_iff.mp h).1
  exact ⟨source, loads_iff.mpr ⟨by rw [hs], h⟩⟩

/-! ### Decisions -/

/-- A decision that a request gets: of a check, or of an admission that it asks for. -/
inductive Application.Decides [Limits] (a : Application) (d : Decision) : Prop
  | checked {store : Store} {v : Value} (gate : a.gate = .ok store) (check : store.check v = .ok d)
  | admitted {operation : Operation} {v : Value} {fresh : Text} {t : Trail}
      (asked : ((a.admitFor operation v fresh).run t).1 = .ok (.ok d))
  | denied {operation : Operation} {v : Value} {fresh : Text} {t : Trail} {denial : Denial}
      (asked : ((a.admitFor operation v fresh).run t).1 = .ok (.error denial))
      (decision : denial.decision = d)

namespace Application

variable {a : Application} {d : Decision}

/-- Every decision is one of the published snapshot. -/
theorem check_of_decides [Limits] (h : a.Decides d) :
    ∃ store v, a.gate = .ok store ∧ store.check v = .ok d := by
  have hasked : ∀ operation v fresh t, (((a.admitFor operation v fresh).run t).1 = .ok (.ok d) ∨
      ∃ denial : Denial, ((a.admitFor operation v fresh).run t).1 = .ok (.error denial) ∧
        denial.decision = d) → ∃ store v, a.gate = .ok store ∧ store.check v = .ok d := by
    intro operation v fresh t hcases
    cases hgate : a.gate with
    | error trouble =>
      have htrouble : ((a.admitFor operation v fresh).run t).1 = .error trouble := by
        rw [admitFor, hgate]
        rfl
      simp [htrouble] at hcases
    | ok store =>
      rw [admitFor_eq hgate] at hcases
      refine ⟨store, v, rfl, ?_⟩
      cases hcheck : store.check v with
      | error f => simp [hcheck] at hcases
      | ok d' =>
        rw [hcheck] at hcases
        cases hp : d'.permitted <;> simpa [hp] using hcases
  cases h with
  | checked gate check => exact ⟨_, _, gate, check⟩
  | admitted asked => exact hasked _ _ _ _ (.inl asked)
  | denied asked decision => exact hasked _ _ _ _ (.inr ⟨_, asked, decision⟩)

theorem snapshotVersion_of_decides [Limits] {store : Store} (h : a.Decides d)
    (hstore : a.store = some store) : d.snapshotVersion = store.version := by
  obtain ⟨store', v, hgate, hcheck⟩ := check_of_decides h
  rw [(gate_eq_ok_iff.mp hgate).2, Option.some.injEq] at hstore
  rw [← hstore]
  exact Snapshot.snapshotVersion_decide hcheck

end Application

/-! ### The life after a startup -/

namespace Live

variable {env : Environment} {hostRoutes : List Route} {fs : FileSystem} {now : Instant}

/-- What a startup makes of a new application. -/
theorem startUp_of_loads [Limits] {s : Settings} {source : Source} {a : Allowlist}
    (h : Loads env fs now s source a) (t : Trail) :
    ((new env hostRoutes).step (.startUp env fs now t)).application =
      (Application.new env hostRoutes).opened fs now s a := by
  refine application_startUp _ ?_
  show ((Application.new env hostRoutes).startUp env fs now).result t = _
  rw [Application.result_startUp, (loads_iff.mp h).2]
  rfl

/-- A startup without settings or without an allowlist leaves everything as it is. -/
theorem startUp_of_not_loads [Limits] (h : ¬ ∃ s source a, Loads env fs now s source a)
    (t : Trail) : (new env hostRoutes).step (.startUp env fs now t) = new env hostRoutes := by
  have hfails : ∃ e, ((Application.new env hostRoutes).startUp env fs now).result t = .error e := by
    rw [Application.result_startUp]
    cases hloaded : Application.loadedFor env fs now with
    | error e => exact ⟨e, rfl⟩
    | ok loaded =>
      obtain ⟨source, hloads⟩ := loads_of_loadedFor (s := loaded.1) (a := loaded.2) hloaded
      exact absurd ⟨_, source, _, hloads⟩ h
  obtain ⟨e, he⟩ := hfails
  simp only [step, new, he]

theorem ready_startUp_iff [Limits] (t : Trail) :
    ((new env hostRoutes).step (.startUp env fs now t)).app.ready = true ↔
      ∃ s source a, Loads env fs now s source a := by
  constructor
  · intro h
    by_contra hnone
    rw [startUp_of_not_loads hnone] at h
    cases h
  · rintro ⟨s, source, a, h⟩
    rw [← ready_application, startUp_of_loads h]
    rfl

/-- An opened application has a reloader exactly if a file is named and reloads are enabled. -/
theorem reloader_opened_iff [Limits] {s : Settings} {source : Source} {a : Allowlist}
    (h : Loads env fs now s source a) :
    ((Application.new env hostRoutes).opened fs now s a).reloader.isSome = true ↔
      (∃ path, source = .file path) ∧ s.reload.enabled = true := by
  rw [Application.opened, Option.isSome_map]
  simp only [Option.isSome_iff_exists, Application.reloaderFor_eq_some_iff, h.named,
    Option.some.injEq]
  constructor
  · rintro ⟨_, path, hpath, henabled, _⟩
    exact ⟨⟨path, hpath⟩, henabled⟩
  · rintro ⟨⟨path, hpath⟩, henabled⟩
    exact ⟨_, path, hpath, henabled, rfl⟩

/-! ### Without a reloader -/

/-- Whether an event is a startup. -/
def Event.isStartUp : Event → Bool
  | startUp .. => true
  | shutDown | setReady _ | reload _ => false

theorem application_of_unwatched {l : Live} (h : l.process = none) : l.application = l.app := by
  rw [application, h]

theorem process_eq_none_of_unwatched {l : Live} (h : l.application.reloader = none) :
    l.process = none := by
  cases hp : l.process with
  | none => rfl
  | some p =>
    rw [application, hp] at h
    cases h

/-- Without a reloader nothing publishes. -/
theorem store_of_unwatched [Limits] {l : Live} (h : l.process = none) {events : List Event}
    (hevents : ∀ e ∈ events, e.isStartUp = false) :
    (l.after events).process = none ∧ (l.after events).app.store = l.app.store := by
  induction events generalizing l with
  | nil => exact ⟨h, rfl⟩
  | cons e rest ih =>
    obtain ⟨he, hrest⟩ := List.forall_mem_cons.mp hevents
    obtain ⟨app, process⟩ := l
    subst h
    cases e with
    | startUp => cases he
    | shutDown => exact ih (l := ⟨{ app with ready := false }, none⟩) rfl hrest
    | setReady value => exact ih (l := ⟨{ app with ready := value }, none⟩) rfl hrest
    | reload inner => exact ih (l := ⟨app, none⟩) rfl hrest

/-- **Without a reloader** every decision up to the next startup is one of the first version. -/
theorem snapshotVersion_of_unwatched [Limits] {t : Trail} {events : List Event} {d : Decision}
    (hreloader : ((new env hostRoutes).step (.startUp env fs now t)).application.reloader = none)
    (hevents : ∀ e ∈ events, e.isStartUp = false)
    (hd : (((new env hostRoutes).step (.startUp env fs now t)).after events).application.Decides
      d) : d.snapshotVersion = 1 := by
  obtain ⟨l, hl⟩ : ∃ l, l = (new env hostRoutes).step (.startUp env fs now t) := ⟨_, rfl⟩
  rw [← hl] at hreloader hd
  have hprocess := process_eq_none_of_unwatched hreloader
  obtain ⟨hafter, hstore⟩ := store_of_unwatched hprocess hevents
  have hsame : (l.after events).application.store = l.application.store := by
    rw [application_of_unwatched hafter, application_of_unwatched hprocess, hstore]
  by_cases hloads : ∃ s source a, Loads env fs now s source a
  · obtain ⟨s, source, a, h⟩ := hloads
    rw [hl, startUp_of_loads h] at hsame
    exact Application.snapshotVersion_of_decides hd (hl ▸ hsame)
  · obtain ⟨store, _, hgate, _⟩ := Application.check_of_decides hd
    have hempty : l.application.store = none := by
      rw [hl, startUp_of_not_loads hloads]
      rfl
    cases (hempty.symm.trans hsame.symm).trans (Application.gate_eq_ok_iff.mp hgate).2

/-! ### Two environments -/

section Alike

variable {env' : Environment} (h : env.Alike inlineVariable env')
  (hfile : ¬ Text.Blank ((env.lookup? fileVariable).getD []))

include h

theorem new_congr : Application.new env hostRoutes = Application.new env' hostRoutes := by
  rw [Application.new, Application.new, Application.wantsPages, Application.wantsPages,
    h.lookup Application.debugVariable (by decide +kernel)]

include hfile

theorem loadedFor_congr [Limits] :
    Application.loadedFor env fs now = Application.loadedFor env' fs now := by
  rw [Application.loadedFor, Application.loadedFor, Settings.ofEnvironment_congr h hfile]

theorem result_startUp_congr [Limits] (t t' : Trail) :
    ((Application.new env hostRoutes).startUp env fs now).result t =
      ((Application.new env' hostRoutes).startUp env' fs now).result t' := by
  rw [Application.result_startUp, Application.result_startUp, loadedFor_congr h hfile, new_congr h]

/-- With a file named for the allowlist no later state depends on the inline variable. -/
theorem application_congr [Limits] (t t' : Trail) (events : List Event) :
    (((new env hostRoutes).step (.startUp env fs now t)).after events).application =
      (((new env' hostRoutes).step (.startUp env' fs now t')).after events).application := by
  have happ : (new env hostRoutes).app = (new env' hostRoutes).app := new_congr h
  have hsilence : (new env hostRoutes).silence = (new env' hostRoutes).silence := by
    rw [new, new_congr h]
    rfl
  have hloaded : Application.loadedFor env fs now = Application.loadedFor env' fs now :=
    loadedFor_congr h hfile
  have hstarted := silence_startUp (new env hostRoutes) happ hsilence hloaded t t'
  rw [← application_silence, silence_after hstarted, application_silence]

end Alike

end Live

/-! ### Failing closed -/

/-- What a startup and the life after it are held to. -/
structure FailsClosed [Limits] (env : Environment) (hostRoutes : List Route) (fs : FileSystem)
    (now : Instant) (t : Trail) (l : Live) : Prop where
  /-- It is ready exactly if the settings and the allowlist loaded. -/
  ready_iff : l.app.ready = true ↔ ∃ s source a, Loads env fs now s source a
  /-- Otherwise nothing has happened, and whoever asks of the allowlist gets 503. -/
  unready : l.app.ready = false → l = .new env hostRoutes ∧
    ∀ request fresh t', l.application.Asks request →
      ((l.application.respond request fresh).run t').1.status = 503
  /-- It opens with the first version of the allowlist of the resolved source, and with a reloader
  exactly if that is a file and reloads are enabled. -/
  opened : ∀ s source a, Loads env fs now s source a →
    (Settings.resolveSource env).result t = .ok (some source) ∧
    l.application.store = some (Store.new a now) ∧
    (l.application.reloader.isSome = true ↔
      (∃ path, source = .file path) ∧ s.reload.enabled = true)
  /-- Without a reloader every decision is one of the first version, up to the next startup. -/
  unwatched : l.application.reloader = none → ∀ events, (∀ e ∈ events, e.isStartUp = false) →
    ∀ d, (l.after events).application.Decides d → d.snapshotVersion = 1
  /-- From the shutdown on, whatever the reloader still does, whoever asks gets 503 again. -/
  closed : ∀ before (reloads : List Process.Event),
    let last := ((l.after before).step .shutDown).after (reloads.map .reload)
    ∀ request fresh t', last.application.Asks request →
      ((last.application.respond request fresh).run t').1.status = 503
  /-- If a file is named, another inline variable makes no difference: not to how the startup ends,
  and not to any later state or response. -/
  file_wins : ∀ env' t', env.Alike inlineVariable env' →
    ¬ Text.Blank ((env.lookup? fileVariable).getD []) →
    let l' := (Live.new env' hostRoutes).step (.startUp env' fs now t')
    ((Application.new env hostRoutes).startUp env fs now).result t =
      ((Application.new env' hostRoutes).startUp env' fs now).result t' ∧
    ∀ events, (l.after events).application = (l'.after events).application ∧
      ∀ request fresh trail trail',
        (((l.after events).application.respond request fresh).run trail).1 =
          (((l'.after events).application.respond request fresh).run trail').1

namespace Live

/-- **Every startup fails closed**, for all environments, files and routes of a host. -/
theorem startup_fails_closed [Limits] (env : Environment) (hostRoutes : List Route)
    (fs : FileSystem) (now : Instant) (t : Trail) :
    FailsClosed env hostRoutes fs now t ((new env hostRoutes).step (.startUp env fs now t)) := by
  constructor
  case ready_iff => exact ready_startUp_iff t
  case unready =>
    intro hready
    refine ⟨startUp_of_not_loads (fun hloads => ?_) t, fun request fresh t' hasks => ?_⟩
    · rw [(ready_startUp_iff t).mpr hloads] at hready
      cases hready
    · exact Application.respond_of_unready (by rwa [ready_application]) hasks fresh t'
  case opened =>
    intro s source a h
    have hsettings := h.settings t
    rw [Settings.result_load] at hsettings
    rw [startUp_of_loads h, Settings.result_resolveSource,
      Settings.source_of_ofEnvironment hsettings, h.named]
    exact ⟨rfl, rfl, reloader_opened_iff h⟩
  case unwatched =>
    intro hreloader events hevents d hd
    exact snapshotVersion_of_unwatched hreloader hevents hd
  case closed =>
    intro before reloads last request fresh t' hasks
    refine Application.respond_of_unready ?_ hasks fresh t'
    rw [ready_application]
    simp only [last, after_reload]
    rfl
  case file_wins =>
    intro env' t' hlike hfile l'
    refine ⟨result_startUp_congr hlike hfile t t', fun events => ?_⟩
    have happlication :
        (((new env hostRoutes).step (.startUp env fs now t)).after events).application = _ :=
      application_congr hlike hfile t t' events
    refine ⟨happlication, fun request fresh trail trail' => ?_⟩
    rw [happlication]
    exact Application.silent_respond _ request fresh trail trail'

/-- A file for the allowlist, and the given text in the inline variable. -/
def namedEnvironment (text : String) : Environment :=
  ⟨[(fileVariable, "a"), (inlineVariable, text)], "/", default⟩

theorem alike_namedEnvironment (text other : String) :
    (namedEnvironment text).Alike inlineVariable (namedEnvironment other) := by
  refine ⟨fun name hname => ?_, rfl, rfl⟩
  simp only [namedEnvironment, Environment.lookup?, List.lookup_cons, List.lookup_nil,
    beq_false_of_ne hname]

/-- A startup with that file and the given inline text. -/
def namedStart [Limits] (text : String) : Live :=
  (new (namedEnvironment text) []).step
    (.startUp (namedEnvironment text) (Reload.Run.sampleDisk "x") default .start)

attribute [local instance] Limits.usual

/-- The application starts with the file, whether the inline text is well-formed or not. -/
theorem named_file_starts :
    (namedStart "y").app.ready = true ∧
      (∃ a, (namedStart "y").application.store = some (.new a default)) ∧
      ((namedStart "y").after [.shutDown]).application =
        ((namedStart "y,,").after [.shutDown]).application := by
  have hclosed : FailsClosed (namedEnvironment "y") [] (Reload.Run.sampleDisk "x") default .start
      (namedStart "y") := startup_fails_closed ..
  have hready : (namedStart "y").app.ready = true := by
    decide +kernel
  obtain ⟨s, source, a, hloads⟩ := hclosed.ready_iff.mp hready
  obtain ⟨_, hstore, _⟩ := hclosed.opened s source a hloads
  obtain ⟨_, hwins⟩ := hclosed.file_wins (namedEnvironment "y,,") .start
    (alike_namedEnvironment _ _) (by decide +kernel)
  exact ⟨hready, ⟨a, hstore⟩, (hwins [.shutDown]).1⟩

end Live

end AdmissionControl.Service
