import AdmissionControl.Proofs.Reload.Records
import AdmissionControl.Proofs.Reload.Wake
import AdmissionControl.Proofs.Service.Startup

/-!
# The life of an application

An application and its reloader live together: a startup opens both, requests see the store and the
status that the passes share, and a shutdown ends the watch.

* `Live.application` — the application as a request finds it.
* `Live.step`, `Live.after` — startups, shutdowns, assignments of the host and events of the
  reloader.
* `Live.application_startUp`, `Live.application_enterWatch`, `Live.application_shutDown`,
  `Live.application_rescan` — the life of an application is what the service does in one go.
* `Live.reachable_process` — the reloader of an application is in a state that a reloader can be in.
* `Live.silence_after` — what was recorded has no influence.
-/

namespace AdmissionControl.Service

open Reload (Process)

/-- An application with the reloader that its last startup has opened. -/
structure Live where
  /-- The application as the startup has opened it, and ready or not. -/
  app : Application
  process : Option Process

inductive Live.Event
  /-- A startup; one that fails leaves everything as it is. -/
  | startUp (env : Environment) (fs : FileSystem) (now : Instant) (t : Trail)
  | shutDown
  /-- The host assigns a value that counts as true or as false. -/
  | setReady (value : Bool)
  | reload (e : Process.Event)

namespace Live

def new (env : Environment) (hostRoutes : List Route) : Live := ⟨.new env hostRoutes, none⟩

/-- The application as a request finds it. -/
def application (l : Live) : Application :=
  match l.process with
  | none => l.app
  | some p => { l.app with store := some p.world.state.store, reloader := some p.reloader }

/-- The reloader that a startup has opened, at work on the store that it has opened. -/
def processOf (a : Application) (fs : FileSystem) (t : Trail) : Option Process :=
  match a.reloader, a.store with
  | some r, some store => some (.new r fs store t)
  | _, _ => none

def step [Limits] (l : Live) : Event → Live
  | .startUp env fs now t =>
    match (l.app.startUp env fs now).result t with
    | .error _ => l
    | .ok app => ⟨app, processOf app fs ((l.app.startUp env fs now).after t)⟩
  | .shutDown => ⟨{ l.app with ready := false }, l.process.map (·.step .stop)⟩
  | .setReady value => { l with app := { l.app with ready := value } }
  | .reload e => { l with process := l.process.map (·.step e) }

/-- The states that an application can be in. -/
def after [Limits] (l : Live) (events : List Event) : Live := events.foldl step l

variable (l : Live)

@[simp] theorem after_nil [Limits] : l.after [] = l := rfl

@[simp] theorem after_cons [Limits] (e : Event) (events : List Event) :
    l.after (e :: events) = (l.step e).after events := rfl

@[simp] theorem ready_application : l.application.ready = l.app.ready := by
  rw [application]
  cases l.process <;> rfl

/-! ### The life of an application is what the service does -/

/-- A reloader that has just been opened is the one that the startup left. -/
theorem reloader_new (r : Reload.Reloader) (fs : FileSystem) (store : Store) (t : Trail) :
    (Process.new r fs store t).reloader = r := by
  obtain ⟨path, options, status, task⟩ := r
  cases task <;> rfl

theorem application_startUp [Limits] {env : Environment} {fs : FileSystem} {now : Instant}
    {t : Trail} {a : Application} (h : (l.app.startUp env fs now).result t = .ok a) :
    (l.step (.startUp env fs now t)).application = a := by
  rw [step, h]
  rw [Application.result_startUp] at h
  cases hloaded : Application.loadedFor env fs now with
  | error e =>
    rw [hloaded] at h
    cases h
  | ok loaded =>
    rw [hloaded] at h
    rw [← Except.ok.inj h]
    simp only [application, processOf, Application.opened]
    cases Application.reloaderFor fs loaded.1 with
    | none => rfl
    | some r => simp only [Option.map_some, reloader_new]; rfl

/-- The first run of the task of the watch. -/
theorem application_enterWatch [Limits] (happ : l.process = none → l.app.reloader = none)
    (t : Trail) : (l.step (.reload .enter)).application = (l.application.enterWatch.run t).1 := by
  obtain ⟨app, process⟩ := l
  cases process with
  | none =>
    have hnone : app.reloader = none := happ rfl
    show app = (app.enterWatch.run t).1
    rw [Application.enterWatch, hnone]
    rfl
  | some p =>
    obtain ⟨world, options, watch, past⟩ := p
    cases watch <;> rfl

/-- A shutdown of a watch that does not wait for a pass. -/
theorem application_shutDown [Limits] (happ : l.process = none → l.app.reloader = none)
    (hwatch : ∀ p ∈ l.process, ∀ q, p.watch ≠ .passing q) (t : Trail) :
    (l.step .shutDown).application = (l.application.shutDown.run t).1 := by
  obtain ⟨app, process⟩ := l
  cases process with
  | none =>
    have hnone : app.reloader = none := happ rfl
    show { app with ready := false } = (app.shutDown.run t).1
    obtain ⟨_, _, _ | _, _, _⟩ := app
    · rfl
    · cases hnone
  | some p =>
    have hstop : p.step .stop = p.act (liftM p.reloader.stop) := by
      rw [Process.step]
      split
      · rename_i q hq
        exact absurd hq (hwatch p rfl q)
      · rfl
    simp only [step, application, Option.map_some, hstop]
    obtain ⟨world, options, watch, past⟩ := p
    cases watch <;> rfl

/-- A rescan finds the files as they are now; the watch then passes alone. -/
def rescanEvents (q : Reload.Call) (fs : FileSystem) (now : Instant) : List Event :=
  .reload (.pass (.disk fs)) :: (Process.wakeEvents q now).map .reload

theorem after_reload [Limits] (events : List Process.Event) :
    l.after (events.map .reload) = ⟨l.app, l.process.map (·.after events)⟩ := by
  induction events generalizing l with
  | nil =>
    obtain ⟨app, _ | p⟩ := l <;> rfl
  | cons e rest ih =>
    rw [List.map_cons, after_cons, ih, step]
    obtain ⟨app, _ | p⟩ := l <;> rfl

/-- A rescan while no pass is under way and the watch waits. -/
theorem application_rescan [Limits] {p : Process} (hprocess : l.process = some p) {q : Reload.Call}
    (hwatch : p.watch = .waiting) (hstage : p.world.stage q = .absent) (hlock : p.world.lock = none)
    (fs : FileSystem) (now : Instant) :
    (l.after (rescanEvents q fs now)).application =
      (l.application.rescan fs now |>.run p.world.trail).1 := by
  obtain ⟨app, _⟩ := l
  subst hprocess
  -- the pass of the watch finds the new files and nothing else changed
  obtain ⟨found, hfound⟩ : ∃ found, found = p.step (.pass (.disk fs)) := ⟨_, rfl⟩
  have hdisk : found = { p with world := { p.world with disk := fs } } := by
    rw [hfound]
    refine (Process.settle_of_open fun q' hq' => ?_).trans ?_
    · rw [show (p.advance (.disk fs)).watch = .waiting from hwatch] at hq'
      cases hq'
    · show Process.advance p (.disk fs) = _
      rw [Process.advance, Reload.World.ended?, hlock]
      rfl
  have hwake := Process.wake_eq (s := found) (q := q) (by rw [hdisk]; exact hwatch)
    (by rw [hdisk]; exact hstage) (by rw [hdisk]; exact hlock) now
  rw [rescanEvents, after_cons]
  rw [show step ⟨app, some p⟩ (.reload (.pass (.disk fs))) = ⟨app, some found⟩ by rw [hfound]; rfl]
  rw [after_reload]
  simp only [application, Option.map_some] at hwake ⊢
  generalize found.after (Process.wakeEvents q now) = woken at hwake ⊢
  have hrescan : ((Application.rescan { app with
      store := some p.world.state.store, reloader := some p.reloader } fs now).run
        p.world.trail).1 = { app with store := some woken.world.state.store
                                      reloader := some woken.reloader } := by
    rw [Application.rescan, StateT.run_bind]
    rw [hdisk] at hwake
    have : (p.reloader.wake fs now p.world.state.store).run p.world.trail = _ := hwake.symm
    rw [this]
    rfl
  exact hrescan.symm

/-! ### What every life has -/

/-- Without a process there is no reloader, and one that is there is in a state that a reloader can
be in. -/
structure Sound [Limits] (l : Live) : Prop where
  reloader : l.process = none → l.app.reloader = none
  reachable : ∀ p ∈ l.process, p.Reachable

namespace Sound

theorem new [Limits] (env : Environment) (hostRoutes : List Route) : Sound (new env hostRoutes) :=
  ⟨fun _ => rfl, fun _ hp => by cases hp⟩

variable {l : Live}

/-- What a startup has opened is a new reloader. -/
theorem startUp [Limits] {env : Environment} {fs : FileSystem} {now : Instant} {t : Trail}
    {a : Application} (h : (l.app.startUp env fs now).result t = .ok a) (t' : Trail) :
    Sound ⟨a, processOf a fs t'⟩ := by
  rw [Application.result_startUp] at h
  cases hloaded : Application.loadedFor env fs now with
  | error e =>
    rw [hloaded] at h
    cases h
  | ok loaded =>
    rw [hloaded] at h
    rw [← Except.ok.inj h]
    simp only [processOf, Application.opened]
    cases hr : Application.reloaderFor fs loaded.1 with
    | none => exact ⟨fun _ => by simp, fun p hp => by cases hp⟩
    | some r =>
      obtain ⟨path, _, _, rfl⟩ := Application.reloaderFor_eq_some_iff.mp hr
      refine ⟨fun hnone => absurd hnone (by simp), fun p hp => ?_⟩
      rw [Option.mem_def, Option.map_some, Option.some.injEq] at hp
      exact ⟨_, _, _, _, [], rfl, hp.symm⟩

theorem step [Limits] (h : Sound l) (e : Event) : Sound (l.step e) := by
  have hmap : ∀ inner : Process.Event, ∀ p ∈ l.process.map (·.step inner), p.Reachable := by
    intro inner p hp
    obtain ⟨before, hbefore, rfl⟩ := Option.map_eq_some_iff.mp hp
    exact (h.reachable before hbefore).step inner
  have hnone : ∀ inner : Process.Event, l.process.map (·.step inner) = none →
      l.app.reloader = none :=
    fun inner hmapped => h.reloader (Option.map_eq_none_iff.mp hmapped)
  cases e with
  | startUp env fs now t =>
    rw [Live.step]
    split
    · exact h
    · rename_i a hstart
      exact startUp hstart _
  | shutDown => exact ⟨hnone .stop, hmap .stop⟩
  | setReady value => exact ⟨h.reloader, h.reachable⟩
  | reload inner => exact ⟨hnone inner, hmap inner⟩

theorem after [Limits] (h : Sound l) (events : List Event) : Sound (l.after events) := by
  induction events generalizing l with
  | nil => exact h
  | cons e rest ih => exact ih (h.step e)

end Sound

/-- **The reloader of an application is in a state that a reloader can be in.** -/
theorem reachable_process [Limits] (env : Environment) (hostRoutes : List Route)
    (events : List Event) {p : Process}
    (h : ((new env hostRoutes).after events).process = some p) : p.Reachable :=
  ((Sound.new env hostRoutes).after events).reachable p h

/-! ### Records have no influence -/

/-- The life without its records. -/
def silence (l : Live) : Live := { l with process := l.process.map Process.silence }

@[simp] theorem application_silence : l.silence.application = l.application := by
  obtain ⟨app, _ | p⟩ := l <;> rfl

theorem silence_processOf (a : Application) (fs : FileSystem) (t t' : Trail) :
    silence ⟨a, processOf a fs t⟩ = silence ⟨a, processOf a fs t'⟩ := by
  obtain ⟨_, _ | _, _ | _, _, _⟩ := a <;> rfl

/-- A startup comes to the same whatever was recorded. -/
theorem silence_startUp [Limits] {l' : Live} (happ : l.app = l'.app)
    (hprocess : l.silence = l'.silence) {env env' : Environment} {fs : FileSystem} {now : Instant}
    (hloaded : Application.loadedFor env fs now = Application.loadedFor env' fs now)
    (t t' : Trail) :
    (l.step (.startUp env fs now t)).silence = (l'.step (.startUp env' fs now t')).silence := by
  have hresult : (l.app.startUp env fs now).result t = (l'.app.startUp env' fs now).result t' := by
    rw [Application.result_startUp, Application.result_startUp, hloaded, happ]
  rw [step, step, hresult]
  cases (l'.app.startUp env' fs now).result t' with
  | error e => exact hprocess
  | ok a => exact silence_processOf a fs _ _

/-- **Without its records the life of an application goes on as before.** -/
theorem silence_step [Limits] {l l' : Live} (h : l.silence = l'.silence) (e : Event) :
    (l.step e).silence = (l'.step e).silence := by
  have happ : l.app = l'.app := by
    have hsame := congrArg app h
    exact hsame
  have hprocess : l.process.map Process.silence = l'.process.map Process.silence :=
    congrArg process h
  have hmap : ∀ inner : Process.Event, (l.process.map (·.step inner)).map Process.silence =
      (l'.process.map (·.step inner)).map Process.silence := by
    intro inner
    have hstep : ∀ o : Option Process, (o.map (·.step inner)).map Process.silence =
        (o.map Process.silence).map fun p => (p.step inner).silence := by
      intro o
      cases o with
      | none => rfl
      | some p => exact congrArg some (p.silence_step inner)
    rw [hstep, hprocess, ← hstep]
  cases e with
  | startUp env fs now t => exact silence_startUp _ happ h rfl t t
  | shutDown => simp only [silence, step, happ, hmap]
  | setReady value => simp only [silence, step, happ, hprocess]
  | reload inner => simp only [silence, step, happ, hmap]

theorem silence_after [Limits] {l l' : Live} (h : l.silence = l'.silence) (events : List Event) :
    (l.after events).silence = (l'.after events).silence := by
  induction events generalizing l l' with
  | nil => exact h
  | cons e rest ih => exact ih (silence_step h e)

end Live

end AdmissionControl.Service
