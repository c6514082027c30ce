import AdmissionControl.Proofs.Service.Guard
import AdmissionControl.Proofs.Service.Routing
import AdmissionControl.Proofs.Settings

/-!
# Startup

A startup succeeds exactly if the settings and the allowlist load; what it then makes of the
application is one function of the two.  Until it has succeeded, every route that knows of the
allowlist answers 503.

* `Application.opened`, `Application.result_startUp` — what a startup comes to.
* `Endpoint.AsksAllowlist`, `Application.respond_of_unready` — what is answered before.
* `Application.silent_respond` — no response depends on what was recorded.
-/

namespace AdmissionControl.Service

open Allowlist (LoadError)

namespace Application

/-! ### What a startup comes to -/

def StartupError.ofLoad : LoadError → StartupError
  | .refused r => .allowlist r
  | .fault f => .fault f

/-- The settings and the allowlist of a startup. -/
def loadedFor [Limits] (env : Environment) (fs : FileSystem) (now : Instant) :
    Except StartupError (Settings × Allowlist) :=
  match Settings.ofEnvironment env fs none with
  | .error e => .error (.ofSettings e)
  | .ok s =>
    match Allowlist.ofSource fs (sourceOf s) now with
    | .error e => .error (.ofLoad e)
    | .ok allowlist => .ok (s, allowlist)

/-- The application that a startup has opened. -/
def opened (a : Application) (fs : FileSystem) (now : Instant) (s : Settings)
    (allowlist : Allowlist) : Application :=
  { a with
    ready := true
    store := some (Store.new allowlist now)
    reloader := (reloaderFor fs s).map fun r => { r with task := .made } }

theorem result_loadStartup [Limits] (fs : FileSystem) (source : Source) (now : Instant)
    (t : Trail) : (loadStartup fs source now).result t =
      (Allowlist.ofSource fs source now).mapError StartupError.ofLoad := by
  rw [← Allowlist.result_load fs source now t]
  have hload : ((attempt (Allowlist.load fs source now)).run t).1 =
      (Allowlist.load fs source now).result t := rfl
  rw [← hload, loadStartup]
  simp only [Audited.result, ExceptT.run_mk, StateT.run_bind]
  generalize (attempt (Allowlist.load fs source now)).run t = loaded
  obtain ⟨(_ | _) | a, t'⟩ := loaded <;> rfl

theorem reloaderFor_eq_some_iff {fs : FileSystem} {s : Settings} {r : Reload.Reloader} :
    reloaderFor fs s = some r ↔ ∃ path, s.source = some (.file path) ∧ s.reload.enabled = true ∧
      r = Reload.Reloader.new fs.workingDirectory path s.reload.options := by
  rw [reloaderFor]
  cases s.source with
  | none => simp
  | some source =>
    cases source with
    | file path => cases s.reload.enabled <;> simp [eq_comm]
    | inline | bare => simp

/-- The task of a new reloader is made, and has not run yet. -/
theorem fst_run_startWatch (fs : FileSystem) (s : Settings) (allowlist : Allowlist) (t : Trail) :
    ((startWatch fs s allowlist).run t).1 =
      (reloaderFor fs s).map fun r => { r with task := .made } := by
  rw [startWatch]
  cases hreloader : reloaderFor fs s with
  | none => rfl
  | some r =>
    obtain ⟨path, _, _, rfl⟩ := reloaderFor_eq_some_iff.mp hreloader
    rfl

/-- **What a startup comes to**, whatever is on the trail. -/
theorem result_startUp [Limits] (a : Application) (env : Environment) (fs : FileSystem)
    (now : Instant) (t : Trail) : (a.startUp env fs now).result t =
      (loadedFor env fs now).map fun loaded => a.opened fs now loaded.1 loaded.2 := by
  rw [startUp, loadedFor, Audited.result_bind, Audited.result_liftM_record]
  show Audited.result _ _ = _
  rw [Audited.result_bind, Audited.result_adapt, Settings.result_load]
  cases Settings.ofEnvironment env fs none with
  | error e => rfl
  | ok s =>
    show Audited.result _ _ = Except.map _ (match Allowlist.ofSource fs (sourceOf s) now with
      | .error e => _
      | .ok allowlist => _)
    rw [Audited.result_bind, result_loadStartup]
    cases Allowlist.ofSource fs (sourceOf s) now with
    | error e => rfl
    | ok allowlist =>
      show Audited.result _ _ = Except.ok (a.opened fs now s allowlist)
      rw [Audited.result_bind, Audited.result_liftM_record]
      show Audited.result _ _ = _
      rw [Audited.result_bind, Audited.result_liftM_record, fst_run_startWatch]
      rfl

theorem loadedFor_eq_ok_iff [Limits] {env : Environment} {fs : FileSystem} {now : Instant}
    {s : Settings} {allowlist : Allowlist} : loadedFor env fs now = .ok (s, allowlist) ↔
      Settings.ofEnvironment env fs none = .ok s ∧
        Allowlist.ofSource fs (sourceOf s) now = .ok allowlist := by
  rw [loadedFor]
  cases Settings.ofEnvironment env fs none with
  | error e => simp
  | ok s' =>
    simp only [Except.ok.injEq]
    constructor
    · intro h
      split at h
      · cases h
      · rename_i hload
        obtain ⟨rfl, rfl⟩ := Prod.mk.inj (Except.ok.inj h)
        exact ⟨rfl, hload⟩
    · rintro ⟨rfl, hload⟩
      rw [hload]

end Application

/-! ### Answers of an application that is not ready -/

/-- An endpoint that knows of the allowlist; an admission only if it is asked for by the name of an
operation. -/
def Endpoint.AsksAllowlist (parameters : Parameters) : Endpoint → Prop
  | .health | .status | .check | .guarded .. => True
  | .admission => ∃ operation, Operation.ofName?
      (Application.parameter operationName parameters) = some operation
  | .page => False

/-- A request that matches such a route of the service by its method and its path, or is led to such
a route of the host. -/
inductive Application.Asks (a : Application) (request : Request) : Prop
  | own {route : Route} {parameters : Parameters} (mem : route ∈ ownRoutes)
      (method : request.method ∈ route.methods)
      (path : route.template.match? request.path = some parameters)
      (asks : route.endpoint.AsksAllowlist parameters)
  | led {route : Route} {parameters : Parameters}
      (found : find a.routes request.method request.path = .full route parameters)
      (asks : route.endpoint.AsksAllowlist parameters)

namespace Application

variable {a : Application}

theorem gate_of_unready (h : a.ready = false) :
    a.gate = .error (startingUp "Allowlist gate is starting up") := by
  rw [gate, h]
  rfl

theorem admitFor_of_unready [Limits] (h : a.ready = false) (operation : Operation) (v : Value)
    (fresh : Text) (t : Trail) : (a.admitFor operation v fresh).run t =
      (.error (startingUp "Allowlist gate is starting up"), t) := by
  rw [admitFor, gate_of_unready h]
  rfl

/-- Every endpoint that knows of the allowlist says that the application is starting up. -/
theorem answer_of_unready [Limits] (h : a.ready = false) {endpoint : Endpoint}
    {parameters : Parameters} (hasks : endpoint.AsksAllowlist parameters) (fresh : Text)
    (t : Trail) :
    ∃ message, (a.answer endpoint parameters fresh).run t = (.error (startingUp message), t) := by
  cases endpoint with
  | health =>
    refine ⟨"Allowlist gate is starting up. Loading allowlist...", ?_⟩
    rw [answer, health, h]
    rfl
  | status =>
    refine ⟨"Allowlist gate is starting up", ?_⟩
    rw [answer, status, gate_of_unready h]
    rfl
  | check =>
    refine ⟨"Allowlist gate is starting up", ?_⟩
    rw [answer, checkIdentifier, gate_of_unready h]
    rfl
  | admission =>
    obtain ⟨operation, hoperation⟩ := hasks
    refine ⟨"Allowlist gate is starting up", ?_⟩
    rw [answer, admission, hoperation]
    simp only [StateT.run_bind, admitFor_of_unready h]
    rfl
  | guarded operation run =>
    refine ⟨"Allowlist gate is starting up", ?_⟩
    rw [answer, guarded]
    simp only [StateT.run_bind, admitFor_of_unready h]
    rfl
  | page => exact hasks.elim

/-- **Before the startup has succeeded**, every request for a route that knows of the allowlist is
answered with 503. -/
theorem respond_of_unready [Limits] (h : a.ready = false) {request : Request}
    (hasks : a.Asks request) (fresh : Text) (t : Trail) :
    ((a.respond request fresh).run t).1.status = 503 := by
  have hled : ∃ route parameters, find a.routes request.method request.path =
      .full route parameters ∧ route.endpoint.AsksAllowlist parameters := by
    cases hasks with
    | own mem method path asks => exact ⟨_, _, find_own mem method path, asks⟩
    | led found asks => exact ⟨_, _, found, asks⟩
  obtain ⟨route, parameters, hfind, hasks⟩ := hled
  obtain ⟨message, hanswer⟩ := answer_of_unready h hasks fresh t
  rw [respond, hfind]
  simp only [StateT.run_bind, hanswer]
  rfl

end Application

/-! ### Answers and records -/

/-- An action whose result does not depend on what was recorded. -/
def Silent {α : Type} (action : StateM Trail α) : Prop :=
  ∀ t t', (action.run t).1 = (action.run t').1

namespace Silent

variable {α β : Type}

theorem pure (a : α) : Silent (Pure.pure a : StateM Trail α) := fun _ _ => rfl

theorem bind {action : StateM Trail α} {next : α → StateM Trail β} (h : Silent action)
    (hnext : ∀ a, Silent (next a)) : Silent (action >>= next) := by
  intro t t'
  rw [StateT.run_bind, StateT.run_bind]
  show ((next (action.run t).1).run (action.run t).2).1 =
    ((next (action.run t').1).run (action.run t').2).1
  rw [h t t']
  exact hnext _ _ _

theorem emit (level : Level) (event : Text) (fields : List (String × Json.Value)) :
    Silent (AdmissionControl.emit level event fields) := fun _ _ => rfl

end Silent

namespace Application

variable (a : Application)

theorem silent_admitFor [Limits] (operation : Operation) (v : Value) (fresh : Text) :
    Silent (a.admitFor operation v fresh) := by
  rw [admitFor]
  cases a.gate with
  | error trouble => exact .pure _
  | ok store =>
    refine .bind (fun t t' => ?_) fun asked => ?_
    · exact (result_requestAdmission store operation v none fresh t).trans
        (result_requestAdmission store operation v none fresh t').symm
    · rcases asked with (_ | _) | _ <;> exact .pure _

theorem silent_answer [Limits] (endpoint : Endpoint) (parameters : Parameters) (fresh : Text) :
    Silent (a.answer endpoint parameters fresh) := by
  cases endpoint with
  | health | status | check | page => exact .pure _
  | admission =>
    rw [answer, admission]
    cases Operation.ofName? (parameter operationName parameters) with
    | none => exact .pure _
    | some operation =>
      refine .bind (a.silent_admitFor _ _ _) fun asked => ?_
      rcases asked with _ | _ | _ <;> exact .pure _
  | guarded operation run =>
    rw [answer, guarded]
    refine .bind (a.silent_admitFor _ _ _) fun asked => ?_
    rcases asked with _ | _ | _ <;> exact .pure _

theorem silent_faultResponse (request : Request) (f : Fault) : Silent (faultResponse request f) :=
  .bind (.emit _ _ _) fun _ => .pure _

theorem silent_troubleResponse (request : Request) (trouble : Trouble) :
    Silent (troubleResponse request trouble) := by
  cases trouble with
  | refused status detail => exact .bind (.emit _ _ _) fun _ => .pure _
  | fault f => exact silent_faultResponse request f
  | unknownOperation given =>
    rw [troubleResponse]
    split
    · exact silent_faultResponse request _
    · exact .pure _

/-- **No response depends on what was recorded.** -/
theorem silent_respond [Limits] (request : Request) (fresh : Text) :
    Silent (a.respond request fresh) := by
  rw [respond]
  cases find a.routes request.method request.path with
  | full route parameters =>
    refine .bind (a.silent_answer _ _ _) fun answered => ?_
    cases answered with
    | ok response => exact .pure _
    | error trouble => exact silent_troubleResponse request trouble
  | wrongMethod route => exact .pure _
  | none =>
    simp only
    split
    · split
      · exact .pure _
      · exact silent_faultResponse request _
    · exact .pure _

end Application

end AdmissionControl.Service
