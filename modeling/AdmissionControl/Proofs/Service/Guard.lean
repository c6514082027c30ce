import AdmissionControl.Proofs.Reload.Restart
import AdmissionControl.Service.Application

/-!
# Guarded routes

A guarded route of the host runs its handler only for a deployment that the application admits.  The
handler is a parameter here: it has run if the answer to a request is what it made of the
deployment, whatever it makes of it, and it has not run if the answer is the same for every handler.

* `Application.Admits` — ready, with a published snapshot that lists the deployment.
* `Application.admitFor_cases`, `Application.guarded_cases` — the two ways in which a guard ends.
* `Application.guarded_respond` — a request to any path, with any routes before and after.
* `Site` — an application with its passes; `Site.after` are the states that it can be in.
* `Site.Sound` — whatever is published or could be was loaded; every event keeps it so.
* `Site.guarded_route_runs_only_admitted` — no state, route or path gets past the guard.
-/

namespace AdmissionControl.Service

open Allowlist (Content)
open Application (deploymentOf)
open Reload (World)

/-! ### What a guard lets through -/

namespace Application

variable (a : Application)

/-- The application is ready, and the normal form of the deployment is an entry of the snapshot that
is current. -/
def Admits (deployment : Text) : Prop :=
  a.ready = true ∧ ∃ store normal, a.store = some store ∧
    Identifier.normalizeText deployment = .ok normal ∧ normal ∈ store.current.allowlist.entries

end Application

/-- How an answer depends on the handler: it is what the handler makes of the deployment. -/
def Runs (answer : (Option Text → Json.Value) → Response × Trail) (deployment : Option Text) :
    Prop := ∃ t, ∀ handler, answer handler = (.json 200 (handler deployment), t)

/-- The answer does not depend on the handler at all. -/
def Skips (answer : (Option Text → Json.Value) → Response × Trail) : Prop :=
  ∃ out, ∀ handler, answer handler = out

theorem not_skips_of_runs {answer : (Option Text → Json.Value) → Response × Trail}
    {deployment : Option Text} (h : Runs answer deployment) : ¬ Skips answer := by
  rintro ⟨out, hout⟩
  obtain ⟨t, ht⟩ := h
  have heq := (ht fun _ => .null).symm.trans ((hout _).trans ((hout _).symm.trans
    (ht fun _ => .bool true)))
  cases heq

theorem Runs.unique {answer : (Option Text → Json.Value) → Response × Trail}
    {deployment other : Option Text} (h : Runs answer deployment) (h' : Runs answer other) :
    deployment = other := by
  obtain ⟨t, ht⟩ := h
  obtain ⟨t', ht'⟩ := h'
  have heq := (ht Json.Value.ofText?).symm.trans (ht' Json.Value.ofText?)
  rw [Prod.mk.injEq, Response.json, Response.json, Response.mk.injEq, Option.some.injEq] at heq
  cases deployment <;> cases other <;> simp_all [Json.Value.ofText?]

/-! ### The ends of a guard -/

namespace Application

variable {a : Application} {operation : Operation} {fresh : Text} {t : Trail}

/-- What asking for admission comes to. -/
theorem result_requestAdmission [Limits] (store : Store) (operation : Operation) (v : Value)
    (given : Option Text) (fresh : Text) (t : Trail) :
    (requestAdmission store operation v given fresh).result t =
      match store.check v with
      | .error f => .error (.fault f)
      | .ok d =>
        if d.permitted then .ok d
        else .error (.denied ⟨operation, d, operationIdFor given fresh⟩) := by
  rw [requestAdmission]
  cases store.check v with
  | error f => rfl
  | ok d =>
    show (withOperation _ (concludeAdmission _ _ d)).result t = _
    rw [concludeAdmission]
    cases hp : d.permitted
    · simp only [hp]
      rfl
    · simp only [hp]
      rfl

theorem gate_eq_ok_iff {store : Store} :
    a.gate = .ok store ↔ a.ready = true ∧ a.store = some store := by
  rw [gate]
  cases a.ready with
  | false => simp
  | true => cases a.store <;> simp

theorem guardedValue_eq_text_iff {deployment : Option Text} {x : Text} :
    guardedValue deployment = .text x ↔ deployment = some x := by
  cases deployment <;> simp [guardedValue]

/-- The application admits the deployment of a request exactly if the check permits it. -/
theorem admits_iff [Limits] {store : Store} (hgate : a.gate = .ok store)
    (deployment : Option Text) : (∃ x, deployment = some x ∧ a.Admits x) ↔
      ∃ d, store.check (guardedValue deployment) = .ok d ∧ d.permitted = true := by
  obtain ⟨hready, hstore⟩ := gate_eq_ok_iff.mp hgate
  rw [Store.check_permits_iff]
  constructor
  · rintro ⟨x, rfl, _, store', normal, hstore', hnormal, hmem⟩
    rw [hstore, Option.some.injEq] at hstore'
    subst hstore'
    exact ⟨x, normal, rfl, hnormal, hmem⟩
  · rintro ⟨x, normal, hx, hnormal, hmem⟩
    exact ⟨x, guardedValue_eq_text_iff.mp hx, hready, store, normal, hstore, hnormal, hmem⟩

theorem admitFor_eq [Limits] {store : Store} (hgate : a.gate = .ok store) (operation : Operation)
    (v : Value) (fresh : Text) (t : Trail) :
    ((a.admitFor operation v fresh).run t).1 =
      match store.check v with
      | .error f => .error (.fault f)
      | .ok d =>
        if d.permitted then .ok (.ok d)
        else .ok (.error ⟨operation, d, operationIdFor none fresh⟩) := by
  have hresult : ((attempt (requestAdmission store operation v none fresh)).run t).1 = _ :=
    result_requestAdmission store operation v none fresh t
  simp only [admitFor, hgate, StateT.run_bind]
  generalize (attempt (requestAdmission store operation v none fresh)).run t = asked at hresult ⊢
  obtain ⟨r, t'⟩ := asked
  subst hresult
  cases store.check v with
  | error f => rfl
  | ok d =>
    cases hp : d.permitted
    · simp only [hp]
      rfl
    · simp only [hp]
      rfl

/-- What asking on behalf of a request comes to: a decision that permits exactly if the application
admits the deployment. -/
theorem admitFor_cases [Limits] (a : Application) (operation : Operation) (deployment : Option Text)
    (fresh : Text) (t : Trail) :
    let asked := ((a.admitFor operation (guardedValue deployment) fresh).run t).1
    (∃ x, deployment = some x ∧ a.Admits x ∧ ∃ d, asked = .ok (.ok d)) ∨
    ((¬ ∃ x, deployment = some x ∧ a.Admits x) ∧ ∀ d, asked ≠ .ok (.ok d)) := by
  intro asked
  cases hgate : a.gate with
  | error trouble =>
    have hasked : asked = .error trouble := by
      show ((a.admitFor _ _ _).run t).1 = _
      rw [admitFor, hgate]
      rfl
    refine .inr ⟨?_, fun d hd => ?_⟩
    · rintro ⟨_, _, hready, store, _, hstore, _⟩
      rw [gate_eq_ok_iff.mpr ⟨hready, hstore⟩] at hgate
      cases hgate
    · rw [hasked] at hd
      cases hd
  | ok store =>
    have hasked : asked = _ := admitFor_eq hgate operation (guardedValue deployment) fresh t
    rw [admits_iff hgate deployment, hasked]
    cases hcheck : store.check (guardedValue deployment) with
    | error f => exact .inr ⟨nofun, nofun⟩
    | ok d =>
      cases hp : d.permitted with
      | false =>
        refine .inr ⟨?_, fun d' hd' => ?_⟩
        · rintro ⟨d', hd', hp'⟩
          rw [Except.ok.injEq] at hd'
          rw [← hd', hp] at hp'
          cases hp'
        · simp [hp] at hd'
      | true =>
        obtain ⟨x, hx, hadmits⟩ := (admits_iff hgate deployment).mpr ⟨d, hcheck, hp⟩
        exact .inl ⟨x, hx, hadmits, d, by simp [hp]⟩

/-- **The ends of a guard.**  Either the application admits the deployment, and the handler answers;
or it does not, and the same trouble comes of every handler. -/
theorem guarded_cases [Limits] (a : Application) (operation : Operation) (parameters : Parameters)
    (fresh : Text) (t : Trail) :
    (∃ deployment, deploymentOf parameters = some deployment ∧ a.Admits deployment ∧
      ∃ t', ∀ handler, (a.guarded operation handler parameters fresh).run t =
        (.ok (.json 200 (handler (some deployment))), t')) ∨
    ((¬ ∃ deployment, deploymentOf parameters = some deployment ∧ a.Admits deployment) ∧
      ∃ trouble t', ∀ handler,
        (a.guarded operation handler parameters fresh).run t = (.error trouble, t')) := by
  have hcases := a.admitFor_cases operation (deploymentOf parameters) fresh t
  simp only [guarded, StateT.run_bind]
  generalize (a.admitFor operation (guardedValue (deploymentOf parameters)) fresh).run t = asked
    at hcases ⊢
  obtain ⟨asked, t'⟩ := asked
  rcases hcases with ⟨deployment, hdeployment, hadmits, d, rfl⟩ | ⟨hnot, hasked⟩
  · refine .inl ⟨deployment, hdeployment, hadmits, t', fun handler => ?_⟩
    rw [hdeployment]
    rfl
  · refine .inr ⟨hnot, ?_⟩
    rcases asked with trouble | denial | d
    · exact ⟨trouble, t', fun handler => rfl⟩
    · exact ⟨.refused 403 (denialBody denial), t', fun handler => rfl⟩
    · exact absurd rfl (hasked d)

end Application

/-! ### Requests -/

/-- The name of the parameter that a part of a template stands for. -/
def Part.name? : Part → Option Text
  | .literal _ => none
  | .segment name | .rest name => some name

/-- A value that was found is the start of the path, and what follows it has the answer. -/
theorem of_longestBefore {α : Type} {allowed : CodePoint → Bool} {next : Text → Option α}
    {path value : Text} {answer : α} (h : longestBefore allowed next path = some (value, answer)) :
    ∃ tail, path = value ++ tail ∧ (∀ c ∈ value, allowed c = true) ∧ next tail = some answer := by
  have hshortest : ∀ {path value : Text}, (next path).map ([], ·) = some (value, answer) →
      ∃ tail, path = value ++ tail ∧ (∀ c ∈ value, allowed c = true) ∧
        next tail = some answer := by
    intro path value h
    obtain ⟨found, hfound, heq⟩ := Option.map_eq_some_iff.mp h
    obtain ⟨rfl, rfl⟩ := Prod.mk.inj heq
    exact ⟨path, rfl, nofun, hfound⟩
  induction path generalizing value with
  | nil => exact hshortest h
  | cons c tail ih =>
    simp only [longestBefore] at h
    by_cases hc : allowed c = true
    · rw [if_pos hc] at h
      split at h
      · next longer found hlonger =>
        obtain ⟨rfl, rfl⟩ := Prod.mk.inj (Option.some.inj h)
        obtain ⟨rest, rfl, hallowed, hnext⟩ := ih hlonger
        exact ⟨rest, rfl, List.forall_mem_cons.mpr ⟨hc, hallowed⟩, hnext⟩
      · exact hshortest h
    · rw [if_neg hc] at h
      exact hshortest h

/-- A template gives no value to a parameter that none of its parts stands for. -/
theorem lookup_eq_none_of_match {template : Template} {name : Text}
    (hname : ∀ part ∈ template, part.name? ≠ some name) {path : Text} {parameters : Parameters}
    (h : template.match? path = some parameters) : parameters.lookup name = none := by
  induction template generalizing path parameters with
  | nil =>
    rw [Template.match?] at h
    split at h
    · rw [← Option.some.inj h]
      rfl
    · cases h
  | cons part parts ih =>
    obtain ⟨hpart, hparts⟩ := List.forall_mem_cons.mp hname
    cases part with
    | literal text =>
      rw [Template.match?] at h
      split at h
      · exact ih hparts h
      · cases h
    | segment other =>
      have hne : name ≠ other := fun heq => hpart (congrArg some heq.symm)
      rw [Template.match?] at h
      split at h
      · next value more hfound =>
        obtain ⟨tail, _, _, hmore⟩ := of_longestBefore hfound
        split at h
        · cases h
        · rw [← Option.some.inj h, List.lookup_cons, beq_false_of_ne hne]
          exact ih hparts hmore
      · cases h
    | rest other =>
      have hne : name ≠ other := fun heq => hpart (congrArg some heq.symm)
      rw [Template.match?] at h
      split at h
      · next value more hfound =>
        obtain ⟨tail, _, _, hmore⟩ := of_longestBefore hfound
        rw [← Option.some.inj h, List.lookup_cons, beq_false_of_ne hne]
        exact ih hparts hmore
      · cases h

/-- A route of the host with a guard. -/
def hostRoute (methods : List Text) (template : Template) (operation : Operation)
    (handler : Option Text → Json.Value) : Route :=
  ⟨methods, template, .guarded operation handler⟩

/-- The routes before a guarded route and after it do not depend on its handler: a path either leads
to it, or leads elsewhere for every handler. -/
theorem find_guarded (before after : List Route) (methods : List Text) (template : Template)
    (operation : Operation) (method path : Text) :
    (∃ parameters, template.match? path = some parameters ∧ ∀ handler,
      find (before ++ hostRoute methods template operation handler :: after) method path =
        .full (hostRoute methods template operation handler) parameters) ∨
    (∃ m, ∀ handler,
      find (before ++ hostRoute methods template operation handler :: after) method path = m) ∨
    ∀ handler, find (before ++ hostRoute methods template operation handler :: after) method path =
      .wrongMethod (hostRoute methods template operation handler) := by
  simp only [find, List.filterMap_append, List.filterMap_cons, hostRoute, List.find?_append]
  generalize before.filterMap (fun r => (r.template.match? path).map (r, ·)) = earlier
  generalize after.filterMap (fun r => (r.template.match? path).map (r, ·)) = later
  cases hearlier : earlier.find? (fun hit => hit.1.methods.contains method) with
  | some hit => exact .inr (.inl ⟨_, fun handler => rfl⟩)
  | none =>
    cases hmatch : template.match? path with
    | none =>
      simp only [Option.map_none, Option.none_or]
      exact .inr (.inl ⟨_, fun handler => rfl⟩)
    | some parameters =>
      simp only [Option.map_some, List.find?_cons, Option.none_or]
      cases methods.contains method with
      | true => exact .inl ⟨parameters, rfl, fun handler => rfl⟩
      | false =>
        cases later.find? (fun hit => hit.1.methods.contains method) with
        | some hit => exact .inr (.inl ⟨_, fun handler => rfl⟩)
        | none =>
          cases earlier with
          | nil => exact .inr (.inr fun handler => rfl)
          | cons hit rest => exact .inr (.inl ⟨_, fun handler => rfl⟩)

namespace Application

/-- The application with a guarded route among the routes of the host. -/
def withGuarded (a : Application) (before after : List Route) (methods : List Text)
    (template : Template) (operation : Operation) (handler : Option Text → Json.Value) :
    Application :=
  { a with hostRoutes := before ++ hostRoute methods template operation handler :: after }

theorem routes_withGuarded (a : Application) (before after : List Route) (methods : List Text)
    (template : Template) (operation : Operation) (handler : Option Text → Json.Value) :
    (a.withGuarded before after methods template operation handler).routes =
      ((if a.pages then pageRoutes else []) ++ ownRoutes ++ before) ++
        hostRoute methods template operation handler :: after := by
  rw [routes, withGuarded, List.append_assoc _ before]

/-- No answer but that of the routing depends on the routes of the host. -/
theorem answer_withGuarded [Limits] (a : Application) (before after : List Route)
    (methods : List Text) (template : Template) (operation : Operation)
    (handler : Option Text → Json.Value) (endpoint : Endpoint) (parameters : Parameters)
    (fresh : Text) :
    (a.withGuarded before after methods template operation handler).answer endpoint parameters
      fresh = a.answer endpoint parameters fresh := by
  cases endpoint <;> rfl

theorem redirects_guarded (before after : List Route) (methods : List Text) (template : Template)
    (operation : Operation) (path : Text) : ∃ b, ∀ handler,
      redirects (before ++ hostRoute methods template operation handler :: after) path = b := by
  refine ⟨redirects (before ++ hostRoute methods template operation (fun _ => .null) :: after) path,
    fun handler => ?_⟩
  simp only [redirects, List.any_append, List.any_cons]
  rfl

/-- **A request and a guarded route**, wherever it stands among the routes.  Either the request
leads to the route and the application admits its deployment, and the handler answers; or the
response is the same for every handler. -/
theorem guarded_respond [Limits] (a : Application) (before after : List Route) (methods : List Text)
    (template : Template) (operation : Operation) (request : Request) (fresh : Text) (t : Trail) :
    (∃ parameters deployment, template.match? request.path = some parameters ∧
      deploymentOf parameters = some deployment ∧ a.Admits deployment ∧
      Runs (fun handler => ((a.withGuarded before after methods template operation handler).respond
        request fresh).run t) (some deployment)) ∨
    Skips fun handler =>
      ((a.withGuarded before after methods template operation handler).respond request
        fresh).run t := by
  simp only [respond, routes_withGuarded, answer_withGuarded]
  generalize ((if a.pages then pageRoutes else []) ++ ownRoutes ++ before) = earlier
  rcases find_guarded earlier after methods template operation request.method request.path with
    ⟨parameters, hmatch, hfind⟩ | ⟨m, hfind⟩ | hfind
  · simp only [hfind]
    rcases guarded_cases a operation parameters fresh t with
      ⟨deployment, hdeployment, hadmits, t', hanswer⟩ | ⟨_, trouble, t', hanswer⟩
    · refine .inl ⟨parameters, deployment, hmatch, hdeployment, hadmits, t', fun handler => ?_⟩
      simp only [hostRoute, answer, StateT.run_bind, hanswer]
      rfl
    · refine .inr ⟨(troubleResponse request trouble).run t', fun handler => ?_⟩
      simp only [hostRoute, answer, StateT.run_bind, hanswer]
      rfl
  · simp only [hfind]
    refine .inr ?_
    obtain ⟨b, hredirects⟩ :=
      redirects_guarded earlier after methods template operation request.path
    simp only [hredirects]
    exact ⟨_, fun handler => rfl⟩
  · simp only [hfind]
    exact .inr ⟨(Response.wrongMethod methods, t), fun handler => rfl⟩

end Application

/-! ### Startup, watch and shutdown -/

namespace Application

theorem load_of_loadStartup [Limits] {fs : FileSystem} {source : Source} {now : Instant} {t : Trail}
    {allowlist : Allowlist} (h : (loadStartup fs source now).result t = .ok allowlist) :
    (Allowlist.load fs source now).result t = .ok allowlist := by
  have hload : ((attempt (Allowlist.load fs source now)).run t).1 =
      (Allowlist.load fs source now).result t := rfl
  rw [loadStartup] at h
  rw [← hload]
  simp only [Audited.result, ExceptT.run_mk, StateT.run_bind] at h
  generalize (attempt (Allowlist.load fs source now)).run t = loaded at h ⊢
  obtain ⟨(_ | _) | a, t'⟩ := loaded
  · cases h
  · cases h
  · cases h
    rfl

/-- **A startup that succeeds publishes an allowlist** that it has loaded. -/
theorem store_of_startUp [Limits] {a a' : Application} {env : Environment} {fs : FileSystem}
    {now : Instant} {t : Trail} (h : (a.startUp env fs now).result t = .ok a') :
    ∃ store : Store, a'.store = some store ∧ store.Sourced := by
  rw [startUp] at h
  obtain ⟨_, _, h⟩ := Audited.result_bind_eq_ok_iff.mp h
  obtain ⟨settings, _, h⟩ := Audited.result_bind_eq_ok_iff.mp h
  obtain ⟨allowlist, hload, h⟩ := Audited.result_bind_eq_ok_iff.mp h
  obtain ⟨_, _, h⟩ := Audited.result_bind_eq_ok_iff.mp h
  obtain ⟨c, _, hgives⟩ := Allowlist.load_gives (load_of_loadStartup hload)
  refine ⟨Store.new allowlist now, ?_, c, hgives⟩
  -- with or without a watch, what is left keeps the store
  obtain ⟨_, _, h⟩ := Audited.result_bind_eq_ok_iff.mp h
  obtain ⟨_, _, h⟩ := Audited.result_bind_eq_ok_iff.mp h
  rw [← Except.ok.inj h]

theorem store_shutDown (a : Application) (t : Trail) :
    ((a.shutDown.run t).1).store = a.store := by
  rw [shutDown]
  cases a.reloader <;> rfl

theorem store_enterWatch (a : Application) (t : Trail) :
    ((a.enterWatch.run t).1).store = a.store := by
  rw [enterWatch]
  cases a.reloader <;> rfl

/-- A pass of the watch leaves a store whose allowlist some content gives. -/
theorem sourced_wake [Limits] {r : Reload.Reloader} {store : Store} (h : store.Sourced)
    (fs : FileSystem) (now : Instant) (t : Trail) : ((r.wake fs now store).run t).1.2.Sourced := by
  simp only [Reload.Reloader.wake]
  split
  · have hrun : ((Reload.Pass.run fs r.path now (r.state store)).run t).1.1.store.Sourced :=
      Reload.Pass.sourced_run h
    exact hrun
  · exact h

theorem sourced_rescan [Limits] {a : Application}
    (h : ∀ store, a.store = some store → store.Sourced) (fs : FileSystem) (now : Instant)
    (t : Trail) :
    ∀ store, ((a.rescan fs now).run t).1.store = some store → store.Sourced := by
  intro store hstore
  rw [rescan] at hstore
  cases hreloader : a.reloader with
  | none =>
    rw [hreloader] at hstore
    exact h store hstore
  | some r =>
    cases hpublished : a.store with
    | none =>
      rw [hreloader, hpublished] at hstore
      exact h store hstore
    | some published =>
      rw [hreloader, hpublished] at hstore
      have hwake := sourced_wake (r := r) (h published hpublished) fs now t
      rw [← Option.some.inj hstore]
      exact hwake

end Application

/-! ### The states of an application -/

/-- An application with the passes that are under way since its startup. -/
structure Site where
  app : Application
  passes : Option World

inductive Site.Event
  /-- A startup; one that fails leaves the application as it is. -/
  | startUp (env : Environment) (fs : FileSystem) (now : Instant) (t : Trail)
  /-- The task of the watch runs for the first time. -/
  | enterWatch (t : Trail)
  | shutDown (t : Trail)
  /-- The host assigns a value that counts as true or as false. -/
  | setReady (value : Bool)
  /-- One pass of the watch, without interruption. -/
  | rescan (fs : FileSystem) (now : Instant) (t : Trail)
  /-- Any event of passes that overlap, or of others that load and publish. -/
  | reload (e : Reload.Event)

namespace Site

def new (env : Environment) (hostRoutes : List Route) : Site := ⟨.new env hostRoutes, none⟩

/-- The passes of the application, which share its store. -/
def sharing (w : World) (store : Store) : World :=
  { w with state := { w.state with store := store } }

def step [Limits] (s : Site) : Event → Site
  | .startUp env fs now t =>
    match (s.app.startUp env fs now).result t with
    | .error _ => s
    | .ok app =>
      { app := app
        passes := app.store.map fun store =>
          World.start ((app.reloader.map (·.path)).getD []) fs store t }
  | .enterWatch t => { s with app := (s.app.enterWatch.run t).1 }
  | .shutDown t => { s with app := (s.app.shutDown.run t).1 }
  | .setReady value => { s with app := { s.app with ready := value } }
  | .rescan fs now t => { s with app := ((s.app.rescan fs now).run t).1 }
  | .reload e =>
    match s.app.store, s.passes with
    | some store, some w =>
      let w := (sharing w store).step e
      { app := { s.app with store := some w.state.store }, passes := some w }
    | _, _ => s

/-- The states that an application can be in. -/
def after [Limits] (s : Site) (events : List Event) : Site := events.foldl step s

/-- Whatever the application has published, and whatever its passes could publish, was loaded. -/
structure Sound [Limits] (s : Site) : Prop where
  store : ∀ store, s.app.store = some store → store.Sourced
  passes : ∀ w, s.passes = some w → w.Sourced

namespace Sound

variable {s : Site}

theorem new [Limits] (env : Environment) (hostRoutes : List Route) :
    (Site.new env hostRoutes).Sound := by
  constructor
  · intro store h
    cases h
  · intro w h
    cases h

theorem startUp [Limits] (h : s.Sound) (env : Environment) (fs : FileSystem) (now : Instant)
    (t : Trail) : (s.step (.startUp env fs now t)).Sound := by
  rw [step]
  cases hstart : (s.app.startUp env fs now).result t with
  | error e => exact h
  | ok app =>
    obtain ⟨store, hstore, hsourced⟩ := Application.store_of_startUp hstart
    constructor
    · intro store' hstore'
      rw [← Option.some.inj (hstore.symm.trans hstore')]
      exact hsourced
    · intro w hw
      simp only [hstore, Option.map_some, Option.some.injEq] at hw
      rw [← hw]
      exact World.Sourced.start _ fs hsourced t

theorem reload [Limits] (h : s.Sound) (e : Reload.Event) : (s.step (.reload e)).Sound := by
  rw [step]
  cases hstore : s.app.store with
  | none => exact h
  | some store =>
    cases hpasses : s.passes with
    | none => exact h
    | some w =>
      have hw := h.passes w hpasses
      have hshared : (sharing w store).Sourced := ⟨h.store store hstore, hw.held, hw.worker⟩
      have hnext := hshared.step e
      constructor
      · intro store' hstore'
        rw [← Option.some.inj hstore']
        exact hnext.current
      · intro w' hw'
        rw [← Option.some.inj hw']
        exact hnext

/-- **Every event keeps it so.** -/
theorem step [Limits] (h : s.Sound) (e : Event) : (s.step e).Sound := by
  cases e with
  | startUp env fs now t => exact h.startUp env fs now t
  | enterWatch t =>
    refine ⟨fun store hstore => h.store store ?_, h.passes⟩
    rw [← Application.store_enterWatch s.app t]
    exact hstore
  | shutDown t =>
    refine ⟨fun store hstore => h.store store ?_, h.passes⟩
    rw [← Application.store_shutDown s.app t]
    exact hstore
  | setReady value => exact ⟨h.store, h.passes⟩
  | rescan fs now t => exact ⟨Application.sourced_rescan h.store fs now t, h.passes⟩
  | reload e => exact h.reload e

theorem after [Limits] (h : s.Sound) (events : List Event) : (s.after events).Sound := by
  induction events generalizing s with
  | nil => exact h
  | cons e rest ih => exact ih (h.step e)

end Sound

/-- **No state, route or path gets past a guard.**  In whatever state startups, shutdowns, reloads
and assignments have left the application, and wherever the guarded route stands: if its handler
runs, then with the deployment of the path, which the application admits by a snapshot that was
loaded from a source.  In every other case the handler has no part in the response; so it is for
every path if no part of the template names a deployment. -/
theorem guarded_route_runs_only_admitted [Limits] (env : Environment) (hostRoutes : List Route)
    (events : List Event) (before after : List Route) (methods : List Text) (template : Template)
    (operation : Operation) (request : Request) (fresh : Text) (t : Trail) :
    let app := ((Site.new env hostRoutes).after events).app
    let answer := fun handler => ((app.withGuarded before after methods template operation
      handler).respond request fresh).run t
    (∀ received, Runs answer received → ∃ parameters deployment store normal,
      template.match? request.path = some parameters ∧
      deploymentOf parameters = some deployment ∧ received = some deployment ∧
      app.ready = true ∧ app.store = some store ∧ store.Sourced ∧
      Identifier.normalizeText deployment = .ok normal ∧
      normal ∈ store.current.allowlist.entries) ∧
    ((∃ received, Runs answer received) ∨ Skips answer) ∧
    ((¬ ∃ parameters deployment, template.match? request.path = some parameters ∧
      deploymentOf parameters = some deployment ∧ app.Admits deployment) → Skips answer) ∧
    ((∀ part ∈ template, part.name? ≠ some deploymentName) → Skips answer) := by
  intro app answer
  have hsound : ((Site.new env hostRoutes).after events).Sound :=
    (Sound.new env hostRoutes).after events
  rcases app.guarded_respond before after methods template operation request fresh t with
    ⟨parameters, deployment, hmatch, hdeployment, hadmits, hruns⟩ | hskips
  · obtain ⟨hready, store, normal, hstore, hnormal, hmem⟩ := hadmits
    refine ⟨fun received hreceived => ?_, .inl ⟨_, hruns⟩, fun hnone => ?_, fun hname => ?_⟩
    · exact ⟨parameters, deployment, store, normal, hmatch, hdeployment, hreceived.unique hruns,
        hready, hstore, hsound.store store hstore, hnormal, hmem⟩
    · exact absurd ⟨parameters, deployment, hmatch, hdeployment, hready, store, normal, hstore,
        hnormal, hmem⟩ hnone
    · rw [deploymentOf, lookup_eq_none_of_match hname hmatch] at hdeployment
      cases hdeployment
  · exact ⟨fun received hreceived => absurd hskips (not_skips_of_runs hreceived), .inr hskips,
      fun _ => hskips, fun _ => hskips⟩

/-- A host that starts with an inline text. -/
def sampleEnvironment : Environment :=
  ⟨[(Allowlist.inlineVariable, "0xAB,Qm")], "/", default⟩

def sampleTemplate : Template :=
  [.literal "/subgraphs/", .rest deploymentName, .literal "/start"]

def sampleRequest : Request := ⟨"POST", "/subgraphs/ 0Xab/start"⟩

def sampleEvents : List Event := [.startUp sampleEnvironment ⟨⟨[]⟩, "/"⟩ default .start]

attribute [local instance] Limits.usual

/-- The deployment reaches the handler as it stands in the path, before it is normalized. -/
theorem sample_route_runs : Runs (fun handler =>
    ((((Site.new sampleEnvironment []).after sampleEvents).app.withGuarded [] [] ["POST"]
      sampleTemplate .start handler).respond sampleRequest "id").run .start) (some " 0Xab") := by
  obtain ⟨hruns, hcases, _, _⟩ := guarded_route_runs_only_admitted sampleEnvironment []
    sampleEvents [] [] ["POST"] sampleTemplate .start sampleRequest "id" .start
  have hmatch : sampleTemplate.match? sampleRequest.path =
      some [(deploymentName, Text.ofString " 0Xab")] := by
    decide +kernel
  rcases hcases with ⟨received, hreceived⟩ | ⟨out, hskips⟩
  · obtain ⟨parameters, deployment, _, _, hparameters, hdeployment, rfl, _⟩ := hruns _ hreceived
    rw [hmatch, Option.some.injEq] at hparameters
    rw [← hparameters] at hdeployment
    cases hdeployment
    exact hreceived
  · have hnull := hskips fun _ => .null
    have hbool := hskips fun _ => .bool true
    have hrendered := congrArg (fun out => out.1.body.map Json.Value.renderPlain)
      (hnull.trans hbool.symm)
    exact absurd hrendered (by decide +kernel)

end Site

end AdmissionControl.Service
