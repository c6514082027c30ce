import AdmissionControl.Proofs.Reload.Tally
import AdmissionControl.Proofs.Service.Live

/-!
# What health tells about reloads

Health reads one number of the status, so what it tells is a function of how the passes ended.

* `Tells` — what an answer says of the service and of its reloads.
* `head?_counts_eq_failed_iff` — the last pass that counts, and the last one that was not cancelled.
* `Application.health_tells` — what health tells, from the status of the reloader.
* `Live.degraded_iff_last_failed` — what it tells in every state, from the passes.
-/

namespace AdmissionControl.Service

open Reload (Process Outcome Watch)

/-- An answer with two fields that say how the service is and what its reloads do. -/
def Tells (status reload : Text) (response : Response) : Prop :=
  response.status = 200 ∧ ∃ body, response.body = some body ∧
    body.field? "status" = some (.string status) ∧ body.field? "reload" = some (.string reload)

theorem Tells.unique {status status' reload reload' : Text} {response : Response}
    (h : Tells status reload response) (h' : Tells status' reload' response) :
    status = status' ∧ reload = reload' := by
  obtain ⟨_, body, hbody, hstatus, hreload⟩ := h
  obtain ⟨_, body', hbody', hstatus', hreload'⟩ := h'
  obtain rfl := Option.some.inj (hbody.symm.trans hbody')
  refine ⟨?_, ?_⟩
  · exact Json.Value.string.inj (Option.some.inj (hstatus.symm.trans hstatus'))
  · exact Json.Value.string.inj (Option.some.inj (hreload.symm.trans hreload'))

/-! ### The last pass -/

/-- If the last pass that was not cancelled did not end by a fault, it is the last one that
counts. -/
theorem head?_counts_eq_failed_iff {past : List Outcome}
    (h : ∀ f, (past.filter (· ≠ .cancelled)).head? ≠ some (.escaped f)) :
    (past.filter Outcome.counts).head? = some .failed ↔
      ∃ outcome, (past.filter (· ≠ .cancelled)).head? = some outcome ∧
        outcome ≠ .unchanged ∧ outcome ≠ .published := by
  induction past with
  | nil => simp
  | cons outcome past ih =>
    cases outcome with
    | cancelled => simpa [Outcome.counts] using ih (by simpa using h)
    | escaped f => exact absurd rfl (h f)
    | failed | unchanged | published => simp [Outcome.counts]

/-! ### What health tells -/

/-- The request for the health of the service. -/
def healthRequest : Request := ⟨"GET", "/health"⟩

namespace Application

variable {a : Application}

/-- Whatever routes a host adds, the request is answered by health. -/
theorem respond_health [Limits] (a : Application) (fresh : Text) (t : Trail) {body : Json.Value}
    (h : a.health = .ok body) : ((a.respond healthRequest fresh).run t).1 = .json 200 body := by
  have hfind : find a.routes healthRequest.method healthRequest.path =
      .full ⟨["GET"], [.literal "/health"], .health⟩ [] :=
    find_own (List.mem_cons_self ..) (by decide +kernel) (by decide +kernel)
  rw [respond, hfind]
  simp only [answer, h]
  rfl

/-- **What health tells of a running reloader**: its failures in a row decide. -/
theorem health_tells [Limits] {store : Store} {r : Reload.Reloader} (hready : a.ready = true)
    (hstore : a.store = some store) (hreloader : a.reloader = some r) (hrunning : r.running = true)
    (fresh : Text) (t : Trail) :
    if r.status.consecutiveFailures ≠ 0 then
      Tells "degraded" "failing" ((a.respond healthRequest fresh).run t).1
    else Tells "ok" "watching" ((a.respond healthRequest fresh).run t).1 := by
  have hreload : reloadHealth a.reloader =
      if r.status.consecutiveFailures ≠ 0 then .failing else .watching := by
    rw [hreloader, reloadHealth, hrunning]
    rfl
  obtain ⟨body, hbody, hfields⟩ : ∃ body, a.health = .ok body ∧
      body.field? "status" = some
        (if (reloadHealth a.reloader).isDegraded then .ofString "degraded" else .ofString "ok") ∧
      body.field? "reload" = some (.string (reloadHealth a.reloader).name) := by
    rw [health, hready, hstore]
    refine ⟨_, rfl, ?_, ?_⟩ <;> simp [Json.Value.record, Json.Value.field?, Text.ofString_inj]
  rw [respond_health a fresh t hbody]
  rw [hreload] at hfields
  split <;> rename_i hcount
  · rw [if_pos hcount] at hfields
    exact ⟨rfl, body, rfl, hfields⟩
  · rw [if_neg hcount] at hfields
    exact ⟨rfl, body, rfl, hfields⟩

end Application

namespace Live

/-- What a request finds of an application with a reloader. -/
theorem application_of_process {l : Live} {p : Process} (h : l.process = some p) :
    l.application.store = some p.world.state.store ∧ l.application.reloader = some p.reloader := by
  rw [application, h]
  exact ⟨rfl, rfl⟩

/-- **What health tells about reloads.**  In whatever state startups, shutdowns, assignments, passes
and the watch have left a ready application with a running reloader: health tells that reloads fail
exactly if the last pass that counts has failed, and otherwise that they are watched.  A pass that a
fault ends does not count; if the last pass that was not cancelled did not end by a fault, health
tells that reloads fail exactly if there is such a pass and it found the allowlist neither unchanged
nor to publish. -/
theorem degraded_iff_last_failed [Limits] (env : Environment) (hostRoutes : List Route)
    (events : List Event) {p : Process} (fresh : Text) (t : Trail)
    (hprocess : ((new env hostRoutes).after events).process = some p)
    (hready : ((new env hostRoutes).after events).app.ready = true)
    (hrunning : p.watch.running = true) :
    let answer :=
      ((((new env hostRoutes).after events).application.respond healthRequest fresh).run t).1
    let last := (p.past.filter (· ≠ .cancelled)).head?
    (Tells "degraded" "failing" answer ↔
      (p.past.filter Outcome.counts).head? = some .failed) ∧
    ((∀ f, last ≠ some (.escaped f)) → (Tells "degraded" "failing" answer ↔
      ∃ outcome, last = some outcome ∧ outcome ≠ .unchanged ∧ outcome ≠ .published)) ∧
    (Tells "degraded" "failing" answer ∨ Tells "ok" "watching" answer) := by
  intro answer last
  obtain ⟨hstore, hreloader⟩ := application_of_process hprocess
  have htells := Application.health_tells ((ready_application _).trans hready) hstore hreloader
    hrunning fresh t
  have hcount : p.reloader.status.consecutiveFailures = Reload.failuresInARow p.past :=
    p.consecutiveFailures_eq (reachable_process env hostRoutes events hprocess)
  have hcases : (Tells "degraded" "failing" answer ∧ Reload.failuresInARow p.past ≠ 0) ∨
      (Tells "ok" "watching" answer ∧ Reload.failuresInARow p.past = 0) := by
    rw [hcount] at htells
    split at htells
    · next hne => exact .inl ⟨htells, hne⟩
    · next heq => exact .inr ⟨htells, not_ne_iff.mp heq⟩
  have hiff : Tells "degraded" "failing" answer ↔
      (p.past.filter Outcome.counts).head? = some .failed := by
    rw [← Reload.failuresInARow_ne_zero_iff]
    rcases hcases with ⟨hdegraded, hne⟩ | ⟨hok, heq⟩
    · exact iff_of_true hdegraded hne
    · refine iff_of_false (fun hdegraded => ?_) (not_not.mpr heq)
      exact absurd (hdegraded.unique hok).1 (by decide +kernel)
  refine ⟨hiff, fun hlast => ?_, ?_⟩
  · rw [hiff]
    exact head?_counts_eq_failed_iff hlast
  · rcases hcases with ⟨hdegraded, _⟩ | ⟨hok, _⟩
    · exact .inl hdegraded
    · exact .inr hok

/-- A host that starts with a file. -/
def watchedEnvironment : Environment := ⟨[(Settings.fileVariable, "a")], "/", default⟩

/-- The file is removed before the first rescan. -/
def removedEvents : List Event :=
  .startUp watchedEnvironment (Reload.Run.sampleDisk "x") default .start :: .reload .enter ::
    rescanEvents 0 ⟨⟨[]⟩, "/"⟩ default

attribute [local instance] Limits.usual

/-- The pass that does not find the file is told about. -/
theorem removed_is_told : Tells "degraded" "failing"
    ((((new watchedEnvironment []).after removedEvents).application.respond healthRequest "id").run
      .start).1 := by
  have hlast : (((new watchedEnvironment []).after removedEvents).process.map fun p =>
      (p.past, p.watch)) = some ([.failed], .waiting) := by
    decide +kernel
  obtain ⟨p, hprocess, hp⟩ := Option.map_eq_some_iff.mp hlast
  obtain ⟨hpast, hwatch⟩ := Prod.mk.inj hp
  obtain ⟨_, hdegraded, _⟩ := degraded_iff_last_failed watchedEnvironment [] removedEvents "id"
    .start hprocess (by decide +kernel) (by rw [hwatch]; rfl)
  rw [hpast] at hdegraded
  exact (hdegraded nofun).mpr ⟨.failed, rfl, nofun, nofun⟩

end Live

end AdmissionControl.Service
