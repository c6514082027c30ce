import AdmissionControl.Proofs.Reload.Process
import AdmissionControl.Proofs.Service.Guard

/-!
# What a version stands for

A host opens stores, loads and publishes, lets reloaders watch files, checks and admits, and holds
snapshots that it has seen.  The version of a store counts what was published to it, so a version
names one snapshot for good, whatever else happens.

* `World.publication?`, `Process.publication?` — what an event of a reloader publishes.
* `Session.step`, `Session.store_step` — one event of a host, and what it does to one of the stores.
* `Session.store_of_creation`, `Session.publications`, `Session.store_after` — a store is what it was
  created with and what was published to it.
* `Store.Tells` — the versions that decisions and descriptions carry.
* `Session.version_names_snapshot` — the versions of a store, from its first on.
-/

namespace AdmissionControl

open Allowlist (LoadError)
open Reload (Process)

/-! ### Publications -/

/-- An allowlist, with the moment at which it is published. -/
abbrev Publication := Allowlist × Instant

namespace Store

/-- The store after publications, one after the other. -/
def publishAll (s : Store) (published : List Publication) : Store :=
  published.foldl (fun s p => s.publish p.1 p.2) s

@[simp] theorem publishAll_nil (s : Store) : s.publishAll [] = s := rfl

theorem publishAll_append (s : Store) (published more : List Publication) :
    s.publishAll (published ++ more) = (s.publishAll published).publishAll more :=
  List.foldl_append

/-- **Every publication raises the version by one.** -/
@[simp] theorem version_publishAll (s : Store) (published : List Publication) :
    (s.publishAll published).version = s.version + published.length := by
  induction published generalizing s with
  | nil => rfl
  | cons p rest ih =>
    rw [List.length_cons]
    refine (ih (s.publish p.1 p.2)).trans ?_
    rw [version_publish]
    omega

/-- A store of the same version is the same store. -/
theorem publishAll_eq_self {s : Store} {published : List Publication}
    (h : (s.publishAll published).version = s.version) : s.publishAll published = s := by
  rw [version_publishAll] at h
  rw [List.length_eq_zero_iff.mp (by omega : published.length = 0), publishAll_nil]

end Store

namespace Reload

/-- What an event publishes: someone else does, or a pass whose load has succeeded. -/
def World.publication? (w : World) : Event → Option Publication
  | .publish index now => (w.held[index]?).map (·, now)
  | .resume p now =>
    match w.stage p, w.worker p with
    | .loading, some (.done (.load (.ok a))) => some (a, now)
    | _, _ => none
  | _ => none

theorem World.store_resume (w : World) (p : Call) (now : Instant) :
    (w.resume p now).state.store =
      w.state.store.publishAll (w.publication? (.resume p now)).toList := by
  rw [resume, publication?]
  split
  · next r hstage hworker =>
    have hturn := Pass.checked_fst w.path now w.state r w.trail
    rw [hstage, hworker]
    split
    · next state outcome trail hchecked =>
      rw [hchecked] at hturn
      exact (Pass.of_turn_ended hturn.symm).1
    · next state trail hchecked =>
      rw [hchecked] at hturn
      exact (Pass.of_turn_loading hturn.symm).1
  · next r hstage hworker =>
    have hconclusion := Pass.loaded_fst w.path now w.state r w.trail
    rw [hstage, hworker]
    generalize (Pass.loaded w.path now w.state r).run w.trail = loaded at hconclusion ⊢
    obtain ⟨⟨state, outcome⟩, trail⟩ := loaded
    cases r with
    | error e => exact (congrArg (·.1.store) hconclusion).trans (Pass.store_failure ..)
    | ok a => exact congrArg (·.1.store) hconclusion
  · next hchecking hloading =>
    cases hstage : w.stage p with
    | loading =>
      cases hworker : w.worker p with
      | none => rfl
      | some worker =>
        cases worker with
        | sent | holding => rfl
        | done result =>
          cases result with
          | digest => rfl
          | load r => exact absurd hworker (hloading r hstage)
    | _ => rfl

/-- **What an event does to the store.** -/
theorem World.store_step [Limits] (w : World) (e : Event) :
    (w.step e).state.store = w.state.store.publishAll (w.publication? e).toList := by
  cases e with
  | publish index now =>
    rw [step, publish, publication?]
    cases w.held[index]? <;> rfl
  | resume p now => exact w.store_resume p now
  | _ =>
    rcases w.transition_step _ with hsame | htransition
    · exact congrArg (·.state.store) hsame
    · rcases htransition.store with hkept | ⟨_, _, _, he, _⟩ | ⟨_, _, _, he, _⟩
      · exact hkept
      · cases he
      · cases he

/-- What an event of a reloader publishes. -/
def Process.publication? (s : Process) : Event → Option Publication
  | .pass e => s.world.publication? e
  | _ => none

/-- Nothing that a reloader does itself touches the store. -/
theorem Process.store_step [Limits] (s : Process) (e : Event) :
    (s.step e).world.state.store = s.world.state.store.publishAll (s.publication? e).toList := by
  cases e with
  | pass inner =>
    rw [step, (agree_settle _).state]
    exact s.world.store_step inner
  | yield p =>
    rw [step]
    split
    · exact s.world.store_step (.call p)
    · rfl
  | start => rfl
  | enter => rw [step, s.agree_enter.state]; rfl
  | stop =>
    rw [step]
    split
    · next p _ =>
      rw [(agree_settle _).state]
      exact s.world.store_step (.cancel p)
    · rfl
  | streamEnded | streamFailed =>
    rw [step]
    split <;> rfl

/-- A reloader that finds another store and other records than it has left. -/
def Process.on (s : Process) (store : Store) (t : Trail) : Process :=
  { s with world := { s.world with state := ⟨store, s.world.state.status⟩, trail := t } }

theorem Process.publication_on (s : Process) (store : Store) (t : Trail) (e : Event) :
    (s.on store t).publication? e = s.publication? e := by
  cases e <;> rfl

end Reload

/-! ### Sessions -/

/-- What a host has to do with stores. -/
structure Session where
  /-- The stores in the order in which they were created; a store is named by its place. -/
  stores : List Store
  /-- The reloaders, each with the place of the store that it publishes to. -/
  reloaders : List (Nat × Process)
  /-- Snapshots under names, the last one first. -/
  held : List (Text × Snapshot)
  trail : Trail

inductive Session.Event
  | load (fs : FileSystem) (source : Source) (now : Instant)
  /-- A source is loaded into a store of its own. -/
  | create (fs : FileSystem) (source : Source) (now : Instant)
  /-- A store is made for an allowlist that is at hand. -/
  | establish (a : Allowlist) (now : Instant)
  /-- A source is loaded and published. -/
  | publish (k : Nat) (fs : FileSystem) (source : Source) (now : Instant)
  /-- An allowlist is published that is at hand. -/
  | install (k : Nat) (a : Allowlist) (now : Instant)
  /-- A reloader is made for a store, to watch a file. -/
  | watch (k : Nat) (fs : FileSystem) (path : Text) (options : Reload.Options)
  /-- Anything happens to a reloader. -/
  | reload (i : Nat) (e : Process.Event)
  | check (k : Nat) (v : Value)
  | describe (k : Nat)
  | ask (k : Nat) (operation : Operation) (v : Value) (given : Option Text) (fresh : Text)
  /-- The current snapshot of a store is kept under a name. -/
  | hold (name : Text) (k : Nat)

namespace Session

/-- Publishes to the store at a place, if there is one. -/
def publishTo (s : Session) (k : Nat) (a : Allowlist) (now : Instant) : Session :=
  match s.stores[k]? with
  | none => s
  | some store =>
    let (store, trail) := (store.publishRecorded a now).run s.trail
    { s with stores := s.stores.set k store, trail := trail }

/-- Loads a source; a load that fails leaves only records. -/
def loading [Limits] (s : Session) (fs : FileSystem) (source : Source) (now : Instant)
    (next : Session → Allowlist → Session) : Session :=
  let s' := { s with trail := (Allowlist.load fs source now).after s.trail }
  match (Allowlist.load fs source now).result s.trail with
  | .error _ => s'
  | .ok a => next s' a

/-- A reloader goes on with its store as that is now. -/
def reload [Limits] (s : Session) (i : Nat) (e : Process.Event) : Session :=
  match s.reloaders[i]? with
  | none => s
  | some (k, p) =>
    match s.stores[k]? with
    | none => s
    | some store =>
      let p := (p.on store s.trail).step e
      { s with
        stores := s.stores.set k p.world.state.store
        reloaders := s.reloaders.set i (k, p)
        trail := p.world.trail }

def step [Limits] (s : Session) : Event → Session
  | .load fs source now => s.loading fs source now fun s _ => s
  | .create fs source now =>
    s.loading fs source now fun s a => { s with stores := s.stores ++ [Store.new a now] }
  | .establish a now => { s with stores := s.stores ++ [Store.new a now] }
  | .publish k fs source now => s.loading fs source now fun s a => s.publishTo k a now
  | .install k a now => s.publishTo k a now
  | .watch k fs path options =>
    match s.stores[k]? with
    | none => s
    | some store =>
      let r := Reload.Reloader.new fs.workingDirectory path options
      { s with reloaders := s.reloaders ++ [(k, .new r fs store s.trail)] }
  | .reload i e => s.reload i e
  | .check .. | .describe _ => s
  | .ask k operation v given fresh =>
    match s.stores[k]? with
    | none => s
    | some store =>
      { s with trail := (requestAdmission store operation v given fresh).after s.trail }
  | .hold name k =>
    match s.stores[k]? with
    | none => s
    | some store => { s with held := (name, store.current) :: s.held }

def after [Limits] (s : Session) (events : List Event) : Session := events.foldl step s

@[simp] theorem after_nil [Limits] (s : Session) : s.after [] = s := rfl

@[simp] theorem after_cons [Limits] (s : Session) (e : Event) (events : List Event) :
    s.after (e :: events) = (s.step e).after events := rfl

/-- The decision of the snapshot that is held under a name. -/
def decideOn [Limits] (s : Session) (name : Text) (v : Value) : Option (Except Fault Decision) :=
  (s.held.lookup name).map (·.decide v)

/-! ### What is published to a store -/

/-- The allowlist with which an event creates a store. -/
def creation? [Limits] (s : Session) : Event → Option Publication
  | .create fs source now => ((Allowlist.load fs source now).result s.trail).toOption.map (·, now)
  | .establish a now => some (a, now)
  | _ => none

/-- What an event publishes to the store at a place. -/
def publication? [Limits] (s : Session) (k : Nat) : Event → Option Publication
  | .publish k' fs source now =>
    if k' = k then ((Allowlist.load fs source now).result s.trail).toOption.map (·, now) else none
  | .install k' a now => if k' = k then some (a, now) else none
  | .reload i e =>
    match s.reloaders[i]? with
    | none => none
    | some (k', p) => if k' = k then p.publication? e else none
  | _ => none

def publications [Limits] (k : Nat) : Session → List Event → List Publication
  | _, [] => []
  | s, e :: rest => (s.publication? k e).toList ++ publications k (s.step e) rest

variable {s : Session} {k : Nat} {store : Store}

/-- A store that is created takes the next place. -/
theorem store_of_creation [Limits] {e : Event} {p : Publication} (h : s.creation? e = some p) :
    (s.step e).stores[s.stores.length]? = some (Store.new p.1 p.2) := by
  cases e with
  | create fs source now =>
    obtain ⟨a, hload, rfl⟩ := Option.map_eq_some_iff.mp h
    rw [step, loading]
    split
    · next hfailed =>
      rw [hfailed] at hload
      cases hload
    · next hloaded =>
      rw [hloaded] at hload
      cases hload
      exact List.getElem?_concat_length
  | establish a now =>
    cases h
    exact List.getElem?_concat_length
  | _ => cases h

theorem store_publishTo (hk : s.stores[k]? = some store) (k' : Nat) (a : Allowlist)
    (now : Instant) : (s.publishTo k' a now).stores[k]? =
      some (store.publishAll (if k' = k then some (a, now) else none).toList) := by
  by_cases hplace : k' = k
  · subst hplace
    rw [publishTo, hk, if_pos rfl]
    exact List.getElem?_set_self (List.getElem?_eq_some_iff.mp hk).1
  · rw [if_neg hplace, publishTo]
    split
    · exact hk
    · exact (List.getElem?_set_ne hplace).trans hk

theorem store_reload [Limits] (hk : s.stores[k]? = some store) (i : Nat) (e : Process.Event) :
    (s.reload i e).stores[k]? =
      some (store.publishAll (s.publication? k (.reload i e)).toList) := by
  rw [reload, publication?]
  cases s.reloaders[i]? with
  | none => exact hk
  | some found =>
    obtain ⟨k', p⟩ := found
    by_cases hplace : k' = k
    · subst hplace
      have hstep := (p.on store s.trail).store_step e
      rw [p.publication_on] at hstep
      simp only [hk, if_pos]
      refine (List.getElem?_set_self (List.getElem?_eq_some_iff.mp hk).1).trans ?_
      exact congrArg some hstep
    · simp only [if_neg hplace]
      split
      · exact hk
      · exact (List.getElem?_set_ne hplace).trans hk

/-- **What an event does to a store.** -/
theorem store_step [Limits] (hk : s.stores[k]? = some store) (e : Event) :
    (s.step e).stores[k]? = some (store.publishAll (s.publication? k e).toList) := by
  cases e with
  | load fs source now =>
    rw [step, loading]
    split <;> exact hk
  | create fs source now =>
    rw [step, loading]
    split
    · exact hk
    · exact (List.getElem?_append_left (List.getElem?_eq_some_iff.mp hk).1).trans hk
  | establish => exact (List.getElem?_append_left (List.getElem?_eq_some_iff.mp hk).1).trans hk
  | publish k' fs source now =>
    rw [step, loading, publication?]
    split
    · next hload =>
      rw [hload]
      split <;> exact hk
    · next a hload =>
      rw [hload]
      have hloaded : ({ s with trail := (Allowlist.load fs source now).after s.trail } :
        Session).stores[k]? = some store := hk
      exact store_publishTo hloaded k' a now
  | install k' a now => exact store_publishTo hk k' a now
  | reload i e => exact store_reload hk i e
  | check | describe => exact hk
  | watch | ask | hold =>
    rw [step]
    split <;> exact hk

/-- **A store is what was published to it.** -/
theorem store_after [Limits] (hk : s.stores[k]? = some store) (events : List Event) :
    (s.after events).stores[k]? = some (store.publishAll (publications k s events)) := by
  induction events generalizing s store with
  | nil => exact hk
  | cons e rest ih =>
    rw [publications, Store.publishAll_append]
    exact ih (store_step hk e)

end Session

/-! ### Versions that are told -/

/-- The versions that a store tells: those that its decisions carry, by whichever way they are asked
for, and the one of its description. -/
inductive Store.Tells [Limits] (s : Store) : Nat → Prop
  | checked {v : Value} {d : Decision} (h : s.check v = .ok d) : s.Tells d.snapshotVersion
  | admitted {operation : Operation} {v : Value} {given : Option Text} {fresh : Text} {t : Trail}
      {d : Decision} (h : (requestAdmission s operation v given fresh).result t = .ok d) :
      s.Tells d.snapshotVersion
  | denied {operation : Operation} {v : Value} {given : Option Text} {fresh : Text} {t : Trail}
      {denial : Denial}
      (h : (requestAdmission s operation v given fresh).result t = .error (.denied denial)) :
      s.Tells denial.decision.snapshotVersion
  | described {version : Nat}
      (h : s.current.describe.field? "version" = some (.ofNat version)) : s.Tells version

/-- **A store tells no version but its own.** -/
theorem Store.Tells.eq_version [Limits] {s : Store} {version : Nat} (h : s.Tells version) :
    version = s.version := by
  have hchecked : ∀ {v d}, s.check v = .ok d → d.snapshotVersion = s.version :=
    fun hd => Snapshot.snapshotVersion_decide hd
  cases h with
  | checked h => exact hchecked h
  | @admitted _ v _ _ _ d h =>
    rw [Service.Application.result_requestAdmission] at h
    cases hcheck : s.check v with
    | error f =>
      rw [hcheck] at h
      cases h
    | ok d' =>
      simp only [hcheck] at h
      split at h
      · rw [← Except.ok.inj h]
        exact hchecked hcheck
      · cases h
  | @denied operation v given fresh t denial h =>
    rw [Service.Application.result_requestAdmission] at h
    cases hcheck : s.check v with
    | error f =>
      rw [hcheck] at h
      cases h
    | ok d =>
      simp only [hcheck] at h
      split at h
      · cases h
      · have hdenial := AdmissionError.denied.inj (Except.error.inj h)
        rw [← hdenial]
        exact hchecked hcheck
  | described h =>
    have hfield : s.current.describe.field? "version" = some (.ofNat s.version) := by
      show s.current.describe.field? "version" = some (.ofNat s.current.version)
      simp [Snapshot.describe, Snapshot.description, Json.Value.record, Json.Value.field?]
    rw [hfield] at h
    have hsame := Json.Value.integer.inj (Option.some.inj h)
    exact (Int.ofNat.inj hsame).symm

namespace Session

variable {s : Session} {k : Nat} {store : Store}

@[simp] theorem held_publishTo (s : Session) (k : Nat) (a : Allowlist) (now : Instant) :
    (s.publishTo k a now).held = s.held := by
  rw [publishTo]
  split <;> rfl

@[simp] theorem held_reload [Limits] (s : Session) (i : Nat) (e : Process.Event) :
    (s.reload i e).held = s.held := by
  rw [reload]
  split
  · rfl
  · split <;> rfl

/-- A snapshot is held as it is until another one is held under its name. -/
theorem lookup_held_step [Limits] {name : Text} {e : Event} (he : ∀ k, e ≠ .hold name k) :
    (s.step e).held.lookup name = s.held.lookup name := by
  cases e with
  | load | create =>
    rw [step, loading]
    split <;> rfl
  | publish k fs source now =>
    rw [step, loading]
    split
    · rfl
    · rw [held_publishTo]
  | install => rw [step, held_publishTo]
  | reload => rw [step, held_reload]
  | check | describe | establish => rfl
  | watch | ask =>
    rw [step]
    split <;> rfl
  | hold other k =>
    have hne : name ≠ other := fun heq => he k (heq ▸ rfl)
    rw [step]
    split
    · rfl
    · rw [List.lookup_cons, beq_false_of_ne hne]

theorem lookup_held_after [Limits] {name : Text} {events : List Event}
    (he : ∀ k, .hold name k ∉ events) : (s.after events).held.lookup name = s.held.lookup name := by
  induction events generalizing s with
  | nil => rfl
  | cons e rest ih =>
    refine (ih fun k hk => he k (List.mem_cons_of_mem _ hk)).trans (lookup_held_step fun k hk => ?_)
    exact he k (hk ▸ List.mem_cons_self)

/-- **A load that fails leaves only records.** -/
theorem step_of_failed_load [Limits] {fs : FileSystem} {source : Source} {now : Instant}
    {e : LoadError} (h : (Allowlist.load fs source now).result s.trail = .error e) (k : Nat) :
    s.step (.create fs source now) =
        { s with trail := (Allowlist.load fs source now).after s.trail } ∧
      s.step (.publish k fs source now) =
        { s with trail := (Allowlist.load fs source now).after s.trail } := by
  simp only [step, loading, h, and_self]

/-- A store of a session, from one moment on. -/
structure Versioned [Limits] (s : Session) (k : Nat) (store : Store) : Prop where
  /-- The versions that are told are its own. -/
  told : ∀ version, store.Tells version → version = store.version
  /-- One event leaves the store as it is, or raises its version by one. -/
  step : ∀ e, ∃ next, (s.step e).stores[k]? = some next ∧
    (s.publication? k e = none ∧ next = store ∨
      ∃ p, s.publication? k e = some p ∧ next = store.publish p.1 p.2 ∧
        next.version = store.version + 1)
  /-- The same version is told later only of the same snapshot. -/
  later : ∀ more, ∃ next, (s.after more).stores[k]? = some next ∧ store.version ≤ next.version ∧
    ∀ version, store.Tells version → next.Tells version → next.current = store.current
  /-- A snapshot that is held decides as it did when it was the current one. -/
  held : ∀ name more, (∀ k', .hold name k' ∉ more) → ∀ v,
    (s.after (.hold name k :: more)).decideOn name v = some (store.check v)
  /-- A load that fails leaves the stores and the snapshots that are held as they are. -/
  failed : ∀ fs source now e, (Allowlist.load fs source now).result s.trail = .error e →
    ∀ k', ∀ event ∈ [.create fs source now, .publish k' fs source now],
      (s.step event).stores = s.stores ∧ (s.step event).held = s.held

theorem versioned [Limits] (hk : s.stores[k]? = some store) : s.Versioned k store where
  told _ h := h.eq_version
  step e := by
    refine ⟨_, store_step hk e, ?_⟩
    cases s.publication? k e with
    | none => exact .inl ⟨rfl, rfl⟩
    | some p => exact .inr ⟨p, rfl, rfl, rfl⟩
  later more := by
    refine ⟨_, store_after hk more, ?_, fun version hbefore hafter => ?_⟩
    · rw [Store.version_publishAll]
      omega
    · rw [Store.publishAll_eq_self (hafter.eq_version.symm.trans hbefore.eq_version)]
  held name more hmore v := by
    rw [after_cons, decideOn, lookup_held_after hmore, Session.step, hk]
    simp [Store.check]
  failed fs source now e h k' event hevent := by
    obtain ⟨hcreate, hpublish⟩ := step_of_failed_load h k'
    rcases List.mem_pair.mp hevent with rfl | rfl
    · rw [hcreate]
      exact ⟨rfl, rfl⟩
    · rw [hpublish]
      exact ⟨rfl, rfl⟩

/-- **A version names one snapshot**, from the creation of a store on: at every moment the version is
one more than the number of publications since. -/
theorem version_names_snapshot [Limits] (before : Session) {created : Event} {initial : Publication}
    (hcreated : before.creation? created = some initial) (events : List Event) :
    let k := before.stores.length
    let first := before.step created
    ∃ store, (first.after events).stores[k]? = some store ∧
      store = (Store.new initial.1 initial.2).publishAll (publications k first events) ∧
      store.version = 1 + (publications k first events).length ∧
      (first.after events).Versioned k store := by
  intro k first
  have hstore := store_after (store_of_creation hcreated) events
  exact ⟨_, hstore, rfl, Store.version_publishAll .., versioned hstore⟩

def sampleSource (text : String) : Source := .inline (.text text) Allowlist.inlineVariable

/-- A snapshot is held before another allowlist is published; the second load fails. -/
def sampleEvents : List Event :=
  [.hold "first" 0, .publish 0 ⟨⟨[]⟩, "/"⟩ (sampleSource "y") default,
    .publish 0 ⟨⟨[]⟩, "/"⟩ (.file "/a") default]

attribute [local instance] Limits.usual

/-- The snapshot that is held still decides as the first version did. -/
theorem sample_versions :
    let first := (⟨[], [], [], .start⟩ : Session).step
      (.create ⟨⟨[]⟩, "/"⟩ (sampleSource "x") default)
    (∃ store, (first.after sampleEvents).stores[0]? = some store ∧ store.version = 2) ∧
    ∃ d, (first.after sampleEvents).decideOn "first" (.text "x") = some (.ok d) ∧
      d.permitted = true ∧ d.snapshotVersion = 1 := by
  intro first
  have hsome : ((⟨[], [], [], .start⟩ : Session).creation?
      (.create ⟨⟨[]⟩, "/"⟩ (sampleSource "x") default)).isSome = true := by decide +kernel
  obtain ⟨initial, hcreated⟩ := Option.isSome_iff_exists.mp hsome
  obtain ⟨later, hlater, _, hversion, _⟩ := version_names_snapshot _ hcreated sampleEvents
  obtain ⟨store, hstore, _, hnew, hversioned⟩ := version_names_snapshot _ hcreated []
  have hone : (publications 0 first sampleEvents).length = 1 := by decide +kernel
  refine ⟨⟨later, hlater, by rw [hversion]; exact congrArg (1 + ·) hone⟩, ?_⟩
  have hheld : (first.after sampleEvents).decideOn "first" (.text "x") =
      some (store.check (.text "x")) :=
    hversioned.held "first" sampleEvents.tail (by simp [sampleEvents]) (.text "x")
  have hpermitted : ((first.after sampleEvents).decideOn "first" (.text "x")).bind
      (fun r => r.toOption.map (·.permitted)) = some true := by decide +kernel
  rw [hheld] at hpermitted ⊢
  cases hcheck : store.check (.text "x") with
  | error f =>
    rw [hcheck] at hpermitted
    cases hpermitted
  | ok d =>
    rw [hcheck] at hpermitted
    refine ⟨d, rfl, Option.some.inj hpermitted, ?_⟩
    rw [hversioned.told _ (.checked hcheck), hnew]
    rfl

end Session

end AdmissionControl
