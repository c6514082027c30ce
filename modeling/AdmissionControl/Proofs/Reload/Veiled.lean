import AdmissionControl.Proofs.Allowlist.Veil
import AdmissionControl.Proofs.Reload.Records

/-!
# Passes over lists that differ in their entries

Two reloaders go through the same events, but the lists that they read differ in the names of their
entries.  Everything else about them stays the same: where each pass is and how it ends, what the
status tells, and which version is published.

* `Veil.Stores`, `Veil.States`, `Veil.Worlds`, `Veil.Processes` — what the two have in common.
* `Veil.Events`, `Veil.Steps` — the same events, up to the entries of the lists that are written.
* `Veil.turn`, `Veil.conclusion` — a pass ends in both in the same way.
* `Veil.Worlds.step`, `Veil.Processes.step` — events keep what the two have in common.
-/

namespace AdmissionControl

open Reload

namespace Allowlist.Veil

variable (v : Veil)

/-! ### What two reloaders have in common -/

structure Stores (store store' : Store) : Prop where
  allowlist : v.Allowlists store.current.allowlist store'.current.allowlist
  version : store.version = store'.version
  publishedAt : store.current.publishedAt = store'.current.publishedAt

structure States (s s' : State) : Prop where
  store : v.Stores s.store s'.store
  status : s.status = s'.status

inductive Workers : Worker → Worker → Prop
  | sent (job : Job) : Workers (.sent job) (.sent job)
  | holding (job : Job) {content content' : Except LoadError (List UInt8)} :
    SameResult v.Contents content content' →
    Workers (.holding job content) (.holding job content')
  | digest {r r' : Except LoadError Text} : SameResult v.Digests r r' →
    Workers (.done (.digest r)) (.done (.digest r'))
  | load {r r' : Except LoadError Allowlist} : SameResult v.Allowlists r r' →
    Workers (.done (.load r)) (.done (.load r'))

structure Worlds (w w' : World) : Prop where
  path : w.path = w'.path
  mem : w.path ∈ v.paths
  disk : v.Disks w.disk w'.disk
  state : v.States w.state w'.state
  lock : w.lock = w'.lock
  stage : w.stage = w'.stage
  worker : ∀ p, Option.Rel v.Workers (w.worker p) (w'.worker p)
  held : List.Forall₂ v.Allowlists w.held w'.held

structure Processes (s s' : Process) : Prop where
  world : v.Worlds s.world s'.world
  options : s.options = s'.options
  watch : s.watch = s'.watch
  past : s.past = s'.past

/-! ### The same events -/

/-- The same event; of a change of the disk, the same up to the entries of the lists. -/
inductive Events : Event → Event → Prop
  | disk {fs fs' : FileSystem} : v.Disks fs fs' → Events (.disk fs) (.disk fs')
  | load {path : Text} (now : Instant) : path ∈ v.paths →
    Events (.load (.file path) now) (.load (.file path) now)
  | publish (index : Nat) (now : Instant) : Events (.publish index now) (.publish index now)
  | ofCall {e : Event} {p : Call} : e.call? = some p → Events e e

inductive Steps : Process.Event → Process.Event → Prop
  | pass {e e' : Event} : v.Events e e' → Steps (.pass e) (.pass e')
  | watch {e : Process.Event} : (∀ inner, e ≠ .pass inner) → Steps e e

variable {v}

/-! ### A pass -/

theorem Stores.publish {store store' : Store} (h : v.Stores store store') {a a' : Allowlist}
    (ha : v.Allowlists a a') (now : Instant) :
    v.Stores (store.publish a now) (store'.publish a' now) :=
  ⟨ha, congrArg (· + 1) h.version, rfl⟩

theorem States.begin {s s' : State} (h : v.States s s') (now : Instant) :
    v.States (Pass.begin now s) (Pass.begin now s') :=
  ⟨h.store, congrArg (Status.begin now) h.status⟩

theorem States.cancel {s s' : State} (h : v.States s s') :
    v.States (Pass.cancel s).1 (Pass.cancel s').1 :=
  ⟨h.store, congrArg Status.settle h.status⟩

theorem States.failure {s s' : State} (h : v.States s s') (now : Instant) (e : LoadError) :
    v.States (Pass.failure now s e).1 (Pass.failure now s' e).1 ∧
      (Pass.failure now s e).2 = (Pass.failure now s' e).2 := by
  cases e with
  | refused r => exact ⟨⟨h.store, congrArg (fun t => (Status.failed _ t).settle) h.status⟩, rfl⟩
  | fault f => exact ⟨⟨h.store, congrArg Status.settle h.status⟩, rfl⟩

/-- The first read ends both passes in the same way, or neither of them. -/
inductive Turns (v : Veil) : Pass.Turn → Pass.Turn → Prop
  | ended {s s' : State} (outcome : Outcome) : v.States s s' →
    Turns v (.ended s outcome) (.ended s' outcome)
  | loading {s s' : State} : v.States s s' → Turns v (.loading s) (.loading s')

theorem States.turn {s s' : State} (h : v.States s s') (now : Instant)
    {r r' : Except LoadError Text} (hr : SameResult v.Digests r r') :
    v.Turns (Pass.turn now s r) (Pass.turn now s' r') := by
  cases hr with
  | error e =>
    obtain ⟨hstate, houtcome⟩ := h.failure now e
    rw [Pass.turn, Pass.turn, houtcome]
    exact .ended _ hstate
  | ok hdigests =>
    rw [Pass.turn, Pass.turn]
    simp only [hdigests.eq_iff h.store.allowlist.checksum]
    split
    · exact .ended _ ⟨h.store, congrArg (fun t => t.unchanged.settle) h.status⟩
    · exact .loading ⟨h.store, congrArg (fun t => { t with phase := .loading }) h.status⟩

theorem States.conclusion {s s' : State} (h : v.States s s') (now : Instant)
    {r r' : Except LoadError Allowlist} (hr : SameResult v.Allowlists r r') :
    v.States (Pass.conclusion now s r).1 (Pass.conclusion now s' r').1 ∧
      (Pass.conclusion now s r).2 = (Pass.conclusion now s' r').2 := by
  cases hr with
  | error e => exact h.failure now e
  | ok ha =>
    exact ⟨⟨h.store.publish ha now, congrArg (fun t => (t.published now).settle) h.status⟩, rfl⟩

/-! ### A world -/

namespace Worlds

variable {w w' : World}

/-- The records do not count. -/
theorem of_silence (h : v.Worlds w.silence w'.silence) : v.Worlds w w' :=
  ⟨h.path, h.mem, h.disk, h.state, h.lock, h.stage, h.worker, h.held⟩

theorem records (h : v.Worlds w w') (t t' : Trail) :
    v.Worlds { w with trail := t } { w' with trail := t' } :=
  ⟨h.path, h.mem, h.disk, h.state, h.lock, h.stage, h.worker, h.held⟩

theorem silence (h : v.Worlds w w') : v.Worlds w.silence w'.silence := h.records _ _

theorem moveTo (h : v.Worlds w w') (p : Call) (s : Stage) :
    v.Worlds (w.moveTo p s) (w'.moveTo p s) :=
  { h with stage := by simp only [World.moveTo, h.stage] }

theorem setWorker (h : v.Worlds w w') (p : Call) {worker worker' : Worker}
    (hworker : v.Workers worker worker') :
    v.Worlds (w.setWorker p worker) (w'.setWorker p worker') := by
  refine { h with worker := fun q => ?_ }
  by_cases hq : q = p
  · subst hq
    rw [World.worker_setWorker_self, World.worker_setWorker_self]
    exact .some hworker
  · simp only [World.setWorker, Function.update_of_ne hq]
    exact h.worker q

theorem await (h : v.Worlds w w') (p : Call) (s : Stage) (job : Job) {state state' : State}
    (hstate : v.States state state') (t t' : Trail) :
    v.Worlds (w.await p s job state t) (w'.await p s job state' t') :=
  { (h.moveTo p s).setWorker p (.sent job) with state := hstate, lock := rfl }

theorem leave (h : v.Worlds w w') (p : Call) {state state' : State}
    (hstate : v.States state state') (outcome : Outcome) (t t' : Trail) :
    v.Worlds (w.leave p state outcome t) (w'.leave p state' outcome t') :=
  { h.moveTo p (.ended outcome) with state := hstate, lock := rfl }

theorem load [Limits] (h : v.Worlds w w') {path : Text} (hpath : path ∈ v.paths) (now : Instant) :
    v.Worlds (w.load (.file path) now) (w'.load (.file path) now) := by
  have hresult : List.Forall₂ v.Allowlists
      (ofSource w.disk (.file path) now).toOption.toList
      (ofSource w'.disk (.file path) now).toOption.toList := by
    rw [ofSource, ofSource]
    rcases (ofRead (h.disk.content path hpath) path now).cases with
      ⟨e, he, he'⟩ | ⟨a, a', ha, ha', hsame⟩
    · rw [he, he']
      exact .nil
    · rw [ha, ha']
      exact .cons hsame .nil
  refine of_silence ?_
  rw [World.silence_load, World.silence_load]
  exact { h.silence with held := List.rel_append h.held hresult }

theorem publish (h : v.Worlds w w') (index : Nat) (now : Instant) :
    v.Worlds (w.publish index now) (w'.publish index now) := by
  refine of_silence ?_
  rw [World.silence_publish, World.silence_publish]
  have hlength := h.held.length_eq
  cases hheld : w.held[index]? with
  | none =>
    rw [List.getElem?_eq_none_iff, hlength, ← List.getElem?_eq_none_iff] at hheld
    rw [hheld]
    exact h.silence
  | some a =>
    obtain ⟨hindex, ha⟩ := List.getElem?_eq_some_iff.mp hheld
    have hindex' : index < w'.held.length := hlength ▸ hindex
    have hsame := h.held.get hindex hindex'
    rw [List.getElem?_eq_getElem hindex']
    rw [List.get_eq_getElem, List.get_eq_getElem, ha] at hsame
    exact { h.silence with state := ⟨h.state.store.publish hsame now, h.state.status⟩ }

theorem call (h : v.Worlds w w') (p : Call) : v.Worlds (w.call p) (w'.call p) := by
  rw [World.call, World.call, ← h.stage]
  split
  · exact h.moveTo p .waiting
  · exact h

theorem acquire (h : v.Worlds w w') (p : Call) (now : Instant) :
    v.Worlds (w.acquire p now) (w'.acquire p now) := by
  rw [World.acquire, World.acquire, ← h.stage, ← h.lock]
  split
  · exact h.await p .checking .digest (h.state.begin now) _ _
  · exact h

theorem read (h : v.Worlds w w') (p : Call) : v.Worlds (w.read p) (w'.read p) := by
  have hworker := h.worker p
  rw [World.read, World.read]
  generalize w.worker p = worker at hworker ⊢
  generalize w'.worker p = worker' at hworker ⊢
  cases hworker with
  | none => exact h
  | some hsame =>
    cases hsame with
    | sent job =>
      have hcontent := h.disk.content w.path h.mem
      rw [show readFile w'.disk w.path = readFile w'.disk w'.path by rw [h.path]] at hcontent
      exact h.setWorker p (.holding job hcontent)
    | holding | digest | load => exact h

/-- The results of one job on two contents. -/
theorem result [Limits] {content content' : Except LoadError (List UInt8)}
    (h : SameResult v.Contents content content') (path : Text) (now : Instant) (job : Job) :
    v.Workers (.done (job.result path now content)) (.done (job.result path now content')) := by
  cases job with
  | digest =>
    exact .digest (h.map fun bytes bytes' hbytes => ⟨bytes, bytes', hbytes, rfl, rfl⟩)
  | load => exact .load (ofRead h path now)

theorem work [Limits] (h : v.Worlds w w') (p : Call) (now : Instant) :
    v.Worlds (w.work p now) (w'.work p now) := by
  have hworker := h.worker p
  refine of_silence ?_
  rw [World.silence_work, World.silence_work]
  generalize w.worker p = worker at hworker ⊢
  generalize w'.worker p = worker' at hworker ⊢
  cases hworker with
  | none => exact h.silence
  | some hsame =>
    cases hsame with
    | holding job hcontent =>
      rw [← h.path]
      exact (h.setWorker p (result hcontent w.path now job)).silence
    | sent | digest | load => exact h.silence

theorem resume (h : v.Worlds w w') (p : Call) (now : Instant) :
    v.Worlds (w.resume p now) (w'.resume p now) := by
  have hworker := h.worker p
  refine of_silence ?_
  rw [World.silence_resume, World.silence_resume, ← h.stage]
  generalize w.worker p = worker at hworker ⊢
  generalize w'.worker p = worker' at hworker ⊢
  cases hstage : w.stage p with
  | absent | waiting | ended => exact h.silence
  | checking =>
    cases hworker with
    | none => exact h.silence
    | some hsame =>
      cases hsame with
      | digest hr =>
        have hturn := h.state.turn now hr
        simp only
        generalize Pass.turn now w.state _ = turn at hturn ⊢
        generalize Pass.turn now w'.state _ = turn' at hturn ⊢
        cases hturn with
        | ended outcome hstate => exact h.leave p hstate outcome _ _
        | loading hstate => exact h.await p .loading .load hstate _ _
      | sent | holding | load => exact h.silence
  | loading =>
    cases hworker with
    | none => exact h.silence
    | some hsame =>
      cases hsame with
      | load hr =>
        obtain ⟨hstate, houtcome⟩ := h.state.conclusion now hr
        simp only [houtcome]
        exact h.leave p hstate _ _ _
      | sent | holding | digest => exact h.silence

theorem cancel (h : v.Worlds w w') (p : Call) : v.Worlds (w.cancel p) (w'.cancel p) := by
  rw [World.cancel, World.cancel, ← h.stage]
  cases w.stage p with
  | absent | ended => exact h
  | waiting => exact h.moveTo p _
  | checking | loading => exact h.leave p h.state.cancel _ _ _

/-- **The same event keeps what two worlds have in common.** -/
theorem step [Limits] (h : v.Worlds w w') {e e' : Event} (he : v.Events e e') :
    v.Worlds (w.step e) (w'.step e') := by
  cases he with
  | disk hdisk => exact { h with disk := hdisk }
  | load now hpath => exact h.load hpath now
  | publish index now => exact h.publish index now
  | ofCall hcall =>
    cases e with
    | disk | load | publish => cases hcall
    | call p => exact h.call p
    | acquire p now => exact h.acquire p now
    | read p => exact h.read p
    | work p now => exact h.work p now
    | resume p now => exact h.resume p now
    | cancel p => exact h.cancel p

end Worlds

/-! ### A process -/

namespace Processes

variable {s s' : Process}

theorem reloader_eq (h : v.Processes s s') : s.reloader = s'.reloader := by
  rw [Process.reloader, Process.reloader, h.world.path, h.options, h.world.state.status, h.watch]

theorem advance [Limits] (h : v.Processes s s') {e e' : Event} (he : v.Events e e') :
    v.Processes (s.advance e) (s'.advance e') := by
  have hworld := h.world.step he
  have hended : World.ended? s.world (s.world.step e) =
      World.ended? s'.world (s'.world.step e') := by
    rw [World.ended?, World.ended?, h.world.lock, hworld.stage]
  exact ⟨hworld, h.options, h.watch, congrArg₂ (· ++ ·) (congrArg _ hended) h.past⟩

/-- The reloaders act alike. -/
theorem act (h : v.Processes s s') {action action' : Audited Fault Reloader}
    (haction : action.result s.world.trail = action'.result s'.world.trail) :
    v.Processes (s.act action) (s'.act action') := by
  simp only [Process.act, haction, ← h.reloader_eq]
  exact ⟨{ h.world with state := ⟨h.world.state.store, rfl⟩ }, h.options, by rw [h.watch], h.past⟩

/-- An action that only records on the way is the same for both. -/
theorem act_record (h : v.Processes s s') (action : Reloader → StateM Trail Reloader)
    (hsilent : ∀ r t t', ((action r).run t).1 = ((action r).run t').1) :
    v.Processes (s.act (liftM (action s.reloader))) (s'.act (liftM (action s'.reloader))) := by
  refine h.act ?_
  rw [Audited.result_liftM_record, Audited.result_liftM_record, h.reloader_eq]
  exact congrArg Except.ok (hsilent _ _ _)

theorem stop (h : v.Processes s s') :
    v.Processes (s.act (liftM s.reloader.stop)) (s'.act (liftM s'.reloader.stop)) := by
  refine h.act_record Reloader.stop fun r t t' => ?_
  rw [Reloader.fst_run_stop, Reloader.fst_run_stop]

theorem settle (h : v.Processes s s') : v.Processes s.settle s'.settle := by
  rw [Process.settle, Process.settle, ← h.watch]
  cases hwatch : s.watch with
  | off | made | waiting => exact h
  | passing p =>
    simp only [show s'.world.stage p = s.world.stage p by rw [h.world.stage]]
    cases s.world.stage p with
    | absent | waiting | checking | loading => exact h
    | ended outcome =>
      cases outcome with
      | cancelled => exact h.stop
      | unchanged | published | failed | escaped =>
        exact ⟨h.world.records _ _, h.options, rfl, h.past⟩

theorem watchStep [Limits] (h : v.Processes s s') {e : Process.Event}
    (he : ∀ inner, e ≠ .pass inner) : v.Processes (s.step e) (s'.step e) := by
  cases e with
  | pass inner => exact absurd rfl (he inner)
  | yield p =>
    simp only [Process.step, ← h.watch, ← h.world.stage]
    split
    · have hcall := h.advance (.ofCall (e := .call p) rfl)
      exact ⟨hcall.world, hcall.options, rfl, hcall.past⟩
    · exact h
  | start =>
    refine h.act ?_
    rw [h.reloader_eq, Reloader.result_start, Reloader.result_start]
  | enter =>
    refine h.act_record Reloader.enter fun r t t' => ?_
    rw [Reloader.fst_run_enter, Reloader.fst_run_enter]
  | stop =>
    simp only [Process.step, ← h.watch]
    cases s.watch with
    | off | made | waiting => exact h.stop
    | passing p => exact (h.advance (.ofCall (e := .cancel p) rfl)).settle
  | streamEnded =>
    simp only [Process.step, ← h.watch]
    split
    · refine h.act_record Reloader.streamEnded fun r t t' => ?_
      rw [Reloader.fst_run_streamEnded, Reloader.fst_run_streamEnded]
    · exact h
  | streamFailed now error =>
    simp only [Process.step, ← h.watch]
    split
    · refine h.act_record (Reloader.streamFailed now error) fun r t t' => ?_
      rw [Reloader.fst_run_streamFailed, Reloader.fst_run_streamFailed]
    · exact h

/-- **The same event keeps what two processes have in common.** -/
theorem step [Limits] (h : v.Processes s s') {e e' : Process.Event} (he : v.Steps e e') :
    v.Processes (s.step e) (s'.step e') := by
  cases he with
  | pass hinner => exact (h.advance hinner).settle
  | watch hwatch => exact h.watchStep hwatch

end Processes

end Allowlist.Veil

end AdmissionControl
