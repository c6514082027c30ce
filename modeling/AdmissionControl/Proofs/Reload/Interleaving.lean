import AdmissionControl.Proofs.Reload.Pass
import Mathlib.Logic.Function.Basic

/-!
# Passes that overlap

Any number of calls for a pass may be under way at once.  A call waits for the lock, begins when it
holds it, and gives both of its reads to workers: a worker reads the file at one moment, works out
its result at another, and the call goes on at a third.  A cancelled call lets go of the lock, and
its worker goes on without it.

* `World.step` — what one event does to the disk, the store, the lock, the calls and the workers;
  an event that cannot happen changes nothing.
* `Transition`, `transition_step` — the events that can happen, with all that they do.
* `Run.world` — the world between two events of an endless run.
* `solo_world` — a call whose events come without others in between is `Pass.run`.
* `cut_checking`, `cut_loading` — one that is cancelled in between is `Pass.interrupt`.
-/

namespace AdmissionControl.Reload

open Allowlist (LoadError readFile)

/-! ### Workers -/

/-- What a worker is sent to do. -/
inductive Job
  | digest
  | load
deriving DecidableEq, Repr

inductive Result
  | digest (r : Except LoadError Text)
  | load (r : Except LoadError Allowlist)

namespace Job

/-- The result of a job once the file was read. -/
def finish [Limits] (path : Text) (now : Instant) (content : Except LoadError (List UInt8)) :
    Job → StateM Trail Result
  | digest => return .digest (content.map Sha256.hexDigest)
  | load => do
    let result ← attempt (do
      let bytes ← liftM content
      Allowlist.loadBytes path bytes now)
    return .load result

/-- The result without the records. -/
def result [Limits] (path : Text) (now : Instant) (content : Except LoadError (List UInt8)) :
    Job → Result
  | digest => .digest (content.map Sha256.hexDigest)
  | load => .load (Allowlist.ofRead path now content)

theorem finish_fst [Limits] (path : Text) (now : Instant) (content : Except LoadError (List UInt8))
    (job : Job) (t : Trail) :
    ((job.finish path now content).run t).1 = job.result path now content := by
  cases job with
  | digest => rfl
  | load =>
    show Result.load (Audited.result (liftM content >>= _) t) = Result.load _
    rw [Audited.result_bind, Audited.result_liftM_except, Allowlist.ofRead]
    cases content with
    | error e => rfl
    | ok bytes => exact congrArg Result.load (Allowlist.result_loadBytes path bytes now _)

end Job

/-- How far a worker has come. -/
inductive Worker
  | sent (job : Job)
  | holding (job : Job) (content : Except LoadError (List UInt8))
  | done (result : Result)

/-! ### Calls -/

/-- Calls are told apart by a number. -/
abbrev Call := Nat

/-- How far a call for a pass has come. -/
inductive Stage
  | absent
  | waiting
  | checking
  | loading
  | ended (outcome : Outcome)
deriving DecidableEq, Repr

namespace Stage

/-- A call only goes forward in this order. -/
def rank : Stage → Nat
  | absent => 0
  | waiting => 1
  | checking => 2
  | loading => 3
  | ended _ => 4

/-- The job that a call in this stage waits for. -/
def job? : Stage → Option Job
  | checking => some .digest
  | loading => some .load
  | _ => none

/-- Whether a pass is under way: begun, and not returned. -/
def Active (s : Stage) : Prop := s = checking ∨ s = loading

theorem active_iff_job? {s : Stage} : s.Active ↔ ∃ job, s.job? = some job := by
  cases s <;> simp [Active, job?]

theorem active_iff_rank {s : Stage} : s.Active ↔ 2 ≤ s.rank ∧ s.rank ≤ 3 := by
  cases s <;> simp [Active, rank]

end Stage

/-! ### The world and its events -/

structure World where
  /-- The normal absolute path of the watched file. -/
  path : Text
  disk : FileSystem
  /-- The store and the status that all calls share. -/
  state : State
  trail : Trail
  lock : Option Call
  stage : Call → Stage
  /-- The last worker of each call, whether the call still waits for it or not. -/
  worker : Call → Option Worker
  /-- Allowlists that were loaded by others than a pass. -/
  held : List Allowlist

inductive Event
  /-- Files are written, removed or renamed. -/
  | disk (after : FileSystem)
  /-- Someone else loads a source. -/
  | load (source : Source) (now : Instant)
  /-- Someone else publishes what was loaded. -/
  | publish (index : Nat) (now : Instant)
  | call (p : Call)
  | acquire (p : Call) (now : Instant)
  | read (p : Call)
  | work (p : Call) (now : Instant)
  | resume (p : Call) (now : Instant)
  | cancel (p : Call)

/-- The call that an event is about. -/
def Event.call? : Event → Option Call
  | disk _ | load .. | publish .. => none
  | call p | acquire p _ | read p | work p _ | resume p _ | cancel p => some p

namespace World

variable (w : World)

/-- Nothing is under way. -/
def start (path : Text) (disk : FileSystem) (store : Store) (trail : Trail) : World where
  path := path
  disk := disk
  state := ⟨store, .start⟩
  trail := trail
  lock := none
  stage _ := .absent
  worker _ := none
  held := []

def moveTo (p : Call) (s : Stage) : World := { w with stage := Function.update w.stage p s }

def setWorker (p : Call) (worker : Worker) : World :=
  { w with worker := Function.update w.worker p (some worker) }

/-- The call sends a worker and waits for it. -/
def await (p : Call) (s : Stage) (job : Job) (state : State) (trail : Trail) : World :=
  { (w.moveTo p s).setWorker p (.sent job) with state := state, trail := trail, lock := some p }

/-- The call returns and lets go of the lock. -/
def leave (p : Call) (state : State) (outcome : Outcome) (trail : Trail) : World :=
  { w.moveTo p (.ended outcome) with state := state, trail := trail, lock := none }

@[simp] theorem stage_moveTo_self (p : Call) (s : Stage) : (w.moveTo p s).stage p = s :=
  Function.update_self ..

@[simp] theorem stage_await_self (p : Call) (s : Stage) (job : Job) (state : State)
    (trail : Trail) : (w.await p s job state trail).stage p = s := Function.update_self ..

@[simp] theorem worker_await_self (p : Call) (s : Stage) (job : Job) (state : State)
    (trail : Trail) : (w.await p s job state trail).worker p = some (.sent job) :=
  Function.update_self ..

@[simp] theorem worker_setWorker_self (p : Call) (worker : Worker) :
    (w.setWorker p worker).worker p = some worker := Function.update_self ..

@[simp] theorem stage_leave_self (p : Call) (state : State) (outcome : Outcome) (trail : Trail) :
    (w.leave p state outcome trail).stage p = .ended outcome := Function.update_self ..

def load [Limits] (source : Source) (now : Instant) : World :=
  let (result, trail) := (attempt (Allowlist.load w.disk source now)).run w.trail
  { w with trail := trail, held := w.held ++ result.toOption.toList }

def publish (index : Nat) (now : Instant) : World :=
  match w.held[index]? with
  | none => w
  | some a =>
    let (store, trail) := (w.state.store.publishRecorded a now).run w.trail
    { w with state := { w.state with store := store }, trail := trail }

def call (p : Call) : World := if w.stage p = .absent then w.moveTo p .waiting else w

def acquire (p : Call) (now : Instant) : World :=
  if w.stage p = .waiting ∧ w.lock = none then
    w.await p .checking .digest (Pass.begin now w.state) w.trail
  else w

/-- The whole file is read at one moment. -/
def read (p : Call) : World :=
  match w.worker p with
  | some (.sent job) => w.setWorker p (.holding job (readFile w.disk w.path))
  | _ => w

def work [Limits] (p : Call) (now : Instant) : World :=
  match w.worker p with
  | some (.holding job content) =>
    let (result, trail) := (job.finish w.path now content).run w.trail
    { w.setWorker p (.done result) with trail := trail }
  | _ => w

def resume (p : Call) (now : Instant) : World :=
  match w.stage p, w.worker p with
  | .checking, some (.done (.digest r)) =>
    match (Pass.checked w.path now w.state r).run w.trail with
    | (.ended state outcome, trail) => w.leave p state outcome trail
    | (.loading state, trail) => w.await p .loading .load state trail
  | .loading, some (.done (.load r)) =>
    let ((state, outcome), trail) := (Pass.loaded w.path now w.state r).run w.trail
    w.leave p state outcome trail
  | _, _ => w

/-- A call that waits for the lock just leaves; one that is under way ends its pass. -/
def cancel (p : Call) : World :=
  match w.stage p with
  | .waiting => w.moveTo p (.ended .cancelled)
  | .checking | .loading =>
    w.leave p (Pass.cancel w.state).1 (Pass.cancel w.state).2 w.trail
  | _ => w

def step [Limits] : Event → World
  | .disk after => { w with disk := after }
  | .load source now => w.load source now
  | .publish index now => w.publish index now
  | .call p => w.call p
  | .acquire p now => w.acquire p now
  | .read p => w.read p
  | .work p now => w.work p now
  | .resume p now => w.resume p now
  | .cancel p => w.cancel p

/-- The world after a list of events. -/
def after [Limits] (events : List Event) : World := events.foldl (·.step ·) w

end World

/-! ### What an event can do -/

/-- An event that can happen in a world, with the world that it leads to. -/
inductive Transition [Limits] (w : World) : Event → World → Prop
  | disk (after : FileSystem) : Transition w (.disk after) { w with disk := after }
  | load (source : Source) (now : Instant) : Transition w (.load source now) (w.load source now)
  | publish {index : Nat} {a : Allowlist} (now : Instant) (trail : Trail) :
      w.held[index]? = some a →
      Transition w (.publish index now)
        { w with state := ⟨w.state.store.publish a now, w.state.status⟩, trail := trail }
  | call {p : Call} : w.stage p = .absent → Transition w (.call p) (w.moveTo p .waiting)
  | acquire {p : Call} (now : Instant) : w.stage p = .waiting → w.lock = none →
      Transition w (.acquire p now) (w.await p .checking .digest (Pass.begin now w.state) w.trail)
  | read {p : Call} {job : Job} : w.worker p = some (.sent job) →
      Transition w (.read p) (w.setWorker p (.holding job (readFile w.disk w.path)))
  | work {p : Call} {job : Job} {content : Except LoadError (List UInt8)} (now : Instant)
      (trail : Trail) : w.worker p = some (.holding job content) →
      Transition w (.work p now)
        { w.setWorker p (.done (job.result w.path now content)) with trail := trail }
  /-- The digest was read, and the pass is over. -/
  | settle {p : Call} {now : Instant} {r : Except LoadError Text} {state : State}
      {outcome : Outcome} (trail : Trail) : w.stage p = .checking →
      w.worker p = some (.done (.digest r)) → Pass.turn now w.state r = .ended state outcome →
      Transition w (.resume p now) (w.leave p state outcome trail)
  /-- The digest was read, and it is a new one. -/
  | proceed {p : Call} {now : Instant} {r : Except LoadError Text} {state : State}
      (trail : Trail) : w.stage p = .checking →
      w.worker p = some (.done (.digest r)) → Pass.turn now w.state r = .loading state →
      Transition w (.resume p now) (w.await p .loading .load state trail)
  /-- The file was loaded. -/
  | conclude {p : Call} {r : Except LoadError Allowlist} (now : Instant) (trail : Trail) :
      w.stage p = .loading → w.worker p = some (.done (.load r)) →
      Transition w (.resume p now)
        (w.leave p (Pass.conclusion now w.state r).1 (Pass.conclusion now w.state r).2 trail)
  /-- A call is cancelled that waits for the lock. -/
  | withdraw {p : Call} : w.stage p = .waiting →
      Transition w (.cancel p) (w.moveTo p (.ended .cancelled))
  /-- A call is cancelled whose pass is under way. -/
  | abandon {p : Call} : (w.stage p).Active →
      Transition w (.cancel p) (w.leave p (Pass.cancel w.state).1 .cancelled w.trail)

namespace World

variable (w : World)

theorem transition_publish [Limits] (index : Nat) (now : Instant) :
    w.publish index now = w ∨ Transition w (.publish index now) (w.publish index now) := by
  rw [publish]
  cases h : w.held[index]? with
  | none => exact .inl rfl
  | some a => exact .inr (.publish now _ h)

theorem transition_read [Limits] (p : Call) : w.read p = w ∨ Transition w (.read p) (w.read p) := by
  rw [read]
  split
  · rename_i job h
    exact .inr (.read h)
  · exact .inl rfl

theorem transition_work [Limits] (p : Call) (now : Instant) :
    w.work p now = w ∨ Transition w (.work p now) (w.work p now) := by
  rw [work]
  split
  · rename_i job content h
    have hnext := Transition.work now ((job.finish w.path now content).run w.trail).2 h
    rw [← Job.finish_fst w.path now content job w.trail] at hnext
    exact .inr hnext
  · exact .inl rfl

theorem transition_resume [Limits] (p : Call) (now : Instant) :
    w.resume p now = w ∨ Transition w (.resume p now) (w.resume p now) := by
  rw [resume]
  split
  · rename_i r hstage hworker
    have hturn := Pass.checked_fst w.path now w.state r w.trail
    split
    · rename_i state outcome trail h
      rw [h] at hturn
      exact .inr (.settle trail hstage hworker hturn.symm)
    · rename_i state trail h
      rw [h] at hturn
      exact .inr (.proceed trail hstage hworker hturn.symm)
  · rename_i r hstage hworker
    have hnext := Transition.conclude now
      ((Pass.loaded w.path now w.state r).run w.trail).2 hstage hworker
    rw [← Pass.loaded_fst w.path now w.state r w.trail] at hnext
    exact .inr hnext
  · exact .inl rfl

theorem transition_cancel [Limits] (p : Call) :
    w.cancel p = w ∨ Transition w (.cancel p) (w.cancel p) := by
  rw [cancel]
  split
  · rename_i h
    exact .inr (.withdraw h)
  · rename_i h
    exact .inr (.abandon (.inl h))
  · rename_i h
    exact .inr (.abandon (.inr h))
  · exact .inl rfl

/-- **Every event either cannot happen or is a transition.** -/
theorem transition_step [Limits] (e : Event) : w.step e = w ∨ Transition w e (w.step e) := by
  cases e with
  | disk after => exact .inr (.disk after)
  | load source now => exact .inr (.load source now)
  | publish index now => exact w.transition_publish index now
  | call p =>
    rw [step, call]
    split
    · rename_i h
      exact .inr (.call h)
    · exact .inl rfl
  | acquire p now =>
    rw [step, acquire]
    split
    · rename_i h
      exact .inr (.acquire now h.1 h.2)
    · exact .inl rfl
  | read p => exact w.transition_read p
  | work p now => exact w.transition_work p now
  | resume p now => exact w.transition_resume p now
  | cancel p => exact w.transition_cancel p

end World

/-! ### Runs -/

/-- An endless run: a world to start from, and one event at every moment. -/
structure Run where
  path : Text
  disk : FileSystem
  initial : Store
  trail : Trail
  event : Nat → Event

namespace Run

/-- The world at a moment, before the event of that moment. -/
def world [Limits] (r : Run) : Nat → World
  | 0 => .start r.path r.disk r.initial r.trail
  | n + 1 => (r.world n).step (r.event n)

def store [Limits] (r : Run) (n : Nat) : Store := (r.world n).state.store

/-- What the watched file holds at a moment, or why it cannot be read. -/
def content [Limits] (r : Run) (n : Nat) : Except LoadError (List UInt8) :=
  readFile (r.world n).disk (r.world n).path

end Run

/-! ### One call alone -/

/-- The events of a call up to the result of its first worker. -/
def opening (p : Call) (now : Instant) : List Event :=
  [.call p, .acquire p now, .read p, .work p now]

/-- The events of a call without others in between.  The last three do nothing if the pass is over
after its first read. -/
def solo (p : Call) (now : Instant) : List Event :=
  opening p now ++ [.resume p now, .read p, .work p now, .resume p now]

namespace World

variable (w : World)

@[simp] theorem after_nil [Limits] : w.after [] = w := rfl

@[simp] theorem after_cons [Limits] (e : Event) (events : List Event) :
    w.after (e :: events) = (w.step e).after events := rfl

theorem after_append [Limits] (events more : List Event) :
    w.after (events ++ more) = (w.after events).after more := List.foldl_append

/-- A pass that has begun, and whose first worker is done. -/
def opened (p : Call) (now : Instant) : World :=
  { w with
    state := Pass.begin now w.state
    lock := some p
    stage := Function.update w.stage p .checking
    worker := Function.update w.worker p
      (some (.done (.digest (Allowlist.fileChecksum w.disk w.path)))) }

@[simp] theorem path_opened (p : Call) (now : Instant) : (w.opened p now).path = w.path := rfl

@[simp] theorem state_opened (p : Call) (now : Instant) :
    (w.opened p now).state = Pass.begin now w.state := rfl

@[simp] theorem trail_opened (p : Call) (now : Instant) : (w.opened p now).trail = w.trail := rfl

theorem after_opening [Limits] {p : Call} (now : Instant) (hstage : w.stage p = .absent)
    (hlock : w.lock = none) : w.after (opening p now) = w.opened p now := by
  simp [opening, step, call, acquire, read, work, hstage, hlock, moveTo, await, setWorker, opened,
    Job.finish, Allowlist.fileChecksum]
  rfl

theorem step_resume_checking [Limits] {p : Call} {r : Except LoadError Text} (now : Instant)
    (hstage : w.stage p = .checking) (hworker : w.worker p = some (.done (.digest r))) :
    w.step (.resume p now) =
      match (Pass.checked w.path now w.state r).run w.trail with
      | (.ended state outcome, trail) => w.leave p state outcome trail
      | (.loading state, trail) => w.await p .loading .load state trail := by
  rw [step, resume, hstage, hworker]

theorem step_resume_loading [Limits] {p : Call} {r : Except LoadError Allowlist} (now : Instant)
    (hstage : w.stage p = .loading) (hworker : w.worker p = some (.done (.load r))) :
    w.step (.resume p now) =
      let ((state, outcome), trail) := (Pass.loaded w.path now w.state r).run w.trail
      w.leave p state outcome trail := by
  rw [step, resume, hstage, hworker]

/-- The second worker of a call reads the file and loads it. -/
theorem after_load [Limits] {p : Call} (now : Instant) (hworker : w.worker p = some (.sent .load)) :
    w.after [.read p, .work p now] =
      let (r, trail) := (attempt (Allowlist.load w.disk (.file w.path) now)).run w.trail
      { w.setWorker p (.done (.load r)) with trail := trail } := by
  have hread : w.step (.read p) = w.setWorker p (.holding .load (readFile w.disk w.path)) := by
    rw [step, read, hworker]
  have hholding : (w.setWorker p (.holding .load (readFile w.disk w.path))).worker p =
      some (.holding .load (readFile w.disk w.path)) := Function.update_self ..
  rw [after_cons, after_cons, after_nil, hread, step, work, hholding]
  simp only [setWorker, Function.update_idem]
  rfl

/-- The events that are left when a pass is over do nothing. -/
theorem after_rest [Limits] {p : Call} {outcome : Outcome} {r : Result} (now : Instant)
    (hstage : w.stage p = .ended outcome) (hworker : w.worker p = some (.done r)) :
    w.after [.read p, .work p now, .resume p now] = w := by
  simp only [after_cons, after_nil, step, read, work, resume, hstage, hworker]

/-- The call has returned with the outcome and left the state and the records. -/
structure Closed (p : Call) (result : (State × Outcome) × Trail) : Prop where
  stage : w.stage p = .ended result.1.2
  lock : w.lock = none
  state : w.state = result.1.1
  trail : w.trail = result.2

theorem closed_leave (p : Call) (s : State) (outcome : Outcome) (t : Trail) :
    (w.leave p s outcome t).Closed p ((s, outcome), t) :=
  ⟨w.stage_leave_self p s outcome t, rfl, rfl, rfl⟩

/-- **A call alone is a pass without interruption.** -/
theorem solo_world [Limits] {p : Call} (now : Instant) (hstage : w.stage p = .absent)
    (hlock : w.lock = none) :
    (w.after (solo p now)).Closed p ((Pass.run w.disk w.path now w.state).run w.trail) := by
  rw [solo, after_append, w.after_opening now hstage hlock, after_cons,
    step_resume_checking _ now (Function.update_self ..) (Function.update_self ..)]
  simp only [path_opened, state_opened, trail_opened]
  rw [Pass.run, StateT.run_bind]
  generalize (Pass.checked w.path now (Pass.begin now w.state)
    (Allowlist.fileChecksum w.disk w.path)).run w.trail = checked
  obtain ⟨turn, trail⟩ := checked
  cases turn with
  | ended s outcome =>
    have hrest := after_rest ((w.opened p now).leave p s outcome trail) now
      (stage_leave_self ..) (Function.update_self ..)
    simp only [hrest]
    exact closed_leave ..
  | loading s =>
    have hload := after_load ((w.opened p now).await p .loading .load s trail) now
      (worker_await_self ..)
    show World.Closed (((w.opened p now).await p .loading .load s trail).after
      ([.read p, .work p now] ++ [.resume p now])) p _
    rw [after_append, hload, after_cons, after_nil,
      step_resume_loading _ now (Function.update_self ..) (Function.update_self ..)]
    exact closed_leave ..

/-- A call alone that is cancelled while its first worker is out. -/
theorem cut_checking [Limits] {p : Call} (now : Instant) (hstage : w.stage p = .absent)
    (hlock : w.lock = none) :
    let (i, trail) := (Pass.interrupt w.disk w.path now .checking w.state).run w.trail
    (w.after [.call p, .acquire p now, .cancel p]).Closed p ((i.state, i.outcome), trail) := by
  have hcall : w.step (.call p) = w.moveTo p .waiting := if_pos hstage
  have hacquire : (w.moveTo p .waiting).step (.acquire p now) =
      (w.moveTo p .waiting).await p .checking .digest (Pass.begin now w.state) w.trail :=
    if_pos ⟨w.stage_moveTo_self p .waiting, hlock⟩
  rw [after_cons, hcall, after_cons, hacquire, after_cons, after_nil, step, cancel,
    stage_await_self]
  exact closed_leave ..

/-- **A call alone that is cancelled** while its second worker is out, if it comes to that, is an
interrupted pass; the worker leaves its records when the call is over. -/
theorem cut_loading [Limits] {p : Call} (now : Instant) {phase : Phase} (hphase : phase ≠ .checking)
    (hstage : w.stage p = .absent) (hlock : w.lock = none) :
    let (i, trail) := (Pass.interrupt w.disk w.path now phase w.state).run w.trail
    let cut := w.after (opening p now ++ [.resume p now, .cancel p])
    cut.Closed p ((i.state, i.outcome), trail) ∧
      (cut.after [.read p, .work p now]).trail = (i.late.run trail).2 := by
  rw [after_append, w.after_opening now hstage hlock, after_cons,
    step_resume_checking _ now (Function.update_self ..) (Function.update_self ..), Pass.interrupt]
  simp only [if_neg hphase, StateT.run_bind, path_opened, state_opened, trail_opened]
  generalize (Pass.checked w.path now (Pass.begin now w.state)
    (Allowlist.fileChecksum w.disk w.path)).run w.trail = checked
  obtain ⟨turn, trail⟩ := checked
  cases turn with
  | ended s outcome =>
    have hcancel : ((w.opened p now).leave p s outcome trail).after [.cancel p] =
        (w.opened p now).leave p s outcome trail := by
      rw [after_cons, after_nil, step, cancel, stage_leave_self]
    have hworker : ((w.opened p now).leave p s outcome trail).worker p =
        some (.done (.digest (Allowlist.fileChecksum w.disk w.path))) := Function.update_self ..
    refine ⟨?_, ?_⟩
    · rw [hcancel]
      exact closed_leave ..
    · rw [hcancel]
      simp only [after_cons, after_nil, step, read, work, hworker]
      rfl
  | loading s =>
    have hcancel : ((w.opened p now).await p .loading .load s trail).after [.cancel p] =
        ((w.opened p now).await p .loading .load s trail).leave p (Pass.cancel s).1
          (Pass.cancel s).2 trail := by
      rw [after_cons, after_nil, step, cancel, stage_await_self]
      rfl
    refine ⟨?_, ?_⟩
    · rw [hcancel]
      exact closed_leave ..
    · rw [hcancel, after_load _ now (Function.update_self ..)]
      rfl

end World

end AdmissionControl.Reload
