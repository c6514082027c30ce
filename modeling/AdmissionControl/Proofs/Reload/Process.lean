import AdmissionControl.Proofs.Reload.Publication
import AdmissionControl.Reload.Watcher

/-!
# A reloader at work

A process is a reloader with all that happens to it: passes that overlap, with their workers and
their cancellations, and the watch, which waits for a change and then for the pass that it has
called for.  A process also keeps how its passes ended, which no part of the reloader does.

* `Process.step` — what one event does; an event that cannot happen changes nothing.
* `Closes` — the ways in which a pass ends, with what each does to the store and the status.
* `Change`, `Process.change_step` — all that an event can do to what the passes share.
* `Ordered`, `Ordered.of_reachable` — whoever holds the lock is under way, and the phase is that
  of its stage.
-/

namespace AdmissionControl.Reload

open Allowlist (LoadError)

/-! ### The watch -/

/-- What the watch is doing. -/
inductive Watch
  | off
  /-- Its task is made and has not run yet. -/
  | made
  /-- It waits for a change, or for the time of a rescan. -/
  | waiting
  /-- It waits for the pass that it has called for. -/
  | passing (p : Call)
deriving DecidableEq, Repr

namespace Watch

/-- How far the task has come. -/
def task : Watch → Task
  | off => .off
  | made => .made
  | waiting | passing _ => .watching

def running (w : Watch) : Bool := w.task.running

/-- The watch of a reloader that has acted, from how far its task has come now: one that has just
begun to watch waits. -/
def follow (w : Watch) : Task → Watch
  | .off => off
  | .made => made
  | .watching => if w.task = .watching then w else waiting

@[simp] theorem follow_task (w : Watch) : w.follow w.task = w := by
  cases w <;> rfl

end Watch

/-! ### What a reloader does

Nothing that it does looks at the records. -/

namespace Reloader

variable (r : Reloader) (t : Trail)

theorem result_start : r.start.result t =
    if r.running then .error .alreadyRunning else .ok { r with task := .made } := by
  rw [start]
  split <;> rfl

theorem after_start : r.start.after t = t := by
  rw [start]
  split <;> rfl

theorem fst_run_enter : (r.enter.run t).1 =
    if r.task = .made then { r with task := .watching } else r := by
  rw [enter]
  split <;> rfl

/-- After a stop there is no task, whatever it was doing. -/
theorem fst_run_stop : (r.stop.run t).1 = { r with task := .off } := by
  rw [stop]
  split <;> rfl

theorem fst_run_streamEnded : (r.streamEnded.run t).1 =
    if r.task = .watching then { r with task := .off } else r := by
  rw [streamEnded]
  split <;> rfl

theorem fst_run_streamFailed (now : Instant) (error : StreamError) :
    ((r.streamFailed now error).run t).1 =
      if r.task = .watching then
        { r with
          task := .off
          status := r.status.watchFailed
            ⟨"Watcher stopped: " ++ error.message, error.kind, now⟩ }
      else r := by
  rw [streamFailed]
  split <;> rfl

end Reloader

/-! ### Calls only go forward -/

namespace World

theorem rank_le_step [Limits] (w : World) (e : Event) (p : Call) :
    (w.stage p).rank ≤ ((w.step e).stage p).rank := by
  rcases w.transition_step e with hnone | htransition
  · rw [hnone]
  · rcases htransition.stage p with heq | hnext
    · rw [heq]
    · exact hnext.rank_lt.le

theorem rank_le_after [Limits] (w : World) (events : List Event) (p : Call) :
    (w.stage p).rank ≤ ((w.after events).stage p).rank := by
  induction events generalizing w with
  | nil => exact le_rfl
  | cons e rest ih => exact (w.rank_le_step e p).trans (ih (w.step e))

end World

/-- How the pass ended that held the lock, if it has ended. -/
def World.ended? (w w' : World) : Option Outcome :=
  match w.lock with
  | none => none
  | some p =>
    match w'.stage p with
    | .ended outcome => some outcome
    | _ => none

/-! ### Processes and their events -/

structure Process where
  world : World
  options : Options
  watch : Watch
  /-- How the passes ended, the last one first. -/
  past : List Outcome

inductive Process.Event
  /-- An event of the disk, of a call or its worker, or of someone else who loads and publishes. -/
  | pass (e : Reload.Event)
  /-- A change, or the time of a rescan: the watch calls for a pass. -/
  | yield (p : Call)
  | start
  /-- The task of the watch runs for the first time. -/
  | enter
  | stop
  | streamEnded
  | streamFailed (now : Instant) (error : StreamError)

namespace Process

/-- A reloader with no pass under way. -/
def new (r : Reloader) (disk : FileSystem) (store : Store) (t : Trail) : Process where
  world := { World.start r.path disk store t with state := r.state store }
  options := r.options
  watch := Watch.off.follow r.task
  past := []

variable (s : Process)

/-- The reloader as others see it. -/
def reloader : Reloader := ⟨s.world.path, s.options, s.world.state.status, s.watch.task⟩

variable {s} in
theorem task_reloader_of_waiting (h : s.watch = .waiting) : s.reloader.task = .watching := by
  rw [reloader, h]
  rfl

/-- An event of the passes happens. -/
def advance [Limits] (e : Reload.Event) : Process :=
  { s with
    world := s.world.step e
    past := (World.ended? s.world (s.world.step e)).toList ++ s.past }

/-- The reloader acts; if it refuses to, only records are left. -/
def act (action : Audited Fault Reloader) : Process :=
  let r := ((action.result s.world.trail).toOption).getD s.reloader
  { s with
    world := { s.world with
      state := ⟨s.world.state.store, r.status⟩
      trail := action.after s.world.trail }
    watch := s.watch.follow r.task }

/-- The watch goes on when the pass is over that it waits for; it ends if that pass was
cancelled. -/
def settle : Process :=
  match s.watch with
  | .passing p =>
    match s.world.stage p with
    | .ended .cancelled => s.act (liftM s.reloader.stop)
    | .ended outcome =>
      { s with
        world := { s.world with
          trail := ((Reloader.recordEscape s.world.path outcome).run s.world.trail).2 }
        watch := .waiting }
    | _ => s
  | _ => s

def step [Limits] : Event → Process
  | .pass e => (s.advance e).settle
  | .yield p =>
    if s.watch = .waiting ∧ s.world.stage p = .absent then
      { s.advance (.call p) with watch := .passing p }
    else s
  | .start => s.act s.reloader.start
  | .enter => s.act (liftM s.reloader.enter)
  | .stop =>
    match s.watch with
    | .passing p => (s.advance (.cancel p)).settle
    | _ => s.act (liftM s.reloader.stop)
  | .streamEnded => if s.watch = .waiting then s.act (liftM s.reloader.streamEnded) else s
  | .streamFailed now error =>
    if s.watch = .waiting then s.act (liftM (s.reloader.streamFailed now error)) else s

/-- The process after a list of events. -/
def after [Limits] (events : List Event) : Process := events.foldl (·.step ·) s

@[simp] theorem after_nil [Limits] : s.after [] = s := rfl

@[simp] theorem after_cons [Limits] (e : Event) (events : List Event) :
    s.after (e :: events) = (s.step e).after events := rfl

theorem after_append [Limits] (events more : List Event) :
    s.after (events ++ more) = (s.after events).after more := List.foldl_append

/-- A state that a reloader can be in, from the time on at which its status was a new one. -/
def Reachable [Limits] : Prop :=
  ∃ r disk store t events, r.status = Status.start ∧ s = (Process.new r disk store t).after events

theorem Reachable.step [Limits] {s : Process} (h : s.Reachable) (e : Event) :
    (s.step e).Reachable := by
  obtain ⟨r, disk, store, t, events, hr, rfl⟩ := h
  exact ⟨r, disk, store, t, events ++ [e], hr, (after_append _ events [e]).symm⟩

/-- An action that keeps the status changes nothing that the passes share. -/
theorem state_act {action : Audited Fault Reloader}
    (h : ∀ r, action.result s.world.trail = .ok r → r.status = s.world.state.status) :
    (s.act action).world.state = s.world.state := by
  have hstatus : (((action.result s.world.trail).toOption).getD s.reloader).status =
      s.world.state.status := by
    cases hresult : action.result s.world.trail with
    | error f => rfl
    | ok r => exact h r hresult
  rw [act]
  simp only [hstatus]

end Process

/-! ### How a pass ends -/

/-- The ways in which a pass ends, with what each does to the store and the status. -/
inductive Closes (s : State) : Outcome → State → Prop
  | unchanged : Closes s .unchanged ⟨s.store, s.status.unchanged.settle⟩
  | failed (failure : Failure) : Closes s .failed ⟨s.store, (s.status.failed failure).settle⟩
  | published (a : Allowlist) (now : Instant) :
      Closes s .published ⟨s.store.publish a now, (s.status.published now).settle⟩
  | cancelled : Closes s .cancelled ⟨s.store, s.status.settle⟩
  | escaped (f : Fault) : Closes s (.escaped f) ⟨s.store, s.status.settle⟩

namespace Pass

variable {now : Instant} {s : State}

theorem closes_failure (now : Instant) (s : State) (e : LoadError) :
    Closes s (failure now s e).2 (failure now s e).1 := by
  cases e with
  | refused r => exact .failed _
  | fault f => exact .escaped f

/-- The first read ends the pass. -/
theorem closes_turn {now : Instant} {s s' : State} {r : Except LoadError Text} {outcome : Outcome}
    (h : turn now s r = .ended s' outcome) : Closes s outcome s' := by
  cases r with
  | error e =>
    obtain ⟨rfl, rfl⟩ := Turn.ended.inj h
    exact closes_failure now s e
  | ok checksum =>
    rw [turn] at h
    split at h
    · obtain ⟨rfl, rfl⟩ := Turn.ended.inj h
      exact .unchanged
    · cases h

/-- The pass goes on, and only its phase is a new one. -/
theorem turn_loading {now : Instant} {s s' : State} {r : Except LoadError Text}
    (h : turn now s r = .loading s') : s' = ⟨s.store, { s.status with phase := .loading }⟩ := by
  cases r with
  | error e => cases h
  | ok checksum =>
    rw [turn] at h
    split at h
    · cases h
    · exact (Turn.loading.inj h).symm

theorem closes_conclusion (now : Instant) (s : State) (r : Except LoadError Allowlist) :
    Closes s (conclusion now s r).2 (conclusion now s r).1 := by
  cases r with
  | error e => exact closes_failure now s e
  | ok a => exact .published a now

theorem closes_cancel (s : State) : Closes s .cancelled (cancel s).1 := .cancelled

end Pass

namespace Closes

variable {s s' : State} {outcome : Outcome}

/-- Only a publication touches the store. -/
theorem store (h : Closes s outcome s') (hne : outcome ≠ .published) : s'.store = s.store := by
  cases h with
  | published => exact absurd rfl hne
  | _ => rfl

theorem version (h : Closes s .published s') : s'.store.version = s.store.version + 1 := by
  cases h
  rfl

theorem phase (h : Closes s outcome s') : s'.status.phase = .idle := by
  cases h <;> rfl

end Closes

/-! ### What an event does to what the passes share -/

/-- The phase that a pass in a stage shows. -/
def Stage.phase : Stage → Phase
  | checking => .checking
  | loading => .loading
  | _ => .idle

/-- Whoever holds the lock is under way and nobody else is, and the phase is that of its stage. -/
structure Ordered (w : World) : Prop where
  lock_of_active : ∀ p, (w.stage p).Active → w.lock = some p
  active_of_lock : ∀ p, w.lock = some p → (w.stage p).Active
  phase : w.state.status.phase = (w.lock.map fun p => (w.stage p).phase).getD .idle

/-- The same calls are under way, in the same stages; a call that is set apart does not count. -/
def SameActive (apart : Call → Prop) (w w' : World) : Prop :=
  ∀ q, ¬ apart q → (w.stage q).Active ∨ (w'.stage q).Active → w'.stage q = w.stage q

/-- What an event of a process does to what its passes share. -/
inductive Change (s : Process) (e : Process.Event) (s' : Process) : Prop
  /-- Nothing. -/
  | aside (state : s'.world.state = s.world.state) (lock : s'.world.lock = s.world.lock)
      (stage : SameActive (fun _ => False) s.world s'.world) (past : s'.past = s.past)
  /-- Someone else publishes. -/
  | publish {index : Nat} {now : Instant} (a : Allowlist) (event : e = .pass (.publish index now))
      (state : s'.world.state = ⟨s.world.state.store.publish a now, s.world.state.status⟩)
      (lock : s'.world.lock = s.world.lock)
      (stage : SameActive (fun _ => False) s.world s'.world) (past : s'.past = s.past)
  /-- The watch fails. -/
  | watchFailed {now : Instant} {error : StreamError} (event : e = .streamFailed now error)
      (state : s'.world.state = ⟨s.world.state.store, s.world.state.status.watchFailed
        ⟨"Watcher stopped: " ++ error.message, error.kind, now⟩⟩)
      (lock : s'.world.lock = s.world.lock)
      (stage : SameActive (fun _ => False) s.world s'.world) (past : s'.past = s.past)
  /-- A pass begins. -/
  | begins {p : Call} {now : Instant} (event : e = .pass (.acquire p now))
      (waiting : s.world.stage p = .waiting) (free : s.world.lock = none)
      (state : s'.world.state = Pass.begin now s.world.state) (lock : s'.world.lock = some p)
      (stage : s'.world.stage p = .checking) (others : SameActive (· = p) s.world s'.world)
      (past : s'.past = s.past)
  /-- A pass goes on to its second read. -/
  | proceeds {p : Call} (checking : s.world.stage p = .checking)
      (state : s'.world.state =
        ⟨s.world.state.store, { s.world.state.status with phase := .loading }⟩)
      (lock : s'.world.lock = some p) (stage : s'.world.stage p = .loading)
      (others : SameActive (· = p) s.world s'.world) (past : s'.past = s.past)
  /-- A pass ends. -/
  | ends {p : Call} {outcome : Outcome} (active : (s.world.stage p).Active)
      (closes : Closes s.world.state outcome s'.world.state) (lock : s'.world.lock = none)
      (stage : s'.world.stage p = .ended outcome) (others : SameActive (· = p) s.world s'.world)
      (past : s'.past = outcome :: s.past)

namespace SameActive

theorem refl {w w' : World} (h : w'.stage = w.stage) : SameActive (fun _ => False) w w' := by
  intro q _ _
  rw [h]

/-- A call moves between stages in which nothing is under way. -/
theorem of_idle {w w' : World} {p : Call} {stage : Stage} (hp : ¬ (w.stage p).Active)
    (hstage : ¬ stage.Active) (h : w'.stage = Function.update w.stage p stage) :
    SameActive (fun _ => False) w w' := by
  intro q _ hq
  rw [h] at hq ⊢
  by_cases hqp : q = p
  · subst hqp
    rw [Function.update_self] at hq
    exact (hq.elim hp hstage).elim
  · exact Function.update_of_ne hqp ..

theorem of_update {w w' : World} {p : Call} {stage : Stage}
    (h : w'.stage = Function.update w.stage p stage) : SameActive (· = p) w w' := by
  intro q hq _
  rw [h]
  exact Function.update_of_ne hq ..

end SameActive

/-! ### From one event to the next -/

namespace Process

/-- Two processes with the same calls, the same store and status and the same past: they differ at
most in what was recorded, and in what the watch and the workers do. -/
structure Agree (s s' : Process) : Prop where
  state : s'.world.state = s.world.state
  lock : s'.world.lock = s.world.lock
  stage : s'.world.stage = s.world.stage
  past : s'.past = s.past

variable {s s' s'' : Process} {e : Event}

theorem Agree.aside (h : Agree s s') : Change s e s' :=
  .aside h.state h.lock (.refl h.stage) h.past

/-- What follows the event itself leaves the change as it is. -/
theorem Agree.change (h : Agree s' s'') (hchange : Change s e s') : Change s e s'' := by
  have hactive : ∀ {apart}, SameActive apart s.world s'.world →
      SameActive apart s.world s''.world := by
    intro apart hsame q hq
    rw [h.stage]
    exact hsame q hq
  cases hchange with
  | aside state lock stage past =>
    exact .aside (h.state.trans state) (h.lock.trans lock) (hactive stage) (h.past.trans past)
  | publish a event state lock stage past =>
    exact .publish a event (h.state.trans state) (h.lock.trans lock) (hactive stage)
      (h.past.trans past)
  | watchFailed event state lock stage past =>
    exact .watchFailed event (h.state.trans state) (h.lock.trans lock) (hactive stage)
      (h.past.trans past)
  | begins event waiting free state lock stage others past =>
    exact .begins event waiting free (h.state.trans state) (h.lock.trans lock)
      (by rw [h.stage, stage]) (hactive others) (h.past.trans past)
  | proceeds checking state lock stage others past =>
    exact .proceeds checking (h.state.trans state) (h.lock.trans lock) (by rw [h.stage, stage])
      (hactive others) (h.past.trans past)
  | ends active closes lock stage others past =>
    exact .ends active (h.state ▸ closes) (h.lock.trans lock) (by rw [h.stage, stage])
      (hactive others) (h.past.trans past)

theorem agree_act {action : Audited Fault Reloader}
    (h : ∀ r, action.result s.world.trail = .ok r → r.status = s.world.state.status) :
    Agree s (s.act action) :=
  ⟨s.state_act h, rfl, rfl, rfl⟩

/-- An action that leaves the status alone, whatever it records. -/
theorem agree_record (s : Process) {action : Reloader → StateM Trail Reloader}
    (h : ∀ r t, ((action r).run t).1.status = r.status) :
    Agree s (s.act (liftM (action s.reloader))) := by
  refine agree_act fun r hr => ?_
  rw [Audited.result_liftM_record] at hr
  rw [← Except.ok.inj hr]
  exact h s.reloader s.world.trail

theorem agree_stop (s : Process) : Agree s (s.act (liftM s.reloader.stop)) := by
  refine s.agree_record fun r t => ?_
  rw [Reloader.fst_run_stop]

theorem agree_enter (s : Process) : Agree s (s.act (liftM s.reloader.enter)) := by
  refine s.agree_record fun r t => ?_
  rw [Reloader.fst_run_enter]
  split <;> rfl

theorem agree_streamEnded (s : Process) : Agree s (s.act (liftM s.reloader.streamEnded)) := by
  refine s.agree_record fun r t => ?_
  rw [Reloader.fst_run_streamEnded]
  split <;> rfl

theorem agree_start (s : Process) : Agree s (s.act s.reloader.start) := by
  refine agree_act fun r hr => ?_
  rw [Reloader.result_start] at hr
  split at hr
  · cases hr
  · rw [← Except.ok.inj hr]
    rfl

theorem agree_settle (s : Process) : Agree s s.settle := by
  rw [settle]
  split
  · split
    · exact s.agree_stop
    · exact ⟨rfl, rfl, rfl, rfl⟩
    · exact ⟨rfl, rfl, rfl, rfl⟩
  · exact ⟨rfl, rfl, rfl, rfl⟩

/-- A pass ends whose outcome the process keeps. -/
theorem past_advance [Limits] (h : Ordered s.world) {inner : Reload.Event} {p : Call}
    {outcome : Outcome} (hp : (s.world.stage p).Active)
    (hstage : (s.world.step inner).stage p = .ended outcome) :
    (s.advance inner).past = outcome :: s.past := by
  rw [advance, World.ended?, h.lock_of_active p hp]
  simp only [hstage]
  rfl

/-- The calls that are under way stay where they are, so no pass has ended. -/
theorem past_advance_of_same [Limits] (h : Ordered s.world) {inner : Reload.Event}
    (hsame : SameActive (fun _ => False) s.world (s.world.step inner)) :
    (s.advance inner).past = s.past := by
  rw [advance, World.ended?]
  cases hlock : s.world.lock with
  | none => rfl
  | some p =>
    have hp := h.active_of_lock p hlock
    simp only [hsame p not_false (.inl hp)]
    rcases hp with hstage | hstage <;> rw [hstage] <;> rfl

/-- A pass leaves. -/
theorem change_of_leave [Limits] (h : Ordered s.world) {inner : Reload.Event} {p : Call}
    {state : State} {outcome : Outcome} {trail : Trail} (hp : (s.world.stage p).Active)
    (hcloses : Closes s.world.state outcome state)
    (hnext : s.world.step inner = s.world.leave p state outcome trail) :
    Change s e (s.advance inner) := by
  have hstage : (s.world.step inner).stage p = .ended outcome := by
    rw [hnext, World.stage_leave_self]
  refine .ends hp ?_ (congrArg World.lock hnext) hstage (.of_update (congrArg World.stage hnext))
    (past_advance h hp hstage)
  rw [show (s.advance inner).world = _ from hnext]
  exact hcloses

/-- A pass goes on to its load. -/
theorem change_of_proceed [Limits] (h : Ordered s.world) {inner : Reload.Event} {p : Call}
    {state : State} {trail : Trail} (hp : s.world.stage p = .checking)
    (hstate : state = ⟨s.world.state.store, { s.world.state.status with phase := .loading }⟩)
    (hnext : s.world.step inner = s.world.await p .loading .load state trail) :
    Change s e (s.advance inner) := by
  have hpast : (s.advance inner).past = s.past := by
    rw [advance, World.ended?, h.lock_of_active p (.inl hp), hnext]
    simp only [World.stage_await_self]
    rfl
  refine .proceeds hp ?_ ?_ ?_ ?_ hpast
  all_goals rw [show (s.advance inner).world = _ from hnext]
  · exact hstate
  · rfl
  · exact World.stage_await_self ..
  · exact .of_update rfl

/-- **What an event of the passes does.**  Only events of the passes publish and begin; what the
watch brings about is that a call is made or cancelled. -/
theorem change_advance [Limits] (h : Ordered s.world) {inner : Reload.Event}
    (he : e = .pass inner ∨ ∃ p, inner = .call p ∨ inner = .cancel p) :
    Change s e (s.advance inner) := by
  have haside : (s.world.step inner).state = s.world.state →
      (s.world.step inner).lock = s.world.lock →
      SameActive (fun _ => False) s.world (s.world.step inner) → Change s e (s.advance inner) :=
    fun hstate hlock hsame => .aside hstate hlock hsame (past_advance_of_same h hsame)
  have hpass : ∀ {e'}, inner = e' → (∀ p, e' ≠ .call p ∧ e' ≠ .cancel p) → e = .pass e' := by
    rintro e' rfl hne
    rcases he with he | ⟨p, hcall | hcancel⟩
    · exact he
    · exact absurd hcall (hne p).1
    · exact absurd hcancel (hne p).2
  rcases s.world.transition_step inner with hsame | htransition
  · exact haside (congrArg World.state hsame) (congrArg World.lock hsame)
      (.refl (congrArg World.stage hsame))
  · generalize hnext : s.world.step inner = next at haside htransition
    have hworld : (s.advance inner).world = next := hnext
    cases htransition with
    | disk | load | read | work => exact haside rfl rfl (.refl rfl)
    | @publish index a now trail _ =>
      have hsame : SameActive (fun _ => False) s.world (s.advance (.publish index now)).world := by
        rw [hworld]
        exact .refl rfl
      exact .publish a (hpass rfl (by simp)) (by rw [hworld]) (by rw [hworld]) hsame
        (past_advance_of_same h hsame)
    | call hp | withdraw hp =>
      exact haside rfl rfl (.of_idle (by simp [hp, Stage.Active]) (by simp [Stage.Active]) rfl)
    | @acquire p now hp hfree =>
      have hpast : (s.advance (.acquire p now)).past = s.past := by
        rw [advance, World.ended?, hfree]
        rfl
      refine .begins (hpass rfl (by simp)) hp hfree ?_ ?_ ?_ ?_ hpast
      all_goals rw [hworld]
      · rfl
      · rfl
      · exact World.stage_await_self ..
      · exact .of_update rfl
    | proceed trail hp _ hturn => exact change_of_proceed h hp (Pass.turn_loading hturn) hnext
    | settle trail hp _ hturn => exact change_of_leave h (.inl hp) (Pass.closes_turn hturn) hnext
    | @conclude p r now trail hp _ =>
      exact change_of_leave h (.inr hp) (Pass.closes_conclusion now s.world.state r) hnext
    | abandon hp => exact change_of_leave h hp (Pass.closes_cancel s.world.state) hnext

/-- The watch fails if its stream of events fails. -/
theorem change_streamFailed (hwatch : s.watch = .waiting) (now : Instant) (error : StreamError) :
    Change s (.streamFailed now error) (s.act (liftM (s.reloader.streamFailed now error))) := by
  refine .watchFailed rfl ?_ rfl (.refl rfl) rfl
  rw [act, Audited.result_liftM_record, Reloader.fst_run_streamFailed,
    if_pos (task_reloader_of_waiting hwatch)]
  rfl

/-- **What one event of a process does.** -/
theorem change_step [Limits] (h : Ordered s.world) (e : Event) : Change s e (s.step e) := by
  cases e with
  | pass inner => exact (agree_settle _).change (change_advance h (.inl rfl))
  | yield p =>
    rw [step]
    split
    · have hagree : Agree (s.advance (.call p)) { s.advance (.call p) with watch := .passing p } :=
        ⟨rfl, rfl, rfl, rfl⟩
      exact hagree.change (change_advance h (.inr ⟨p, .inl rfl⟩))
    · exact Agree.aside ⟨rfl, rfl, rfl, rfl⟩
  | start => exact s.agree_start.aside
  | enter => exact s.agree_enter.aside
  | stop =>
    rw [step]
    split
    · exact (agree_settle _).change (change_advance h (.inr ⟨_, .inr rfl⟩))
    · exact s.agree_stop.aside
  | streamEnded =>
    rw [step]
    split
    · exact s.agree_streamEnded.aside
    · exact Agree.aside ⟨rfl, rfl, rfl, rfl⟩
  | streamFailed now error =>
    rw [step]
    split
    · next hwatch => exact change_streamFailed hwatch now error
    · exact Agree.aside ⟨rfl, rfl, rfl, rfl⟩

end Process

/-! ### The lock and the phase -/

namespace Ordered

variable {s s' : Process} {e : Process.Event}

theorem same {w w' : World} (h : Ordered w) (hlock : w'.lock = w.lock)
    (hphase : w'.state.status.phase = w.state.status.phase)
    (hsame : SameActive (fun _ => False) w w') : Ordered w' := by
  refine ⟨fun p hp => ?_, fun p hp => ?_, ?_⟩
  · rw [hlock]
    rw [hsame p not_false (.inr hp)] at hp
    exact h.lock_of_active p hp
  · rw [hlock] at hp
    have hactive := h.active_of_lock p hp
    rw [hsame p not_false (.inl hactive)]
    exact hactive
  · rw [hphase, h.phase, hlock]
    cases hp : w.lock with
    | none => rfl
    | some p =>
      have hactive := h.active_of_lock p hp
      simp only [Option.map_some, hsame p not_false (.inl hactive)]

/-- Only one call is under way after an event that gives it the lock or leaves it with it. -/
theorem holder {w w' : World} (h : Ordered w) {p : Call} (hfree : ∀ q, w.lock = some q → q = p)
    (hlock : w'.lock = some p) (hactive : (w'.stage p).Active)
    (hphase : w'.state.status.phase = (w'.stage p).phase) (others : SameActive (· = p) w w') :
    Ordered w' := by
  refine ⟨fun q hq => ?_, fun q hq => ?_, ?_⟩
  · by_cases hqp : q = p
    · rw [hqp, hlock]
    · rw [others q hqp (.inr hq)] at hq
      exact absurd (hfree q (h.lock_of_active q hq)) hqp
  · rw [hlock, Option.some.injEq] at hq
    rw [← hq]
    exact hactive
  · rw [hphase, hlock]
    rfl

/-- **One event keeps it so.** -/
theorem of_change (h : Ordered s.world) (hchange : Change s e s') : Ordered s'.world := by
  cases hchange with
  | aside state lock stage _ => exact h.same lock (by rw [state]) stage
  | publish _ _ state lock stage _ => exact h.same lock (by rw [state]) stage
  | watchFailed _ state lock stage _ =>
    exact h.same lock (by rw [state]; rfl) stage
  | begins _ _ free state lock stage others _ =>
    refine h.holder (fun q hq => ?_) lock (.inl stage) ?_ others
    · rw [free] at hq
      cases hq
    · rw [state, stage]
      rfl
  | @proceeds p checking state lock stage others _ =>
    refine h.holder (fun q hq => ?_) lock (.inr stage) ?_ others
    · exact Option.some.inj (hq.symm.trans (h.lock_of_active p (.inl checking)))
    · rw [state, stage]
      rfl
  | @ends p outcome active closes lock stage others _ =>
    have hnone : ∀ q, ¬ (s'.world.stage q).Active := by
      intro q hq
      by_cases hqp : q = p
      · rw [hqp, stage] at hq
        simp [Stage.Active] at hq
      · rw [others q hqp (.inr hq)] at hq
        exact hqp (Option.some.inj ((h.lock_of_active q hq).symm.trans (h.lock_of_active p active)))
    refine ⟨fun q hq => absurd hq (hnone q), fun q hq => ?_, ?_⟩
    · rw [lock] at hq
      cases hq
    · rw [closes.phase, lock]
      rfl

theorem new {r : Reloader} (hr : r.status.phase = .idle) (disk : FileSystem) (store : Store)
    (t : Trail) : Ordered (Process.new r disk store t).world := by
  refine ⟨fun p hp => ?_, fun p hp => ?_, hr⟩
  · simp [Process.new, World.start, Stage.Active] at hp
  · cases hp

/-- Whoever holds the lock is under way at every moment, and nobody else. -/
theorem after [Limits] (h : Ordered s.world) (events : List Process.Event) :
    Ordered (s.after events).world := by
  induction events generalizing s with
  | nil => exact h
  | cons e rest ih => exact ih (h.of_change (Process.change_step h e))

theorem of_reachable [Limits] (h : s.Reachable) : Ordered s.world := by
  obtain ⟨r, disk, store, t, events, hr, rfl⟩ := h
  exact (Ordered.new (by rw [hr]; rfl) disk store t).after events

end Ordered

/-- What a new reloader has and every event keeps is had by every state that it can be in. -/
theorem Process.Reachable.induct [Limits] {P : Process → Prop} {s : Process} (h : s.Reachable)
    (hnew : ∀ r disk store t, r.status = Status.start → P (Process.new r disk store t))
    (hstep : ∀ s e s', Ordered s.world → Change s e s' → P s → P s') : P s := by
  obtain ⟨r, disk, store, t, events, hr, rfl⟩ := h
  have hfirst := hnew r disk store t hr
  have hordered : Ordered (Process.new r disk store t).world :=
    Ordered.new (by rw [hr]; rfl) disk store t
  generalize Process.new r disk store t = first at hfirst hordered
  induction events generalizing first with
  | nil => exact hfirst
  | cons e rest ih =>
    have hchange := Process.change_step hordered e
    exact ih (first.step e) (hstep first e _ hordered hchange hfirst) (hordered.of_change hchange)

end AdmissionControl.Reload
