import AdmissionControl.Proofs.Reload.Effect
import AdmissionControl.Proofs.Reload.Records
import AdmissionControl.Proofs.Reload.Wake

/-!
# The history that a status sums up

A history names the passes that began, the ways in which they ended, and the failures of the watch.
It is read off the calls and their workers and not off the status; the status is then a function of
it.

* `World.occasion?`, `Process.occasion?` — what an event adds to the history.
* `Status.Summarizes` — each field of a status, from a history.
* `World.summarizes_step`, `Process.summarizes_after` — one event keeps the summary, and so does a
  run.
* `Process.past_after` — the history tells how each pass ended.
* `Process.version_after` — versions and publications go together.
* `Process.status_sums_up_history` — the status of a reloader, at every moment since it was new.
-/

namespace AdmissionControl.Reload

open Allowlist (LoadError Refusal)

/-! ### Occasions -/

/-- What happens to a reloader that its status is to tell of. -/
inductive Occasion
  | began (time : Instant)
  | unchanged
  | failed (refusal : Refusal) (time : Instant)
  | published (time : Instant)
  | cancelled
  | escaped (f : Fault)
  | watchFailed (error : StreamError) (time : Instant)
deriving DecidableEq, Repr

namespace Occasion

/-- A pass that an error ends has failed, unless the error is a fault. -/
def ofError (now : Instant) : LoadError → Occasion
  | .refused r => failed r now
  | .fault f => escaped f

def ofLoad (now : Instant) : Except LoadError Allowlist → Occasion
  | .error e => ofError now e
  | .ok _ => published now

/-- How a pass ended, if it was the end of one. -/
def outcome? : Occasion → Option Outcome
  | unchanged => some .unchanged
  | failed .. => some .failed
  | published _ => some .published
  | cancelled => some .cancelled
  | escaped f => some (.escaped f)
  | began _ | watchFailed .. => none

def beganAt? : Occasion → Option Instant
  | began time => some time
  | _ => none

def publishedAt? : Occasion → Option Instant
  | published time => some time
  | _ => none

/-- What is kept of a failure: the message and the class of what was refused, or of the error that
ended the watch. -/
def failure? : Occasion → Option Failure
  | failed r time => some ⟨r.message, r.kind, time⟩
  | watchFailed error time => some ⟨"Watcher stopped: " ++ error.message, error.kind, time⟩
  | _ => none

end Occasion

/-- What a pass has to tell that has read the digest; it goes on if the digest is a new one. -/
def World.ofDigest? (w : World) (now : Instant) : Except LoadError Text → Option Occasion
  | .error e => some (.ofError now e)
  | .ok checksum =>
    if checksum = w.state.store.current.allowlist.checksum then some .unchanged else none

/-- What an event of the passes adds to the history. -/
def World.occasion? (w : World) : Event → Option Occasion
  | .acquire p now => if w.stage p = .waiting ∧ w.lock = none then some (.began now) else none
  | .resume p now =>
    match w.stage p, w.worker p with
    | .checking, some (.done (.digest r)) => w.ofDigest? now r
    | .loading, some (.done (.load r)) => some (.ofLoad now r)
    | _, _ => none
  | .cancel p =>
    match w.stage p with
    | .checking | .loading => some .cancelled
    | _ => none
  | _ => none

namespace Process

/-- What an event adds to the history: a watch that is stopped cancels its pass, and one that waits
for nothing but a change can fail. -/
def occasion? (s : Process) : Event → Option Occasion
  | .pass e => s.world.occasion? e
  | .stop =>
    match s.watch with
    | .passing p => s.world.occasion? (.cancel p)
    | _ => none
  | .streamFailed now error => if s.watch = .waiting then some (.watchFailed error now) else none
  | .yield _ | .start | .enter | .streamEnded => none

/-- The history of a run, the last occasion first. -/
def history [Limits] (s : Process) : List Event → List Occasion
  | [] => []
  | e :: rest => history (s.step e) rest ++ (s.occasion? e).toList

end Process

/-! ### Summaries -/

/-- The end of a pass with which the failures in a row begin anew. -/
def Outcome.succeeds : Outcome → Bool
  | .unchanged | .published => true
  | .failed | .cancelled | .escaped _ => false

/-- The fields of a status, from a history whose last occasion comes first. -/
structure Status.Summarizes (status : Status) (history : List Occasion) : Prop where
  reloadCount : status.reloadCount = (history.filterMap Occasion.outcome?).count .published
  /-- The failures since the last success, or since the reloader was new. -/
  consecutiveFailures : status.consecutiveFailures = ((history.filterMap Occasion.outcome?).takeWhile
    fun outcome => !outcome.succeeds).count .failed
  lastCheckedAt : status.lastCheckedAt = history.findSome? Occasion.beganAt?
  lastSuccessAt : status.lastSuccessAt = history.findSome? Occasion.publishedAt?
  /-- The last failure of a pass or of the watch. -/
  lastFailure : status.lastFailure = history.findSome? Occasion.failure?

namespace Status.Summarizes

variable {status : Status} {history : List Occasion}

theorem start : Status.start.Summarizes [] := ⟨rfl, rfl, rfl, rfl, rfl⟩

/-- The phase is no part of the summary. -/
theorem phase (h : status.Summarizes history) (phase : Phase) :
    { status with phase := phase }.Summarizes history :=
  ⟨h.reloadCount, h.consecutiveFailures, h.lastCheckedAt, h.lastSuccessAt, h.lastFailure⟩

theorem begin (h : status.Summarizes history) (now : Instant) :
    (status.begin now).Summarizes (.began now :: history) :=
  ⟨h.reloadCount, h.consecutiveFailures, rfl, h.lastSuccessAt, h.lastFailure⟩

theorem unchanged (h : status.Summarizes history) :
    status.unchanged.settle.Summarizes (.unchanged :: history) :=
  ⟨h.reloadCount, rfl, h.lastCheckedAt, h.lastSuccessAt, h.lastFailure⟩

theorem published (h : status.Summarizes history) (now : Instant) :
    (status.published now).settle.Summarizes (.published now :: history) := by
  refine ⟨?_, rfl, h.lastCheckedAt, rfl, h.lastFailure⟩
  show status.reloadCount + 1 = _
  rw [h.reloadCount]
  simp [Occasion.outcome?]

theorem cancelled (h : status.Summarizes history) :
    status.settle.Summarizes (.cancelled :: history) :=
  ⟨h.reloadCount, h.consecutiveFailures, h.lastCheckedAt, h.lastSuccessAt, h.lastFailure⟩

/-- A refusal is counted and kept, a fault is not. -/
theorem failure {s : State} (h : s.status.Summarizes history) (now : Instant) (e : LoadError) :
    (Pass.failure now s e).1.status.Summarizes (.ofError now e :: history) := by
  cases e with
  | refused r =>
    refine ⟨h.reloadCount, ?_, h.lastCheckedAt, h.lastSuccessAt, rfl⟩
    show s.status.consecutiveFailures + 1 = _
    rw [h.consecutiveFailures]
    simp [Occasion.ofError, Occasion.outcome?, Outcome.succeeds]
  | fault f =>
    exact ⟨h.reloadCount, h.consecutiveFailures, h.lastCheckedAt, h.lastSuccessAt, h.lastFailure⟩

theorem watchFailed (h : status.Summarizes history) (now : Instant) (error : StreamError) :
    (status.watchFailed ⟨"Watcher stopped: " ++ error.message, error.kind, now⟩).Summarizes
      (.watchFailed error now :: history) :=
  ⟨h.reloadCount, h.consecutiveFailures, h.lastCheckedAt, h.lastSuccessAt, rfl⟩

/-! What is not set has not happened. -/

theorem lastCheckedAt_eq_none_iff (h : status.Summarizes history) :
    status.lastCheckedAt = none ↔ ∀ time, .began time ∉ history := by
  rw [h.lastCheckedAt, List.findSome?_eq_none_iff]
  constructor
  · intro hnone time hmem
    cases hnone _ hmem
  · intro hnone o ho
    cases o with
    | began time => exact absurd ho (hnone time)
    | _ => rfl

theorem lastSuccessAt_eq_none_iff (h : status.Summarizes history) :
    status.lastSuccessAt = none ↔ .published ∉ history.filterMap Occasion.outcome? := by
  rw [h.lastSuccessAt, List.findSome?_eq_none_iff, List.mem_filterMap]
  constructor
  · rintro hnone ⟨o, ho, houtcome⟩
    cases o <;> simp [Occasion.outcome?] at houtcome
    cases hnone _ ho
  · intro hnone o ho
    cases o with
    | published time => exact absurd ⟨_, ho, rfl⟩ hnone
    | _ => rfl

theorem lastFailure_eq_none_iff (h : status.Summarizes history) :
    status.lastFailure = none ↔ .failed ∉ history.filterMap Occasion.outcome? ∧
      ∀ error time, .watchFailed error time ∉ history := by
  rw [h.lastFailure, List.findSome?_eq_none_iff, List.mem_filterMap]
  constructor
  · refine fun hnone => ⟨?_, fun error time hmem => ?_⟩
    · rintro ⟨o, ho, houtcome⟩
      cases o <;> simp [Occasion.outcome?] at houtcome
      cases hnone _ ho
    · cases hnone _ hmem
  · rintro ⟨hfailed, hwatch⟩ o ho
    cases o with
    | failed r time => exact absurd ⟨_, ho, rfl⟩ hfailed
    | watchFailed error time => exact absurd ho (hwatch error time)
    | _ => rfl

end Status.Summarizes

/-! ### One event -/

namespace World

variable (w : World)

/-- What a call goes on with that its worker has come back to. -/
theorem state_resume (p : Call) (now : Instant) :
    (w.resume p now).state =
      match w.stage p, w.worker p with
      | .checking, some (.done (.digest r)) => (Pass.turn now w.state r).state
      | .loading, some (.done (.load r)) => (Pass.conclusion now w.state r).1
      | _, _ => w.state := by
  have hsilence : (w.resume p now).state = (w.resume p now).silence.state := rfl
  rw [hsilence, silence_resume]
  rcases w.stage p with _ | _ | _ | _ | _ <;> try rfl
  · rcases w.worker p with _ | _ | _ | r | r <;> try rfl
    simp only
    cases Pass.turn now w.state r <;> rfl
  · rcases w.worker p with _ | _ | _ | r | r <;> rfl

variable {w} {history : List Occasion}

theorem summarizes_turn (h : w.state.status.Summarizes history) (now : Instant)
    (r : Except LoadError Text) :
    (Pass.turn now w.state r).state.status.Summarizes ((w.ofDigest? now r).toList ++ history) := by
  cases r with
  | error e => exact h.failure now e
  | ok checksum =>
    rw [Pass.turn, ofDigest?]
    split
    · exact h.unchanged
    · exact h.phase .loading

theorem summarizes_conclusion (h : w.state.status.Summarizes history) (now : Instant)
    (r : Except LoadError Allowlist) :
    (Pass.conclusion now w.state r).1.status.Summarizes (.ofLoad now r :: history) := by
  cases r with
  | error e => exact h.failure now e
  | ok a => exact h.published now

theorem summarizes_resume (h : w.state.status.Summarizes history) (p : Call) (now : Instant) :
    (w.resume p now).state.status.Summarizes
      ((w.occasion? (.resume p now)).toList ++ history) := by
  rw [state_resume, occasion?]
  rcases w.stage p with _ | _ | _ | _ | _ <;> try exact h
  · rcases w.worker p with _ | _ | _ | r | r <;> try exact h
    exact summarizes_turn h now r
  · rcases w.worker p with _ | _ | _ | r | r <;> try exact h
    exact summarizes_conclusion h now r

theorem summarizes_cancel (h : w.state.status.Summarizes history) (p : Call) :
    (w.cancel p).state.status.Summarizes ((w.occasion? (.cancel p)).toList ++ history) := by
  rw [cancel, occasion?]
  rcases w.stage p with _ | _ | _ | _ | _
  · exact h
  · exact h
  · exact h.cancelled
  · exact h.cancelled
  · exact h

/-- **One event of the passes keeps the summary.** -/
theorem summarizes_step [Limits] (h : w.state.status.Summarizes history) (e : Event) :
    (w.step e).state.status.Summarizes ((w.occasion? e).toList ++ history) := by
  cases e with
  | disk | load => exact h
  | publish index now =>
    rw [step, publish]
    cases w.held[index]? <;> exact h
  | call p =>
    rw [step, call]
    split <;> exact h
  | acquire p now =>
    rw [step, acquire, occasion?]
    split
    · exact h.begin now
    · exact h
  | read p =>
    rw [step, read]
    rcases w.worker p with _ | _ | _ | _ <;> exact h
  | work p now =>
    rw [step, work]
    rcases w.worker p with _ | _ | _ | _ <;> exact h
  | resume p now => exact summarizes_resume h p now
  | cancel p => exact summarizes_cancel h p

/-! How the passes end. -/

/-- No pass has ended if whoever holds the lock is where it was. -/
theorem ended?_of_same {w' : World} (ho : Ordered w)
    (hsame : ∀ p, (w.stage p).Active → w'.stage p = w.stage p) : ended? w w' = none := by
  rw [ended?]
  cases hlock : w.lock with
  | none => rfl
  | some p =>
    have hp := ho.active_of_lock p hlock
    simp only [hsame p hp]
    rcases hp with hstage | hstage <;> rw [hstage]

theorem ended?_leave {w' : World} (ho : Ordered w) {p : Call} {state : State} {outcome : Outcome}
    {t : Trail} (hp : (w.stage p).Active) : ended? w (w'.leave p state outcome t) = some outcome := by
  rw [ended?, ho.lock_of_active p hp]
  simp only [stage_leave_self]

theorem outcome?_ofError (now : Instant) (s : State) (e : LoadError) :
    (Occasion.ofError now e).outcome? = some (Pass.failure now s e).2 := by
  cases e <;> rfl

theorem outcome?_ofLoad (now : Instant) (s : State) (r : Except LoadError Allowlist) :
    (Occasion.ofLoad now r).outcome? = some (Pass.conclusion now s r).2 := by
  cases r with
  | error e => exact outcome?_ofError now s e
  | ok a => rfl

/-- What follows the first read, without the records. -/
theorem outcome?_ofDigest? (ho : Ordered w) {p : Call} (hp : w.stage p = .checking) (now : Instant)
    (r : Except LoadError Text) :
    (w.ofDigest? now r).bind Occasion.outcome? = ended? w
      (match Pass.turn now w.state r with
      | .ended state outcome => w.leave p state outcome .start
      | .loading state => w.await p .loading .load state .start) := by
  cases r with
  | error e =>
    rw [Pass.turn, ended?_leave ho (.inl hp)]
    exact outcome?_ofError now w.state e
  | ok checksum =>
    rw [Pass.turn, ofDigest?]
    split
    · exact (ended?_leave ho (.inl hp)).symm
    · rw [ended?, ho.lock_of_active p (.inl hp)]
      simp only [stage_await_self]
      rfl

theorem outcome?_resume (ho : Ordered w) (p : Call) (now : Instant) :
    (w.occasion? (.resume p now)).bind Occasion.outcome? = ended? w (w.resume p now).silence := by
  have hsame : ended? w w.silence = none := ended?_of_same ho fun _ _ => rfl
  rw [silence_resume, occasion?]
  cases hstage : w.stage p with
  | absent | waiting | ended => exact hsame.symm
  | checking =>
    rcases w.worker p with _ | _ | _ | r | r
    case some.done.digest => exact outcome?_ofDigest? ho hstage now r
    all_goals exact hsame.symm
  | loading =>
    rcases w.worker p with _ | _ | _ | r | r
    case some.done.load =>
      rw [ended?_leave ho (.inr hstage)]
      exact outcome?_ofLoad now w.state r
    all_goals exact hsame.symm

/-- **The history tells how a pass ends**, whenever one does. -/
theorem outcome?_occasion? [Limits] (ho : Ordered w) (e : Event) :
    (w.occasion? e).bind Occasion.outcome? = ended? w (w.step e) := by
  cases e with
  | disk | load => exact (ended?_of_same ho fun _ _ => rfl).symm
  | publish index now =>
    refine (ended?_of_same ho fun p _ => ?_).symm
    rw [step, publish]
    cases w.held[index]? <;> rfl
  | call p =>
    refine (ended?_of_same ho fun q hq => ?_).symm
    rw [step, call]
    split
    · next hp =>
      refine Function.update_of_ne ?_ ..
      rintro rfl
      rw [hp] at hq
      simp [Stage.Active] at hq
    · rfl
  | acquire p now =>
    rw [step, acquire, occasion?]
    split
    · next h =>
      rw [ended?, h.2]
      rfl
    · exact (ended?_of_same ho fun _ _ => rfl).symm
  | read p =>
    refine (ended?_of_same ho fun q _ => ?_).symm
    rw [step, read]
    rcases w.worker p with _ | _ | _ | _ <;> rfl
  | work p now =>
    refine (ended?_of_same ho fun q _ => ?_).symm
    rw [step, work]
    rcases w.worker p with _ | _ | _ | _ <;> rfl
  | resume p now => exact outcome?_resume ho p now
  | cancel p =>
    have hsame : ended? w w = none := ended?_of_same ho fun _ _ => rfl
    rw [step, cancel, occasion?]
    cases hstage : w.stage p with
    | absent | ended => exact hsame.symm
    | waiting =>
      refine (ended?_of_same ho fun q hq => Function.update_of_ne ?_ ..).symm
      rintro rfl
      rw [hstage] at hq
      simp [Stage.Active] at hq
    | checking => exact (ended?_leave ho (.inl hstage)).symm
    | loading => exact (ended?_leave ho (.inr hstage)).symm

end World

/-! ### A run -/

namespace Process

variable {s s' : Process} {e : Event} {history : List Occasion}

theorem state_streamFailed (hwatch : s.watch = .waiting) (now : Instant) (error : StreamError) :
    (s.act (liftM (s.reloader.streamFailed now error))).world.state =
      ⟨s.world.state.store, s.world.state.status.watchFailed
        ⟨"Watcher stopped: " ++ error.message, error.kind, now⟩⟩ := by
  rw [act, Audited.result_liftM_record, Reloader.fst_run_streamFailed,
    if_pos (task_reloader_of_waiting hwatch)]
  rfl

/-- **One event keeps the summary.** -/
theorem summarizes_step [Limits] (h : s.world.state.status.Summarizes history) (e : Event) :
    (s.step e).world.state.status.Summarizes ((s.occasion? e).toList ++ history) := by
  cases e with
  | pass inner =>
    rw [step, (agree_settle _).state]
    exact World.summarizes_step h inner
  | yield p =>
    rw [step]
    split
    · exact World.summarizes_step h (.call p)
    · exact h
  | start =>
    rw [step, s.agree_start.state]
    exact h
  | enter =>
    rw [step, s.agree_enter.state]
    exact h
  | stop =>
    rw [step, occasion?]
    rcases s.watch with _ | _ | _ | p
    · rw [s.agree_stop.state]
      exact h
    · rw [s.agree_stop.state]
      exact h
    · rw [s.agree_stop.state]
      exact h
    · rw [(agree_settle _).state]
      exact World.summarizes_step h (.cancel p)
  | streamEnded =>
    rw [step]
    split
    · rw [s.agree_streamEnded.state]
      exact h
    · exact h
  | streamFailed now error =>
    rw [step, occasion?]
    split
    · next hwatch =>
      rw [state_streamFailed hwatch]
      exact h.watchFailed now error
    · exact h

/-- A run keeps the summary. -/
theorem summarizes_after [Limits] (h : s.world.state.status.Summarizes history)
    (events : List Event) :
    (s.after events).world.state.status.Summarizes (s.history events ++ history) := by
  induction events generalizing s history with
  | nil => exact h
  | cons e rest ih =>
    rw [Process.history, List.append_assoc]
    exact ih (summarizes_step h e)

/-- The process keeps how the passes ended, and so does the history. -/
theorem past_step [Limits] (ho : Ordered s.world) (e : Event) :
    (s.step e).past = ((s.occasion? e).bind Occasion.outcome?).toList ++ s.past := by
  have hadvance : ∀ inner, (s.advance inner).past =
      ((s.world.occasion? inner).bind Occasion.outcome?).toList ++ s.past := by
    intro inner
    rw [World.outcome?_occasion? ho]
    rfl
  cases e with
  | pass inner =>
    rw [step, (agree_settle _).past]
    exact hadvance inner
  | yield p =>
    rw [step]
    split
    · exact hadvance (.call p)
    · rfl
  | start | enter => rfl
  | stop =>
    rw [step, occasion?]
    rcases s.watch with _ | _ | _ | p
    · rfl
    · rfl
    · rfl
    · rw [(agree_settle _).past]
      exact hadvance (.cancel p)
  | streamEnded =>
    rw [step]
    split <;> rfl
  | streamFailed now error =>
    rw [step, occasion?]
    split <;> rfl

/-- **The history tells how each pass ended.** -/
theorem past_after [Limits] (ho : Ordered s.world) (events : List Event) :
    (s.after events).past = (s.history events).filterMap Occasion.outcome? ++ s.past := by
  induction events generalizing s with
  | nil => rfl
  | cons e rest ih =>
    rw [after_cons, ih (ho.of_change (change_step ho e)), past_step ho e, Process.history,
      List.filterMap_append, List.append_assoc]
    cases s.occasion? e with
    | none => rfl
    | some o => cases h : o.outcome? <;> simp [h]

/-- Unless someone else publishes, versions and publications go together. -/
theorem version_step (h : Change s e s') (he : ∀ index now, e ≠ .pass (.publish index now)) :
    s'.world.state.store.version + s.past.count .published =
      s.world.state.store.version + s'.past.count .published := by
  cases h with
  | aside state _ _ past => rw [state, past]
  | publish _ event => exact absurd event (he _ _)
  | watchFailed _ state _ _ past => rw [state, past]
  | begins _ _ _ state _ _ _ past => rw [state, past, Pass.store_begin]
  | proceeds _ state _ _ _ past => rw [state, past]
  | @ends p outcome _ closes _ _ _ past =>
    rw [past]
    by_cases houtcome : outcome = .published
    · subst houtcome
      rw [closes.version, List.count_cons_self]
      omega
    · rw [closes.store houtcome, List.count_cons_of_ne houtcome]

theorem version_after [Limits] (ho : Ordered s.world) {events : List Event}
    (hothers : ∀ index now, .pass (.publish index now) ∉ events) :
    (s.after events).world.state.store.version + s.past.count .published =
      s.world.state.store.version + (s.after events).past.count .published := by
  induction events generalizing s with
  | nil => rfl
  | cons e rest ih =>
    have hchange := change_step ho e
    have hstep := version_step hchange fun index now he =>
      hothers index now (he ▸ List.mem_cons_self)
    have hrest := ih (ho.of_change hchange) fun index now hmem =>
      hothers index now (List.mem_cons_of_mem _ hmem)
    rw [after_cons]
    omega

/-- **The status sums up the history**, at every moment since the reloader was new, whatever the
file holds and whatever calls, cancellations, starts, stops, ends and failures of the watch come in
which order.  The history tells how each pass ended.  The phase is idle whenever no pass is under
way.  A time or a failure is missing exactly if nothing of that kind has happened; and if nobody
else publishes, the version counts the reloads. -/
theorem status_sums_up_history [Limits] (workingDirectory path : Text) (options : Options)
    (disk : FileSystem) (store : Store) (t : Trail) (events : List Event) :
    let first := Process.new (.new workingDirectory path options) disk store t
    let history := first.history events
    let last := first.after events
    let status := last.world.state.status
    status.Summarizes history ∧
    history.filterMap Occasion.outcome? = last.past ∧
    ((∀ p, ¬ (last.world.stage p).Active) → status.phase = .idle) ∧
    (status.lastCheckedAt = none ↔ ∀ time, .began time ∉ history) ∧
    (status.lastSuccessAt = none ↔ .published ∉ last.past) ∧
    (status.lastFailure = none ↔
      .failed ∉ last.past ∧ ∀ error time, .watchFailed error time ∉ history) ∧
    ((∀ index now, .pass (.publish index now) ∉ events) →
      last.world.state.store.version = store.version + status.reloadCount) := by
  intro first history last status
  have hfirst : Ordered first.world := Ordered.new rfl disk store t
  have hsummary : status.Summarizes history := by
    have hnew : first.world.state.status.Summarizes [] := Status.Summarizes.start
    have hafter := summarizes_after hnew events
    rwa [List.append_nil] at hafter
  have hpast : history.filterMap Occasion.outcome? = last.past := by
    rw [past_after hfirst events]
    exact (List.append_nil _).symm
  refine ⟨hsummary, hpast, fun hrest => ?_, hsummary.lastCheckedAt_eq_none_iff, ?_, ?_,
    fun hothers => ?_⟩
  · have hlast : Ordered last.world := hfirst.after events
    rw [hlast.phase]
    cases hlock : last.world.lock with
    | none => rfl
    | some p => exact absurd (hlast.active_of_lock p hlock) (hrest p)
  · rw [← hpast]
    exact hsummary.lastSuccessAt_eq_none_iff
  · rw [← hpast]
    exact hsummary.lastFailure_eq_none_iff
  · have hversion := version_after hfirst hothers
    rw [hsummary.reloadCount, hpast]
    exact hversion

/-- What a stream of events fails with whose directory is gone. -/
def sampleError : StreamError := ⟨"FileNotFoundError", "No such file or directory"⟩

/-- The only pass of a watch does not find the file, and the watch fails; then the file is written,
and someone calls for a pass. -/
def sampleEvents : List Event :=
  .start :: .enter :: wakeEvents 0 default ++ .streamFailed default sampleError ::
    .pass (.disk (Run.sampleDisk "x")) :: (solo 1 default).map .pass

attribute [local instance] Limits.usual

/-- The failure of the watch came last, and the reload has not taken its place. -/
theorem sample_history :
    let last := (Process.new (.new "/" "a" Options.default) ⟨⟨[]⟩, "/"⟩ sampleStore .start).after
      sampleEvents
    last.past = [.published, .failed] ∧ last.world.state.status.phase = .idle ∧
    last.world.state.status.lastFailure =
      some ⟨"Watcher stopped: No such file or directory", "FileNotFoundError", default⟩ ∧
    last.world.state.store.version = 1 + last.world.state.status.reloadCount := by
  obtain ⟨hsummary, hpast, hidle, _, _, _, hversion⟩ :=
    status_sums_up_history "/" "a" Options.default ⟨⟨[]⟩, "/"⟩ sampleStore .start sampleEvents
  have hordered : Ordered ((Process.new (.new "/" "a" Options.default) ⟨⟨[]⟩, "/"⟩ sampleStore
    .start).after sampleEvents).world := (Ordered.new rfl ..).after _
  have hhistory : (Process.new (.new "/" "a" Options.default) ⟨⟨[]⟩, "/"⟩ sampleStore
      .start).history sampleEvents =
      [.published default, .began default, .watchFailed sampleError default,
        .failed ⟨.fileNotFound, "/a"⟩ default, .began default] := by
    decide +kernel
  have hlock : ((Process.new (.new "/" "a" Options.default) ⟨⟨[]⟩, "/"⟩ sampleStore .start).after
      sampleEvents).world.lock = none := by
    decide +kernel
  have hothers := hversion (by simp [sampleEvents, wakeEvents, solo, opening])
  generalize (Process.new (.new "/" "a" Options.default) ⟨⟨[]⟩, "/"⟩ sampleStore .start).after
    sampleEvents = last at *
  rw [hhistory] at hsummary hpast
  refine ⟨hpast.symm, hidle fun p hp => ?_, hsummary.lastFailure, hothers⟩
  rw [hordered.lock_of_active p hp] at hlock
  cases hlock

end Process

end AdmissionControl.Reload
