import AdmissionControl.Proofs.Reload.Effect
import AdmissionControl.Proofs.Reload.Wake
import Mathlib.Data.List.Induction

/-!
# Starting and stopping the watch

The watch runs from a start on until it is stopped, or until its stream of events ends or fails.  No
content of the file and no end of a pass does anything to it, unless the pass is cancelled, which is
how a watch is stopped that waits for one.

* `Process.Attended`, `Process.attended_after` — the pass that a watch waits for has not ended.
* `Process.Ends`, `Process.running_step` — the events that end the watch, and what any event does.
* `Process.Started`, `Process.running_after_iff` — when the watch runs, from the events of a run.
* `Process.Quiet`, `Process.quiet_after` — nothing is left that could publish.
* `Process.StopEffect`, `Process.stop_effect` — what a stop does.
* `Process.watch_lifecycle` — all of it, at every moment since the reloader was new.
-/

namespace AdmissionControl.Reload

/-! ### Calls that have not ended -/

/-- Whether a call waits for the lock or for a worker. -/
def Stage.Pending (s : Stage) : Prop := s = waiting ∨ s.Active

theorem Stage.pending_of_rank {s : Stage} (hrank : 1 ≤ s.rank) (hopen : ∀ o, s ≠ ended o) :
    s.Pending := by
  cases s with
  | absent => simp [rank] at hrank
  | waiting => exact .inl rfl
  | checking => exact .inr (.inl rfl)
  | loading => exact .inr (.inr rfl)
  | ended o => exact absurd rfl (hopen o)

theorem Stage.Pending.rank_pos {s : Stage} (h : s.Pending) : 1 ≤ s.rank := by
  rcases h with rfl | rfl | rfl <;> simp [rank]

theorem Stage.Pending.not_absent {s : Stage} (h : s.Pending) : s ≠ absent := by
  rcases h with rfl | rfl | rfl <;> nofun

theorem Stage.Pending.not_ended {s : Stage} (h : s.Pending) (o : Outcome) : s ≠ ended o := by
  rcases h with rfl | rfl | rfl <;> nofun

namespace World

variable {w : World} {p : Call}

theorem stage_cancel (hp : (w.stage p).Pending) : (w.cancel p).stage p = .ended .cancelled := by
  rw [cancel]
  rcases hp with hstage | hstage | hstage <;> rw [hstage]
  · exact stage_moveTo_self ..
  · exact stage_leave_self ..
  · exact stage_leave_self ..

/-- A call is cancelled only by an event that says so. -/
theorem stage_eq_cancelled_iff [Limits] (hp : (w.stage p).Pending) (e : Event) :
    (w.step e).stage p = .ended .cancelled ↔ e = .cancel p := by
  constructor
  · intro hended
    rcases w.transition_step e with hsame | htransition
    · rw [hsame] at hended
      exact absurd hended (hp.not_ended _)
    · have hcall : e.call? = some p := by
        by_contra hother
        rw [(htransition.frame hother).1] at hended
        exact hp.not_ended _ hended
      generalize w.step e = next at hended htransition
      cases htransition with
      | disk | load | publish => cases hcall
      | withdraw | abandon =>
        cases hcall
        rfl
      | read | work => exact absurd hended (hp.not_ended _)
      | call | acquire | proceed =>
        cases hcall
        simp at hended
      | settle _ _ _ hturn =>
        cases hcall
        rw [stage_leave_self, Stage.ended.injEq] at hended
        exact absurd hended (Pass.of_turn_ended hturn).2.2
      | @conclude _ r now =>
        cases hcall
        rw [stage_leave_self, Stage.ended.injEq] at hended
        rcases Pass.conclusion_cases now w.state r with ⟨_, _, hpublished, _⟩ | ⟨_, hne, _⟩
        · rw [hpublished] at hended
          cases hended
        · exact absurd hended hne
  · rintro rfl
    exact stage_cancel hp

end World

/-! ### The watch and its pass -/

namespace Watch

theorem running_eq_false_iff {w : Watch} : w.running = false ↔ w = off := by
  cases w <;> simp [running, task, Task.running]

/-- A watch whose task is not to run is off. -/
theorem follow_eq_off {w : Watch} {task : Task} (h : task.running = false) :
    w.follow task = off := by
  cases task with
  | off => rfl
  | made | watching => cases h

theorem ne_passing_of_waiting {w : Watch} (h : w = waiting) (p : Call) : w ≠ passing p := by
  rw [h]
  simp

theorem of_follow_passing {w : Watch} {task : Task} {p : Call} (h : w.follow task = passing p) :
    w = passing p := by
  cases task with
  | off | made => cases h
  | watching =>
    rw [follow] at h
    split at h
    · exact h
    · cases h

end Watch

namespace Reloader

variable (r : Reloader) (t : Trail)

theorem running_stop : (r.stop.run t).1.running = false := by
  rw [fst_run_stop]
  rfl

theorem running_streamEnded (htask : r.task = .watching) :
    (r.streamEnded.run t).1.running = false := by
  rw [fst_run_streamEnded, if_pos htask]
  rfl

theorem running_streamFailed (htask : r.task = .watching) (now : Instant) (error : StreamError) :
    ((r.streamFailed now error).run t).1.running = false := by
  rw [fst_run_streamFailed, if_pos htask]
  rfl

end Reloader

namespace Process

variable {s : Process} {p : Call} {e : Event}

theorem running_reloader (s : Process) : s.reloader.running = s.watch.running := rfl

/-- The watch is off after an action that leaves a reloader that does not run. -/
theorem watch_act {action : StateM Trail Reloader}
    (h : (action.run s.world.trail).1.running = false) : (s.act (liftM action)).watch = .off := by
  show s.watch.follow ((((liftM action : Audited Fault Reloader).result
    s.world.trail).toOption).getD s.reloader).task = .off
  rw [Audited.result_liftM_record]
  exact Watch.follow_eq_off h

/-- Nothing that a reloader does makes its watch wait for a pass. -/
theorem passing_of_act {action : Audited Fault Reloader} (h : (s.act action).watch = .passing p) :
    s.watch = .passing p :=
  Watch.of_follow_passing h

/-- A start while the watch runs is refused and does nothing. -/
theorem start_of_running [Limits] (h : s.watch.running = true) :
    s.reloader.start.result s.world.trail = .error .alreadyRunning ∧ s.step .start = s := by
  have hresult := s.reloader.result_start s.world.trail
  rw [running_reloader, if_pos h] at hresult
  have hfollow : s.watch.follow s.reloader.task = s.watch := s.watch.follow_task
  refine ⟨hresult, ?_⟩
  rw [step, act, hresult, Reloader.after_start]
  simp only [Except.toOption, Option.getD_none, hfollow]
  rfl

/-- A start while the watch is off makes its task, and does nothing else. -/
theorem start_of_off [Limits] (h : s.watch = .off) :
    s.reloader.start.result s.world.trail = .ok { s.reloader with task := .made } ∧
      s.step .start = { s with watch := .made } := by
  have hresult := s.reloader.result_start s.world.trail
  rw [running_reloader, h] at hresult
  refine ⟨hresult, ?_⟩
  rw [step, act, hresult, Reloader.after_start]
  rfl

/-- A task that has begun to watch, or that is over, does not begin anew. -/
theorem enter_of_ne_made [Limits] (h : s.watch ≠ .made) : s.step .enter = s := by
  obtain ⟨world, options, watch, past⟩ := s
  cases watch with
  | made => exact absurd rfl h
  | off | waiting | passing => rfl

theorem enter_of_made [Limits] (h : s.watch = .made) : (s.step .enter).watch = .waiting := by
  obtain ⟨world, options, watch, past⟩ := s
  subst h
  rfl

/-- A stop of a reloader that does not run does nothing. -/
theorem stop_of_off [Limits] (h : s.watch = .off) : s.step .stop = s := by
  obtain ⟨world, options, watch, past⟩ := s
  subst h
  rfl

/-- **A task that is stopped before it has run leaves no trace**, and no record of the watch. -/
theorem stop_start_of_off [Limits] (h : s.watch = .off) : (s.step .start).step .stop = s := by
  rw [(start_of_off h).2]
  obtain ⟨world, options, watch, past⟩ := s
  subst h
  rfl

/-- A watch ends with its pass if that was cancelled, and goes on otherwise. -/
theorem running_settle (s : Process) : s.settle.watch.running = true ↔
    s.watch.running = true ∧ ∀ p, s.watch = .passing p → s.world.stage p ≠ .ended .cancelled := by
  cases hwatch : s.watch with
  | off =>
    rw [settle_of_open (by rw [hwatch]; nofun), hwatch]
    exact iff_of_false Bool.false_ne_true fun h => Bool.false_ne_true h.1
  | made | waiting =>
    rw [settle_of_open (by rw [hwatch]; nofun), hwatch]
    exact iff_of_true rfl ⟨rfl, nofun⟩
  | passing p =>
    have honly : (∀ q, Watch.passing p = .passing q → s.world.stage q ≠ .ended .cancelled) ↔
        s.world.stage p ≠ .ended .cancelled :=
      ⟨fun h => h p rfl, fun h q hq => Watch.passing.inj hq ▸ h⟩
    rw [honly, settle, hwatch]
    dsimp only
    split
    · next hstage =>
      rw [watch_act (s.reloader.running_stop _)]
      exact iff_of_false Bool.false_ne_true fun h => h.2 hstage
    · next hne hstage =>
      refine iff_of_true rfl ⟨rfl, fun hcancelled => ?_⟩
      exact hne (Stage.ended.inj (hstage.symm.trans hcancelled))
    · next hne =>
      refine iff_of_true ?_ ⟨rfl, hne _⟩
      rw [hwatch]
      rfl

/-- A watch that still waits for its pass has not seen it end. -/
theorem of_settle_passing (h : s.settle.watch = .passing p) :
    s.watch = .passing p ∧ ∀ o, s.world.stage p ≠ .ended o := by
  cases hwatch : s.watch with
  | off | made | waiting =>
    rw [settle_of_open (by rw [hwatch]; nofun), hwatch] at h
    cases h
  | passing q =>
    rw [settle, hwatch] at h
    dsimp only at h
    split at h
    · rw [watch_act (s.reloader.running_stop _)] at h
      cases h
    · cases h
    · next hopen =>
      rw [hwatch, Watch.passing.injEq] at h
      rw [← h]
      exact ⟨rfl, hopen⟩

/-! ### The pass that a watch waits for -/

/-- The pass that the watch waits for has been called for, and has not ended. -/
def Attended (s : Process) : Prop := ∀ p, s.watch = .passing p → (s.world.stage p).Pending

namespace Attended

/-- An event of the passes, after which the watch looks for the end of its pass. -/
theorem settle [Limits] (h : s.Attended) (inner : Reload.Event) :
    (s.advance inner).settle.Attended := by
  intro p hp
  obtain ⟨hwatch, hopen⟩ := of_settle_passing hp
  rw [(agree_settle _).stage]
  refine Stage.pending_of_rank ?_ hopen
  exact (h p hwatch).rank_pos.trans (s.world.rank_le_step inner p)

theorem act (h : s.Attended) (action : Audited Fault Reloader) : (s.act action).Attended :=
  fun p hp => h p (passing_of_act hp)

/-- **One event keeps it so.** -/
theorem step [Limits] (h : s.Attended) (e : Event) : (s.step e).Attended := by
  cases e with
  | pass inner => exact h.settle inner
  | yield p =>
    rw [Process.step]
    split
    · next hcalled =>
      intro q hq
      rw [← Watch.passing.inj hq]
      refine .inl ?_
      show (World.call s.world p).stage p = .waiting
      rw [World.call, if_pos hcalled.2]
      exact World.stage_moveTo_self ..
    · exact h
  | start | enter => exact h.act _
  | stop =>
    rw [Process.step]
    split
    · exact h.settle _
    · exact h.act _
  | streamEnded | streamFailed =>
    rw [Process.step]
    split
    · exact h.act _
    · exact h

theorem new (r : Reloader) (disk : FileSystem) (store : Store) (t : Trail) :
    (Process.new r disk store t).Attended := by
  intro p hp
  have hnot := Watch.of_follow_passing (w := .off) hp
  cases hnot

theorem after [Limits] (h : s.Attended) (events : List Event) : (s.after events).Attended := by
  induction events generalizing s with
  | nil => exact h
  | cons e rest ih => exact ih (h.step e)

end Attended

/-! ### When the watch runs -/

/-- The events that end the watch: it is stopped, its stream of events ends or fails while it waits
for them, or its pass is cancelled while it waits for that. -/
def Ends (s : Process) : Event → Prop
  | .stop => True
  | .streamEnded | .streamFailed .. => s.watch = .waiting
  | .pass (.cancel p) => s.watch = .passing p
  | _ => False

theorem running_advance [Limits] (h : s.Attended) (inner : Reload.Event) :
    (s.advance inner).settle.watch.running = true ↔
      s.watch.running = true ∧ ∀ p, s.watch = .passing p → inner ≠ .cancel p := by
  rw [running_settle]
  refine and_congr_right fun _ => forall_congr' fun p => forall_congr' fun hp => not_congr ?_
  exact World.stage_eq_cancelled_iff (h p hp) inner

theorem not_ends_pass_iff (inner : Reload.Event) :
    ¬ s.Ends (.pass inner) ↔ ∀ p, s.watch = .passing p → inner ≠ .cancel p := by
  cases inner with
  | cancel q =>
    constructor
    · rintro hends p hp ⟨⟩
      exact hends hp
    · exact fun h hends => h q hends rfl
  | _ => simp [Ends]

theorem watch_of_stop [Limits] (h : s.Attended) : (s.step .stop).watch = .off := by
  rw [step]
  split
  · next p hp =>
    rw [← Watch.running_eq_false_iff, ← Bool.not_eq_true, running_advance h]
    exact fun hrunning => hrunning.2 p hp rfl
  · exact watch_act (s.reloader.running_stop _)

/-- **What any event does to the watch**: it runs if it has run or is started, unless the event ends
it. -/
theorem running_step [Limits] (h : s.Attended) (e : Event) :
    (s.step e).watch.running = true ↔ (s.watch.running = true ∨ e = .start) ∧ ¬ s.Ends e := by
  cases e with
  | pass inner =>
    rw [not_ends_pass_iff, step, running_advance h]
    simp
  | yield p =>
    rw [step]
    split
    · next hcalled => simp [hcalled.1, Watch.running, Watch.task, Task.running, Ends]
    · simp [Ends]
  | start =>
    refine iff_of_true ?_ ⟨.inr rfl, id⟩
    cases hrunning : s.watch.running with
    | true => rw [(start_of_running hrunning).2, hrunning]
    | false =>
      rw [(start_of_off (Watch.running_eq_false_iff.mp hrunning)).2]
      rfl
  | enter =>
    by_cases hmade : s.watch = .made
    · rw [enter_of_made hmade, hmade]
      exact iff_of_true rfl ⟨.inl rfl, id⟩
    · rw [enter_of_ne_made hmade]
      simp [Ends]
  | stop =>
    rw [watch_of_stop h]
    exact iff_of_false Bool.false_ne_true fun hends => hends.2 trivial
  | streamEnded =>
    rw [step]
    split
    · next hwaiting =>
      rw [watch_act (s.reloader.running_streamEnded _ (task_reloader_of_waiting hwaiting))]
      exact iff_of_false Bool.false_ne_true fun hends => hends.2 hwaiting
    · next hnot => simp [Ends, hnot]
  | streamFailed now error =>
    rw [step]
    split
    · next hwaiting =>
      have htask := task_reloader_of_waiting hwaiting
      rw [watch_act (s.reloader.running_streamFailed _ htask now error)]
      exact iff_of_false Bool.false_ne_true fun hends => hends.2 hwaiting
    · next hnot => simp [Ends, hnot]

/-- Some start was not refused, and no event since has ended the watch. -/
def Started [Limits] (first : Process) (events : List Event) : Prop :=
  ∃ earlier later, events = earlier ++ .start :: later ∧
    (∃ r, (first.after earlier).reloader.start.result (first.after earlier).world.trail = .ok r) ∧
    ∀ before e rest, later = before ++ e :: rest →
      ¬ (first.after (earlier ++ .start :: before)).Ends e

namespace Started

variable {first : Process} {events : List Event}

/-- A start that is the last event counts if it was not refused. -/
theorem of_start [Limits] (h : (first.after events).watch = .off) :
    first.Started (events ++ [.start]) :=
  ⟨events, [], rfl, ⟨_, (start_of_off h).1⟩, fun before e rest hnil => by simp at hnil⟩

/-- An event that does not end the watch leaves it started. -/
theorem append [Limits] (h : first.Started events) (hkept : ¬ (first.after events).Ends e) :
    first.Started (events ++ [e]) := by
  obtain ⟨earlier, later, rfl, hstart, hlater⟩ := h
  refine ⟨earlier, later ++ [e], by simp, hstart, fun before e' rest hsplit => ?_⟩
  rcases List.eq_nil_or_concat rest with rfl | ⟨rest', last, rfl⟩
  · obtain ⟨rfl, hlast⟩ := List.append_inj' hsplit rfl
    rw [List.cons.injEq] at hlast
    rw [← hlast.1]
    exact hkept
  · rw [List.concat_eq_append, ← List.cons_append, ← List.append_assoc] at hsplit
    exact hlater before e' rest' (List.append_inj' hsplit rfl).1

/-- Before an event that was not its start the watch was started too, and the event has not ended
it. -/
theorem of_append [Limits] (h : first.Started (events ++ [e])) :
    e = .start ∨ first.Started events ∧ ¬ (first.after events).Ends e := by
  obtain ⟨earlier, later, hevents, hstart, hlater⟩ := h
  rcases List.eq_nil_or_concat later with rfl | ⟨later', last, rfl⟩
  · obtain ⟨_, hlast⟩ := List.append_inj' hevents rfl
    exact .inl (List.cons.inj hlast).1
  · rw [List.concat_eq_append, ← List.cons_append, ← List.append_assoc] at hevents
    obtain ⟨rfl, hlast⟩ := List.append_inj' hevents rfl
    rw [List.cons.injEq] at hlast
    rw [hlast.1]
    refine .inr ⟨⟨earlier, later', rfl, hstart, fun before e' rest hsplit => ?_⟩, ?_⟩
    · refine hlater before e' (rest ++ [last]) ?_
      rw [List.concat_eq_append, hsplit]
      simp
    · exact hlater later' last [] (List.concat_eq_append ..)

end Started

/-- **When the watch runs**, from the events since the reloader was new. -/
theorem running_after_iff [Limits] {first : Process} (h : first.Attended)
    (hoff : first.watch = .off) (events : List Event) :
    (first.after events).watch.running = true ↔ first.Started events := by
  induction events using List.reverseRecOn with
  | nil =>
    rw [after_nil, hoff]
    refine iff_of_false Bool.false_ne_true ?_
    rintro ⟨earlier, later, hnil, _⟩
    simp at hnil
  | append_singleton events e ih =>
    rw [after_append, after_cons, after_nil, running_step (h.after events), ih]
    constructor
    · rintro ⟨hstarted, hkept⟩
      by_cases hbefore : first.Started events
      · exact hbefore.append hkept
      · obtain rfl := hstarted.resolve_left hbefore
        rw [← ih, Bool.not_eq_true] at hbefore
        exact Started.of_start (Watch.running_eq_false_iff.mp hbefore)
    · intro hstarted
      rcases hstarted.of_append with rfl | ⟨hbefore, hkept⟩
      · exact ⟨.inr rfl, id⟩
      · exact ⟨.inl hbefore, hkept⟩

/-! ### Calls that others make -/

/-- Nobody but the watch has called for a pass that has not ended. -/
def Unaccompanied (s : Process) : Prop := ∀ p, (s.world.stage p).Pending → s.watch = .passing p

/-- A call that is pending was so before, unless it has just been made. -/
theorem pending_of_step [Limits] {w : World} {inner : Reload.Event}
    (h : ((w.step inner).stage p).Pending) (hcall : inner ≠ .call p) : (w.stage p).Pending := by
  rcases w.transition_step inner with hsame | htransition
  · rwa [hsame] at h
  · by_cases hother : inner.call? = some p
    · generalize w.step inner = next at h htransition
      cases htransition with
      | disk | load | publish => cases hother
      | call =>
        cases hother
        exact absurd rfl hcall
      | read | work => exact h
      | acquire _ hstage =>
        cases hother
        exact .inl hstage
      | settle _ hstage | proceed _ hstage =>
        cases hother
        exact .inr (.inl hstage)
      | conclude _ _ hstage =>
        cases hother
        exact .inr (.inr hstage)
      | withdraw hstage =>
        cases hother
        exact .inl hstage
      | abandon hactive =>
        cases hother
        exact .inr hactive
    · rwa [(htransition.frame hother).1] at h

namespace Unaccompanied

theorem advance [Limits] (h : s.Unaccompanied) {inner : Reload.Event}
    (hcall : ∀ p, inner ≠ .call p) : (s.advance inner).settle.Unaccompanied := by
  intro p hp
  rw [(agree_settle _).stage] at hp
  have hwatch := h p (pending_of_step hp (hcall p))
  rw [settle_of_open]
  · exact hwatch
  · intro q hq o
    rw [show (s.advance inner).watch = s.watch from rfl, hwatch, Watch.passing.injEq] at hq
    rw [← hq]
    exact hp.not_ended o

/-- Only a call of someone else makes a difference. -/
theorem step [Limits] (h : s.Unaccompanied) (he : ∀ p, e ≠ .pass (.call p)) :
    (s.step e).Unaccompanied := by
  have hnone : (∀ p, s.watch ≠ .passing p) → ∀ p, ¬ (s.world.stage p).Pending :=
    fun hwatch p hp => hwatch p (h p hp)
  cases e with
  | pass inner => exact h.advance fun p hp => he p (congrArg _ hp)
  | yield p =>
    rw [Process.step]
    split
    · next hcalled =>
      intro q hq
      by_cases hqp : q = p
      · rw [hqp]
      · have hpending : ((s.world.step (.call p)).stage q).Pending := hq
        have hbefore := pending_of_step hpending (by simpa using Ne.symm hqp)
        exact absurd hbefore (hnone (Watch.ne_passing_of_waiting hcalled.1) q)
    · exact h
  | start =>
    intro p hp
    have hwatch := h p hp
    rw [(start_of_running (by rw [hwatch]; rfl)).2, hwatch]
  | enter =>
    intro p hp
    have hwatch := h p hp
    rw [enter_of_ne_made (by simp [hwatch]), hwatch]
  | stop =>
    rw [Process.step]
    split
    · exact h.advance (by simp)
    · next hwatch => exact fun p hp => absurd hp (hnone hwatch p)
  | streamEnded | streamFailed =>
    rw [Process.step]
    split
    · next hwaiting =>
      exact fun p hp => absurd hp (hnone (Watch.ne_passing_of_waiting hwaiting) p)
    · exact h

theorem new (r : Reloader) (disk : FileSystem) (store : Store) (t : Trail) :
    (Process.new r disk store t).Unaccompanied :=
  fun _ hp => absurd rfl (hp.not_absent)

theorem after [Limits] (h : s.Unaccompanied) {events : List Event}
    (hcalls : ∀ p, .pass (.call p) ∉ events) : (s.after events).Unaccompanied := by
  induction events generalizing s with
  | nil => exact h
  | cons e rest ih =>
    refine ih (h.step fun p he => hcalls p (he ▸ List.mem_cons_self)) fun p hmem => ?_
    exact hcalls p (List.mem_cons_of_mem _ hmem)

end Unaccompanied

/-! ### After a stop -/

/-- The watch is off, and no call waits or is under way. -/
structure Quiet (s : Process) : Prop where
  off : s.watch = .off
  calls : ∀ p, ¬ (s.world.stage p).Pending

/-- A stop cancels the pass of the watch, and there is no other. -/
theorem quiet_stop [Limits] (h : s.Attended) (halone : s.Unaccompanied) : (s.step .stop).Quiet := by
  refine ⟨watch_of_stop h, fun p hp => ?_⟩
  have hwatch := halone.step (e := .stop) nofun p hp
  rw [watch_of_stop h] at hwatch
  cases hwatch

/-- What can still happen leaves the status alone, and the store unless someone else publishes. -/
structure Keeps (e : Event) (before after : State) : Prop where
  status : after.status = before.status
  store : (∀ index now, e ≠ .pass (.publish index now)) → after.store = before.store

theorem quiet_advance [Limits] (h : s.Quiet) {inner : Reload.Event} (hcall : ∀ p, inner ≠ .call p) :
    (s.advance inner).settle.Quiet ∧
      Keeps (.pass inner) s.world.state (s.advance inner).settle.world.state := by
  have hsettle : (s.advance inner).settle = s.advance inner := by
    refine settle_of_open fun p hp => ?_
    rw [show (s.advance inner).watch = s.watch from rfl, h.off] at hp
    cases hp
  rw [hsettle]
  refine ⟨⟨h.off, fun p hp => h.calls p (pending_of_step hp (hcall p))⟩, ?_⟩
  show Keeps (.pass inner) s.world.state (s.world.step inner).state
  rcases s.world.transition_step inner with hsame | htransition
  · rw [hsame]
    exact ⟨rfl, fun _ => rfl⟩
  · generalize s.world.step inner = next at htransition
    cases htransition with
    | disk | load | read | work => exact ⟨rfl, fun _ => rfl⟩
    | publish => exact ⟨rfl, fun hne => absurd rfl (hne _ _)⟩
    | call => exact absurd rfl (hcall _)
    | acquire _ hstage => exact absurd (.inl hstage) (h.calls _)
    | settle _ hstage | proceed _ hstage => exact absurd (.inr (.inl hstage)) (h.calls _)
    | conclude _ _ hstage => exact absurd (.inr (.inr hstage)) (h.calls _)
    | withdraw hstage => exact absurd (.inl hstage) (h.calls _)
    | abandon hactive => exact absurd (.inr hactive) (h.calls _)

/-- **Nothing happens any more** until someone starts the watch or calls for a pass. -/
theorem quiet_step [Limits] (h : s.Quiet) (hstart : e ≠ .start) (hcall : ∀ p, e ≠ .pass (.call p)) :
    (s.step e).Quiet ∧ Keeps e s.world.state (s.step e).world.state := by
  have hsame : (∀ s' : Process, s' = s → s'.Quiet ∧ Keeps e s.world.state s'.world.state) := by
    rintro _ rfl
    exact ⟨h, rfl, fun _ => rfl⟩
  cases e with
  | pass inner => exact quiet_advance h fun p hp => hcall p (congrArg _ hp)
  | yield => exact hsame _ (if_neg (by simp [h.off]))
  | start => exact absurd rfl hstart
  | enter => exact hsame _ (enter_of_ne_made (by simp [h.off]))
  | stop => exact hsame _ (stop_of_off h.off)
  | streamEnded => exact hsame _ (if_neg (by simp [h.off]))
  | streamFailed => exact hsame _ (if_neg (by simp [h.off]))

theorem quiet_after [Limits] (h : s.Quiet) {later : List Event}
    (hlater : ∀ e ∈ later, e ≠ .start ∧ ∀ p, e ≠ .pass (.call p)) :
    (s.after later).Quiet ∧ (s.after later).world.state.status = s.world.state.status ∧
      ((∀ index now, .pass (.publish index now) ∉ later) →
        (s.after later).world.state.store = s.world.state.store) := by
  induction later generalizing s with
  | nil => exact ⟨h, rfl, fun _ => rfl⟩
  | cons e rest ih =>
    obtain ⟨he, hrest⟩ := List.forall_mem_cons.mp hlater
    obtain ⟨hquiet, hkeeps⟩ := quiet_step h he.1 he.2
    obtain ⟨hlast, hstatus, hstore⟩ := ih hquiet hrest
    refine ⟨hlast, hstatus.trans hkeeps.status, fun hothers => ?_⟩
    refine (hstore fun index now hmem => hothers index now (List.mem_cons_of_mem _ hmem)).trans ?_
    exact hkeeps.store fun index now heq => hothers index now (heq ▸ List.mem_cons_self)

/-- A stop touches nothing but the phase. -/
theorem state_stop [Limits] (s : Process) : ∃ phase, (s.step .stop).world.state =
    ⟨s.world.state.store, { s.world.state.status with phase := phase }⟩ := by
  rw [step]
  split
  · next p _ =>
    rw [(agree_settle _).state]
    show ∃ phase, (s.world.cancel p).state = _
    rw [World.cancel]
    split
    · exact ⟨_, rfl⟩
    · exact ⟨.idle, rfl⟩
    · exact ⟨.idle, rfl⟩
    · exact ⟨_, rfl⟩
  · rw [s.agree_stop.state]
    exact ⟨_, rfl⟩

/-- What a stop does.  That it leaves nothing behind is said of a moment at which nobody else's pass
is under way. -/
structure StopEffect [Limits] (s stopped : Process) : Prop where
  off : stopped.watch.running = false
  store : stopped.world.state.store = s.world.state.store
  reloadCount : stopped.world.state.status.reloadCount = s.world.state.status.reloadCount
  consecutiveFailures :
    stopped.world.state.status.consecutiveFailures = s.world.state.status.consecutiveFailures
  lastFailure : stopped.world.state.status.lastFailure = s.world.state.status.lastFailure
  again : stopped.step .stop = stopped
  idle : s.Unaccompanied → stopped.world.state.status.phase = .idle
  /-- No event, rescan or worker does anything to the status or the store until the next start or
  call; only if someone else publishes is the store another one. -/
  quiet : s.Unaccompanied → ∀ later : List Event,
    (∀ e ∈ later, e ≠ .start ∧ ∀ p, e ≠ .pass (.call p)) →
      (stopped.after later).world.state.status = stopped.world.state.status ∧
      ((∀ index now, .pass (.publish index now) ∉ later) →
        (stopped.after later).world.state.store = s.world.state.store) ∧
      ∀ e : Event, e ≠ .start → (∀ p, e ≠ .pass (.call p)) →
        (∀ index now, e ≠ .pass (.publish index now)) →
        ((stopped.after later).step e).world.state.store = (stopped.after later).world.state.store

theorem stop_effect [Limits] (ho : Ordered s.world) (h : s.Attended) :
    StopEffect s (s.step .stop) := by
  obtain ⟨phase, hstate⟩ := s.state_stop
  have hoff := watch_of_stop h
  refine ⟨by rw [hoff]; rfl, by rw [hstate], by rw [hstate], by rw [hstate], by rw [hstate],
    stop_of_off hoff, fun halone => ?_, fun halone later hlater => ?_⟩
  · have hordered := ho.of_change (change_step ho .stop)
    rw [hordered.phase]
    cases hlock : (s.step .stop).world.lock with
    | none => rfl
    | some p => exact absurd (.inr (hordered.active_of_lock p hlock)) ((quiet_stop h halone).calls p)
  · obtain ⟨hquiet, hstatus, hstore⟩ := quiet_after (quiet_stop h halone) hlater
    refine ⟨hstatus, fun hothers => (hstore hothers).trans ?_, fun e hstart hcall hpublish => ?_⟩
    · rw [hstate]
    · exact (quiet_step hquiet hstart hcall).2.store hpublish

/-- **The life of a watch**, at every moment since the reloader was new, whatever the file has held.
It runs exactly from a start that was not refused to the next event that ends it, and no event of a
pass does that but its cancellation.  A start while it runs is refused as a fault and changes
nothing; a stop while it does not run changes nothing either.  A stop touches neither the store nor
what is counted or kept, and leaves nothing behind.  After every end another start works. -/
theorem watch_lifecycle [Limits] (workingDirectory path : Text) (options : Options)
    (disk : FileSystem) (store : Store) (t : Trail) (events : List Event) :
    let first := Process.new (.new workingDirectory path options) disk store t
    let now := first.after events
    (now.watch.running = true ↔ first.Started events) ∧
    (now.watch.running = true → ∀ inner : Reload.Event, (∀ p, inner ≠ .cancel p) →
      (now.step (.pass inner)).watch.running = true) ∧
    (now.watch.running = true →
      (∃ f, now.reloader.start.result now.world.trail = .error f ∧ f.kind = "RuntimeError") ∧
      now.step .start = now) ∧
    (now.watch.running = false → now.step .stop = now) ∧
    StopEffect now (now.step .stop) ∧
    ((∀ p, .pass (.call p) ∉ events) → now.Unaccompanied) ∧
    ∀ e, now.Ends e → let ended := now.step e
      ended.watch.running = false ∧
      (∃ r, ended.reloader.start.result ended.world.trail = .ok r) ∧
      (ended.step .start).watch.running = true := by
  intro first now
  have hfirst : first.Attended := Attended.new _ disk store t
  have halone : first.Unaccompanied := Unaccompanied.new _ disk store t
  have hattended : now.Attended := hfirst.after events
  have hordered : Ordered now.world := (Ordered.new rfl disk store t).after events
  refine ⟨running_after_iff hfirst rfl events, fun hrunning inner hcancel => ?_,
    fun hrunning => ?_, fun hoff => ?_, stop_effect hordered hattended,
    fun hcalls => halone.after hcalls, fun e hends => ?_⟩
  · rw [running_step hattended, not_ends_pass_iff]
    exact ⟨.inl hrunning, fun p _ => hcancel p⟩
  · obtain ⟨hresult, hsame⟩ := start_of_running hrunning
    exact ⟨⟨_, hresult, rfl⟩, hsame⟩
  · exact stop_of_off (Watch.running_eq_false_iff.mp hoff)
  · have hoff : (now.step e).watch.running = false := by
      rw [← Bool.not_eq_true, running_step hattended]
      exact fun hrunning => hrunning.2 hends
    obtain ⟨hresult, hstarted⟩ := start_of_off (Watch.running_eq_false_iff.mp hoff)
    refine ⟨hoff, ⟨_, hresult⟩, ?_⟩
    rw [hstarted]
    rfl

/-- A watch whose pass has come to its second read. -/
def sampleWatch : List Event :=
  [.start, .enter, .yield 0, .pass (.acquire 0 default), .pass (.read 0), .pass (.work 0 default),
    .pass (.resume 0 default)]

/-- Its worker goes on after the stop, and a change comes too late. -/
def sampleLate : List Event :=
  [.pass (.read 0), .pass (.work 0 default), .pass (.resume 0 default), .yield 1, .streamEnded]

attribute [local instance] Limits.usual

/-- A stop in the middle of a load: what the worker brings is not published any more. -/
theorem sample_lifecycle :
    let now := (Process.new (.new "/" "a" Options.default) (Run.sampleDisk "x") sampleStore
      .start).after sampleWatch
    now.world.state.status.phase = .loading ∧
    (now.step .start = now) ∧
    (now.step .stop).world.state.status.phase = .idle ∧
    ((now.step .stop).after sampleLate).world.state.store = sampleStore ∧
    ((now.step .stop).after sampleLate).world.state.status = (now.step .stop).world.state.status ∧
    ((now.step .stop).step .start).watch.running = true := by
  obtain ⟨_, _, hrefused, _, hstop, halone, hagain⟩ :=
    watch_lifecycle "/" "a" Options.default (Run.sampleDisk "x") sampleStore .start sampleWatch
  have hphase : ((Process.new (.new "/" "a" Options.default) (Run.sampleDisk "x") sampleStore
      .start).after sampleWatch).world.state.status.phase = .loading := by
    decide +kernel
  have hrunning : ((Process.new (.new "/" "a" Options.default) (Run.sampleDisk "x") sampleStore
      .start).after sampleWatch).watch.running = true := by
    decide +kernel
  have hstore : ((Process.new (.new "/" "a" Options.default) (Run.sampleDisk "x") sampleStore
      .start).after sampleWatch).world.state.store = sampleStore := by
    decide +kernel
  have hunaccompanied := halone (by simp [sampleWatch])
  obtain ⟨hstatus, hkept, _⟩ := hstop.quiet hunaccompanied sampleLate (by simp [sampleLate])
  refine ⟨hphase, (hrefused hrunning).2, hstop.idle hunaccompanied, ?_, hstatus,
    (hagain .stop trivial).2.2⟩
  exact (hkept (by simp [sampleLate])).trans hstore

end Process

end AdmissionControl.Reload
