import AdmissionControl.Proofs.Reload.Process

/-!
# One wake of the watch

When nothing else happens in the meantime, the watch that calls for a pass, follows it through its
events and goes on waiting does what `Reloader.wake` does in one go.  One that is stopped during its
pass does what `Reloader.stopDuring` does.

* `Process.after_open`, `Process.after_apart` — the watch lets events pass until its pass has
  ended, and while it waits for none.
* `Process.after_ended` — a pass of the watch from its first event to its last.
* `Process.wake_of_ended`, `Process.wake_of_loading`, `Process.wake_eq` — a wake.
* `Process.step_stop_of_waiting`, `Process.step_stop_of_passing`, `Process.stopDuring_eq` — a stop.
-/

namespace AdmissionControl.Reload

/-- The events that are left of a worker that is done do nothing. -/
theorem World.after_done [Limits] {w : World} {p : Call} {r : Result} (now : Instant)
    (hworker : w.worker p = some (.done r)) : w.after [.read p, .work p now] = w := by
  simp only [after_cons, after_nil, step, read, work, hworker]

/-! What becomes of a pass when its first worker is done. -/

theorem World.step_opened_of_ended [Limits] {w : World} {q : Call} {now : Instant} {state : State}
    {outcome : Outcome} {t : Trail}
    (hchecked : (Pass.checked w.path now (Pass.begin now w.state)
      (Allowlist.fileChecksum w.disk w.path)).run w.trail = (.ended state outcome, t)) :
    (w.opened q now).step (.resume q now) = (w.opened q now).leave q state outcome t := by
  rw [step_resume_checking _ now (Function.update_self ..) (Function.update_self ..)]
  simp only [path_opened, state_opened, trail_opened, hchecked]

theorem World.step_opened_of_loading [Limits] {w : World} {q : Call} {now : Instant} {state : State}
    {t : Trail}
    (hchecked : (Pass.checked w.path now (Pass.begin now w.state)
      (Allowlist.fileChecksum w.disk w.path)).run w.trail = (.loading state, t)) :
    (w.opened q now).step (.resume q now) = (w.opened q now).await q .loading .load state t := by
  rw [step_resume_checking _ now (Function.update_self ..) (Function.update_self ..)]
  simp only [path_opened, state_opened, trail_opened, hchecked]

namespace Process

variable {s : Process} {q : Call}

/-- The watch does nothing before its pass has ended. -/
theorem settle_of_open (h : ∀ p, s.watch = .passing p → ∀ o, s.world.stage p ≠ .ended o) :
    s.settle = s := by
  rw [settle]
  split
  · rename_i p hp
    split
    · rename_i hstage
      exact absurd hstage (h p hp _)
    · rename_i hstage
      exact absurd hstage (h p hp _)
    · rfl
  · rfl

/-- The watch waits again when its pass has ended and was not cancelled. -/
theorem settle_of_ended {outcome : Outcome} (hwatch : s.watch = .passing q)
    (hstage : s.world.stage q = .ended outcome) (hne : outcome ≠ .cancelled) :
    s.settle =
      { s with
        world := { s.world with
          trail := ((Reloader.recordEscape s.world.path outcome).run s.world.trail).2 }
        watch := .waiting } := by
  simp only [settle, hwatch, hstage]

/-- Events up to one at which the pass of the watch has not ended yet. -/
theorem after_open [Limits] (hwatch : s.watch = .passing q) {events : List Reload.Event}
    (hopen : ∀ o, (s.world.after events).stage q ≠ .ended o) :
    (s.after (events.map .pass)).world = s.world.after events ∧
      (s.after (events.map .pass)).watch = .passing q ∧
      (s.after (events.map .pass)).options = s.options := by
  induction events generalizing s with
  | nil => exact ⟨rfl, hwatch, rfl⟩
  | cons e rest ih =>
    have hnow : ∀ o, (s.advance e).world.stage q ≠ .ended o := by
      intro o ho
      have hrank := (s.advance e).world.rank_le_after rest q
      rw [ho] at hrank
      cases hlast : ((s.advance e).world.after rest).stage q with
      | ended o' => exact hopen o' hlast
      | _ => simp [hlast, Stage.rank] at hrank
    have hstep : s.step (.pass e) = s.advance e := settle_of_open fun p hp o => by
      rw [show (s.advance e).watch = .passing q from hwatch, Watch.passing.injEq] at hp
      rw [← hp]
      exact hnow o
    rw [List.map_cons, after_cons, hstep]
    exact ih hwatch hopen

/-- Events while the watch waits for no pass. -/
theorem after_apart [Limits] (hwatch : ∀ p, s.watch ≠ .passing p) (events : List Reload.Event) :
    (s.after (events.map .pass)).world = s.world.after events ∧
      (s.after (events.map .pass)).watch = s.watch ∧
      (s.after (events.map .pass)).options = s.options := by
  induction events generalizing s with
  | nil => exact ⟨rfl, rfl, rfl⟩
  | cons e rest ih =>
    have hstep : s.step (.pass e) = s.advance e := settle_of_open fun p hp => absurd hp (hwatch p)
    rw [List.map_cons, after_cons, hstep]
    exact ih (s := s.advance e) hwatch

/-- A pass of the watch: its events up to the last one, the last one, and events that can no longer
do anything. -/
theorem after_ended [Limits] (hwatch : s.watch = .passing q) {first rest : List Reload.Event}
    {last : Reload.Event} {outcome : Outcome} {w : World}
    (hopen : ∀ o, (s.world.after first).stage q ≠ .ended o)
    (hlast : (s.world.after first).step last = w) (hended : w.stage q = .ended outcome)
    (hne : outcome ≠ .cancelled)
    (hrest : ∀ trail, World.after { w with trail := trail } rest = { w with trail := trail }) :
    let s' := s.after ((first ++ last :: rest).map .pass)
    s'.world = { w with trail := ((Reloader.recordEscape w.path outcome).run w.trail).2 } ∧
      s'.watch = .waiting ∧ s'.options = s.options := by
  obtain ⟨hworld, hpassing, hoptions⟩ := after_open hwatch hopen
  rw [List.map_append, after_append, List.map_cons, after_cons]
  generalize s.after (first.map .pass) = opened at hworld hpassing hoptions
  have hadvance : (opened.advance last).world = w := by
    rw [advance, hworld, hlast]
  have hstep : opened.step (.pass last) = _ :=
    settle_of_ended (s := opened.advance last) hpassing (by rw [hadvance, hended]) hne
  rw [hstep, hadvance]
  obtain ⟨hafter, hwaiting, hsame⟩ := after_apart
    (s := { opened.advance last with
      world := { w with trail := ((Reloader.recordEscape w.path outcome).run w.trail).2 }
      watch := .waiting }) (by simp) rest
  exact ⟨hafter.trans (hrest _), hwaiting, hsame.trans hoptions⟩

/-- The events of a pass of the watch without others in between. -/
def wakeEvents (q : Call) (now : Instant) : List Event :=
  .yield q :: ((solo q now).tail.map .pass)

/-- A pass without interruption is not cancelled. -/
theorem ne_cancelled_of_checked {path : Text} {now : Instant} {state state' : State}
    {r : Except Allowlist.LoadError Text} {outcome : Outcome} {t t' : Trail}
    (h : (Pass.checked path now state r).run t = (.ended state' outcome, t')) :
    outcome ≠ .cancelled := by
  have hturn := Pass.checked_fst path now state r t
  rw [h] at hturn
  exact (Pass.of_turn_ended hturn.symm).2.2

theorem ne_cancelled_of_loaded {path : Text} {now : Instant} {state state' : State}
    {r : Except Allowlist.LoadError Allowlist} {outcome : Outcome} {t t' : Trail}
    (h : (Pass.loaded path now state r).run t = ((state', outcome), t')) :
    outcome ≠ .cancelled := by
  have hconclusion := Pass.loaded_fst path now state r t
  rw [h] at hconclusion
  rcases Pass.conclusion_cases now state r with ⟨_, _, hpublished, _⟩ | ⟨_, hne, _⟩
  · rw [← hconclusion] at hpublished
    simp only at hpublished
    rw [hpublished]
    nofun
  · rw [← hconclusion] at hne
    exact hne

/-- What a wake comes to, from what its pass comes to. -/
theorem run_wake [Limits] (hwatch : s.watch = .waiting) {now : Instant} {state : State}
    {outcome : Outcome} {t : Trail}
    (h : (Pass.run s.world.disk s.world.path now s.world.state).run s.world.trail =
      ((state, outcome), t)) :
    (s.reloader.wake s.world.disk now s.world.state.store).run s.world.trail =
      ((⟨s.world.path, s.options, state.status, .watching⟩, state.store),
        ((Reloader.recordEscape s.world.path outcome).run t).2) := by
  have htask := task_reloader_of_waiting hwatch
  have hrun : (Pass.run s.world.disk s.reloader.path now
      (s.reloader.state s.world.state.store)).run s.world.trail = ((state, outcome), t) := h
  have hrefresh : (s.reloader.refresh s.world.disk now s.world.state.store).run s.world.trail =
      ((⟨s.world.path, s.options, state.status, s.watch.task⟩, state.store, outcome), t) := by
    rw [Reloader.refresh, StateT.run_bind, hrun]
    rfl
  rw [Reloader.wake, if_pos htask, StateT.run_bind, hrefresh, hwatch]
  rfl

/-- A pass of the watch whose last event is known is a wake. -/
theorem wake_of_leave [Limits] {called : Process} (hwatch : s.watch = .waiting)
    (hpassing : called.watch = .passing q) (hoptions : called.options = s.options)
    (first : List Reload.Event) (last : Reload.Event) (rest : List Reload.Event) {now : Instant}
    {state : State} {outcome : Outcome} {t : Trail} {w : World}
    (hopen : ∀ o, (called.world.after first).stage q ≠ .ended o)
    (hlast : (called.world.after first).step last = w.leave q state outcome t)
    (hpath : w.path = s.world.path) (hne : outcome ≠ .cancelled)
    (hrest : ∀ trail, World.after { w.leave q state outcome t with trail := trail } rest =
      { w.leave q state outcome t with trail := trail })
    (hrun : (Pass.run s.world.disk s.world.path now s.world.state).run s.world.trail =
      ((state, outcome), t)) :
    let s' := called.after ((first ++ last :: rest).map .pass)
    ((s'.reloader, s'.world.state.store), s'.world.trail) =
      (s.reloader.wake s.world.disk now s.world.state.store).run s.world.trail := by
  intro s'
  obtain ⟨hworld, hwaiting, hsame⟩ := after_ended hpassing hopen hlast
    (World.stage_leave_self ..) hne hrest
  rw [run_wake hwatch hrun, reloader]
  simp only [s', hworld, hwaiting, hsame, hoptions]
  rw [show (w.leave q state outcome t).path = s.world.path from hpath]
  rfl

/-- The second half of a pass, from the sending of its load: the worker reads and is done, and the
pass resumes and leaves. -/
theorem World.leave_of_sent [Limits] {w : World} (hsent : w.worker q = some (.sent .load))
    (hloading : w.stage q = .loading) {now : Instant}
    {r : Except Allowlist.LoadError Allowlist} {t t' : Trail} {state : State} {outcome : Outcome}
    (hloaded : (attempt (Allowlist.load w.disk (.file w.path) now)).run w.trail = (r, t))
    (hend : (Pass.loaded w.path now w.state r).run t = ((state, outcome), t')) :
    (w.after [.read q, .work q now]).stage q = .loading ∧
      (w.after [.read q, .work q now]).path = w.path ∧
      (w.after [.read q, .work q now]).step (.resume q now) =
        (w.after [.read q, .work q now]).leave q state outcome t' := by
  obtain ⟨v, hv⟩ : ∃ v, v = { w.setWorker q (.done (.load r)) with trail := t } := ⟨_, rfl⟩
  have hafter : w.after [.read q, .work q now] = v := by
    rw [w.after_load now hsent, hloaded, hv]
  have hdone : v.worker q = some (.done (.load r)) ∧ v.stage q = .loading ∧ v.state = w.state ∧
      v.path = w.path ∧ v.trail = t := by
    rw [hv]
    exact ⟨Function.update_self .., hloading, rfl, rfl, rfl⟩
  obtain ⟨hdone, hsecond, hstate, hpath, htrail⟩ := hdone
  have hlast := v.step_resume_loading now hsecond hdone
  rw [hpath, hstate, htrail, hend] at hlast
  rw [hafter]
  exact ⟨hsecond, hpath, hlast⟩

section Wake

variable {now : Instant} {state : State} {t : Trail}
variable (hwatch : s.watch = .waiting) (hstage : s.world.stage q = .absent)

include hwatch hstage

theorem step_yield [Limits] :
    s.step (.yield q) = { s.advance (.call q) with watch := .passing q } :=
  if_pos ⟨hwatch, hstage⟩

/-- The watch has called for its pass, and waits for the end of it. -/
theorem passing_yield [Limits] : (s.step (.yield q)).watch = .passing q ∧
    (s.step (.yield q)).options = s.options := by
  rw [step_yield hwatch hstage]
  exact ⟨rfl, rfl⟩

variable (hlock : s.world.lock = none)

include hlock

theorem after_yield [Limits] (now : Instant) :
    (s.step (.yield q)).world.after [.acquire q now, .read q, .work q now] =
      s.world.opened q now := by
  rw [step_yield hwatch hstage]
  exact s.world.after_opening now hstage hlock

/-- A wake whose pass ends with the checksum. -/
theorem wake_of_ended [Limits] {outcome : Outcome}
    (hchecked : (Pass.checked s.world.path now (Pass.begin now s.world.state)
      (Allowlist.fileChecksum s.world.disk s.world.path)).run s.world.trail =
        (.ended state outcome, t)) :
    let s' := s.after (wakeEvents q now)
    ((s'.reloader, s'.world.state.store), s'.world.trail) =
      (s.reloader.wake s.world.disk now s.world.state.store).run s.world.trail := by
  have hopened := after_yield hwatch hstage hlock now
  have hresume := World.step_opened_of_ended (q := q) hchecked
  have hrun : (Pass.run s.world.disk s.world.path now s.world.state).run s.world.trail =
      ((state, outcome), t) := by
    rw [Pass.run, StateT.run_bind, hchecked]
    rfl
  obtain ⟨hpassing, hoptions⟩ := passing_yield hwatch hstage
  refine wake_of_leave (w := s.world.opened q now) hwatch hpassing hoptions
    [.acquire q now, .read q, .work q now] (.resume q now) [.read q, .work q now, .resume q now]
    ?_ ?_ rfl (ne_cancelled_of_checked hchecked) ?_ hrun
  · rw [hopened]
    simp [World.opened]
  · rw [hopened]
    exact hresume
  · intro trail
    exact World.after_rest _ now (World.stage_leave_self ..) (Function.update_self ..)

/-- A wake whose pass goes on to the load. -/
theorem wake_of_loading [Limits]
    (hchecked : (Pass.checked s.world.path now (Pass.begin now s.world.state)
      (Allowlist.fileChecksum s.world.disk s.world.path)).run s.world.trail =
        (.loading state, t)) :
    let s' := s.after (wakeEvents q now)
    ((s'.reloader, s'.world.state.store), s'.world.trail) =
      (s.reloader.wake s.world.disk now s.world.state.store).run s.world.trail := by
  have hopened := after_yield hwatch hstage hlock now
  have hresume := World.step_opened_of_loading (q := q) hchecked
  obtain ⟨⟨r, t₁⟩, hloaded⟩ : ∃ loaded,
    (attempt (Allowlist.load s.world.disk (.file s.world.path) now)).run t = loaded := ⟨_, rfl⟩
  obtain ⟨⟨⟨state', outcome⟩, t₂⟩, hend⟩ : ∃ ended,
    (Pass.loaded s.world.path now state r).run t₁ = ended := ⟨_, rfl⟩
  have hrun : (Pass.run s.world.disk s.world.path now s.world.state).run s.world.trail =
      ((state', outcome), t₂) := by
    rw [Pass.run, StateT.run_bind, hchecked]
    show StateT.run (attempt _ >>= _) t = _
    rw [StateT.run_bind, hloaded]
    exact hend
  obtain ⟨w, hw⟩ : ∃ w, w = (s.world.opened q now).await q .loading .load state t := ⟨_, rfl⟩
  obtain ⟨hsecond, hpath, hlast⟩ := World.leave_of_sent (q := q) (w := w)
    (by rw [hw]; exact World.worker_await_self ..) (by rw [hw]; exact World.stage_await_self ..)
    (by rw [hw]; exact hloaded) (by rw [hw]; exact hend)
  have hworld : (s.step (.yield q)).world.after ([.acquire q now, .read q, .work q now] ++
      [.resume q now, .read q, .work q now]) = w.after [.read q, .work q now] := by
    rw [World.after_append, hopened, World.after_cons, hresume, hw]
  have hsame : w.path = s.world.path := by
    rw [hw]
    rfl
  obtain ⟨hpassing, hoptions⟩ := passing_yield hwatch hstage
  refine wake_of_leave (w := w.after [.read q, .work q now]) hwatch hpassing hoptions
    ([.acquire q now, .read q, .work q now] ++ [.resume q now, .read q, .work q now])
    (.resume q now) [] ?_ ?_ (hpath.trans hsame) (ne_cancelled_of_loaded hend) (fun _ => rfl) hrun
  · rw [hworld, hsecond]
    simp
  · rw [hworld]
    exact hlast

/-- **A watch alone wakes as one step.** -/
theorem wake_eq [Limits] (now : Instant) :
    let s' := s.after (wakeEvents q now)
    ((s'.reloader, s'.world.state.store), s'.world.trail) =
      (s.reloader.wake s.world.disk now s.world.state.store).run s.world.trail := by
  obtain ⟨⟨turn, t⟩, hchecked⟩ : ∃ checked, (Pass.checked s.world.path now
      (Pass.begin now s.world.state) (Allowlist.fileChecksum s.world.disk s.world.path)).run
        s.world.trail = checked := ⟨_, rfl⟩
  cases turn with
  | ended state outcome => exact wake_of_ended hwatch hstage hlock hchecked
  | loading state => exact wake_of_loading hwatch hstage hlock hchecked

end Wake

/-! ### A stop during a pass -/

/-- What others see of a process. -/
def seen (s : Process) : Reloader × Store × Trail :=
  (s.reloader, s.world.state.store, s.world.trail)

/-- What others would see of it after a stop in one go. -/
def seenAfterStop [Limits] (s : Process) (now : Instant) (phase : Phase) :
    Reloader × Store × Trail :=
  let stopped := (s.reloader.stopDuring s.world.disk now phase s.world.state.store).run s.world.trail
  (stopped.1.1, stopped.1.2.1, stopped.2)

/-- A process whose watch is off is seen as the passes leave it. -/
theorem seen_after_off [Limits] (hoff : s.watch = .off) {events : List Reload.Event} {w : World}
    (hworld : s.world.after events = w) : (s.after (events.map .pass)).seen =
      (⟨w.path, s.options, w.state.status, .off⟩, w.state.store, w.trail) := by
  obtain ⟨hafter, hwatch, hoptions⟩ := after_apart (by rw [hoff]; nofun) events
  simp only [seen, reloader, hafter, hwatch, hoptions, hworld, hoff]
  rfl

/-- A watch at rest is told of its cancellation and is off. -/
theorem step_stop_of_waiting [Limits] (hwatch : s.watch = .waiting) :
    s.step .stop = { s with
      world := { s.world with trail := (s.reloader.recordCancelled.run s.world.trail).2 }
      watch := .off } := by
  obtain ⟨world, options, watch, past⟩ := s
  subst hwatch
  rfl

/-- A watch whose pass is under way takes it along. -/
theorem step_stop_of_passing [Limits] (hwatch : s.watch = .passing q)
    (hactive : (s.world.stage q).Active) :
    s.step .stop = { s.advance (.cancel q) with
      world := s.world.leave q (Pass.cancel s.world.state).1 .cancelled
        (s.reloader.recordCancelled.run s.world.trail).2
      watch := .off } := by
  have hcancel : s.world.step (.cancel q) =
      s.world.leave q (Pass.cancel s.world.state).1 .cancelled s.world.trail := by
    rw [World.step, World.cancel]
    rcases hactive with hstage | hstage <;> rw [hstage] <;> rfl
  obtain ⟨world, options, watch, past⟩ := s
  subst hwatch
  simp only [step, settle, advance] at hcancel ⊢
  rw [hcancel]
  simp only [World.stage_leave_self]
  rfl

/-- What a stop comes to, from what its interrupted pass comes to. -/
theorem seenAfterStop_eq [Limits] (hwatch : s.watch = .waiting) {now : Instant} {phase : Phase}
    {i : Pass.Interrupted} {t : Trail}
    (h : (Pass.interrupt s.world.disk s.world.path now phase s.world.state).run s.world.trail =
      (i, t)) :
    s.seenAfterStop now phase =
      (⟨s.world.path, s.options, i.state.status, .off⟩, i.state.store,
        (i.late.run (s.reloader.recordCancelled.run
          ((Reloader.recordEscape s.world.path i.outcome).run t).2).2).2) := by
  have hrun : (Pass.interrupt s.world.disk s.reloader.path now phase
      (s.reloader.state s.world.state.store)).run s.world.trail = (i, t) := h
  have htask := task_reloader_of_waiting hwatch
  rw [seenAfterStop, Reloader.stopDuring, StateT.run_bind, hrun]
  simp only [Reloader.withState, Reloader.stop, htask]
  rfl

/-- The events of a pass of the watch that is stopped in the given phase, and of the worker that
goes on without it. -/
def stopEvents (q : Call) (now : Instant) (phase : Phase) : List Event :=
  if phase = .checking then [.yield q, .pass (.acquire q now), .stop]
  else .yield q :: ([.acquire q now, .read q, .work q now, .resume q now].map .pass ++
    .stop :: [.read q, .work q now].map .pass)

/-- The events of a stop after the first worker is done. -/
theorem after_stopEvents [Limits] (s : Process) (q : Call) {phase : Phase}
    (hphase : phase ≠ .checking) (now : Instant) :
    s.after (stopEvents q now phase) =
      (((s.step (.yield q)).after
        (([.acquire q now, .read q, .work q now] ++ [.resume q now] :
          List Reload.Event).map .pass)).step .stop).after ([.read q, .work q now].map .pass) := by
  rw [stopEvents, if_neg hphase]
  rfl

section Stop

variable (hwatch : s.watch = .waiting) (hstage : s.world.stage q = .absent)
variable (hlock : s.world.lock = none)

include hwatch hstage hlock

/-- A stop while the first worker is out. -/
theorem stopDuring_checking [Limits] (now : Instant) :
    (s.after (stopEvents q now .checking)).seen = s.seenAfterStop now .checking := by
  obtain ⟨hpassing, hoptions⟩ := passing_yield hwatch hstage
  have hworld : (s.step (.yield q)).world.after [.acquire q now] =
      (s.world.moveTo q .waiting).await q .checking .digest (Pass.begin now s.world.state)
        s.world.trail := by
    rw [step_yield hwatch hstage]
    have hcall : s.world.step (.call q) = s.world.moveTo q .waiting := if_pos hstage
    show (s.world.step (.call q)).step (.acquire q now) = _
    rw [hcall]
    exact if_pos ⟨s.world.stage_moveTo_self q .waiting, hlock⟩
  have hopen : ∀ o, ((s.step (.yield q)).world.after [.acquire q now]).stage q ≠ .ended o := by
    rw [hworld]
    simp
  obtain ⟨hafter, hwaits, hsame⟩ := after_open hpassing hopen
  rw [hworld] at hafter
  rw [hoptions] at hsame
  have hstops : s.after (stopEvents q now .checking) =
      ((s.step (.yield q)).after ([.acquire q now].map .pass)).step .stop := rfl
  rw [hstops, step_stop_of_passing hwaits (by rw [hafter]; exact .inl (World.stage_await_self ..))]
  generalize (s.step (.yield q)).after ([.acquire q now].map .pass) = called at hafter hsame
  obtain ⟨world, options, watch, past⟩ := called
  subst hafter hsame
  rw [seenAfterStop_eq hwatch rfl]
  rfl

/-- A stop after the first worker is done, by which the pass has ended. -/
theorem stopDuring_of_ended [Limits] {phase : Phase} (hphase : phase ≠ .checking) {now : Instant}
    {state : State} {outcome : Outcome} {t : Trail}
    (hchecked : (Pass.checked s.world.path now (Pass.begin now s.world.state)
      (Allowlist.fileChecksum s.world.disk s.world.path)).run s.world.trail =
        (.ended state outcome, t)) :
    (s.after (stopEvents q now phase)).seen = s.seenAfterStop now phase := by
  have hopened := after_yield hwatch hstage hlock now
  have hresume := World.step_opened_of_ended (q := q) hchecked
  have hinterrupt : (Pass.interrupt s.world.disk s.world.path now phase s.world.state).run
      s.world.trail = (⟨state, outcome, .idle, pure ()⟩, t) := by
    rw [Pass.interrupt]
    simp only [if_neg hphase, StateT.run_bind, hchecked]
    rfl
  obtain ⟨hpassing, hoptions⟩ := passing_yield hwatch hstage
  have hnone : ∀ trail, World.after { (s.world.opened q now).leave q state outcome t with
      trail := trail } [] = { (s.world.opened q now).leave q state outcome t with
        trail := trail } := fun _ => rfl
  obtain ⟨hworld, hwaiting, hsame⟩ := after_ended hpassing
    (by rw [hopened]; simp [World.opened]) (by rw [hopened]; exact hresume)
    (World.stage_leave_self ..) (ne_cancelled_of_checked hchecked) hnone
  rw [hoptions] at hsame
  have hworker : ((s.world.opened q now).leave q state outcome t).worker q =
      some (.done (.digest (Allowlist.fileChecksum s.world.disk s.world.path))) :=
    Function.update_self ..
  rw [s.after_stopEvents q hphase, seenAfterStop_eq hwatch hinterrupt]
  generalize (s.step (.yield q)).after _ = ended at hworld hwaiting hsame
  rw [step_stop_of_waiting hwaiting]
  obtain ⟨world, options, watch, past⟩ := ended
  subst hworld hsame
  exact seen_after_off rfl (World.after_done now hworker)

/-- A stop while the second worker is out. -/
theorem stopDuring_of_loading [Limits] {phase : Phase} (hphase : phase ≠ .checking) {now : Instant}
    {state : State} {t : Trail}
    (hchecked : (Pass.checked s.world.path now (Pass.begin now s.world.state)
      (Allowlist.fileChecksum s.world.disk s.world.path)).run s.world.trail =
        (.loading state, t)) :
    (s.after (stopEvents q now phase)).seen = s.seenAfterStop now phase := by
  have hopened := after_yield hwatch hstage hlock now
  have hresume := World.step_opened_of_loading (q := q) hchecked
  have hinterrupt : (Pass.interrupt s.world.disk s.world.path now phase s.world.state).run
      s.world.trail = (⟨(Pass.cancel state).1, (Pass.cancel state).2, .loading, do
        let _ ← attempt (Allowlist.load s.world.disk (.file s.world.path) now)
        return ()⟩, t) := by
    rw [Pass.interrupt]
    simp only [if_neg hphase, StateT.run_bind, hchecked]
    rfl
  have hworld : (s.step (.yield q)).world.after
      ([.acquire q now, .read q, .work q now] ++ [.resume q now]) =
        (s.world.opened q now).await q .loading .load state t := by
    rw [World.after_append, hopened, World.after_cons, hresume]
    rfl
  obtain ⟨hpassing, hoptions⟩ := passing_yield hwatch hstage
  obtain ⟨hafter, hwaits, hsame⟩ := after_open hpassing (by rw [hworld]; simp)
  rw [hworld] at hafter
  rw [hoptions] at hsame
  rw [s.after_stopEvents q hphase, seenAfterStop_eq hwatch hinterrupt]
  generalize (s.step (.yield q)).after _ = called at hafter hwaits hsame
  rw [step_stop_of_passing hwaits (by rw [hafter]; exact .inr (World.stage_await_self ..))]
  obtain ⟨world, options, watch, past⟩ := called
  subst hafter hsame
  exact seen_after_off rfl (World.after_load _ now (Function.update_self ..))

/-- **A watch alone that is stopped during its pass** does what `Reloader.stopDuring` does in one
go. -/
theorem stopDuring_eq [Limits] (now : Instant) (phase : Phase) :
    (s.after (stopEvents q now phase)).seen = s.seenAfterStop now phase := by
  by_cases hphase : phase = .checking
  · rw [hphase]
    exact stopDuring_checking hwatch hstage hlock now
  · obtain ⟨⟨turn, t⟩, hchecked⟩ : ∃ checked, (Pass.checked s.world.path now
        (Pass.begin now s.world.state) (Allowlist.fileChecksum s.world.disk s.world.path)).run
          s.world.trail = checked := ⟨_, rfl⟩
    cases turn with
    | ended state outcome => exact stopDuring_of_ended hwatch hstage hlock hphase hchecked
    | loading state => exact stopDuring_of_loading hwatch hstage hlock hphase hchecked

end Stop

end Process

end AdmissionControl.Reload
