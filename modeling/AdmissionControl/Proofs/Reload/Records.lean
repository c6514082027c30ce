import AdmissionControl.Proofs.Reload.Process

/-!
# Records have no influence

What passes and the watch have recorded decides nothing that they do afterwards.  A world without
its records goes on as the world does.

* `World.silence`, `Process.silence` — without the records.
* `World.silence_step`, `Process.silence_step`, `Process.silence_after` — they go on as before.
-/

namespace AdmissionControl.Reload

namespace World

variable (w : World)

/-- The world without its records. -/
def silence : World := { w with trail := .start }

@[simp] theorem stage_silence : w.silence.stage = w.stage := rfl

@[simp] theorem worker_silence : w.silence.worker = w.worker := rfl

theorem silence_load [Limits] (source : Source) (now : Instant) :
    (w.load source now).silence =
      { w.silence with
        held := w.held ++ (Allowlist.ofSource w.disk source now).toOption.toList } := by
  rw [← Allowlist.result_load w.disk source now w.trail]
  rfl

theorem silence_publish (index : Nat) (now : Instant) :
    (w.publish index now).silence =
      match w.held[index]? with
      | none => w.silence
      | some a =>
        { w.silence with state := ⟨w.state.store.publish a now, w.state.status⟩ } := by
  rw [publish]
  cases w.held[index]? <;> rfl

theorem silence_work [Limits] (p : Call) (now : Instant) :
    (w.work p now).silence =
      match w.worker p with
      | some (.holding job content) =>
        (w.setWorker p (.done (job.result w.path now content))).silence
      | _ => w.silence := by
  rw [work]
  rcases w.worker p with _ | _ | ⟨job, content⟩ | _
  · rfl
  · rfl
  · simp only
    rw [← Job.finish_fst w.path now content job w.trail]
    rfl
  · rfl

theorem silence_resume (p : Call) (now : Instant) :
    (w.resume p now).silence =
      match w.stage p, w.worker p with
      | .checking, some (.done (.digest r)) =>
        match Pass.turn now w.state r with
        | .ended state outcome => w.leave p state outcome .start
        | .loading state => w.await p .loading .load state .start
      | .loading, some (.done (.load r)) =>
        w.leave p (Pass.conclusion now w.state r).1 (Pass.conclusion now w.state r).2 .start
      | _, _ => w.silence := by
  have hchecked := fun r => Pass.checked_fst w.path now w.state r w.trail
  have hloaded := fun r => Pass.loaded_fst w.path now w.state r w.trail
  rw [resume]
  rcases w.stage p with _ | _ | _ | _ | _ <;> try rfl
  · rcases w.worker p with _ | _ | _ | r | r <;> try rfl
    simp only
    rw [← hchecked r]
    generalize (Pass.checked w.path now w.state r).run w.trail = checked
    obtain ⟨_ | _, trail⟩ := checked <;> rfl
  · rcases w.worker p with _ | _ | _ | r | r <;> try rfl
    simp only
    rw [← hloaded r]
    rfl

/-- **Without its records the world goes on as before.** -/
theorem silence_step [Limits] (e : Event) : (w.step e).silence = (w.silence.step e).silence := by
  cases e with
  | disk after => rfl
  | load source now =>
    exact (w.silence_load source now).trans (w.silence.silence_load source now).symm
  | publish index now =>
    exact (w.silence_publish index now).trans (w.silence.silence_publish index now).symm
  | call p =>
    simp only [step, call]
    show _ = (if w.stage p = .absent then _ else _ : World).silence
    split <;> rfl
  | acquire p now =>
    simp only [step, acquire]
    show _ = (if w.stage p = .waiting ∧ w.lock = none then _ else _ : World).silence
    split <;> rfl
  | read p =>
    simp only [step, read, worker_silence]
    rcases w.worker p with _ | _ | _ | _ <;> rfl
  | work p now => exact (w.silence_work p now).trans (w.silence.silence_work p now).symm
  | resume p now => exact (w.silence_resume p now).trans (w.silence.silence_resume p now).symm
  | cancel p =>
    simp only [step, cancel, stage_silence]
    rcases w.stage p with _ | _ | _ | _ | _ <;> rfl

end World

namespace Process

variable (s : Process)

/-- The process without its records. -/
def silence : Process := { s with world := s.world.silence }

@[simp] theorem watch_silence : s.silence.watch = s.watch := rfl

@[simp] theorem world_silence : s.silence.world = s.world.silence := rfl

theorem silence_advance [Limits] (e : Reload.Event) :
    (s.advance e).silence = (s.silence.advance e).silence := by
  have hstep := s.world.silence_step e
  have hstage : (s.world.step e).stage = (s.world.silence.step e).stage := by
    have hsame := congrArg World.stage hstep
    exact hsame
  have hended : World.ended? s.world (s.world.step e) =
      World.ended? s.world.silence (s.world.silence.step e) := by
    rw [World.ended?, World.ended?, hstage]
    rfl
  simp only [advance, silence, hstep, hended]

theorem silence_act {action : Audited Fault Reloader}
    (h : ∀ t t', action.result t = action.result t') :
    (s.act action).silence = (s.silence.act action).silence := by
  simp only [act]
  rw [h s.world.trail s.silence.world.trail]
  rfl

/-- An action that comes to the same whatever was recorded before. -/
theorem silence_record {action : Reloader → StateM Trail Reloader}
    (h : ∀ r t t', ((action r).run t).1 = ((action r).run t').1) :
    (s.act (liftM (action s.reloader))).silence =
      (s.silence.act (liftM (action s.silence.reloader))).silence := by
  refine s.silence_act fun t t' => ?_
  rw [Audited.result_liftM_record, Audited.result_liftM_record, h s.reloader t t']

theorem silence_stop : (s.act (liftM s.reloader.stop)).silence =
    (s.silence.act (liftM s.silence.reloader.stop)).silence := by
  refine s.silence_record fun r t t' => ?_
  rw [Reloader.fst_run_stop, Reloader.fst_run_stop]

theorem silence_settle : s.settle.silence = s.silence.settle.silence := by
  simp only [settle, watch_silence, world_silence, World.stage_silence]
  rcases s.watch with _ | _ | _ | p <;> try rfl
  · dsimp only
    rcases s.world.stage p with _ | _ | _ | _ | _ | _ | _ | _ | _ <;> try rfl
    exact s.silence_stop

/-- **Without its records a process goes on as before.** -/
theorem silence_step [Limits] (e : Event) : (s.step e).silence = (s.silence.step e).silence := by
  cases e with
  | pass inner =>
    show (s.advance inner).settle.silence = (s.silence.advance inner).settle.silence
    rw [silence_settle, silence_advance, ← silence_settle]
  | yield p =>
    simp only [step]
    show _ = (if s.watch = .waiting ∧ s.world.stage p = .absent then _ else _ : Process).silence
    split
    · exact congrArg (fun s' : Process => { s' with watch := .passing p })
        (s.silence_advance (.call p))
    · rfl
  | start =>
    refine s.silence_act fun t t' => ?_
    rw [Reloader.result_start, Reloader.result_start]
  | enter =>
    refine s.silence_record fun r t t' => ?_
    rw [Reloader.fst_run_enter, Reloader.fst_run_enter]
  | stop =>
    simp only [step, watch_silence]
    rcases s.watch with _ | _ | _ | p
    · exact s.silence_stop
    · exact s.silence_stop
    · exact s.silence_stop
    · show (s.advance (.cancel p)).settle.silence = (s.silence.advance (.cancel p)).settle.silence
      rw [silence_settle, silence_advance, ← silence_settle]
  | streamEnded =>
    simp only [step]
    show _ = (if s.watch = .waiting then _ else _ : Process).silence
    split
    · refine s.silence_record fun r t t' => ?_
      rw [Reloader.fst_run_streamEnded, Reloader.fst_run_streamEnded]
    · rfl
  | streamFailed now error =>
    simp only [step]
    show _ = (if s.watch = .waiting then _ else _ : Process).silence
    split
    · refine s.silence_record fun r t t' => ?_
      rw [Reloader.fst_run_streamFailed, Reloader.fst_run_streamFailed]
    · rfl

/-- Two processes that differ in their records only go on alike. -/
theorem silence_after [Limits] {s s' : Process} (h : s.silence = s'.silence) (events : List Event) :
    (s.after events).silence = (s'.after events).silence := by
  induction events generalizing s s' with
  | nil => exact h
  | cons e rest ih =>
    refine ih ?_
    rw [silence_step, h, ← silence_step]

end Process

end AdmissionControl.Reload
