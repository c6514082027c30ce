import AdmissionControl.Proofs.Reload.Process

/-!
# What a pass does to the store and the status

A pass has six ends.  Whichever it comes to, the phase is idle afterwards, and unless it publishes
the store is what it was; each end has its own fields of the status that it may touch.  Others may
act while a pass is under way: someone may publish, and the watch may fail.  What they do is told
apart from what the pass does.

* `rank_le_step`, `active_step` — a call only goes forward, so it is under way all the time
  between two moments at which it is.
* `Change.under`, `while_active` — what an event can do while a pass is under way, and what it
  therefore keeps.
* `Change.closes` — what the event does that ends a pass.
* `Effect`, `Process.pass_effect` — what a pass does as a whole.
-/

namespace AdmissionControl.Reload

/-- What a pass does that began at `now`: from the state in which it began, through the one in which
it was about to end, to the one in which it has ended. -/
structure Effect (now : Instant) (outcome : Outcome) (first last ended : State) : Prop where
  idle : ended.status.phase = .idle
  /-- Only a publication touches the store. -/
  store : outcome ≠ .published → ended.store = last.store
  version : outcome = .published → ended.store.version = last.store.version + 1
  /-- A pass that is cancelled or that a fault ends leaves no trace but the time of its check. -/
  broken : outcome = .cancelled ∨ (∃ f, outcome = .escaped f) →
    ended.status =
      { first.status with lastCheckedAt := some now, lastFailure := last.status.lastFailure }
  unchanged : outcome = .unchanged →
    ended.status =
      { first.status with
        lastCheckedAt := some now
        lastFailure := last.status.lastFailure
        consecutiveFailures := 0 }
  failed : outcome = .failed →
    ended.status.lastSuccessAt = first.status.lastSuccessAt ∧
      ended.status.reloadCount = first.status.reloadCount
  /-- Only a failure is kept as one. -/
  lastFailure : outcome ≠ .failed → ended.status.lastFailure = last.status.lastFailure

/-- The status of a pass that is under way: its own phase and the time of its check, and a failure
of the watch if there was one. -/
def Status.during (s : Status) (now : Instant) (phase : Phase) (failure : Option Failure) :
    Status :=
  { s with phase := phase, lastCheckedAt := some now, lastFailure := failure }

/-- The end of a pass, from the status that it has kept up. -/
theorem Closes.effect {outcome : Outcome} {first last ended : State} {now : Instant}
    (h : Closes last outcome ended) (hidle : first.status.phase = .idle)
    (hstatus : last.status =
      first.status.during now last.status.phase last.status.lastFailure) :
    Effect now outcome first last ended := by
  refine ⟨h.phase, h.store, ?_, ?_, ?_, ?_, ?_⟩
  · rintro rfl
    exact h.version
  · rintro (rfl | ⟨f, rfl⟩) <;> cases h <;> rw [hstatus] <;>
      simp [Status.settle, Status.during, hidle]
  · rintro rfl
    cases h
    rw [hstatus]
    simp [Status.settle, Status.unchanged, Status.during, hidle]
  · rintro rfl
    cases h
    rw [hstatus]
    exact ⟨rfl, rfl⟩
  · intro hne
    cases h with
    | failed => exact absurd rfl hne
    | _ => rfl

namespace Process

variable {s s' : Process} {e : Event} {p : Call}

/-! ### Calls only go forward -/

/-- The calls are where an event of the passes has left them, or where they were. -/
theorem stage_step [Limits] (s : Process) (e : Event) :
    (s.step e).world.stage = s.world.stage ∨
      ∃ inner, (s.step e).world.stage = (s.world.step inner).stage := by
  cases e with
  | pass inner => exact .inr ⟨inner, (agree_settle _).stage⟩
  | yield p =>
    rw [step]
    split
    · exact .inr ⟨.call p, rfl⟩
    · exact .inl rfl
  | start | enter => exact .inl rfl
  | stop =>
    rw [step]
    split
    · exact .inr ⟨.cancel _, (agree_settle _).stage⟩
    · exact .inl rfl
  | streamEnded | streamFailed =>
    rw [step]
    split <;> exact .inl rfl

theorem rank_le_step [Limits] (s : Process) (e : Event) (p : Call) :
    (s.world.stage p).rank ≤ ((s.step e).world.stage p).rank := by
  rcases s.stage_step e with hsame | ⟨inner, hinner⟩
  · rw [hsame]
  · rw [hinner]
    exact s.world.rank_le_step inner p

theorem rank_le_after [Limits] (s : Process) (events : List Event) (p : Call) :
    (s.world.stage p).rank ≤ ((s.after events).world.stage p).rank := by
  induction events generalizing s with
  | nil => exact le_rfl
  | cons e rest ih => exact (s.rank_le_step e p).trans (ih (s.step e))

/-- A call that is under way now and later is so after the first event in between. -/
theorem active_step [Limits] {events : List Event} (hp : (s.world.stage p).Active)
    (hlater : ((s.after (e :: events)).world.stage p).Active) :
    ((s.step e).world.stage p).Active := by
  rw [Stage.active_iff_rank] at hp hlater ⊢
  exact ⟨hp.1.trans (s.rank_le_step e p), ((s.step e).rank_le_after events p).trans hlater.2⟩

end Process

/-! ### While a pass is under way -/

namespace Change

variable {s s' : Process} {e : Process.Event} {p : Call} {outcome : Outcome}

/-- **What an event can do while a pass is under way** that goes on: nothing, or someone else
publishes, or the watch fails, or the pass shows its next phase. -/
theorem under (h : Change s e s') (ho : Ordered s.world) (hp : (s.world.stage p).Active)
    (hp' : (s'.world.stage p).Active) :
    s'.world.state = s.world.state ∨
    (∃ index now a, e = .pass (.publish index now) ∧
      s'.world.state = ⟨s.world.state.store.publish a now, s.world.state.status⟩) ∨
    (∃ now error failure, e = .streamFailed now error ∧
      s'.world.state = ⟨s.world.state.store, s.world.state.status.watchFailed failure⟩) ∨
    ∃ phase, s'.world.state =
      ⟨s.world.state.store, { s.world.state.status with phase := phase }⟩ := by
  have hlock := ho.lock_of_active p hp
  cases h with
  | aside state => exact .inl state
  | publish a event state => exact .inr (.inl ⟨_, _, a, event, state⟩)
  | watchFailed event state => exact .inr (.inr (.inl ⟨_, _, _, event, state⟩))
  | begins _ _ free =>
    rw [free] at hlock
    cases hlock
  | proceeds _ state => exact .inr (.inr (.inr ⟨_, state⟩))
  | @ends q _ active _ _ stage =>
    have hqp : q = p := Option.some.inj ((ho.lock_of_active q active).symm.trans hlock)
    rw [← hqp, stage] at hp'
    simp [Stage.Active] at hp'

/-- What the event does that ends a pass. -/
theorem closes (h : Change s e s') (hp : (s.world.stage p).Active)
    (hend : s'.world.stage p = .ended outcome) :
    Closes s.world.state outcome s'.world.state := by
  have hkept : ¬ s'.world.stage p = s.world.stage p := by
    intro heq
    rw [← heq, hend] at hp
    simp [Stage.Active] at hp
  cases h with
  | aside _ _ stage | publish _ _ _ _ stage | watchFailed _ _ _ stage =>
    exact absurd (stage p not_false (.inl hp)) hkept
  | @begins q _ _ _ _ _ _ stage others =>
    by_cases hqp : p = q
    · rw [← hqp, hend] at stage
      cases stage
    · exact absurd (others p hqp (.inl hp)) hkept
  | @proceeds q _ _ _ stage others =>
    by_cases hqp : p = q
    · rw [← hqp, hend] at stage
      cases stage
    · exact absurd (others p hqp (.inl hp)) hkept
  | @ends q _ _ closes _ stage others =>
    by_cases hqp : p = q
    · rw [← hqp, hend, Stage.ended.injEq] at stage
      rw [stage]
      exact closes
    · exact absurd (others p hqp (.inl hp)) hkept

end Change

namespace Process

variable {s : Process} {p : Call}

/-- What every event keeps that leaves the pass under way is kept as long as it is. -/
theorem while_active [Limits] {P : State → Prop} {events : List Event} (ho : Ordered s.world)
    (hp : (s.world.stage p).Active) (hlater : ((s.after events).world.stage p).Active)
    (hkeep : ∀ s : Process, ∀ e ∈ events, Ordered s.world → (s.world.stage p).Active →
      ((s.step e).world.stage p).Active → P s.world.state → P (s.step e).world.state)
    (h : P s.world.state) : P (s.after events).world.state := by
  induction events generalizing s with
  | nil => exact h
  | cons e rest ih =>
    have hnext := active_step hp hlater
    refine ih (ho.of_change (change_step ho e)) hnext hlater ?_ ?_
    · exact fun s e he => hkeep s e (List.mem_cons_of_mem _ he)
    · exact hkeep s e List.mem_cons_self ho hp hnext h

section UnderWay

variable [Limits] {events : List Event} (ho : Ordered s.world) (hp : (s.world.stage p).Active)
  (hlater : ((s.after events).world.stage p).Active)

include ho hp hlater

/-- The store stays as long as nobody else publishes. -/
theorem store_while_active (hothers : ∀ index now, .pass (.publish index now) ∉ events) :
    (s.after events).world.state.store = s.world.state.store := by
  refine while_active (P := fun state => state.store = s.world.state.store) ho hp hlater ?_ rfl
  intro s' e he ho' hactive hnext hstore
  rcases (change_step ho' e).under ho' hactive hnext with
    hsame | ⟨index, now, _, rfl, _⟩ | ⟨_, _, _, _, hstate⟩ | ⟨_, hstate⟩
  · rw [hsame, hstore]
  · exact absurd he (hothers index now)
  · rw [hstate, ← hstore]
  · rw [hstate, ← hstore]

/-- The last failure stays as long as the watch does not fail. -/
theorem lastFailure_while_active (hwatch : ∀ now error, .streamFailed now error ∉ events) :
    (s.after events).world.state.status.lastFailure = s.world.state.status.lastFailure := by
  refine while_active
    (P := fun state => state.status.lastFailure = s.world.state.status.lastFailure)
    ho hp hlater ?_ rfl
  intro s' e he ho' hactive hnext hfailure
  rcases (change_step ho' e).under ho' hactive hnext with
    hsame | ⟨_, _, _, _, hstate⟩ | ⟨now, message, _, rfl, _⟩ | ⟨_, hstate⟩
  · rw [hsame, hfailure]
  · rw [hstate, ← hfailure]
  · exact absurd he (hwatch now message)
  · rw [hstate, ← hfailure]

/-- The other fields of the status stay in any case. -/
theorem status_while_active {first : Status} {now : Instant}
    (h : s.world.state.status =
      first.during now s.world.state.status.phase s.world.state.status.lastFailure) :
    (s.after events).world.state.status =
      first.during now (s.after events).world.state.status.phase
        (s.after events).world.state.status.lastFailure := by
  refine while_active
    (P := fun state => state.status = first.during now state.status.phase state.status.lastFailure)
    ho hp hlater ?_ h
  intro s' e _ ho' hactive hnext hstatus
  rcases (change_step ho' e).under ho' hactive hnext with
    hsame | ⟨_, _, _, _, hstate⟩ | ⟨_, _, _, _, hstate⟩ | ⟨_, hstate⟩
  · rw [hsame]
    exact hstatus
  · rw [hstate]
    exact hstatus
  · rw [hstate]
    simp only [Status.watchFailed]
    rw [hstatus]
    rfl
  · rw [hstate]
    simp only
    rw [hstatus]
    rfl

end UnderWay

/-- A call that finds the lock free begins. -/
theorem begun [Limits] (hwaiting : s.world.stage p = .waiting) (hfree : s.world.lock = none)
    (now : Instant) : (s.step (.pass (.acquire p now))).world.stage p = .checking ∧
      (s.step (.pass (.acquire p now))).world.state = Pass.begin now s.world.state := by
  have hacquire : s.world.step (.acquire p now) =
      s.world.await p .checking .digest (Pass.begin now s.world.state) s.world.trail :=
    if_pos ⟨hwaiting, hfree⟩
  have hagree := agree_settle (s.advance (.acquire p now))
  refine ⟨?_, hagree.state.trans (congrArg World.state hacquire)⟩
  show (settle _).world.stage p = _
  rw [hagree.stage, advance, hacquire]
  exact World.stage_await_self ..

/-- **What a pass does to the store and the status**, in every state that a reloader can be in,
whatever the file holds and whatever happens in the meantime: the pass of the call `p` begins at
`now`, is under way during some events, and the event `last` ends it.  What others do before that
event is theirs: only if someone else publishes is the store another one by then, and only if the
watch fails is there another last failure. -/
theorem pass_effect [Limits] {first : Process} (h : first.Reachable) (during : List Event)
    (p : Call) (now : Instant) (last : Event) (outcome : Outcome) :
    let under := (first.step (.pass (.acquire p now))).after during
    let ended := under.step last
    first.world.stage p = .waiting → first.world.lock = none → (under.world.stage p).Active →
    ended.world.stage p = .ended outcome →
      Effect now outcome first.world.state under.world.state ended.world.state ∧
      ((∀ index now, .pass (.publish index now) ∉ during) →
        under.world.state.store = first.world.state.store) ∧
      ((∀ now error, .streamFailed now error ∉ during) →
        under.world.state.status.lastFailure = first.world.state.status.lastFailure) := by
  intro under ended hwaiting hfree hactive hended
  have hfirst := Ordered.of_reachable h
  obtain ⟨hstage, hstate⟩ := begun hwaiting hfree now
  have hordered := hfirst.of_change (change_step hfirst (.pass (.acquire p now)))
  have hunder : Ordered under.world := hordered.after during
  have hidle : first.world.state.status.phase = .idle := by
    rw [hfirst.phase, hfree]
    rfl
  have hbegin : (first.step (.pass (.acquire p now))).world.state.status =
      first.world.state.status.during now .checking first.world.state.status.lastFailure := by
    rw [hstate]
    rfl
  have hstatus := status_while_active hordered (.inl hstage) hactive (by rw [hbegin]; rfl)
  have hcloses := (change_step hunder last).closes hactive hended
  refine ⟨hcloses.effect hidle hstatus, fun hothers => ?_, fun hwatch => ?_⟩
  · rw [store_while_active hordered (.inl hstage) hactive hothers, hstate, Pass.store_begin]
  · rw [lastFailure_while_active hordered (.inl hstage) hactive hwatch, hstate]
    rfl

/-- The store that a reloader works on; its checksum is that of no file. -/
def sampleStore : Store := Store.new ⟨[], .file, "/a", [], default⟩ default

attribute [local instance] Limits.usual

/-- A watch that has called for its first pass. -/
def sampleStarted : Process :=
  (Process.new (.new "/" "a" Options.default) (Run.sampleDisk "x") sampleStore .start).after
    [.start, .enter, .yield 0]

/-- The first read of a pass, which finds a new digest. -/
def sampleReads : List Event :=
  [.pass (.read 0), .pass (.work 0 default), .pass (.resume 0 default)]

/-- The watch is stopped while its pass loads the file. -/
theorem sample_pass_effect :
    (((sampleStarted.step (.pass (.acquire 0 default))).after sampleReads).step .stop).world.state =
      ⟨sampleStore, { Status.start with lastCheckedAt := some default }⟩ := by
  have hreachable : sampleStarted.Reachable := ⟨_, _, _, _, _, rfl, rfl⟩
  have hfirst : sampleStarted.world.state = ⟨sampleStore, .start⟩ := by
    decide +kernel
  obtain ⟨heffect, hothers, hwatch⟩ := pass_effect hreachable sampleReads 0 default .stop
    .cancelled (by decide +kernel) (by decide +kernel) (.inr (by decide +kernel))
    (by decide +kernel)
  have hstore := (heffect.store nofun).trans (hothers (by simp [sampleReads]))
  have hstatus := heffect.broken (.inl rfl)
  rw [hwatch (by simp [sampleReads]), hfirst] at hstatus
  rw [hfirst] at hstore
  generalize Process.step _ .stop = stopped at hstore hstatus ⊢
  rw [State.mk.injEq]
  exact ⟨hstore, hstatus⟩

end Process

end AdmissionControl.Reload
