import AdmissionControl.Proofs.Reload.Interleaving
import Mathlib.Order.Monotone.Basic

/-!
# What passes that overlap publish

Whatever the order in which calls, their workers, cancellations and changes of the disk come, each
publication of a pass is made of one content of the file, which its load read at one moment after
the pass had begun; and a later publication is made of a content that was read later.

* `Stage.Next`, `Transition.stage` — a call goes forward only, and only by events of its own.
* `active_unique` — two passes are never under way at once.
* `worker_from` — what a worker holds is what the file held at a moment since its pass began.
* `publishedFrom` — the read that a publication is made of.
* `read_lt_read` — a publication never takes the place of one that was read later.
-/

namespace AdmissionControl.Reload

open Allowlist (LoadError Content readFile)

/-! ### How a call goes forward -/

/-- The ways in which the stage of a call changes. -/
inductive Stage.Next : Stage → Stage → Prop
  | call : Next absent waiting
  | acquire : Next waiting checking
  | settle {outcome : Outcome} : outcome ≠ .published → outcome ≠ .cancelled →
      Next checking (ended outcome)
  | proceed : Next checking loading
  | conclude {outcome : Outcome} : outcome ≠ .cancelled → Next loading (ended outcome)
  | withdraw : Next waiting (ended .cancelled)
  | abandon {s : Stage} : s.Active → Next s (ended .cancelled)

theorem Stage.Next.rank_lt {s s' : Stage} (h : Next s s') : s.rank < s'.rank := by
  cases h with
  | abandon h =>
    rw [active_iff_rank] at h
    exact Nat.lt_succ_of_le h.2
  | _ => simp [rank]

theorem Stage.Next.active {s s' : Stage} (h : Next s s') (hs : s'.Active) :
    s.Active ∨ s = waiting ∧ s' = checking := by
  cases h with
  | acquire => exact .inr ⟨rfl, rfl⟩
  | proceed => exact .inl (.inl rfl)
  | _ => simp [Active] at hs

theorem Stage.Next.not_ended {s : Stage} {outcome : Outcome} : ¬ Next (ended outcome) s := by
  rintro (_ | _ | _ | _ | _ | _ | h)
  simp [Active] at h

theorem Stage.active_update {f : Call → Stage} {p q : Call} {s : Stage}
    (h : (Function.update f q s p).Active) : p = q ∧ s.Active ∨ p ≠ q ∧ (f p).Active := by
  by_cases hpq : p = q
  · subst hpq
    rw [Function.update_self] at h
    exact .inl ⟨rfl, h⟩
  · rw [Function.update_of_ne hpq] at h
    exact .inr ⟨hpq, h⟩

namespace Transition

variable {w w' : World} {e : Event}

theorem path [Limits] (h : Transition w e w') : w'.path = w.path := by
  cases h <;> rfl

/-- An event leaves the calls alone that it is not about. -/
theorem frame [Limits] (h : Transition w e w') {p : Call} (hp : e.call? ≠ some p) :
    w'.stage p = w.stage p ∧ w'.worker p = w.worker p := by
  have hne : ∀ q, e.call? = some q → p ≠ q := by
    rintro q hq rfl
    exact hp hq
  cases h with
  | disk | load | publish => exact ⟨rfl, rfl⟩
  | call | withdraw | settle | conclude | abandon =>
    exact ⟨Function.update_of_ne (hne _ rfl) .., rfl⟩
  | read | work => exact ⟨rfl, Function.update_of_ne (hne _ rfl) ..⟩
  | acquire | proceed =>
    exact ⟨Function.update_of_ne (hne _ rfl) .., Function.update_of_ne (hne _ rfl) ..⟩

/-- **A call goes forward or stays where it is.** -/
theorem stage [Limits] (h : Transition w e w') (p : Call) :
    w'.stage p = w.stage p ∨ Stage.Next (w.stage p) (w'.stage p) := by
  by_cases hp : e.call? = some p
  · have hupdate : ∀ s, Stage.Next (w.stage p) s →
        Function.update w.stage p s p = w.stage p ∨
          Stage.Next (w.stage p) (Function.update w.stage p s p) := by
      intro s hs
      rw [Function.update_self]
      exact .inr hs
    cases h with
    | disk | load | publish => exact .inl rfl
    | read | work => exact .inl rfl
    | call hs =>
      cases hp
      exact hupdate _ (by rw [hs]; exact .call)
    | acquire _ hs =>
      cases hp
      exact hupdate _ (by rw [hs]; exact .acquire)
    | settle _ hs _ hturn =>
      cases hp
      obtain ⟨_, hpublished, hcancelled⟩ := Pass.of_turn_ended hturn
      exact hupdate _ (by rw [hs]; exact .settle hpublished hcancelled)
    | proceed _ hs =>
      cases hp
      exact hupdate _ (by rw [hs]; exact .proceed)
    | conclude now _ hs =>
      cases hp
      refine hupdate _ ?_
      rw [hs]
      refine .conclude ?_
      rcases Pass.conclusion_cases now w.state _ with ⟨_, _, ho, _⟩ | ⟨_, ho, _⟩
      · rw [ho]
        simp
      · exact ho
    | withdraw hs =>
      cases hp
      exact hupdate _ (by rw [hs]; exact .withdraw)
    | abandon hs =>
      cases hp
      exact hupdate _ (.abandon hs)
  · exact .inl (h.frame hp).1

theorem active [Limits] (h : Transition w e w') (p : Call) (hp : (w'.stage p).Active) :
    (w.stage p).Active ∨ w.stage p = .waiting ∧ w'.stage p = .checking := by
  rcases h.stage p with heq | hnext
  · rw [heq] at hp
    exact .inl hp
  · exact hnext.active hp

/-- **What can become of the store**: someone else publishes, or a pass does that ends with it. -/
theorem store [Limits] (h : Transition w e w') :
    w'.state.store = w.state.store ∨
    (∃ index a now, e = .publish index now ∧ w.held[index]? = some a ∧
      w'.state.store = w.state.store.publish a now) ∨
    (∃ p a now, e = .resume p now ∧ w.stage p = .loading ∧
      w.worker p = some (.done (.load (.ok a))) ∧ w'.stage p = .ended .published ∧
      w'.state.store = w.state.store.publish a now) := by
  cases h with
  | publish now trail ha => exact .inr (.inl ⟨_, _, _, rfl, ha, rfl⟩)
  | settle _ _ _ hturn => exact .inl (Pass.of_turn_ended hturn).1
  | proceed _ _ _ hturn => exact .inl (Pass.of_turn_loading hturn).1
  | @conclude p r now trail hs hworker =>
    rcases Pass.conclusion_cases now w.state r with ⟨a, rfl, ho, hstore⟩ | ⟨_, _, hstore⟩
    · refine .inr (.inr ⟨p, a, now, rfl, hs, hworker, ?_, hstore⟩)
      rw [World.stage_leave_self, ho]
    · exact .inl hstore
  | _ => exact .inl rfl

/-- A pass that ends with a publication publishes what its worker loaded. -/
theorem published [Limits] (h : Transition w e w') {p : Call} (hs : w.stage p = .loading)
    (hs' : w'.stage p = .ended .published) :
    ∃ a now, e = .resume p now ∧ w.worker p = some (.done (.load (.ok a))) ∧
      w'.state.store = w.state.store.publish a now := by
  have hp : e.call? = some p := by
    by_contra hp
    rw [(h.frame hp).1, hs] at hs'
    cases hs'
  cases h with
  | @conclude _ r now trail _ hworker =>
    cases hp
    rw [World.stage_leave_self, Stage.ended.injEq] at hs'
    rcases Pass.conclusion_cases now w.state r with ⟨a, rfl, _, hstore⟩ | ⟨hne, _⟩
    · exact ⟨a, now, rfl, hworker, hstore⟩
    · exact absurd hs' hne
  | disk | load | publish => cases hp
  | read | work =>
    rw [show w.stage p = .ended .published from hs'] at hs
    cases hs
  | call hc | withdraw hc | acquire _ hc | settle _ hc | proceed _ hc =>
    cases hp
    rw [hs] at hc
    cases hc
  | abandon =>
    cases hp
    rw [World.stage_leave_self] at hs'
    cases hs'

/-- When the call leaves that holds the lock, nobody is under way. -/
theorem not_active_leave (hlock : ∀ p, (w.stage p).Active → w.lock = some p) {p q : Call}
    {s : State} {outcome : Outcome} {t : Trail} (hq : (w.stage q).Active) :
    ¬ ((w.leave q s outcome t).stage p).Active := by
  intro hp
  rcases Stage.active_update hp with ⟨_, hs⟩ | ⟨hne, hp⟩
  · simp [Stage.Active] at hs
  · exact hne (Option.some.inj ((hlock p hp).symm.trans (hlock q hq)))

/-- **Whoever is under way holds the lock.** -/
theorem lock [Limits] (h : Transition w e w') (hlock : ∀ p, (w.stage p).Active → w.lock = some p)
    (p : Call) (hp : (w'.stage p).Active) : w'.lock = some p := by
  cases h with
  | disk | load | publish | read | work => exact hlock p hp
  | call | withdraw =>
    rcases Stage.active_update hp with ⟨_, hs⟩ | ⟨_, hp⟩
    · simp [Stage.Active] at hs
    · exact hlock p hp
  | acquire _ _ hfree =>
    rcases Stage.active_update hp with ⟨rfl, _⟩ | ⟨_, hp⟩
    · rfl
    · rw [hlock p hp] at hfree
      cases hfree
  | @proceed q _ _ _ _ hq =>
    rcases Stage.active_update hp with ⟨rfl, _⟩ | ⟨_, hp⟩
    · rfl
    · exact (hlock q (.inl hq)).symm.trans (hlock p hp)
  | @settle q _ _ _ _ _ hq =>
    exact (not_active_leave hlock (.inl hq) hp).elim
  | @conclude q _ _ _ hq =>
    exact (not_active_leave hlock (.inr hq) hp).elim
  | @abandon q hq =>
    exact (not_active_leave hlock hq hp).elim

end Transition

/-! ### Where what a worker holds comes from -/

namespace Worker

/-- A worker has the job, and what it holds is what was seen of the file. -/
def Holds [Limits] (seen : Except LoadError (List UInt8) → Prop) (path : Text) (job : Job) :
    Worker → Prop
  | .sent job' => job' = job
  | .holding job' content => job' = job ∧ seen content
  | .done result => ∃ content now, seen content ∧ result = job.result path now content

theorem Holds.mono [Limits] {seen seen' : Except LoadError (List UInt8) → Prop} {path : Text}
    {job : Job} {worker : Worker} (h : worker.Holds seen path job)
    (hseen : ∀ content, seen content → seen' content) : worker.Holds seen' path job := by
  cases worker with
  | sent job' => exact h
  | holding job' content => exact ⟨h.1, hseen _ h.2⟩
  | done result =>
    obtain ⟨content, now, hcontent, hresult⟩ := h
    exact ⟨content, now, hseen _ hcontent, hresult⟩

end Worker

/-- One event keeps what a worker holds that its call waits for. -/
theorem Transition.holds [Limits] {w w' : World} {e : Event} (h : Transition w e w') {p : Call}
    {job : Job} {seen : Except LoadError (List UInt8) → Prop}
    (hbefore : ∀ job, (w.stage p).job? = some job →
      ∃ worker, w.worker p = some worker ∧ worker.Holds seen w.path job)
    (hread : e = .read p → (w.stage p).Active → seen (readFile w.disk w.path))
    (hjob : (w'.stage p).job? = some job) :
    ∃ worker, w'.worker p = some worker ∧ worker.Holds seen w.path job := by
  by_cases hp : e.call? = some p
  · cases h with
    | disk | load | publish => cases hp
    | call | withdraw =>
      cases hp
      rw [World.stage_moveTo_self] at hjob
      cases hjob
    | settle | conclude | abandon =>
      cases hp
      rw [World.stage_leave_self] at hjob
      cases hjob
    | acquire | proceed =>
      cases hp
      rw [World.stage_await_self] at hjob
      cases hjob
      exact ⟨_, World.worker_await_self .., rfl⟩
    | @read _ job' hworker =>
      cases hp
      obtain ⟨worker, hsome, hholds⟩ := hbefore job hjob
      rw [hworker, Option.some.injEq] at hsome
      subst hsome
      refine ⟨_, Function.update_self .., hholds, ?_⟩
      exact hread rfl (Stage.active_iff_job?.mpr ⟨job, hjob⟩)
    | @work _ job' content now trail hworker =>
      cases hp
      obtain ⟨worker, hsome, hholds⟩ := hbefore job hjob
      rw [hworker, Option.some.injEq] at hsome
      subst hsome
      obtain ⟨rfl, hseen⟩ := hholds
      exact ⟨_, Function.update_self .., content, now, hseen, rfl⟩
  · obtain ⟨hstage, hworker⟩ := h.frame hp
    rw [hstage] at hjob
    rw [hworker]
    exact hbefore job hjob

/-! ### What holds at every moment of a run -/

namespace Run

variable (r : Run)

/-- A call takes the lock, and its pass begins. -/
def Begins [Limits] (p : Call) (n : Nat) : Prop :=
  (r.world n).stage p = .waiting ∧ (r.world (n + 1)).stage p = .checking

/-- A pass ends with a publication. -/
def Publishes [Limits] (p : Call) (n : Nat) : Prop :=
  (r.world n).stage p = .loading ∧ (r.world (n + 1)).stage p = .ended .published

/-- Between the beginning of its pass and the moment `n` a worker of the call has read the file, and
this is what it held. -/
def ReadBefore [Limits] (p : Call) (n : Nat) (content : Except LoadError (List UInt8)) : Prop :=
  ∃ j i, r.Begins p j ∧ j < i ∧ i < n ∧ r.event i = .read p ∧ r.content i = content

variable {r}

theorem ReadBefore.succ [Limits] {p : Call} {n : Nat} {content : Except LoadError (List UInt8)}
    (h : r.ReadBefore p n content) : r.ReadBefore p (n + 1) content := by
  obtain ⟨j, i, hbegins, hji, hin, hread⟩ := h
  exact ⟨j, i, hbegins, hji, Nat.lt_succ_of_lt hin, hread⟩

theorem transition [Limits] (r : Run) (n : Nat) :
    r.world (n + 1) = r.world n ∨ Transition (r.world n) (r.event n) (r.world (n + 1)) :=
  (r.world n).transition_step (r.event n)

@[simp] theorem path_world [Limits] (r : Run) (n : Nat) : (r.world n).path = r.path := by
  induction n with
  | zero => rfl
  | succ n ih =>
    rcases r.transition n with hsame | hstep
    · rw [hsame, ih]
    · rw [hstep.path, ih]

theorem rank_le_succ [Limits] (r : Run) (p : Call) (n : Nat) :
    ((r.world n).stage p).rank ≤ ((r.world (n + 1)).stage p).rank := by
  rcases r.transition n with hsame | hstep
  · rw [hsame]
  · rcases hstep.stage p with heq | hnext
    · rw [heq]
    · exact hnext.rank_lt.le

theorem rank_mono [Limits] (r : Run) (p : Call) : Monotone fun n => ((r.world n).stage p).rank :=
  monotone_nat_of_le_succ (r.rank_le_succ p)

theorem lock_of_active [Limits] (r : Run) (n : Nat) (p : Call) (hp : ((r.world n).stage p).Active) :
    (r.world n).lock = some p := by
  induction n generalizing p with
  | zero => simp [world, World.start, Stage.Active] at hp
  | succ n ih =>
    rcases r.transition n with hsame | hstep
    · rw [hsame] at hp ⊢
      exact ih p hp
    · exact hstep.lock ih p hp

/-- **Two passes are never under way at once.** -/
theorem active_unique [Limits] (r : Run) {n : Nat} {p q : Call} (hp : ((r.world n).stage p).Active)
    (hq : ((r.world n).stage q).Active) : p = q :=
  Option.some.inj ((r.lock_of_active n p hp).symm.trans (r.lock_of_active n q hq))

theorem begins_of_active [Limits] (r : Run) {n : Nat} {p : Call}
    (hp : ((r.world n).stage p).Active) : ∃ j < n, r.Begins p j := by
  induction n with
  | zero => simp [world, World.start, Stage.Active] at hp
  | succ n ih =>
    have hearlier : ((r.world n).stage p).Active → ∃ j < n + 1, r.Begins p j := by
      intro h
      obtain ⟨j, hj, hbegins⟩ := ih h
      exact ⟨j, Nat.lt_succ_of_lt hj, hbegins⟩
    rcases r.transition n with hsame | hstep
    · rw [hsame] at hp
      exact hearlier hp
    · rcases hstep.active p hp with hbefore | hbegins
      · exact hearlier hbefore
      · exact ⟨n, Nat.lt_succ_self n, hbegins⟩

/-- **What a worker holds that a pass waits for** is what the file held at one moment since the pass
began. -/
theorem worker_from [Limits] (r : Run) {n : Nat} {p : Call} {job : Job}
    (hjob : ((r.world n).stage p).job? = some job) :
    ∃ worker, (r.world n).worker p = some worker ∧ worker.Holds (r.ReadBefore p n) r.path job := by
  induction n generalizing job with
  | zero => simp [world, World.start, Stage.job?] at hjob
  | succ n ih =>
    rcases r.transition n with hsame | hstep
    · rw [hsame] at hjob ⊢
      obtain ⟨worker, hworker, hholds⟩ := ih hjob
      exact ⟨worker, hworker, hholds.mono fun _ => ReadBefore.succ⟩
    · have hbefore : ∀ job, ((r.world n).stage p).job? = some job →
          ∃ worker, (r.world n).worker p = some worker ∧
            worker.Holds (r.ReadBefore p (n + 1)) (r.world n).path job := by
        intro job hjob
        obtain ⟨worker, hworker, hholds⟩ := ih hjob
        rw [path_world]
        exact ⟨worker, hworker, hholds.mono fun _ => ReadBefore.succ⟩
      have hread : r.event n = .read p → ((r.world n).stage p).Active →
          r.ReadBefore p (n + 1) (r.content n) := by
        intro he hactive
        obtain ⟨j, hj, hbegins⟩ := r.begins_of_active hactive
        exact ⟨j, n, hbegins, hj, Nat.lt_succ_self n, he, rfl⟩
      have hholds := hstep.holds hbefore hread hjob
      rw [path_world] at hholds
      exact hholds

/-! ### Publications -/

/-- A call that has returned stays as it is. -/
theorem ended_stays [Limits] (r : Run) {p : Call} {outcome : Outcome} {m n : Nat}
    (hm : (r.world m).stage p = .ended outcome) (hmn : m ≤ n) :
    (r.world n).stage p = .ended outcome := by
  induction hmn with
  | refl => exact hm
  | @step n _ ih =>
    rcases r.transition n with hsame | hstep
    · rw [hsame, ih]
    · rcases hstep.stage p with heq | hnext
      · rw [heq, ih]
      · rw [ih] at hnext
        exact (hnext.not_ended).elim

/-- **What becomes of the store** at each moment of a run. -/
theorem store_cases [Limits] (r : Run) (n : Nat) :
    r.store (n + 1) = r.store n ∨
    (∃ index a now, r.event n = .publish index now ∧ (r.world n).held[index]? = some a ∧
      r.store (n + 1) = (r.store n).publish a now) ∨
    (∃ p now, r.event n = .resume p now ∧ r.Publishes p n) := by
  rcases r.transition n with hsame | hstep
  · exact .inl (by rw [store, hsame, store])
  · rcases hstep.store with hkept | hother | ⟨p, a, now, he, hs, _, hs', _⟩
    · exact .inl hkept
    · exact .inr (.inl hother)
    · exact .inr (.inr ⟨p, now, he, hs, hs'⟩)

/-- The publication of a moment is made of what its call read at the moment `i`. -/
structure PublishedFrom [Limits] (r : Run) (p : Call) (n i : Nat) : Prop where
  began : ∃ j < i, r.Begins p j
  before : i < n
  event : r.event i = .read p
  made : ∃ bytes a now, r.content i = .ok bytes ∧ a.checksum = Sha256.hexDigest bytes ∧
    a.location = r.path ∧ (Content.file bytes).Gives a ∧
    r.store (n + 1) = (r.store n).publish a now

/-- **A publication is made of one content of the file**, read since its pass began. -/
theorem publishedFrom [Limits] (r : Run) {p : Call} {n : Nat} (h : r.Publishes p n) :
    ∃ i, r.PublishedFrom p n i := by
  obtain ⟨hs, hs'⟩ := h
  have hstep : Transition (r.world n) (r.event n) (r.world (n + 1)) := by
    rcases r.transition n with hsame | hstep
    · rw [hsame, hs] at hs'
      cases hs'
    · exact hstep
  obtain ⟨a, now, _, hworker, hstore⟩ := hstep.published hs hs'
  have hjob : ((r.world n).stage p).job? = some .load := by
    rw [hs]
    rfl
  obtain ⟨worker, hsome, hholds⟩ := r.worker_from hjob
  rw [hworker, Option.some.injEq] at hsome
  subst hsome
  obtain ⟨content, time, ⟨j, i, hbegins, hji, hin, hevent, hread⟩, hresult⟩ := hholds
  rw [Job.result, Result.load.injEq] at hresult
  obtain ⟨bytes, hbytes, hof⟩ := Allowlist.ofRead_eq_ok_iff.mp hresult.symm
  have hgives := Allowlist.gives_of_ofBytes hof
  refine ⟨i, ⟨j, hji, hbegins⟩, hin, hevent, bytes, a, now, hread.trans hbytes,
    Content.checksum_of_gives hgives, ?_, hgives, hstore⟩
  obtain ⟨_, _, _, _, ha⟩ := Content.ofBytes_eq_ok_iff.mp hof
  rw [ha]

/-- A pass that publishes later than another one has begun later than that one has ended. -/
theorem le_of_begins [Limits] (r : Run) {p q : Call} {m n j : Nat} (hm : r.Publishes p m)
    (hn : r.Publishes q n) (hmn : m < n) (hj : r.Begins q j) : m ≤ j := by
  by_contra hle
  have hlt := Nat.lt_of_not_le hle
  have hactive : ((r.world m).stage q).Active := by
    have hbegun := r.rank_mono q (Nat.succ_le_of_lt hlt)
    have hunder := r.rank_mono q hmn.le
    simp only [hj.2, hn.1, Stage.rank] at hbegun hunder
    exact Stage.active_iff_rank.mpr ⟨hbegun, hunder⟩
  have hpq := r.active_unique (.inr hm.1) hactive
  have hended := r.ended_stays hm.2 (Nat.succ_le_of_lt hmn)
  rw [hpq, hn.1] at hended
  cases hended

/-- **A later publication is made of a later read.** -/
theorem read_lt_read [Limits] (r : Run) {p q : Call} {m n i k : Nat} (hm : r.Publishes p m)
    (hn : r.Publishes q n) (hmn : m < n) (hi : r.PublishedFrom p m i)
    (hk : r.PublishedFrom q n k) : i < k := by
  obtain ⟨j, hjk, hbegins⟩ := hk.began
  calc i < m := hi.before
    _ ≤ j := r.le_of_begins hm hn hmn hbegins
    _ < k := hjk

/-- A call is cancelled that has not returned. -/
def Cancels [Limits] (r : Run) (p : Call) (n : Nat) : Prop :=
  r.event n = .cancel p ∧ ((r.world n).stage p = .waiting ∨ ((r.world n).stage p).Active)

theorem Cancels.ended [Limits] {p : Call} {n : Nat} (h : r.Cancels p n) :
    (r.world (n + 1)).stage p = .ended .cancelled := by
  obtain ⟨hevent, hstage⟩ := h
  rw [world, hevent, World.step, World.cancel]
  rcases hstage with hs | hs | hs <;> rw [hs]
  · exact World.stage_moveTo_self ..
  · exact World.stage_leave_self ..
  · exact World.stage_leave_self ..

/-- **A cancelled call publishes nothing**, whatever becomes of its worker. -/
theorem not_publishes_of_cancels [Limits] (r : Run) {p : Call} {c : Nat} (h : r.Cancels p c)
    (n : Nat) : ¬ r.Publishes p n := by
  intro hp
  rcases Nat.lt_or_ge c n with hcn | hnc
  · have hended := r.ended_stays h.ended (Nat.succ_le_of_lt hcn)
    rw [hp.1] at hended
    cases hended
  · have hended := r.ended_stays hp.2 (Nat.succ_le_succ hnc)
    rw [h.ended] at hended
    cases hended

theorem store_of_cancels [Limits] (r : Run) {p : Call} {c n : Nat} (h : r.Cancels p c)
    (hn : (r.event n).call? = some p) : r.store (n + 1) = r.store n := by
  rcases r.store_cases n with hkept | ⟨_, _, _, he, _⟩ | ⟨q, now, he, hq⟩
  · exact hkept
  · rw [he] at hn
    cases hn
  · rw [he] at hn
    cases hn
    exact (r.not_publishes_of_cancels h n hq).elim

/-- **Publications of overlapping passes are neither torn nor stale.**  In every run: at most one
pass is under way at a time; every publication of a pass is made of one content of the file, read at
one moment since the pass began; later publications are made of later reads; a cancelled call
publishes nothing, before or after its worker is done; and nothing but a pass and an explicit
publish touches the store. -/
theorem publications_whole_and_in_order [Limits] (r : Run) :
    (∀ n p q, ((r.world n).stage p).Active → ((r.world n).stage q).Active → p = q) ∧
    (∃ read : Nat → Nat, (∀ p n, r.Publishes p n → r.PublishedFrom p n (read n)) ∧
      ∀ p q m n, r.Publishes p m → r.Publishes q n → m < n → read m < read n) ∧
    (∀ p c, r.Cancels p c → ∀ n, ¬ r.Publishes p n ∧
      ((r.event n).call? = some p → r.store (n + 1) = r.store n)) ∧
    ∀ n, r.store (n + 1) = r.store n ∨ (∃ index now, r.event n = .publish index now) ∨
      ∃ p, r.Publishes p n := by
  have hunique : ∀ n p q, r.Publishes p n → r.Publishes q n → p = q :=
    fun n p q hp hq => r.active_unique (.inr hp.1) (.inr hq.1)
  have hread : ∀ n, ∃ i, ∀ p, r.Publishes p n → r.PublishedFrom p n i := by
    intro n
    by_cases hn : ∃ p, r.Publishes p n
    · obtain ⟨p, hp⟩ := hn
      obtain ⟨i, hi⟩ := r.publishedFrom hp
      refine ⟨i, fun q hq => ?_⟩
      rw [hunique n q p hq hp]
      exact hi
    · exact ⟨0, fun p hp => absurd ⟨p, hp⟩ hn⟩
  choose read hread using hread
  refine ⟨fun n p q => r.active_unique, ⟨read, fun p n => hread n p, ?_⟩, ?_, ?_⟩
  · intro p q m n hm hn hmn
    exact r.read_lt_read hm hn hmn (hread m p hm) (hread n q hn)
  · exact fun p c h n => ⟨r.not_publishes_of_cancels h n, r.store_of_cancels h⟩
  · intro n
    rcases r.store_cases n with hkept | ⟨index, _, now, he, _⟩ | ⟨p, _, _, hp⟩
    · exact .inl hkept
    · exact .inr (.inl ⟨index, now, he⟩)
    · exact .inr (.inr ⟨p, hp⟩)

/-! ### A run with two publications -/

/-- A document with one ASCII identifier. -/
def sampleBytes (identifier : String) : List UInt8 :=
  ("\x7b\"allowlist\": [\"" ++ identifier ++ "\"]\x7d").toList.map fun c => UInt8.ofNat c.toNat

/-- A disk with that document in its root directory. -/
def sampleDisk (identifier : String) : FileSystem :=
  ⟨⟨[([[0x61]], .file (sampleBytes identifier))]⟩, "/"⟩

/-- One call publishes, the file changes, a second call is cancelled while it loads, a third one
publishes, and the worker of the second is done. -/
def sample : Run where
  path := "/a"
  disk := sampleDisk "x"
  initial := Store.new ⟨[], .file, "/a", [], default⟩ default
  trail := .start
  event n := (solo 0 default ++ [.disk (sampleDisk "y")] ++ opening 1 default ++
    [.resume 1 default, .read 1, .cancel 1] ++ solo 2 default ++
    [.work 1 default])[n]?.getD (.call 0)

attribute [local instance] Limits.usual

theorem sample_publications : sample.Publishes 0 7 ∧ sample.Cancels 1 15 ∧ sample.Publishes 2 23 ∧
    ∃ i k, i < k ∧ sample.PublishedFrom 0 7 i ∧ sample.PublishedFrom 2 23 k ∧
      ∀ n, ¬ sample.Publishes 1 n := by
  have hfirst : sample.Publishes 0 7 := by
    constructor <;> decide +kernel
  have hsecond : sample.Publishes 2 23 := by
    constructor <;> decide +kernel
  have hcancel : sample.Cancels 1 15 := ⟨rfl, .inr (.inr (by decide +kernel))⟩
  obtain ⟨_, ⟨read, hread, horder⟩, hnone, _⟩ := sample.publications_whole_and_in_order
  exact ⟨hfirst, hcancel, hsecond, read 7, read 23, horder 0 2 7 23 hfirst hsecond (by decide),
    hread 0 7 hfirst, hread 2 23 hsecond, fun n => (hnone 1 15 hcancel n).1⟩

end Run

end AdmissionControl.Reload
