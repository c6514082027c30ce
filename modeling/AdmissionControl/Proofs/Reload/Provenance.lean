import AdmissionControl.Proofs.Reload.Publication

/-!
# Where the current snapshot comes from

A store opens with an allowlist that was loaded from a source.  Whatever happens afterwards, the
current snapshot was loaded from a source too: by the opening, by a load of someone else, or by a
pass.  A content that a load took counts as long as the run goes on.

* `Store.Sourced` — some content gives the allowlist of the current snapshot.
* `World.Sourced`, `World.Sourced.step` — whatever is published or could be is given by a content.
* `Run.Loaded` — a load of the run took the content and gave the allowlist.
* `Run.exists_loaded` — the allowlist of the current snapshot was loaded, at every moment.
-/

namespace AdmissionControl

open Allowlist (LoadError Content contentOf)

/-- Some content gives the allowlist of the current snapshot. -/
def Store.Sourced [Limits] (s : Store) : Prop := ∃ c : Content, c.Gives s.current.allowlist

namespace Reload

theorem mem_toOption_iff {ε α : Type} {x : Except ε α} {a : α} :
    a ∈ x.toOption.toList ↔ x = .ok a := by
  cases x with
  | error e => simp [Except.toOption]
  | ok b => simp [Except.toOption, eq_comm]

/-- Only a load of someone else adds to what is held. -/
theorem Transition.held [Limits] {w w' : World} {e : Event} (h : Transition w e w') :
    w'.held = w.held ∨ ∃ source now, e = .load source now ∧
      w'.held = w.held ++ ((Allowlist.load w.disk source now).result w.trail).toOption.toList := by
  cases h with
  | load source now => exact .inr ⟨source, now, rfl, rfl⟩
  | _ => exact .inl rfl

/-! ### Whatever could be published -/

/-- Everything that is published, held ready or loaded by a worker is given by some content. -/
structure World.Sourced [Limits] (w : World) : Prop where
  current : w.state.store.Sourced
  held : ∀ a ∈ w.held, ∃ c : Content, c.Gives a
  worker : ∀ p a, w.worker p = some (.done (.load (.ok a))) → ∃ c : Content, c.Gives a

namespace World.Sourced

variable {w w' : World} {e : Event}

theorem start [Limits] (path : Text) (disk : FileSystem) {store : Store} (h : store.Sourced)
    (t : Trail) : (World.start path disk store t).Sourced :=
  ⟨h, fun _ h => absurd h List.not_mem_nil, fun _ _ h => by cases h⟩

theorem exists_of_held [Limits] (hw : w.Sourced) (h : Transition w e w') (a : Allowlist)
    (ha : a ∈ w'.held) : ∃ c : Content, c.Gives a := by
  rcases h.held with hkept | ⟨source, now, _, hheld⟩
  · rw [hkept] at ha
    exact hw.held a ha
  · rw [hheld, List.mem_append] at ha
    rcases ha with ha | ha
    · exact hw.held a ha
    · obtain ⟨c, _, hgives⟩ := Allowlist.load_gives (mem_toOption_iff.mp ha)
      exact ⟨c, hgives⟩

theorem exists_of_worker [Limits] (hw : w.Sourced) (h : Transition w e w') (p : Call)
    (a : Allowlist) (ha : w'.worker p = some (.done (.load (.ok a)))) :
    ∃ c : Content, c.Gives a := by
  by_cases hp : e.call? = some p
  · cases h with
    | disk | load | publish | call | settle | conclude | withdraw | abandon =>
      exact hw.worker p a ha
    | acquire | proceed =>
      cases hp
      rw [World.worker_await_self] at ha
      cases ha
    | read =>
      cases hp
      rw [World.worker_setWorker_self] at ha
      cases ha
    | @work _ job content now =>
      cases hp
      have hset : (w.setWorker p (.done (job.result w.path now content))).worker p =
          some (.done (.load (.ok a))) := ha
      rw [World.worker_setWorker_self, Option.some.injEq, Worker.done.injEq] at hset
      cases job with
      | digest => cases hset
      | load =>
        obtain ⟨bytes, _, hof⟩ := Allowlist.ofRead_eq_ok_iff.mp (Result.load.inj hset)
        exact ⟨_, Allowlist.gives_of_ofBytes hof⟩
  · rw [(h.frame hp).2] at ha
    exact hw.worker p a ha

/-- **One event keeps it so.** -/
theorem step [Limits] (hw : w.Sourced) (e : Event) : (w.step e).Sourced := by
  rcases w.transition_step e with hsame | h
  · rw [hsame]
    exact hw
  · refine ⟨?_, hw.exists_of_held h, hw.exists_of_worker h⟩
    rcases h.store with hkept | ⟨_, a, _, _, ha, hstore⟩ | ⟨p, a, _, _, _, hworker, _, hstore⟩
    · rw [hkept]
      exact hw.current
    · rw [hstore]
      exact hw.held a (List.mem_of_getElem? ha)
    · rw [hstore]
      exact hw.worker p a hworker

end World.Sourced

/-! ### What a run has loaded -/

namespace Run

variable (r : Run)

theorem held_cases [Limits] (r : Run) (n : Nat) :
    (r.world (n + 1)).held = (r.world n).held ∨
    ∃ source now, r.event n = .load source now ∧ (r.world (n + 1)).held = (r.world n).held ++
      ((Allowlist.load (r.world n).disk source now).result (r.world n).trail).toOption.toList := by
  rcases r.transition n with hsame | hstep
  · rw [hsame]
    exact .inl rfl
  · exact hstep.held

/-- The store of the run opens with an allowlist that was loaded from the content. -/
def OpensWith [Limits] (c : Content) : Prop :=
  ∃ source loadedAt publishedAt t a, contentOf r.disk source = some c ∧
    (Allowlist.load r.disk source loadedAt).result t = .ok a ∧ r.initial = Store.new a publishedAt

/-- Before the moment `n` a load took the content and gave the allowlist. -/
inductive Loaded [Limits] (r : Run) (n : Nat) (c : Content) (a : Allowlist) : Prop
  | opening {source : Source} {loadedAt publishedAt : Instant} {t : Trail} :
      contentOf r.disk source = some c →
      (Allowlist.load r.disk source loadedAt).result t = .ok a →
      r.initial = Store.new a publishedAt → Loaded r n c a
  | other {i : Nat} {source : Source} {now : Instant} : i < n → r.event i = .load source now →
      contentOf (r.world i).disk source = some c →
      (Allowlist.load (r.world i).disk source now).result (r.world i).trail = .ok a →
      Loaded r n c a
  | pass {i : Nat} {p : Call} {bytes : List UInt8} {now : Instant} : i < n → r.event i = .read p →
      r.content i = .ok bytes → c = .file bytes → Allowlist.ofBytes r.path bytes now = .ok a →
      Loaded r n c a

variable {r}

theorem Loaded.mono [Limits] {m n : Nat} (hmn : m ≤ n) {c : Content} {a : Allowlist}
    (h : r.Loaded m c a) : r.Loaded n c a := by
  cases h with
  | opening hc hload hinitial => exact .opening hc hload hinitial
  | other hi he hc hload => exact .other (Nat.lt_of_lt_of_le hi hmn) he hc hload
  | pass hi he hread hc hload => exact .pass (Nat.lt_of_lt_of_le hi hmn) he hread hc hload

/-- What a load gives is given by the content that it took. -/
theorem Loaded.gives [Limits] {n : Nat} {c : Content} {a : Allowlist} (h : r.Loaded n c a) :
    c.Gives a := by
  have hload : ∀ {disk : FileSystem} {source : Source} {now : Instant} {t : Trail},
      contentOf disk source = some c →
      (Allowlist.load disk source now).result t = .ok a → c.Gives a := by
    intro disk source now t hc hload
    obtain ⟨c', hc', hgives⟩ := Allowlist.load_gives hload
    rw [hc, Option.some.injEq] at hc'
    rw [hc']
    exact hgives
  cases h with
  | opening hc h => exact hload hc h
  | other _ _ hc h => exact hload hc h
  | pass _ _ _ hc h =>
    rw [hc]
    exact Allowlist.gives_of_ofBytes h

theorem loaded_of_publishes [Limits] (r : Run) {p : Call} {n : Nat} (h : r.Publishes p n) :
    ∃ c, r.Loaded (n + 1) c (r.store (n + 1)).current.allowlist := by
  obtain ⟨i, hi⟩ := r.publishedFrom h
  obtain ⟨bytes, a, now, hread, _, hlocation, hgives, hstore⟩ := hi.made
  have hload : Allowlist.ofBytes r.path bytes a.loadedAt = .ok a := by
    rw [← hlocation]
    exact Content.gives_file_iff.mp hgives
  rw [hstore, Store.allowlist_publish]
  exact ⟨.file bytes, .pass (Nat.lt_succ_of_lt hi.before) hi.event hread rfl hload⟩

/-- Everything that could be published, and the current snapshot, was loaded. -/
structure Traced [Limits] (r : Run) (n : Nat) : Prop where
  held : ∀ a ∈ (r.world n).held, ∃ c, r.Loaded n c a
  current : ∃ c, r.Loaded n c (r.store n).current.allowlist

theorem Traced.succ [Limits] {n : Nat} (h : r.Traced n) : r.Traced (n + 1) := by
  have hlater : ∀ {a}, (∃ c, r.Loaded n c a) → ∃ c, r.Loaded (n + 1) c a :=
    fun ⟨c, hc⟩ => ⟨c, hc.mono (Nat.le_succ n)⟩
  constructor
  · intro a ha
    rcases r.held_cases n with hkept | ⟨source, now, he, hheld⟩
    · rw [hkept] at ha
      exact hlater (h.held a ha)
    · rcases List.mem_append.mp (hheld ▸ ha) with ha | ha
      · exact hlater (h.held a ha)
      · have hload : (Allowlist.load (r.world n).disk source now).result (r.world n).trail =
            .ok a := mem_toOption_iff.mp ha
        obtain ⟨c, hc, _⟩ := Allowlist.load_gives hload
        exact ⟨c, .other (Nat.lt_succ_self n) he hc hload⟩
  · rcases r.store_cases n with hkept | ⟨index, a, now, _, ha, hstore⟩ | ⟨p, _, _, hp⟩
    · rw [hkept]
      exact hlater h.current
    · rw [hstore, Store.allowlist_publish]
      exact hlater (h.held a (List.mem_of_getElem? ha))
    · exact r.loaded_of_publishes hp

/-- **The current snapshot was loaded from a source**, at every moment of a run that opens with such
a snapshot. -/
theorem exists_loaded [Limits] (r : Run) {c₀ : Content} (h : r.OpensWith c₀) (n : Nat) :
    ∃ c, r.Loaded n c (r.store n).current.allowlist := by
  have htraced : r.Traced n := by
    induction n with
    | zero =>
      obtain ⟨source, loadedAt, publishedAt, t, a, hc, hload, hinitial⟩ := h
      have hcurrent : (r.store 0).current.allowlist = a := by
        show r.initial.current.allowlist = a
        rw [hinitial]
        rfl
      refine ⟨fun a ha => absurd ha List.not_mem_nil, c₀, ?_⟩
      rw [hcurrent]
      exact .opening hc hload hinitial
    | succ n ih => exact ih.succ
  exact htraced.current

/-- The run of `sample`, opened with an inline text. -/
def openedSample : Run :=
  { sample with
    initial := Store.new ⟨["0xab", "qm"], .inline, "L",
      Sha256.hexDigest [0x30, 0x78, 0x41, 0x42, 0x2C, 0x51, 0x6D], default⟩ default }

attribute [local instance] Limits.usual

theorem opensWith_openedSample : openedSample.OpensWith (.inline "0xAB,Qm") := by
  refine ⟨.inline (.text "0xAB,Qm") "L", default, default, Trail.start, _, rfl, ?_, rfl⟩
  rw [Allowlist.load, Allowlist.result_loadInline]
  decide +kernel

end Run

end Reload

end AdmissionControl
