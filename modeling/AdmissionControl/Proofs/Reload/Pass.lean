import AdmissionControl.Proofs.Allowlist
import AdmissionControl.Reload.Pass

/-!
# How a pass ends

The steps of a pass leave records, but what becomes of the store and of the status does not depend
on them.  Each step has a form without records here, and the form of a whole pass is put together
from these.

* `failure`, `turn` and `conclusion` are the three places at which a pass can end.
* `run_fst` — a pass without interruption, from the one result of reading the file.
* `store_turn`, `conclusion_store_of_error` — only a load that succeeds changes the store.
-/

namespace AdmissionControl.Reload.Pass

open Allowlist (LoadError)

/-! ### The steps without their records -/

/-- The end of a pass that a load error brings about. -/
def failure (now : Instant) (s : State) : LoadError → State × Outcome
  | .refused r => (⟨s.store, (s.status.failed ⟨r.message, r.kind, now⟩).settle⟩, .failed)
  | .fault f => (⟨s.store, s.status.settle⟩, .escaped f)

/-- What follows the first read. -/
def turn (now : Instant) (s : State) : Except LoadError Text → Turn
  | .error e => .ended (failure now s e).1 (failure now s e).2
  | .ok checksum =>
    if checksum = s.store.current.allowlist.checksum then
      .ended ⟨s.store, s.status.unchanged.settle⟩ .unchanged
    else .loading ⟨s.store, { s.status with phase := .loading }⟩

/-- What follows the second read. -/
def conclusion (now : Instant) (s : State) : Except LoadError Allowlist → State × Outcome
  | .error e => failure now s e
  | .ok a => (⟨s.store.publish a now, (s.status.published now).settle⟩, .published)

theorem fail_fst (path : Text) (now : Instant) (s : State) (e : LoadError) (t : Trail) :
    ((fail path now s e).run t).1 = failure now s e := by
  cases e <;> rfl

theorem checked_fst (path : Text) (now : Instant) (s : State) (r : Except LoadError Text)
    (t : Trail) : ((checked path now s r).run t).1 = turn now s r := by
  cases r with
  | error e =>
    have h := fail_fst path now s e t
    rw [turn, ← h]
    rfl
  | ok checksum =>
    rw [checked, turn]
    split <;> rfl

theorem loaded_fst (path : Text) (now : Instant) (s : State) (r : Except LoadError Allowlist)
    (t : Trail) : ((loaded path now s r).run t).1 = conclusion now s r := by
  cases r with
  | error e => exact fail_fst path now s e t
  | ok a => rfl

/-- **A pass without interruption**, from what reading the file came to. -/
theorem run_fst [Limits] (fs : FileSystem) (path : Text) (now : Instant) (s : State) (t : Trail) :
    ((run fs path now s).run t).1 =
      match turn now (begin now s) (Allowlist.fileChecksum fs path) with
      | .ended s outcome => (s, outcome)
      | .loading s =>
        conclusion now s (Allowlist.ofRead path now (Allowlist.readFile fs path)) := by
  rw [run, StateT.run_bind]
  rw [← checked_fst path now (begin now s) _ t]
  generalize hstep : (checked path now (begin now s) (Allowlist.fileChecksum fs path)).run t = step
  obtain ⟨next, trail⟩ := step
  cases next with
  | ended s outcome => rfl
  | loading s =>
    show ((loaded path now s ((Allowlist.load fs (.file path) now).result trail)).run _).1 = _
    rw [loaded_fst, Allowlist.result_load_file]

/-! ### What the steps do to the store -/

def Turn.state : Turn → State
  | .ended s _ => s
  | .loading s => s

@[simp] theorem store_begin (now : Instant) (s : State) : (begin now s).store = s.store := rfl

@[simp] theorem store_failure (now : Instant) (s : State) (e : LoadError) :
    (failure now s e).1.store = s.store := by
  cases e <;> rfl

@[simp] theorem store_turn (now : Instant) (s : State) (r : Except LoadError Text) :
    (Turn.state (turn now s r)).store = s.store := by
  cases r with
  | error e => exact store_failure now s e
  | ok checksum =>
    rw [turn]
    split <;> rfl

/-- A pass that is over after its first read has published nothing. -/
theorem of_turn_ended {now : Instant} {s s' : State} {r : Except LoadError Text}
    {outcome : Outcome} (h : turn now s r = .ended s' outcome) :
    s'.store = s.store ∧ outcome ≠ .published ∧ outcome ≠ .cancelled := by
  have hstore := store_turn now s r
  rw [h] at hstore
  refine ⟨hstore, ?_⟩
  cases r with
  | error e =>
    rw [turn, Turn.ended.injEq] at h
    rw [← h.2]
    cases e <;> simp [failure]
  | ok checksum =>
    rw [turn] at h
    split at h
    · rw [Turn.ended.injEq] at h
      rw [← h.2]
      simp
    · cases h

/-- A pass that goes on after its first read has seen a new digest. -/
theorem of_turn_loading {now : Instant} {s s' : State} {r : Except LoadError Text}
    (h : turn now s r = .loading s') :
    s'.store = s.store ∧
      ∃ checksum, r = .ok checksum ∧ checksum ≠ s.store.current.allowlist.checksum := by
  have hstore := store_turn now s r
  rw [h] at hstore
  refine ⟨hstore, ?_⟩
  cases r with
  | error e => cases h
  | ok checksum =>
    rw [turn] at h
    split at h
    · cases h
    · rename_i hne
      exact ⟨checksum, rfl, hne⟩

/-- A pass that gets to its second read publishes exactly what it loads. -/
theorem conclusion_cases (now : Instant) (s : State) (r : Except LoadError Allowlist) :
    (∃ a, r = .ok a ∧ (conclusion now s r).2 = .published ∧
      (conclusion now s r).1.store = s.store.publish a now) ∨
    ((conclusion now s r).2 ≠ .published ∧ (conclusion now s r).2 ≠ .cancelled ∧
      (conclusion now s r).1.store = s.store) := by
  cases r with
  | ok a => exact .inl ⟨a, rfl, rfl, rfl⟩
  | error e =>
    refine .inr ⟨?_, ?_, store_failure now s e⟩
    · cases e <;> simp [conclusion, failure]
    · cases e <;> simp [conclusion, failure]

theorem conclusion_store_of_error (now : Instant) (s : State) (e : LoadError) :
    (conclusion now s (.error e)).1.store = s.store := store_failure now s e

end AdmissionControl.Reload.Pass
