import AdmissionControl.Proofs.Reload.Process

/-!
# The failures in a row

The status counts the failures in a row, and it counts what the passes themselves report: a pass
that is cancelled, or that a fault ends, is passed over.  The number is therefore a function of how
the passes ended, and it is zero unless the last pass that counts has failed.

* `Outcome.counts`, `failuresInARow` — what is counted.
* `Process.tally_step` — what one event does to the number.
* `Process.consecutiveFailures_eq` — the number, in every state that a reloader can be in.
* `failuresInARow_ne_zero_iff` — when it is not zero.
-/

namespace AdmissionControl.Reload

/-- Whether the end of a pass counts: a cancelled one does not, and a fault is not noticed. -/
def Outcome.counts : Outcome → Bool
  | .unchanged | .published | .failed => true
  | .cancelled | .escaped _ => false

/-- The failures since the last success, of passes that count; the last pass comes first. -/
def failuresInARow : List Outcome → Nat
  | [] => 0
  | .failed :: past => failuresInARow past + 1
  | .unchanged :: _ | .published :: _ => 0
  | .cancelled :: past | .escaped _ :: past => failuresInARow past

/-- There are failures in a row exactly if the last pass that counts has failed. -/
theorem failuresInARow_ne_zero_iff (past : List Outcome) :
    failuresInARow past ≠ 0 ↔ (past.filter Outcome.counts).head? = some .failed := by
  induction past with
  | nil => simp [failuresInARow]
  | cons outcome past ih =>
    cases outcome with
    | failed | unchanged | published => simp [failuresInARow, Outcome.counts]
    | cancelled | escaped => simpa [failuresInARow, Outcome.counts] using ih

/-- An end of a pass, and the number of failures that it leaves. -/
theorem Closes.consecutiveFailures {s s' : State} {outcome : Outcome} (h : Closes s outcome s')
    {past : List Outcome} (hs : s.status.consecutiveFailures = failuresInARow past) :
    s'.status.consecutiveFailures = failuresInARow (outcome :: past) := by
  cases h with
  | failed => exact congrArg (· + 1) hs
  | unchanged | published => rfl
  | cancelled | escaped => exact hs

namespace Process

variable {s s' : Process}

/-- The number is that of the failures in a row among the passes that have ended. -/
def Tallies (s : Process) : Prop :=
  s.world.state.status.consecutiveFailures = failuresInARow s.past

/-- **One event keeps the tally.** -/
theorem tally_step {e : Event} (h : Change s e s') (hs : s.Tallies) : s'.Tallies := by
  cases h with
  | aside state _ _ past => rwa [Tallies, state, past]
  | publish _ _ state _ _ past => rwa [Tallies, state, past]
  | watchFailed _ state _ _ past => rwa [Tallies, state, past]
  | begins _ _ _ state _ _ _ past => rwa [Tallies, state, past]
  | proceeds _ state _ _ _ past => rwa [Tallies, state, past]
  | ends _ closes _ _ _ past =>
    rw [Tallies, past]
    exact closes.consecutiveFailures hs

/-- **The status counts the failures in a row**, in every state that a reloader can be in. -/
theorem consecutiveFailures_eq [Limits] (h : s.Reachable) :
    s.world.state.status.consecutiveFailures = failuresInARow s.past := by
  refine h.induct (P := Tallies) ?_ fun _ _ _ _ hchange hs => tally_step hchange hs
  intro r disk store t hr
  show r.status.consecutiveFailures = 0
  rw [hr]
  rfl

end Process

end AdmissionControl.Reload
