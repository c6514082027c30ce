import AdmissionControl.Proofs.Allowlist

/-!
# What an action leaves on a trail

The trail after an action, from the trails that its parts leave, and what one record adds.  A trail
that goes on from another one keeps its records, its threshold and the operation that it is bound
to, unless an action says otherwise.

* `Audited.after_bind`, `Audited.run_bind_of_ok` — the trail after an action in two parts.
* `Trail.extend` — a trail with further records; `Trail.add_eq_extend` says when a record is one.
* `emit_eq_extend` — what is emitted at a level that the trail admits.
-/

namespace AdmissionControl

namespace Audited

variable {ε α β : Type}

/-- The second part goes on from where the first one has left, if that has not failed. -/
theorem after_bind (action : Audited ε α) (next : α → Audited ε β) (trail : Trail) :
    (action >>= next).after trail =
      match action.result trail with
      | .ok a => (next a).after (action.after trail)
      | .error _ => action.after trail := by
  simp only [result, after, ExceptT.run_bind, StateT.run_bind]
  show (StateT.run (match (action.run.run trail).1 with
    | .ok a => (next a).run
    | .error e => pure (.error e)) (action.run.run trail).2).2 = _
  cases (action.run.run trail).1 <;> rfl

/-- After a first part that has not failed, the second goes on in every respect. -/
theorem run_bind_of_ok {action : Audited ε α} {trail : Trail} {a : α}
    (h : action.result trail = .ok a) (next : α → Audited ε β) :
    (action >>= next).run.run trail = (next a).run.run (action.after trail) := by
  have hresult := result_bind action next trail
  have hafter := after_bind action next trail
  rw [h] at hresult hafter
  exact Prod.ext hresult hafter

@[simp] theorem after_liftM_except (r : Except ε α) (trail : Trail) :
    (liftM r : Audited ε α).after trail = trail := by
  cases r <;> rfl

end Audited

/-! ### Further records -/

namespace Threshold

/-- What records at a level records at every level above it. -/
theorem admits_of_le {t : Threshold} {low high : Level} (h : t.admits low = true)
    (hle : low.rank ≤ high.rank) : t.admits high = true := by
  cases t with
  | everything => rfl
  | atLeast least =>
    simp only [admits, decide_eq_true_eq] at h ⊢
    omega

/-- What records at the level debug records everything. -/
theorem admits_of_debug {t : Threshold} (h : t.admits .debug = true) (level : Level) :
    t.admits level = true := by
  refine admits_of_le h ?_
  cases level <;> decide

end Threshold

namespace Trail

/-- The trail with further records. -/
def extend (t : Trail) (records : List Record) : Trail := { t with records := t.records ++ records }

variable (t : Trail) (records more : List Record)

@[simp] theorem extend_nil : t.extend [] = t := by
  rw [Trail.extend, List.append_nil]

@[simp] theorem extend_extend : (t.extend records).extend more = t.extend (records ++ more) := by
  simp only [Trail.extend, List.append_assoc]

/-- A record at a level that the trail admits is added to the others. -/
theorem add_eq_extend {t : Trail} {level : Level} (h : t.threshold.admits level = true)
    (event : Json.Value) (fields : Fields) :
    t.add level event fields = t.extend [⟨level, event, fields, t.operationId⟩] := by
  rw [add, if_pos h]
  rfl

end Trail

/-- What is emitted at a level that the trail admits is one more record. -/
theorem emit_eq_extend {t : Trail} {level : Level} (h : t.threshold.admits level = true) (event : Text)
    (fields : List (String × Json.Value)) :
    ((emit level event fields).run t).2 =
      t.extend [⟨level, .string event, Fields.of fields, t.operationId⟩] :=
  Trail.add_eq_extend h _ _

end AdmissionControl
