import AdmissionControl.Proofs.Audit
import AdmissionControl.Proofs.Service.Surfaces

/-!
# One record for each admission

A host asks for admission as often as it likes, against whatever is published by then, and binds
itself in between to an operation of its own or to none.  Every question that is decided leaves one
record, under an operation of its own; a question that is a fault leaves none; and the host is bound
afterwards as it was before.

* `Record.Documents` — the record of a decision, with all of its members.
* `after_requestAdmission`, `after_isAdmitted` — the trail after one question.
* `Call.Leaves` — what a call replies, beside the records that it leaves; `Call.leaves_perform` says
  that it does.
* `Audit` — the replies and the records of steps, one after the other.
* `calls_are_audited` — every sequence of steps is audited so.
-/

namespace AdmissionControl

open Service (result_isAdmitted)
open Service.Application (result_requestAdmission)

/-! ### The record of a decision -/

/-- What is said of a decision. -/
def Decision.event (d : Decision) : String :=
  if d.permitted then "Subgraph admitted" else "Subgraph denied by allowlist"

/-- The record of a decision: nothing beside the operation that was asked for, the decision, the
identifier of the operation, what happened and the level. -/
structure Record.Documents (r : Record) (operation : Operation) (d : Decision) (id : Text) :
    Prop where
  level : r.level = if d.permitted then .debug else .warning
  members : r.members = Fields.of (("operation", .string operation.name) ::
    (d.fields ++ [("operation_id", .string id), ("event", .ofString d.event),
      ("level", .string r.level.name)]))

/-- The record that an admission leaves. -/
def Decision.record (d : Decision) (operation : Operation) (id : Text) : Record where
  level := if d.permitted then .debug else .warning
  event := .ofString d.event
  fields := Fields.of (("operation", .string operation.name) :: d.fields)
  operationId := some id

theorem Decision.documents_record (d : Decision) (operation : Operation) (id : Text) :
    (d.record operation id).Documents operation d id where
  level := rfl
  members := by
    simp [record, Record.members, Json.Value.ofString, Fields.set, Fields.without, Fields.of,
      fields, Record.traceFields, Text.ofString_inj]

/-! ### The trail after one question -/

section Question

variable (store : Store) (operation : Operation) (v : Value) {t : Trail}

/-- The trail after a question: one more record if it was decided, and none if it was not. -/
def asked [Limits] (t : Trail) (id : Text) : Trail :=
  match store.check v with
  | .error _ => t
  | .ok d => t.extend [d.record operation id]

/-- The identifier that an admission goes by is the one that is given, unless that is empty. -/
theorem operationIdFor_ne_nil (given : Option Text) {fresh : Text} (hfresh : fresh ≠ []) :
    operationIdFor given fresh ≠ [] := by
  cases given with
  | none => exact hfresh
  | some id =>
    cases id with
    | nil => exact hfresh
    | cons c rest => exact List.cons_ne_nil c rest

theorem after_concludeAdmission (ht : t.threshold.admits .debug = true) (id : Text) (d : Decision) :
    (concludeAdmission operation id d).after t =
      t.extend [{ d.record operation id with operationId := t.operationId }] := by
  rw [concludeAdmission, Decision.record, Decision.event]
  cases d.permitted with
  | true => exact emit_eq_extend ht _ _
  | false => exact emit_eq_extend (Threshold.admits_of_debug ht .warning) _ _

/-- **The trail after asking for admission**, whatever operation it was bound to before. -/
theorem after_requestAdmission [Limits] (ht : t.threshold.admits .debug = true)
    (given : Option Text) {fresh : Text} (hfresh : fresh ≠ []) :
    (requestAdmission store operation v given fresh).after t =
      asked store operation v t (operationIdFor given fresh) := by
  have hid := operationIdFor_ne_nil given hfresh
  rw [requestAdmission, asked]
  cases store.check v with
  | error f => rfl
  | ok d =>
    have hbound : Trail.operationId { t with operation := some (operationIdFor given fresh) } =
        some (operationIdFor given fresh) := by
      simp [Trail.operationId, hid]
    show { Audited.after (concludeAdmission operation _ d)
      { t with operation := some (operationIdFor given fresh) } with operation := t.operation } = _
    have hconcluded := after_concludeAdmission operation
      (t := { t with operation := some (operationIdFor given fresh) }) ht
      (operationIdFor given fresh) d
    rw [hconcluded, hbound]
    rfl

theorem after_isAdmitted [Limits] (ht : t.threshold.admits .debug = true) {fresh : Text}
    (hfresh : fresh ≠ []) :
    (isAdmitted store operation v fresh).after t = asked store operation v t fresh := by
  have hafter : ((attempt (requestAdmission store operation v none fresh)).run t).2 = _ :=
    after_requestAdmission store operation v ht none hfresh
  rw [isAdmitted]
  simp only [Audited.after, ExceptT.run_mk, StateT.run_bind]
  generalize (attempt (requestAdmission store operation v none fresh)).run t = reply at hafter ⊢
  obtain ⟨(_ | _) | _, t'⟩ := reply <;> exact hafter

end Question

/-! ### Calls -/

/-- What a host asks: the store as it is by then, and the identifier that is drawn for an operation
without one. -/
structure Ask where
  store : Store
  operation : Operation
  identifier : Value
  fresh : Text

def Ask.check [Limits] (a : Ask) : Except Fault Decision := a.store.check a.identifier

/-- The two functions by which a host asks. -/
inductive Call
  | request (a : Ask) (given : Option Text)
  | isAdmitted (a : Ask)

def Call.ask : Call → Ask
  | request a _ => a
  | isAdmitted a => a

inductive Reply
  | decision (r : Except AdmissionError Decision)
  | verdict (r : Except Fault Bool)

def Call.perform [Limits] : Call → StateM Trail Reply
  | request a given => do
    let r ← attempt (requestAdmission a.store a.operation a.identifier given a.fresh)
    return .decision r
  | isAdmitted a => do
    let r ← attempt (AdmissionControl.isAdmitted a.store a.operation a.identifier a.fresh)
    return .verdict r

/-- The identifier of an operation: the given one, if there is one that is not empty, or else the
fresh one. -/
inductive Identifies (given : Option Text) (fresh : Text) : Text → Prop
  | given {id : Text} (eq : given = some id) (ne : id ≠ []) : Identifies given fresh id
  | fresh (absent : given = none ∨ given = some []) : Identifies given fresh fresh

theorem identifies_operationIdFor (given : Option Text) (fresh : Text) :
    Identifies given fresh (operationIdFor given fresh) := by
  cases given with
  | none => exact .fresh (.inl rfl)
  | some id =>
    cases id with
    | nil => exact .fresh (.inr rfl)
    | cons c rest => exact .given rfl (List.cons_ne_nil c rest)

/-- What a call replies, beside the records that it leaves.  The decision, the record and the denial
have one decision and one identifier of the operation. -/
inductive Call.Leaves [Limits] : Call → Reply → List Record → Prop
  | permitted {a : Ask} {given : Option Text} {id : Text} {d : Decision} {r : Record}
      (check : a.check = .ok d) (permits : d.permitted = true)
      (identifies : Identifies given a.fresh id) (documents : r.Documents a.operation d id) :
      Leaves (.request a given) (.decision (.ok d)) [r]
  | denied {a : Ask} {given : Option Text} {id : Text} {d : Decision} {r : Record}
      (check : a.check = .ok d) (denies : d.permitted = false)
      (identifies : Identifies given a.fresh id) (documents : r.Documents a.operation d id) :
      Leaves (.request a given) (.decision (.error (.denied ⟨a.operation, d, id⟩))) [r]
  | raised {a : Ask} {given : Option Text} {f : Fault} (check : a.check = .error f) :
      Leaves (.request a given) (.decision (.error (.fault f))) []
  | answered {a : Ask} {d : Decision} {r : Record} (check : a.check = .ok d)
      (documents : r.Documents a.operation d a.fresh) :
      Leaves (.isAdmitted a) (.verdict (.ok d.permitted)) [r]
  | failed {a : Ask} {f : Fault} (check : a.check = .error f) :
      Leaves (.isAdmitted a) (.verdict (.error f)) []

/-- **One call**: what it leaves is added to the trail, and nothing else changes. -/
theorem Call.leaves_perform [Limits] (c : Call) {t : Trail} (ht : t.threshold.admits .debug = true)
    (hfresh : c.ask.fresh ≠ []) :
    ∃ added, c.Leaves (c.perform.run t).1 added ∧ (c.perform.run t).2 = t.extend added := by
  cases c with
  | request a given =>
    have hfresh : a.fresh ≠ [] := hfresh
    have hreply : ((Call.request a given).perform.run t).1 = .decision
      ((requestAdmission a.store a.operation a.identifier given a.fresh).result t) := rfl
    have hafter : ((Call.request a given).perform.run t).2 =
      (requestAdmission a.store a.operation a.identifier given a.fresh).after t := rfl
    rw [hreply, hafter, result_requestAdmission,
      after_requestAdmission a.store a.operation a.identifier ht given hfresh, asked]
    cases hcheck : a.store.check a.identifier with
    | error f => exact ⟨[], .raised hcheck, t.extend_nil.symm⟩
    | ok d =>
      refine ⟨[d.record a.operation (operationIdFor given a.fresh)], ?_, rfl⟩
      have hid := identifies_operationIdFor given a.fresh
      have hrecord := d.documents_record a.operation (operationIdFor given a.fresh)
      cases hd : d.permitted with
      | true =>
        simp only [hd, if_true]
        exact .permitted hcheck hd hid hrecord
      | false =>
        simp only [hd, Bool.false_eq_true, if_false]
        exact .denied hcheck hd hid hrecord
  | isAdmitted a =>
    have hfresh : a.fresh ≠ [] := hfresh
    have hreply : ((Call.isAdmitted a).perform.run t).1 = .verdict
      ((AdmissionControl.isAdmitted a.store a.operation a.identifier a.fresh).result t) := rfl
    have hafter : ((Call.isAdmitted a).perform.run t).2 =
      (AdmissionControl.isAdmitted a.store a.operation a.identifier a.fresh).after t := rfl
    rw [hreply, hafter, result_isAdmitted,
      after_isAdmitted a.store a.operation a.identifier ht hfresh, asked]
    cases hcheck : a.store.check a.identifier with
    | error f => exact ⟨[], .failed hcheck, t.extend_nil.symm⟩
    | ok d =>
      exact ⟨[d.record a.operation a.fresh], .answered hcheck (d.documents_record _ _), rfl⟩

/-! ### A host -/

/-- A step of a host: it binds itself to an operation or to none, or it calls. -/
inductive Step
  | bind (operation : Option Text)
  | call (c : Call)

/-- One step, with the reply if it is a call. -/
def Step.perform [Limits] : Step → StateM Trail (Option Reply)
  | bind operation => do
    modify fun t => { t with operation := operation }
    return none
  | call c => do
    let reply ← c.perform
    return some reply

def performAll [Limits] : List Step → StateM Trail (List Reply)
  | [] => return []
  | step :: rest => do
    let reply ← step.perform
    let replies ← performAll rest
    return reply.toList ++ replies

/-- The operation that a host is bound to after steps, if calls do not count. -/
def boundAfter (operation : Option Text) : List Step → Option Text
  | [] => operation
  | .bind other :: rest => boundAfter other rest
  | .call _ :: rest => boundAfter operation rest

/-- The replies to the calls among steps and the records of all of them, in their order. -/
inductive Audit [Limits] : List Step → List Reply → List Record → Prop
  | nil : Audit [] [] []
  | bind (operation : Option Text) {steps : List Step} {replies : List Reply}
      {records : List Record} (rest : Audit steps replies records) :
      Audit (.bind operation :: steps) replies records
  | call {c : Call} {steps : List Step} {reply : Reply} {replies : List Reply}
      {added more : List Record} (leaves : c.Leaves reply added) (rest : Audit steps replies more) :
      Audit (.call c :: steps) (reply :: replies) (added ++ more)

theorem audit_performAll [Limits] {t : Trail} (ht : t.threshold.admits .debug = true)
    {steps : List Step} (hfresh : ∀ c, .call c ∈ steps → c.ask.fresh ≠ []) :
    ∃ added, Audit steps ((performAll steps).run t).1 added ∧ ((performAll steps).run t).2 =
      { t.extend added with operation := boundAfter t.operation steps } := by
  induction steps generalizing t with
  | nil => exact ⟨[], .nil, by rw [t.extend_nil]; rfl⟩
  | cons step rest ih =>
    have hrest : ∀ c, .call c ∈ rest → c.ask.fresh ≠ [] := fun c hc =>
      hfresh c (List.mem_cons_of_mem step hc)
    cases step with
    | bind operation =>
      obtain ⟨added, haudit, hafter⟩ := ih (t := { t with operation := operation }) ht hrest
      exact ⟨added, .bind operation haudit, hafter⟩
    | call c =>
      obtain ⟨added, hleaves, hadded⟩ := c.leaves_perform ht (hfresh c List.mem_cons_self)
      obtain ⟨more, haudit, hafter⟩ := ih (t := t.extend added) ht hrest
      have hreplies : ((performAll (.call c :: rest)).run t).1 =
        (c.perform.run t).1 :: ((performAll rest).run (c.perform.run t).2).1 := rfl
      have htrail : ((performAll (.call c :: rest)).run t).2 =
        ((performAll rest).run (c.perform.run t).2).2 := rfl
      rw [hreplies, htrail, hadded]
      exact ⟨added ++ more, .call hleaves haudit, by rw [hafter, Trail.extend_extend]; rfl⟩

theorem boundAfter_append_call (operation : Option Text) (before : List Step) (c : Call) :
    boundAfter operation (before ++ [.call c]) = boundAfter operation before := by
  induction before generalizing operation with
  | nil => rfl
  | cons step rest ih =>
    cases step with
    | bind other => exact ih other
    | call _ => exact ih operation

/-- **Every sequence of calls is audited.**  On a trail that admits the level debug, whatever
operation it is bound to by then, each call that is decided leaves one record, which tells the
decision that the call replies with and the identifier of an operation of its own, and each call
that is a fault leaves none.  All records stand in the order of the calls after those that were
there, and after every call the trail is bound as it was before it. -/
theorem calls_are_audited [Limits] {t : Trail} (ht : t.threshold.admits .debug = true)
    {steps : List Step} (hfresh : ∀ c, .call c ∈ steps → c.ask.fresh ≠ []) :
    (∃ added, Audit steps ((performAll steps).run t).1 added ∧
      ((performAll steps).run t).2.records = t.records ++ added) ∧
    ∀ before c after, steps = before ++ .call c :: after →
      ((performAll (before ++ [.call c])).run t).2.operation =
        ((performAll before).run t).2.operation := by
  constructor
  · obtain ⟨added, haudit, hafter⟩ := audit_performAll ht hfresh
    exact ⟨added, haudit, by rw [hafter]; rfl⟩
  · rintro before c after rfl
    have hbefore : ∀ c', .call c' ∈ before → c'.ask.fresh ≠ [] := fun c' hc' =>
      hfresh c' (List.mem_append_left _ hc')
    have hwith : ∀ c', .call c' ∈ before ++ [Step.call c] → c'.ask.fresh ≠ [] := by
      intro c' hc'
      refine hfresh c' ?_
      rw [List.append_cons]
      exact List.mem_append_left after hc'
    obtain ⟨_, _, hafter⟩ := audit_performAll ht hbefore
    obtain ⟨_, _, hcalled⟩ := audit_performAll ht hwith
    rw [hafter, hcalled]
    exact boundAfter_append_call t.operation before c

/-- A host that is bound to an operation of its own, before it binds itself to none. -/
def sampleSteps : List Step :=
  let store := Store.new ⟨["qm"], .inline, Allowlist.inlineVariable, [], default⟩ default
  let ask (v : Value) : Ask := ⟨store, .query, v, "fresh"⟩
  [.call (.request (ask (.text " Qm ")) (some "given")), .call (.request (ask .none) (some [])),
    .bind none, .call (.isAdmitted (ask (.text "Qn"))),
    .call (.request (ask (.text [CodePoint.ofNat 0xD800])) none)]

attribute [local instance] Limits.usual

theorem sampleSteps_audited : ∃ added,
    Audit sampleSteps ((performAll sampleSteps).run { Trail.start with operation := "outer" }).1
      added := by
  have hfresh : ∀ c, .call c ∈ sampleSteps → c.ask.fresh ≠ [] := by
    intro c hc
    simp only [sampleSteps, List.mem_cons, List.not_mem_nil, Step.call.injEq, reduceCtorEq] at hc
    rcases hc with rfl | rfl | h | rfl | rfl | h
    all_goals first | contradiction | exact List.cons_ne_nil _ _
  obtain ⟨⟨added, haudit, _⟩, _⟩ := calls_are_audited
    (t := { Trail.start with operation := "outer" }) rfl hfresh
  exact ⟨added, haudit⟩

end AdmissionControl
