import AdmissionControl.Proofs.Service.Live

/-!
# The surfaces of the gate

A check, a request for admission, a guarded route of the host, and the two functions that a host
calls itself all ask the same snapshot, and each says in its own way what the decision is.  None of
them does anything else: an application from whose life such visits are left out answers all other
requests as before.

* `longestBefore_append`, `match_rest`, `match_stretch` — paths lead to the identifier they name.
* `Application.Surfaces`, `Application.surfaces` — what each surface answers.
* `Live.perform`, `Live.answers` — a life with visits between its events.
* `Live.answersOf_eq` — visits can be left out.
* `Live.surfaces_agree` — both, for every identifier and every life.
-/

namespace AdmissionControl.Service

/-! ### Paths that name an identifier -/

section Paths

variable {α : Type} {allowed : CodePoint → Bool} {next : Text → Option α} {value tail : Text}
  {answer : α}

/-- A value is as long as it may be if nothing can be added to it. -/
theorem longestBefore_append (hvalue : ∀ c ∈ value, allowed c = true)
    (htail : longestBefore allowed next tail = some ([], answer)) :
    longestBefore allowed next (value ++ tail) = some (value, answer) := by
  induction value with
  | nil => exact htail
  | cons c rest ih =>
    obtain ⟨hc, hrest⟩ := List.forall_mem_cons.mp hvalue
    simp only [List.cons_append, longestBefore, if_pos hc, ih hrest]

/-- Nothing can be added that is not allowed. -/
theorem longestBefore_of_not_allowed {c : CodePoint} (hc : allowed c = false)
    (hnext : next (c :: tail) = some answer) :
    longestBefore allowed next (c :: tail) = some ([], answer) := by
  simp [longestBefore, hc, hnext]

/-- Nothing can be added if only the whole of what follows has an answer. -/
theorem longestBefore_of_whole (hnext : next tail = some answer)
    (hshorter : ∀ s : Text, s.length < tail.length → next s = none) :
    longestBefore allowed next tail = some ([], answer) := by
  cases tail with
  | nil => simp [longestBefore, hnext]
  | cons c rest =>
    have hlonger : (if allowed c then longestBefore allowed next rest else none) = none := by
      split
      · cases hfound : longestBefore allowed next rest with
        | none => rfl
        | some found =>
          obtain ⟨value, other⟩ := found
          obtain ⟨s, rfl, _, hs⟩ := of_longestBefore hfound
          have hlength : s.length < (c :: (value ++ s)).length := by
            rw [List.length_cons, List.length_append]
            omega
          rw [hshorter s hlength] at hs
          cases hs
      · rfl
    simp only [longestBefore, hlonger, hnext, Option.map_some]

end Paths

theorem match_literal (text tail : Text) (parts : List Part) :
    Template.match? (.literal text :: parts) (text ++ tail) = Template.match? parts tail := by
  rw [Template.match?, Text.dropStart?_eq_some_iff.mpr rfl]

/-- A text without line ends, which is what a stretch of a path can be. -/
def OneLine (x : Text) : Prop := ∀ c ∈ x, decide (c ≠ ('\n' : CodePoint)) = true

instance (x : Text) : Decidable (OneLine x) := inferInstanceAs (Decidable (∀ c ∈ x, _))

/-- A stretch at the end of a template takes all that is left of the path. -/
theorem match_rest (name : Text) {x : Text} (hx : OneLine x) :
    Template.match? [.rest name] x = some [(name, x)] := by
  have hend : longestBefore (· ≠ ('\n' : CodePoint)) (Template.match? []) [] = some ([], []) :=
    longestBefore_of_whole rfl fun s hs => absurd hs (Nat.not_lt_zero _)
  have hfound := longestBefore_append hx hend
  rw [List.append_nil] at hfound
  rw [Template.match?, hfound]

/-- A stretch before the literal at the end of a template takes all but that literal. -/
theorem match_stretch (name text : Text) {x : Text} (hx : OneLine x) :
    Template.match? [.rest name, .literal text] (x ++ text) = some [(name, x)] := by
  have hliteral : Template.match? [.literal text] text = some [] := by
    have hempty := match_literal text [] []
    rwa [List.append_nil] at hempty
  have hend : longestBefore (· ≠ ('\n' : CodePoint)) (Template.match? [.literal text]) text =
      some ([], []) := by
    refine longestBefore_of_whole hliteral fun s hs => ?_
    cases hmatch : Template.match? [.literal text] s with
    | none => rfl
    | some _ => exact absurd (prefix_of_match hmatch).length_le (Nat.not_le_of_lt hs)
  rw [Template.match?, longestBefore_append hx hend]

/-- The path under which an identifier is checked. -/
def checkPath (x : Text) : Text := "/allowlist/check/" ++ x

/-- The path under which an identifier is admitted to an operation. -/
def admissionPath (operation : Operation) (x : Text) : Text :=
  "/admission/" ++ operation.name ++ "/" ++ x

theorem match_checkPath {x : Text} (hx : OneLine x) :
    Template.match? [.literal "/allowlist/check/", .rest identifierName] (checkPath x) =
      some [(identifierName, x)] := by
  rw [checkPath, match_literal, match_rest _ hx]

theorem match_admissionPath (operation : Operation) {x : Text} (hx : OneLine x) :
    Template.match? [.literal "/admission/", .segment operationName, .literal "/",
        .rest identifierName] (admissionPath operation x) =
      some [(operationName, operation.name), (identifierName, x)] := by
  have hname : ∀ c ∈ operation.name, decide (c ≠ Path.slash) = true := by
    cases operation <;> decide
  have hne : operation.name.isEmpty = false := by
    cases operation <;> decide
  have hrest : Template.match? [.literal "/", .rest identifierName] (Path.slash :: x) =
      some [(identifierName, x)] := (match_literal "/" x _).trans (match_rest _ hx)
  have hfound := longestBefore_append hname (longestBefore_of_not_allowed (by decide) hrest)
  have hpath : admissionPath operation x = "/admission/" ++ (operation.name ++ Path.slash :: x) := by
    simp only [admissionPath, List.append_assoc]
    rfl
  rw [hpath, match_literal, Template.match?, hfound]
  simp only [hne]
  rfl

/-- A route is found with the parameters that its own template gives. -/
theorem match_of_find {routes : List Route} {method path : Text} {route : Route}
    {parameters : Parameters} (h : find routes method path = .full route parameters) :
    route.template.match? path = some parameters := by
  simp only [find] at h
  split at h
  · next found hfound =>
    obtain ⟨rfl, rfl⟩ := Match.full.inj h
    obtain ⟨r, _, hr⟩ := List.mem_filterMap.mp (List.mem_of_find?_eq_some hfound)
    obtain ⟨_, hmatch, heq⟩ := Option.map_eq_some_iff.mp hr
    obtain ⟨rfl, rfl⟩ := Prod.mk.inj heq
    exact hmatch
  · split at h <;> cases h

/-! ### What each surface answers -/

namespace Application

variable {a : Application} {request : Request} {route : Route} {parameters : Parameters}
  {fresh : Text} {t : Trail}

/-- A request is answered as the route answers that it is led to. -/
theorem respond_of_answer [Limits] (hfind : find a.routes request.method request.path =
      .full route parameters) {response : Response}
    (h : ((a.answer route.endpoint parameters fresh).run t).1 = .ok response) :
    ((a.respond request fresh).run t).1 = response := by
  simp only [respond, hfind, StateT.run_bind]
  generalize (a.answer route.endpoint parameters fresh).run t = answered at h ⊢
  obtain ⟨r, t'⟩ := answered
  subst h
  rfl

/-- A refusal of the route is an error with its detail. -/
theorem respond_of_refused [Limits] (hfind : find a.routes request.method request.path =
      .full route parameters) {status : Nat} {detail : Json.Value}
    (h : ((a.answer route.endpoint parameters fresh).run t).1 = .error (.refused status detail)) :
    ((a.respond request fresh).run t).1 = .error status detail := by
  simp only [respond, hfind, StateT.run_bind]
  generalize (a.answer route.endpoint parameters fresh).run t = answered at h ⊢
  obtain ⟨r, t'⟩ := answered
  subst h
  rfl

variable {store : Store} {x : Text} {d : Decision}

theorem respond_check [Limits] (hgate : a.gate = .ok store) (hd : store.check (.text x) = .ok d)
    (hx : OneLine x) (fresh : Text) (t : Trail) :
    ((a.respond ⟨"GET", checkPath x⟩ fresh).run t).1 = .json 200 d.json := by
  have hroute : (⟨["GET"], [.literal "/allowlist/check/", .rest identifierName], .check⟩ : Route) ∈
      ownRoutes := by simp [ownRoutes]
  refine respond_of_answer (find_own hroute (List.mem_singleton_self _) (match_checkPath hx)) ?_
  show (a.checkIdentifier x).map (Response.json 200) = _
  simp only [checkIdentifier, hgate, hd]
  rfl

theorem respond_admission [Limits] (hgate : a.gate = .ok store) (hd : store.check (.text x) = .ok d)
    (hx : OneLine x) (operation : Operation) (fresh : Text) (t : Trail) :
    ((a.respond ⟨"POST", admissionPath operation x⟩ fresh).run t).1 =
      if d.permitted then .json 200 (permitBody operation d)
      else .json 403 (denialBody ⟨operation, d, fresh⟩) := by
  have hroute : (⟨["POST"], [.literal "/admission/", .segment operationName, .literal "/",
      .rest identifierName], .admission⟩ : Route) ∈ ownRoutes := by simp [ownRoutes]
  refine respond_of_answer (find_own hroute (List.mem_singleton_self _)
    (match_admissionPath operation hx)) ?_
  have hasked := admitFor_eq hgate operation (.text x) fresh t
  show ((a.admission operation.name x fresh).run t).1 = _
  simp only [admission, operation.ofName?_name, StateT.run_bind]
  generalize (a.admitFor operation (.text x) fresh).run t = asked at hasked ⊢
  obtain ⟨r, t'⟩ := asked
  simp only [hd] at hasked
  subst hasked
  cases d.permitted <;> rfl

/-- A route of the host that is guarded, once a request has been led to it. -/
theorem respond_guarded [Limits] (hgate : a.gate = .ok store) (hd : store.check (.text x) = .ok d)
    (hfind : find a.routes request.method request.path = .full route parameters)
    {operation : Operation} {run : Option Text → Json.Value}
    (hendpoint : route.endpoint = .guarded operation run)
    (hdeployment : deploymentOf parameters = some x) (fresh : Text) (t : Trail) :
    ((a.respond request fresh).run t).1 =
      if d.permitted then .json 200 (run (some x))
      else .error 403 (denialBody ⟨operation, d, fresh⟩) := by
  have hasked := admitFor_eq hgate operation (.text x) fresh t
  simp only [hd] at hasked
  have hanswer : ((a.answer route.endpoint parameters fresh).run t).1 =
      if d.permitted then .ok (.json 200 (run (some x)))
      else .error (.refused 403 (denialBody ⟨operation, d, fresh⟩)) := by
    simp only [hendpoint, answer, guarded, hdeployment, guardedValue, StateT.run_bind]
    generalize (a.admitFor operation (.text x) fresh).run t = asked at hasked ⊢
    obtain ⟨r, t'⟩ := asked
    subst hasked
    cases d.permitted <;> rfl
  cases hp : d.permitted with
  | true =>
    rw [hp, if_pos rfl] at hanswer
    rw [if_pos rfl]
    exact respond_of_answer hfind hanswer
  | false =>
    rw [hp, if_neg (by decide)] at hanswer
    rw [if_neg (by decide)]
    exact respond_of_refused hfind hanswer

end Application

/-- Whether an identifier is admitted comes to whether its check permits. -/
theorem result_isAdmitted [Limits] (store : Store) (operation : Operation) (v : Value)
    (fresh : Text) (t : Trail) : (isAdmitted store operation v fresh).result t =
      (store.check v).map Decision.permitted := by
  have hasked : ((attempt (requestAdmission store operation v none fresh)).run t).1 = _ :=
    Application.result_requestAdmission store operation v none fresh t
  rw [isAdmitted]
  simp only [Audited.result, ExceptT.run_mk, StateT.run_bind]
  generalize (attempt (requestAdmission store operation v none fresh)).run t = asked at hasked ⊢
  obtain ⟨r, t'⟩ := asked
  cases hcheck : store.check v with
  | error f =>
    simp only [hcheck] at hasked
    subst hasked
    rfl
  | ok d =>
    simp only [hcheck] at hasked
    subst hasked
    cases hp : d.permitted <;> simp [Except.map, hp] <;> rfl

/-- What every surface of an application answers about an identifier, for one decision.  The
operation has a part in what is answered, but not in the decision. -/
structure Application.Surfaces [Limits] (a : Application) (store : Store) (x : Text)
    (d : Decision) : Prop where
  decided : store.current.decide (.text x) = .ok d
  raw : d.rawIdentifier = x
  check : ∀ fresh t, ((a.respond ⟨"GET", checkPath x⟩ fresh).run t).1 = .json 200 d.json
  admission : ∀ operation fresh t,
    ((a.respond ⟨"POST", admissionPath operation x⟩ fresh).run t).1 =
      if d.permitted then .json 200 (permitBody operation d)
      else .json 403 (denialBody ⟨operation, d, fresh⟩)
  /-- Any request that is led to a guarded route with the identifier as its deployment. -/
  guarded : ∀ request route parameters operation run fresh t,
    find a.routes request.method request.path = .full route parameters →
    route.endpoint = .guarded operation run → deploymentOf parameters = some x →
    ((a.respond request fresh).run t).1 =
      if d.permitted then .json 200 (run (some x))
      else .error 403 (denialBody ⟨operation, d, fresh⟩)
  /-- The deployment of a route that has a stretch for it, between two literals. -/
  stretch : ∀ start text : Text, ∀ method route parameters,
    find a.routes method (start ++ (x ++ text)) = .full route parameters →
    route.template = [.literal start, .rest deploymentName, .literal text] →
    deploymentOf parameters = some x
  asked : ∀ operation given fresh t,
    (requestAdmission store operation (.text x) given fresh).result t =
      if d.permitted then .ok d else .error (.denied ⟨operation, d, operationIdFor given fresh⟩)
  isAdmitted : ∀ operation fresh t,
    (isAdmitted store operation (.text x) fresh).result t = .ok d.permitted

/-- A text without surrogates has a decision, which carries it as it is. -/
theorem Store.exists_check [Limits] (store : Store) {x : Text} (hx : Text.SurrogateFree x) :
    ∃ d, store.check (.text x) = .ok d ∧ d.rawIdentifier = x := by
  by_cases hblank : Text.Blank x
  · exact ⟨_, store.check_blank hblank, rfl⟩
  · exact ⟨_, store.check_text (Identifier.normalizeText_of_not_blank hblank hx), rfl⟩

/-- **All surfaces agree**, whatever routes the host has. -/
theorem Application.surfaces [Limits] {a : Application} {store : Store} (hready : a.ready = true)
    (hstore : a.store = some store) {x : Text} (hline : OneLine x) (hx : Text.SurrogateFree x) :
    ∃ d, a.Surfaces store x d := by
  have hgate := gate_eq_ok_iff.mpr ⟨hready, hstore⟩
  obtain ⟨d, hd, hraw⟩ := Store.exists_check store hx
  refine ⟨d, hd, hraw, respond_check hgate hd hline, respond_admission hgate hd hline, ?_, ?_, ?_,
    ?_⟩
  · exact fun _ _ _ _ _ fresh t hfind hendpoint hdeployment =>
      respond_guarded hgate hd hfind hendpoint hdeployment fresh t
  · intro start text method route parameters hfind htemplate
    have hmatch := match_of_find hfind
    rw [htemplate, match_literal, match_stretch _ _ hline, Option.some.injEq] at hmatch
    rw [← hmatch]
    rfl
  · intro operation given fresh t
    rw [result_requestAdmission, hd]
  · intro operation fresh t
    rw [result_isAdmitted, hd]
    rfl

/-! ### Visits in the life of an application -/

/-- What is asked of an application from outside: a request, or one of the two functions that a host
calls with the store that it has been given. -/
inductive Visit
  | request (request : Request) (fresh : Text)
  | ask (operation : Operation) (identifier : Value) (given : Option Text) (fresh : Text)
  | isAdmitted (operation : Operation) (identifier : Value) (fresh : Text)

/-- What is told: by a visit, or by the application itself after an event. -/
inductive Answer
  | response (r : Response)
  | admission (r : Option (Except AdmissionError Decision))
  | verdict (r : Option (Except Fault Bool))
  | application (a : Application)

/-- The answer to a visit; there is none from a store that is not there. -/
def Application.visit [Limits] (a : Application) : Visit → StateM Trail Answer
  | .request request fresh => do
    let r ← a.respond request fresh
    return .response r
  | .ask operation identifier given fresh =>
    match a.store with
    | none => return .admission none
    | some store => do
      let r ← attempt (requestAdmission store operation identifier given fresh)
      return .admission (some r)
  | .isAdmitted operation identifier fresh =>
    match a.store with
    | none => return .verdict none
    | some store => do
      let r ← attempt (AdmissionControl.isAdmitted store operation identifier fresh)
      return .verdict (some r)

/-- **No answer to a visit depends on what was recorded.** -/
theorem Application.silent_visit [Limits] (a : Application) (v : Visit) : Silent (a.visit v) := by
  cases v with
  | request request fresh => exact .bind (a.silent_respond request fresh) fun _ => .pure _
  | ask operation v given fresh =>
    rw [visit]
    cases a.store with
    | none => exact .pure _
    | some store =>
      refine .bind (fun t t' => ?_) fun _ => .pure _
      exact (result_requestAdmission store operation v given fresh t).trans
        (result_requestAdmission store operation v given fresh t').symm
  | isAdmitted operation v fresh =>
    rw [visit]
    cases a.store with
    | none => exact .pure _
    | some store =>
      refine .bind (fun t t' => ?_) fun _ => .pure _
      exact (result_isAdmitted store operation v fresh t).trans
        (result_isAdmitted store operation v fresh t').symm

namespace Live

inductive Act
  | visit (v : Visit)
  | event (e : Event)

/-- Whether an act is a visit. -/
def Act.isVisit : Act → Bool
  | visit _ => true
  | event _ => false

/-- What the reloader has on its trail, to which visits add. -/
def trail (l : Live) : Trail := (l.process.map (·.world.trail)).getD .start

def recorded (l : Live) (t : Trail) : Live :=
  { l with process := l.process.map fun p => { p with world := { p.world with trail := t } } }

/-- One act, with its answer. -/
def perform [Limits] (l : Live) : Act → Answer × Live
  | .visit v =>
    let (answer, t) := (l.application.visit v).run l.trail
    (answer, l.recorded t)
  | .event e => (.application (l.step e).application, l.step e)

/-- The answers to acts, one after the other. -/
def answers [Limits] : Live → List Act → List Answer
  | _, [] => []
  | l, act :: rest => (l.perform act).1 :: answers (l.perform act).2 rest

/-- The answers to those acts that are marked, when all are performed. -/
def answersOf [Limits] : Live → List (Bool × Act) → List Answer
  | _, [] => []
  | l, (marked, act) :: rest =>
    (if marked then [(l.perform act).1] else []) ++ answersOf (l.perform act).2 rest

variable {l l' : Live}

@[simp] theorem silence_recorded (l : Live) (t : Trail) : (l.recorded t).silence = l.silence := by
  obtain ⟨app, _ | p⟩ := l <;> rfl

theorem application_eq_of_silence (h : l.silence = l'.silence) : l.application = l'.application := by
  rw [← application_silence, h, application_silence]

/-- **A visit leaves the application as it is.** -/
theorem application_visit [Limits] (l : Live) (v : Visit) :
    (l.perform (.visit v)).2.application = l.application :=
  application_eq_of_silence (l.silence_recorded _)

/-- **One act** gets the same answer, and comes to the same, whatever was recorded. -/
theorem silence_perform [Limits] (h : l.silence = l'.silence) (act : Act) :
    (l.perform act).1 = (l'.perform act).1 ∧
      (l.perform act).2.silence = (l'.perform act).2.silence := by
  cases act with
  | visit v =>
    refine ⟨?_, (l.silence_recorded _).trans (h.trans (l'.silence_recorded _).symm)⟩
    show ((l.application.visit v).run l.trail).1 = ((l'.application.visit v).run l'.trail).1
    rw [application_eq_of_silence h]
    exact l'.application.silent_visit v _ _
  | event e =>
    have hstep := silence_step h e
    exact ⟨congrArg Answer.application (application_eq_of_silence hstep), hstep⟩

theorem answers_eq_of_silence [Limits] (h : l.silence = l'.silence) (acts : List Act) :
    l.answers acts = l'.answers acts := by
  induction acts generalizing l l' with
  | nil => rfl
  | cons act rest ih =>
    obtain ⟨hanswer, hafter⟩ := silence_perform h act
    rw [answers, answers, hanswer, ih hafter]

/-- **Visits can be left out**: the answers to all that is kept stay what they were. -/
theorem answersOf_eq [Limits] (l : Live) {acts : List (Bool × Act)}
    (hacts : ∀ act ∈ acts, act.1 = false → act.2.isVisit = true) :
    l.answersOf acts = l.answers ((acts.filter (·.1)).map (·.2)) := by
  induction acts generalizing l with
  | nil => rfl
  | cons first rest ih =>
    obtain ⟨hfirst, hrest⟩ := List.forall_mem_cons.mp hacts
    obtain ⟨marked, act⟩ := first
    rw [answersOf, ih _ hrest]
    cases marked with
    | true => rfl
    | false =>
      -- only a visit is left out, and it leaves nothing but records
      cases act with
      | event e => cases hfirst rfl
      | visit v => exact answers_eq_of_silence (l.silence_recorded _) _

/-- **All surfaces agree, and none of them acts.**  Whenever the application is ready they all have
one decision about an identifier, which is that of the current snapshot; a visit leaves the
application as it is; and visits can be left out of its life without a change to any other
answer. -/
theorem surfaces_agree [Limits] (l : Live) :
    (∀ store x, l.application.ready = true → l.application.store = some store → OneLine x →
      Text.SurrogateFree x → ∃ d, l.application.Surfaces store x d) ∧
    (∀ v, (l.perform (.visit v)).2.application = l.application) ∧
    ∀ acts : List (Bool × Act), (∀ act ∈ acts, act.1 = false → act.2.isVisit = true) →
      l.answersOf acts = l.answers ((acts.filter (·.1)).map (·.2)) :=
  ⟨fun _ _ hready hstore hline hx => Application.surfaces hready hstore hline hx,
    l.application_visit, fun _ hacts => l.answersOf_eq hacts⟩

def sampleStore : Store :=
  Store.new ⟨["0xab"], .inline, Allowlist.inlineVariable, [], default⟩ default

/-- An application that is ready, with one guarded route. -/
def sampleGuarded : Live :=
  ⟨⟨true, some sampleStore, none,
    [guardedRoute Site.sampleTemplate .start Json.Value.ofText?], false⟩, none⟩

/-- Two visits that are left out, before a shutdown and after it. -/
def sampleActs : List (Bool × Act) :=
  [(true, .visit (.request ⟨"GET", "/health"⟩ "id")),
    (false, .visit (.ask .query (.text "x") none "id")),
    (true, .event .shutDown),
    (false, .visit (.request Site.sampleRequest "id")),
    (true, .visit (.request ⟨"GET", "/allowlist"⟩ "id"))]

attribute [local instance] Limits.usual

/-- The check, the guarded route and the host's own question agree on an entry that is written in
another way. -/
theorem sample_surfaces : ∃ d : Decision, d.permitted = true ∧
    ((sampleGuarded.application.respond ⟨"GET", checkPath " 0Xab"⟩ "id").run .start).1 =
      .json 200 d.json ∧
    ((sampleGuarded.application.respond Site.sampleRequest "id").run .start).1 =
      .json 200 (.string " 0Xab") ∧
    sampleGuarded.answersOf sampleActs =
      sampleGuarded.answers ((sampleActs.filter (·.1)).map (·.2)) := by
  obtain ⟨hsurfaces, _, hleft⟩ := surfaces_agree sampleGuarded
  obtain ⟨d, hd⟩ := hsurfaces sampleStore " 0Xab" rfl rfl (by decide) (by decide)
  have hp : d.permitted = true := by
    have hcheck : sampleStore.check (.text " 0Xab") = .ok d := hd.decided
    have hpermitted : (sampleStore.check (.text " 0Xab")).toOption.map (·.permitted) =
        some true := by decide +kernel
    rw [hcheck] at hpermitted
    exact Option.some.inj hpermitted
  refine ⟨d, hp, hd.check "id" .start, ?_, hleft sampleActs (by simp [sampleActs, Act.isVisit])⟩
  have hfind : find sampleGuarded.application.routes "POST" Site.sampleRequest.path =
      .full (guardedRoute Site.sampleTemplate .start Json.Value.ofText?)
        [(deploymentName, " 0Xab")] := by
    show find (ownRoutes ++ guardedRoute Site.sampleTemplate .start Json.Value.ofText? :: []) _ _ = _
    exact find_of_first (by decide +kernel) (by decide +kernel) (List.mem_singleton_self _)
  rw [hd.guarded Site.sampleRequest _ _ _ _ "id" .start hfind rfl rfl, hp]
  rfl

end Live

end AdmissionControl.Service
