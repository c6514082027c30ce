import AdmissionControl.Proofs.Reload.Veiled
import AdmissionControl.Proofs.Service.Health

/-!
# The status endpoints disclose no entry

Two applications go through the same steps, but the lists that are written differ in the names of
their entries.  Whoever asks for the health or for the status of the allowlist cannot tell them
apart, except by the digest that the status shows.

* `Json.Value.mapField`, `Response.hideChecksum` — a response without that digest.
* `Veil.Apps`, `Veil.Lives`, `Veil.LiveSteps` — what the two applications have in common, and the
  same steps.
* `Veil.Lives.step`, `Veil.Lives.after` — steps keep what the two have in common.
* `Veil.Apps.health_eq`, `Veil.Apps.hidden_status` — what the two tell.
* `Live.entries_not_disclosed` — every answer, after whatever steps.
-/

namespace AdmissionControl

namespace Json.Value

/-- An object in which the members of one name have other values. -/
def mapField (name : Text) (f : Value → Value) : Value → Value
  | .object members => .object (members.map fun m => (m.1, if m.1 = name then f m.2 else m.2))
  | v => v

end Json.Value

namespace Settings

/-! ### Startups from the same settings -/

/-- Every place for settings holds the same on both disks. -/
def SamePlaces (env : Environment) (fs fs' : FileSystem) : Prop :=
  ∀ candidate ∈ searchPaths env none,
    (env.expand candidate).toOption.bind fs.regular? =
      (env.expand candidate).toOption.bind fs'.regular?

instance (env : Environment) (fs fs' : FileSystem) : Decidable (SamePlaces env fs fs') :=
  inferInstanceAs (Decidable (∀ candidate ∈ _, _))

theorem findFile_eq_of_same {env : Environment} {fs fs' : FileSystem} {paths : List Text}
    (h : ∀ candidate ∈ paths, (env.expand candidate).toOption.bind fs.regular? =
      (env.expand candidate).toOption.bind fs'.regular?) :
    findFile env fs paths = findFile env fs' paths := by
  induction paths with
  | nil => rfl
  | cons candidate rest ih =>
    rw [List.forall_mem_cons] at h
    rw [findFile, findFile, ih h.2]
    have hfirst := h.1
    cases hpath : env.expand candidate with
    | error f => rfl
    | ok path =>
      rw [hpath] at hfirst
      have hregular : fs.regular? path = fs'.regular? path := hfirst
      simp only [bind, Except.bind, hregular]

theorem ofEnvironment_eq_of_samePlaces [Limits] {env : Environment} {fs fs' : FileSystem}
    (h : SamePlaces env fs fs') : ofEnvironment env fs none = ofEnvironment env fs' none := by
  rw [ofEnvironment, ofEnvironment, baseOf, baseOf, findFile_eq_of_same h]

end Settings

namespace Service

/-! ### Answers from one endpoint -/

/-- A body without the digest of the snapshot that it shows. -/
def hideChecksum (body : Json.Value) : Json.Value :=
  body.mapField "snapshot" fun snapshot => snapshot.mapField "checksum" fun _ => .null

def Response.hideChecksum (r : Response) : Response :=
  { r with body := r.body.map Service.hideChecksum }

theorem hideChecksum_record (snapshot reload : Json.Value) :
    hideChecksum (.record [("snapshot", snapshot), ("reload", reload)]) =
      .record [("snapshot", snapshot.mapField "checksum" fun _ => .null), ("reload", reload)] := by
  simp [hideChecksum, Json.Value.record, Json.Value.mapField, Text.ofString_inj]

/-- The request for the status of the allowlist. -/
def statusRequest : Request := ⟨"GET", "/allowlist"⟩

namespace Application

/-- The response that gives a body, or tells of the trouble. -/
def answered (request : Request) (outcome : Except Trouble Json.Value) : Response :=
  match outcome with
  | .ok body => .json 200 body
  | .error trouble => ((troubleResponse request trouble).run .start).1

/-- An endpoint that only looks at the application. -/
theorem respond_of_pure [Limits] {a : Application} {request : Request} {route : Route}
    {parameters : Parameters} (hfind : find a.routes request.method request.path =
      .full route parameters) {outcome : Except Trouble Json.Value} {fresh : Text}
    (hanswer : a.answer route.endpoint parameters fresh = pure (outcome.map (Response.json 200)))
    (t : Trail) : ((a.respond request fresh).run t).1 = answered request outcome := by
  rw [respond, hfind]
  simp only [hanswer, pure_bind]
  cases outcome with
  | ok body => rfl
  | error trouble => exact silent_troubleResponse request trouble t .start

theorem respond_healthRequest [Limits] (a : Application) (fresh : Text) (t : Trail) :
    ((a.respond healthRequest fresh).run t).1 = answered healthRequest a.health :=
  respond_of_pure (show find _ _ _ = .full ⟨["GET"], [.literal "/health"], .health⟩ [] from
    find_own (List.mem_cons_self ..) (by decide +kernel) (by decide +kernel)) rfl t

theorem respond_statusRequest [Limits] (a : Application) (fresh : Text) (t : Trail) :
    ((a.respond statusRequest fresh).run t).1 = answered statusRequest a.status :=
  respond_of_pure (show find _ _ _ = .full ⟨["GET"], [.literal "/allowlist"], .status⟩ [] from
    find_own (List.mem_cons_of_mem _ (List.mem_cons_self ..)) (by decide +kernel)
      (by decide +kernel)) rfl t

end Application

end Service

/-! ### What two applications have in common -/

namespace Allowlist.Veil

open Service
open Reload (Process Reloader)

variable (v : Veil)

/-- Two applications that differ in the entries of their lists and in the digests of these. -/
structure Apps (a a' : Application) : Prop where
  ready : a.ready = a'.ready
  store : Option.Rel v.Stores a.store a'.store
  reloader : a.reloader = a'.reloader
  hostRoutes : a.hostRoutes = a'.hostRoutes
  pages : a.pages = a'.pages

structure Lives (l l' : Live) : Prop where
  app : v.Apps l.app l'.app
  process : Option.Rel v.Processes l.process l'.process

/-- The same step, up to the entries of the lists that are written.  A startup finds the same
settings, and a file is named for the allowlist. -/
inductive LiveSteps : Live.Event → Live.Event → Prop
  | startUp {env : Environment} {fs fs' : FileSystem} {path : Text} (now : Instant)
    (t t' : Trail) : v.Disks fs fs' → Settings.SamePlaces env fs fs' →
    Settings.sourceOf env = .ok (some (.file path)) → path ∈ v.paths →
    Path.absolute fs.workingDirectory path ∈ v.paths →
    LiveSteps (.startUp env fs now t) (.startUp env fs' now t')
  | shutDown : LiveSteps .shutDown .shutDown
  | setReady (value : Bool) : LiveSteps (.setReady value) (.setReady value)
  | reload {e e' : Process.Event} : v.Steps e e' → LiveSteps (.reload e) (.reload e')

variable {v}

/-- A pass of the watch is the same in both. -/
theorem liveSteps_wakeEvents (q : Reload.Call) (now : Instant) : List.Forall₂ v.LiveSteps
    ((Process.wakeEvents q now).map .reload) ((Process.wakeEvents q now).map .reload) := by
  have hcalls : ∀ e ∈ (Reload.solo q now).tail, e.call? = some q := by
    simp [Reload.solo, Reload.opening, Reload.Event.call?]
  rw [List.forall₂_map_left_iff, List.forall₂_map_right_iff, List.forall₂_same]
  intro e he
  rcases List.mem_cons.mp he with rfl | he
  · refine .reload (.watch fun inner hpass => ?_)
    cases hpass
  · obtain ⟨inner, hinner, rfl⟩ := List.mem_map.mp he
    exact .reload (.pass (.ofCall (hcalls inner hinner)))

/-! ### What two applications tell -/

namespace Apps

variable {a a' : Application}

theorem health_eq (h : v.Apps a a') : a.health = a'.health := by
  have hstore := h.store
  rw [Application.health, Application.health, ← h.ready, ← h.reloader]
  generalize a.store = store at hstore ⊢
  generalize a'.store = store' at hstore ⊢
  cases hstore with
  | none => rfl
  | some hsame =>
    simp only [hsame.version, hsame.allowlist.size, hsame.allowlist.kind]

/-- Two snapshots differ in nothing that is shown but their digests. -/
theorem hidden_describe {store store' : Store} (h : v.Stores store store') :
    store.current.describe.mapField "checksum" (fun _ => .null) =
      store'.current.describe.mapField "checksum" fun _ => .null := by
  have hversion : store.current.version = store'.current.version := h.version
  simp [Snapshot.describe, Snapshot.description, Json.Value.record, Json.Value.mapField, hversion,
    h.allowlist.size, h.allowlist.kind, h.allowlist.location, h.allowlist.loadedAt, h.publishedAt]

/-- The status tells the same, or has the same trouble. -/
theorem hidden_status (h : v.Apps a a') :
    (Application.answered statusRequest a.status).hideChecksum =
      (Application.answered statusRequest a'.status).hideChecksum := by
  have hstore := h.store
  rw [Application.status, Application.status, Application.gate, Application.gate, ← h.ready,
    ← h.reloader]
  cases a.ready with
  | false => rfl
  | true =>
    generalize a.store = store at hstore ⊢
    generalize a'.store = store' at hstore ⊢
    cases hstore with
    | none => rfl
    | some hsame =>
      simp only [Bool.not_true, Bool.false_eq_true, if_false, Application.answered,
        Response.hideChecksum, Response.json, Option.map_some, hideChecksum_record,
        hidden_describe hsame]

end Apps

/-! ### Steps -/

namespace Lives

variable {l l' : Live}

theorem application (h : v.Lives l l') : v.Apps l.application l'.application := by
  obtain ⟨app, process⟩ := l
  obtain ⟨app', process'⟩ := l'
  obtain ⟨happ, hprocess⟩ := h
  cases hprocess with
  | none => exact happ
  | some hsame =>
    exact ⟨happ.ready, .some hsame.world.state.store, congrArg some hsame.reloader_eq,
      happ.hostRoutes, happ.pages⟩

/-- What two startups have loaded. -/
theorem loadedFor [Limits] {env : Environment} {fs fs' : FileSystem} {path : Text} (now : Instant)
    (hdisks : v.Disks fs fs') (hplaces : Settings.SamePlaces env fs fs')
    (hsource : Settings.sourceOf env = .ok (some (.file path))) (hpath : path ∈ v.paths) :
    SameResult (fun loaded loaded' => loaded.1 = loaded'.1 ∧
        loaded.1.source = some (.file path) ∧ v.Allowlists loaded.2 loaded'.2)
      (Application.loadedFor env fs now) (Application.loadedFor env fs' now) := by
  rw [Application.loadedFor, Application.loadedFor,
    ← Settings.ofEnvironment_eq_of_samePlaces hplaces]
  cases hsettings : Settings.ofEnvironment env fs none with
  | error e => exact .error _
  | ok s =>
    have hs : s.source = some (.file path) := by
      have hnamed := Settings.source_of_ofEnvironment hsettings
      rw [hsource, Except.ok.injEq] at hnamed
      exact hnamed.symm
    simp only [Application.sourceOf, hs, Option.getD_some, ofSource]
    rcases (ofRead (hdisks.content path hpath) path now).cases with
      ⟨e, he, he'⟩ | ⟨a, a', ha, ha', hsame⟩
    · rw [he, he']
      exact .error _
    · rw [ha, ha']
      exact .ok ⟨rfl, hs, hsame⟩

/-- Two processes that have just been opened. -/
theorem new_process {r : Reloader} {fs fs' : FileSystem} {store store' : Store}
    (hpath : r.path ∈ v.paths) (hdisks : v.Disks fs fs') (hstore : v.Stores store store')
    (t t' : Trail) : v.Processes (.new r fs store t) (.new r fs' store' t') :=
  ⟨⟨rfl, hpath, hdisks, ⟨hstore, rfl⟩, rfl, rfl, fun _ => .none, .nil⟩, rfl, rfl, rfl⟩

theorem startUp [Limits] (h : v.Lives l l') {env : Environment} {fs fs' : FileSystem} {path : Text}
    (now : Instant) (t t' : Trail) (hdisks : v.Disks fs fs')
    (hplaces : Settings.SamePlaces env fs fs')
    (hsource : Settings.sourceOf env = .ok (some (.file path))) (hpath : path ∈ v.paths)
    (habsolute : Path.absolute fs.workingDirectory path ∈ v.paths) :
    v.Lives (l.step (.startUp env fs now t)) (l'.step (.startUp env fs' now t')) := by
  have hresult := Application.result_startUp l.app env fs now t
  have hresult' := Application.result_startUp l'.app env fs' now t'
  rcases (loadedFor now hdisks hplaces hsource hpath).cases with
    ⟨e, he, he'⟩ | ⟨⟨s, a⟩, ⟨s', a'⟩, hloaded, hloaded', rfl, hs, hsame⟩
  · rw [Live.step, Live.step, hresult, hresult', he, he']
    exact h
  · rw [Live.step, Live.step, hresult, hresult', hloaded, hloaded']
    have hstores : v.Stores (Store.new a now) (Store.new a' now) := ⟨hsame, rfl, rfl⟩
    have hreloader : Application.reloaderFor fs s = Application.reloaderFor fs' s := by
      rw [Application.reloaderFor, Application.reloaderFor, hdisks.workingDirectory]
    simp only [Except.map, Application.opened, ← hreloader]
    refine ⟨⟨rfl, .some hstores, rfl, h.app.hostRoutes, h.app.pages⟩, ?_⟩
    cases hr : Application.reloaderFor fs s with
    | none => exact .none
    | some r =>
      obtain ⟨path', hs', _, rfl⟩ := Application.reloaderFor_eq_some_iff.mp hr
      obtain rfl : path = path' := by
        rw [hs] at hs'
        simpa using hs'
      exact .some (new_process habsolute hdisks hstores _ _)

/-- **The same step keeps what two applications have in common.** -/
theorem step [Limits] (h : v.Lives l l') {e e' : Live.Event} (he : v.LiveSteps e e') :
    v.Lives (l.step e) (l'.step e') := by
  have hmap : ∀ {inner inner' : Process.Event}, v.Steps inner inner' →
      Option.Rel v.Processes (l.process.map (·.step inner)) (l'.process.map (·.step inner')) := by
    intro inner inner' hinner
    obtain ⟨app, process⟩ := l
    obtain ⟨app', process'⟩ := l'
    obtain ⟨_, hprocess⟩ := h
    cases hprocess with
    | none => exact .none
    | some hsame => exact .some (hsame.step hinner)
  cases he with
  | startUp now t t' hdisks hplaces hsource hpath habsolute =>
    exact h.startUp now t t' hdisks hplaces hsource hpath habsolute
  | shutDown => exact ⟨{ h.app with ready := rfl }, hmap (.watch nofun)⟩
  | setReady value => exact ⟨{ h.app with ready := rfl }, h.process⟩
  | reload hinner => exact ⟨h.app, hmap hinner⟩

theorem after [Limits] (h : v.Lives l l') {events events' : List Live.Event}
    (hsteps : List.Forall₂ v.LiveSteps events events') :
    v.Lives (l.after events) (l'.after events') := by
  induction hsteps generalizing l l' with
  | nil => exact h
  | cons he _ ih => exact ih (h.step he)

end Lives

end Allowlist.Veil

namespace Service.Live

/-- **The status endpoints disclose no entry.**  After the same steps, in which each list that is
written is the same document up to other names for its entries, the health of two applications is
the same, and so is the status of their allowlists but for the digest. -/
theorem entries_not_disclosed [Limits] (v : Allowlist.Veil) (env : Environment)
    (hostRoutes : List Route) {events events' : List Event}
    (h : List.Forall₂ v.LiveSteps events events') (fresh fresh' : Text) (t t' : Trail) :
    let l := (new env hostRoutes).after events
    let l' := (new env hostRoutes).after events'
    ((l.application.respond healthRequest fresh).run t).1 =
        ((l'.application.respond healthRequest fresh').run t').1 ∧
      ((l.application.respond statusRequest fresh).run t).1.hideChecksum =
        ((l'.application.respond statusRequest fresh').run t').1.hideChecksum := by
  intro l l'
  have hnew : v.Lives (new env hostRoutes) (new env hostRoutes) :=
    ⟨⟨rfl, .none, rfl, rfl, rfl⟩, .none⟩
  have happs := (hnew.after h).application
  rw [Application.respond_healthRequest, Application.respond_healthRequest,
    Application.respond_statusRequest, Application.respond_statusRequest, happs.health_eq]
  exact ⟨rfl, happs.hidden_status⟩

/-! ### Two runs with exchanged entries -/

open Allowlist (Renaming Veil Serialises readFile)

attribute [local instance] Limits.usual

/-- A list with one entry. -/
def listOf (entry : Text) : Json.Value := .object [(Allowlist.memberName, .array [.string entry])]

def written (d : Json.Value) : List UInt8 := (Utf8.encode? d.renderPlain).toOption.getD []

/-- A disk with that list in its root directory. -/
def listDisk (entry : Text) : FileSystem :=
  ⟨⟨[([[0x61]], .file (written (listOf entry)))]⟩, "/"⟩

/-- The two entries. -/
def IsSampleEntry (entry : Text) : Prop := entry = Text.ofString "!" ∨ entry = Text.ofString "?"

def exchange : Renaming :=
  Renaming.exchange (c := ('!' : CodePoint)) (d := ('?' : CodePoint)) (by decide) (by decide)

theorem document_listOf (ρ : Renaming) (entry : Text) :
    ρ.document (listOf entry) = listOf (ρ.text entry) := by
  simp only [Renaming.document, listOf, List.map_cons, List.map_nil, Renaming.member, if_true,
    Renaming.list, Renaming.item]

theorem isSampleEntry_exchange {entry : Text} (h : IsSampleEntry entry) :
    IsSampleEntry (exchange.text entry) := by
  rcases h with rfl | rfl
  · exact .inr (by decide +kernel)
  · exact .inl (by decide +kernel)

theorem serialises_listOf {entry : Text} (h : IsSampleEntry entry) :
    Serialises (written (listOf entry)) (listOf entry) := by
  have hparse : Json.parse (listOf entry).renderPlain = .ok (listOf entry) := by
    rcases h with rfl | rfl <;> cbv
  refine ⟨(listOf entry).renderPlain, ?_, (Json.parse_eq_ok_iff.mp hparse).2.1⟩
  rcases h with rfl | rfl <;> decide +kernel

/-- The digests of the two lists differ, and so do the lists. -/
theorem eq_of_digest_eq {entry entry' : Text} (h : IsSampleEntry entry) (h' : IsSampleEntry entry')
    (hsame : Sha256.hexDigest (written (listOf entry)) =
      Sha256.hexDigest (written (listOf entry'))) : entry = entry' := by
  have hne : Sha256.hexDigest (written (listOf "!")) ≠ Sha256.hexDigest (written (listOf "?")) := by
    decide +kernel
  rcases h with rfl | rfl <;> rcases h' with rfl | rfl
  · rfl
  · exact absurd hsame hne
  · exact absurd hsame.symm hne
  · rfl

def sampleDocuments : Set Json.Value := {d | ∃ entry, IsSampleEntry entry ∧ d = listOf entry}

theorem exists_sampleEntry {d : Json.Value}
    (h : d ∈ sampleDocuments ∪ exchange.document '' sampleDocuments) :
    ∃ entry, IsSampleEntry entry ∧ d = listOf entry := by
  rcases h with h | ⟨_, ⟨entry, h, rfl⟩, rfl⟩
  · exact h
  · exact ⟨_, isSampleEntry_exchange h, document_listOf exchange entry⟩

/-- Lists with one of two entries, which are exchanged. -/
def exchangeVeil : Veil where
  toRenaming := exchange
  paths := {Text.ofString "a", Text.ofString "/a"}
  documents := sampleDocuments
  write := written
  serialises d hd := by
    obtain ⟨entry, h, rfl⟩ := exists_sampleEntry hd
    exact serialises_listOf h
  write_injOn d hd d' hd' hsame := by
    obtain ⟨entry, h, rfl⟩ := exists_sampleEntry hd
    obtain ⟨entry', h', rfl⟩ := exists_sampleEntry hd'
    rw [eq_of_digest_eq h h' (congrArg Sha256.hexDigest hsame)]
  digest_injOn := by
    rintro _ ⟨d, hd, rfl⟩ _ ⟨d', hd', rfl⟩ hsame
    obtain ⟨entry, h, rfl⟩ := exists_sampleEntry hd
    obtain ⟨entry', h', rfl⟩ := exists_sampleEntry hd'
    rw [eq_of_digest_eq h h' hsame]

theorem disks_listDisk {entry : Text} (h : IsSampleEntry entry) :
    exchangeVeil.Disks (listDisk entry) (listDisk (exchange.text entry)) := by
  refine ⟨rfl, fun path hpath => ?_⟩
  have hread : ∀ other, readFile (listDisk other) path = .ok (written (listOf other)) := by
    intro other
    rcases hpath with rfl | rfl <;> rfl
  rw [hread, hread]
  exact .ok ⟨listOf entry, ⟨entry, h, rfl⟩, rfl,
    congrArg written (document_listOf exchange entry).symm⟩

/-- A startup with one list, then a rescan that finds another one. -/
def replacedEvents (entry other : Text) : List Event :=
  .startUp watchedEnvironment (listDisk entry) default .start :: .reload .enter ::
    rescanEvents 0 (listDisk other) default

/-- The entries that are published at the end. -/
def publishedEntries (l : Live) : Option (List Text) :=
  l.process.map fun p => p.world.state.store.current.allowlist.entries

/-- Two runs that publish different entries look the same. -/
theorem exchanged_entries_look_alike :
    let l := (new watchedEnvironment []).after (replacedEvents "!" "?")
    let l' := (new watchedEnvironment []).after (replacedEvents "?" "!")
    publishedEntries l = some [Text.ofString "?"] ∧
      publishedEntries l' = some [Text.ofString "!"] ∧
      ((l.application.respond healthRequest "id").run .start).1 =
        ((l'.application.respond healthRequest "id").run .start).1 ∧
      ((l.application.respond statusRequest "id").run .start).1.hideChecksum =
        ((l'.application.respond statusRequest "id").run .start).1.hideChecksum := by
  have hstart := disks_listDisk (.inl rfl : IsSampleEntry "!")
  have hnext := disks_listDisk (.inr rfl : IsSampleEntry "?")
  rw [show exchange.text "!" = Text.ofString "?" by decide +kernel] at hstart
  rw [show exchange.text "?" = Text.ofString "!" by decide +kernel] at hnext
  have hsteps : List.Forall₂ exchangeVeil.LiveSteps (replacedEvents "!" "?")
      (replacedEvents "?" "!") := by
    have hsource : Settings.sourceOf watchedEnvironment = .ok (some (.file "a")) := rfl
    refine .cons (.startUp default .start .start hstart (by decide +kernel) hsource
      (.inl rfl) (.inr rfl)) (.cons (.reload (.watch nofun))
        (.cons (.reload (.pass (.disk hnext))) ?_))
    exact Allowlist.Veil.liveSteps_wakeEvents 0 default
  obtain ⟨hhealth, hstatus⟩ := entries_not_disclosed exchangeVeil watchedEnvironment [] hsteps
    "id" "id" .start .start
  exact ⟨by decide +kernel, by decide +kernel, hhealth, hstatus⟩

end Service.Live

end AdmissionControl
