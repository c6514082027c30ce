import AdmissionControl.Proofs.Allowlist.Failure
import AdmissionControl.Proofs.FileSystem.Walk
import AdmissionControl.Proofs.Reload.Process
import AdmissionControl.Proofs.Reload.Restart

/-!
# The watched file is the loaded one

A reloader watches the absolute form of the path that it is given.  That is the file that was loaded
by the path itself, so as long as the file stays as it is no pass publishes anything.

* `Finds` — the workers that find the published digest.
* `Settled`, `Settled.step` — no event of the passes starts a load.
* `Process.Untouched`, `Process.Untouched.after` — nor does any event of a process, so every pass
  that is over ended unchanged or was cancelled.
* `Reloader.watches_loaded_file` — all of it, for every spelling of the path.
-/

namespace AdmissionControl.Reload

open Allowlist (readFile)

/-! ### Passes that overlap -/

/-- What a worker does that finds the published digest. -/
inductive Finds (bytes : List UInt8) : Worker → Prop
  | sent : Finds bytes (.sent .digest)
  | holding : Finds bytes (.holding .digest (.ok bytes))
  | done : Finds bytes (.done (.digest (.ok (Sha256.hexDigest bytes))))

/-- How far a call comes that finds the published digest, if only some calls are cancelled. -/
def Stage.Finds (cancels : Prop) : Stage → Prop
  | loading => False
  | ended outcome => outcome = .unchanged ∨ outcome = .cancelled ∧ cancels
  | _ => True

/-- The store is a given one and the file has its digest; no call has gone on to load the file. -/
structure Settled (path : Text) (bytes : List UInt8) (store : Store) (cancels : Prop) (w : World) :
    Prop where
  watched : w.path = path
  store : w.state.store = store
  read : readFile w.disk path = .ok bytes
  stage : ∀ p, (w.stage p).Finds cancels
  worker : ∀ p worker, w.worker p = some worker → Finds bytes worker

/-- Events that leave the content of a file and the store to the reloader. -/
def Event.Apart (path : Text) (bytes : List UInt8) : Event → Prop
  | disk after => readFile after path = .ok bytes
  | publish .. => False
  | _ => True

namespace Settled

variable {path : Text} {bytes : List UInt8} {store : Store} {cancels : Prop} {w : World}

theorem start (path : Text) {disk : FileSystem} (hread : readFile disk path = .ok bytes)
    (store : Store) (trail : Trail) :
    Settled path bytes store cancels (World.start path disk store trail) := by
  refine ⟨rfl, rfl, hread, fun _ => trivial, ?_⟩
  intro p worker hworker
  cases hworker

/-- A call goes on to a stage in which it does not load. -/
theorem moveTo (h : Settled path bytes store cancels w) (p : Call) {stage : Stage}
    (hstage : stage.Finds cancels) : Settled path bytes store cancels (w.moveTo p stage) := by
  refine ⟨h.watched, h.store, h.read, ?_, h.worker⟩
  intro q
  show (Function.update w.stage p stage q).Finds cancels
  by_cases hq : q = p
  · rw [hq, Function.update_self]
    exact hstage
  · rw [Function.update_of_ne hq]
    exact h.stage q

theorem setWorker (h : Settled path bytes store cancels w) (p : Call) {worker : Worker}
    (hworker : Finds bytes worker) : Settled path bytes store cancels (w.setWorker p worker) := by
  refine ⟨h.watched, h.store, h.read, h.stage, ?_⟩
  intro q other
  show Function.update w.worker p (some worker) q = some other → Finds bytes other
  by_cases hq : q = p
  · rw [hq, Function.update_self, Option.some.injEq]
    rintro rfl
    exact hworker
  · rw [Function.update_of_ne hq]
    exact h.worker q other

/-- The status, the records and the lock do not count. -/
theorem share (h : Settled path bytes store cancels w) {w' : World} (hpath : w'.path = w.path)
    (hdisk : w'.disk = w.disk) (hstore : w'.state.store = w.state.store) (hstage : w'.stage = w.stage)
    (hworker : w'.worker = w.worker) : Settled path bytes store cancels w' := by
  refine ⟨hpath.trans h.watched, hstore.trans h.store, ?_, ?_, ?_⟩
  · rw [hdisk]
    exact h.read
  · rw [hstage]
    exact h.stage
  · rw [hworker]
    exact h.worker

/-- The digest that is read is the published one. -/
theorem turn_eq (h : Settled path bytes store cancels w)
    (hdigest : Sha256.hexDigest bytes = store.current.allowlist.checksum) (now : Instant) :
    Pass.turn now w.state (.ok (Sha256.hexDigest bytes)) =
      .ended ⟨w.state.store, w.state.status.unchanged.settle⟩ .unchanged := by
  rw [← h.store] at hdigest
  exact if_pos hdigest

/-- **No event starts a load.** -/
theorem step [Limits] (h : Settled path bytes store cancels w)
    (hdigest : Sha256.hexDigest bytes = store.current.allowlist.checksum) {e : Event}
    (he : e.Apart path bytes) (hcancels : ∀ p, e = .cancel p → cancels) :
    Settled path bytes store cancels (w.step e) := by
  rcases w.transition_step e with hsame | htransition
  · rw [hsame]
    exact h
  · generalize w.step e = next at htransition
    cases htransition with
    | disk after => exact ⟨h.watched, h.store, he, h.stage, h.worker⟩
    | load source now => exact ⟨h.watched, h.store, h.read, h.stage, h.worker⟩
    | publish now trail hheld => exact he.elim
    | call hp => exact h.moveTo _ trivial
    | @acquire p now hp hlock =>
      have hchecking : Stage.Finds cancels .checking := trivial
      exact ((h.moveTo p hchecking).setWorker p .sent).share rfl rfl rfl rfl rfl
    | @read p job hworker =>
      cases h.worker p _ hworker
      rw [h.watched, h.read]
      exact h.setWorker p .holding
    | @work p job content now trail hworker =>
      cases h.worker p _ hworker
      exact (h.setWorker p .done).share rfl rfl rfl rfl rfl
    | @settle p now r state outcome trail hp hworker hturn =>
      cases h.worker p _ hworker
      rw [h.turn_eq hdigest] at hturn
      obtain ⟨rfl, rfl⟩ := Pass.Turn.ended.inj hturn
      have hended : Stage.Finds cancels (.ended .unchanged) := .inl rfl
      exact (h.moveTo p hended).share rfl rfl rfl rfl rfl
    | @proceed p now r state trail hp hworker hturn =>
      cases h.worker p _ hworker
      rw [h.turn_eq hdigest] at hturn
      cases hturn
    | @conclude p r now trail hp hworker =>
      have hloading := h.stage p
      rw [hp] at hloading
      exact hloading.elim
    | @withdraw p hp => exact h.moveTo p (.inr ⟨rfl, hcancels p rfl⟩)
    | @abandon p hp =>
      have hended : Stage.Finds cancels (.ended .cancelled) := .inr ⟨rfl, hcancels p rfl⟩
      exact (h.moveTo p hended).share rfl rfl rfl rfl rfl

end Settled

namespace Process

/-- Events that leave the content of a file and the store to the reloader. -/
def Event.Apart (path : Text) (bytes : List UInt8) : Event → Prop
  | pass e => e.Apart path bytes
  | _ => True

/-- Events that cancel a call. -/
def Event.Cancels : Event → Prop
  | pass (.cancel _) | stop => True
  | _ => False

/-- Every pass that is over ended unchanged, or was cancelled. -/
structure Untouched (path : Text) (bytes : List UInt8) (store : Store) (cancels : Prop)
    (s : Process) : Prop where
  world : Settled path bytes store cancels s.world
  past : ∀ outcome ∈ s.past, outcome = .unchanged ∨ outcome = .cancelled ∧ cancels

namespace Untouched

variable {path : Text} {bytes : List UInt8} {store : Store} {cancels : Prop} {s : Process}

theorem advance [Limits] (h : Untouched path bytes store cancels s)
    (hdigest : Sha256.hexDigest bytes = store.current.allowlist.checksum) (inner : Reload.Event)
    (he : inner.Apart path bytes) (hcancels : ∀ p, inner = .cancel p → cancels) :
    Untouched path bytes store cancels (s.advance inner) := by
  have hworld := h.world.step hdigest he hcancels
  refine ⟨hworld, ?_⟩
  intro outcome houtcome
  rcases List.mem_append.mp houtcome with hnew | hold
  · rw [Option.mem_toList, World.ended?] at hnew
    split at hnew
    · cases hnew
    · rename_i p _
      split at hnew
      · rename_i found hfound
        have hfinds := hworld.stage p
        rw [hfound] at hfinds
        rw [← Option.some.inj hnew]
        exact hfinds
      · cases hnew
  · exact h.past outcome hold

theorem act (h : Untouched path bytes store cancels s) (action : Audited Fault Reloader) :
    Untouched path bytes store cancels (s.act action) :=
  ⟨h.world.share rfl rfl rfl rfl rfl, h.past⟩

theorem settle (h : Untouched path bytes store cancels s) :
    Untouched path bytes store cancels s.settle := by
  rw [Process.settle]
  split
  · split
    · exact h.act _
    · exact ⟨h.world.share rfl rfl rfl rfl rfl, h.past⟩
    · exact h
  · exact h

/-- **No event of a process publishes** from an unchanged file. -/
theorem step [Limits] (h : Untouched path bytes store cancels s)
    (hdigest : Sha256.hexDigest bytes = store.current.allowlist.checksum) {e : Event}
    (he : e.Apart path bytes) (hcancels : e.Cancels → cancels) :
    Untouched path bytes store cancels (s.step e) := by
  cases e with
  | pass inner =>
    refine (h.advance hdigest inner he ?_).settle
    rintro p rfl
    exact hcancels trivial
  | yield p =>
    rw [Process.step]
    split
    · have hcalled := h.advance hdigest (.call p) trivial (by simp)
      exact ⟨hcalled.world, hcalled.past⟩
    · exact h
  | start | enter => exact h.act _
  | stop =>
    rw [Process.step]
    split
    · rename_i p _
      exact (h.advance hdigest (.cancel p) trivial fun _ _ => hcancels trivial).settle
    · exact h.act _
  | streamEnded | streamFailed =>
    rw [Process.step]
    split
    · exact h.act _
    · exact h

theorem after [Limits] (h : Untouched path bytes store cancels s)
    (hdigest : Sha256.hexDigest bytes = store.current.allowlist.checksum) {events : List Event}
    (he : ∀ e ∈ events, e.Apart path bytes) (hcancels : ∀ e ∈ events, e.Cancels → cancels) :
    Untouched path bytes store cancels (s.after events) := by
  induction events generalizing s with
  | nil => exact h
  | cons e rest ih =>
    rw [List.forall_mem_cons] at he hcancels
    exact ih (h.step hdigest he.1 hcancels.1) he.2 hcancels.2

end Untouched

end Process

/-! ### All together -/

namespace Reloader

/-- **A reloader watches the file that was loaded**, however its path is spelled: the walk of the
path that it is given and that of the path that it watches arrive at the same file.  With a store
that holds what was loaded, and as long as the file stays as it is, every pass ends unchanged if it
is not cancelled and none touches the store: passes one after the other, and passes that overlap,
at someone's request or because of the watch. -/
theorem watches_loaded_file [Limits] {fs : FileSystem} {path : Text} {now : Instant} {t : Trail}
    {a : Allowlist} (options : Options)
    (hplaced : Path.isAbsolute path = false → fs.Placed)
    (hlength : ∀ encoded, Path.encode? (Path.absolute fs.workingDirectory path) = .ok encoded →
      encoded.length ≤ Tree.maxPath)
    (hload : (Allowlist.load fs (.file path) now).result t = .ok a) :
    let r := new fs.workingDirectory path options
    ∃ location bytes, fs.Reaches path location ∧ fs.Reaches r.path location ∧
      fs.tree.contentAt location = .ok bytes ∧
      ∀ store, store.current.allowlist = a →
        Steady fs r.path (r.state store) ∧
        ∀ (trail : Trail) (events : List Process.Event),
          (∀ e ∈ events, e.Apart r.path bytes) →
            let s := (Process.new r fs store trail).after events
            s.world.state.store = store ∧
            ∀ outcome ∈ s.past, outcome = .unchanged ∨
              outcome = .cancelled ∧ ∃ e ∈ events, e.Cancels := by
  intro r
  rw [Allowlist.result_load_file, Allowlist.ofRead_eq_ok_iff] at hload
  obtain ⟨bytes, hread, hbytes⟩ := hload
  obtain ⟨location, hreaches, hcontent⟩ :=
    FileSystem.read_eq_ok_iff.mp (Allowlist.readFile_eq_ok_iff.mp hread)
  have hwatched : fs.Reaches r.path location := (hreaches.absolute hplaced hlength).1
  have hsame : readFile fs r.path = .ok bytes :=
    Allowlist.readFile_eq_ok_iff.mpr (FileSystem.read_eq_ok_iff.mpr ⟨location, hwatched, hcontent⟩)
  have hgives : (Allowlist.Content.file bytes).Gives a := Allowlist.gives_of_ofBytes hbytes
  refine ⟨location, bytes, hreaches, hwatched, hcontent, ?_⟩
  rintro store rfl
  have hmirrors : Mirrors fs r.path (r.state store).store := ⟨bytes, hsame, hgives⟩
  refine ⟨hmirrors.steady, ?_⟩
  intro trail events hevents
  have hdigest : Sha256.hexDigest bytes = store.current.allowlist.checksum :=
    (Allowlist.Content.checksum_of_gives hgives).symm
  have hstart : Process.Untouched r.path bytes store (∃ e ∈ events, e.Cancels)
      (Process.new r fs store trail) := by
    refine ⟨(Settled.start r.path hsame store trail).share rfl rfl rfl rfl rfl, ?_⟩
    simp [Process.new]
  have hafter := hstart.after hdigest hevents fun e he hcancels => ⟨e, he, hcancels⟩
  exact ⟨hafter.world.store, hafter.past⟩

/-- A working directory with another directory and an allowlist in it. -/
def nestedDisk : FileSystem where
  tree := ⟨[([[0x64]], .directory), ([[0x64], [0x65]], .directory),
    ([[0x64], [0x61]], .file (Run.sampleBytes "x"))]⟩
  workingDirectory := "/d"

theorem placed_nestedDisk : nestedDisk.Placed := by
  refine ⟨by decide, ?_⟩
  intro start hstart
  have hlocation : nestedDisk.location [] = .ok [[0x64]] := by decide +kernel
  rw [hlocation, Except.ok.injEq] at hstart
  rw [← hstart]
  have hsteps : nestedDisk.tree.steps [] [[0x64]] = .ok [[0x64]] := by decide +kernel
  exact Tree.Stands.root.steps hsteps

/-- A pass, and the watch with a pass of its own. -/
def nestedEvents : List Process.Event :=
  (solo 0 default).map .pass ++ .start :: .yield 1 :: (solo 1 default).map .pass

attribute [local instance] Limits.usual

/-- The path that was loaded goes into a directory and out again; both passes end unchanged. -/
theorem nestedDisk_watched : ∃ a,
    (Allowlist.load nestedDisk (.file "./e/..//a") default).result .start = .ok a ∧
    let r := new nestedDisk.workingDirectory "./e/..//a" .default
    let s := (Process.new r nestedDisk (.new a default) .start).after nestedEvents
    s.world.state.store = .new a default ∧ ∀ outcome ∈ s.past, outcome = .unchanged := by
  have hloads : ((Allowlist.load nestedDisk (.file "./e/..//a") default).result
      .start).toOption.isSome = true := by
    decide +kernel
  have hencoded : Path.encode? (Path.absolute nestedDisk.workingDirectory "./e/..//a") =
      .ok (Path.bytesOf "/d/a") := by
    decide +kernel
  have hlength : ∀ encoded, Path.encode? (Path.absolute nestedDisk.workingDirectory "./e/..//a") =
      .ok encoded → encoded.length ≤ Tree.maxPath := by
    intro encoded h
    rw [← Except.ok.inj (hencoded.symm.trans h)]
    decide +kernel
  obtain ⟨a, ha⟩ := Option.isSome_iff_exists.mp hloads
  have hload := mem_toOption_iff.mp (Option.mem_toList.mpr ha)
  obtain ⟨location, bytes, _, _, _, hwatched⟩ :=
    watches_loaded_file .default (fun _ => placed_nestedDisk) hlength hload
  obtain ⟨hstore, hpast⟩ := (hwatched (.new a default) rfl).2 .start nestedEvents
    (by simp [nestedEvents, solo, opening, Process.Event.Apart, Event.Apart])
  have hcalm : ∀ e ∈ nestedEvents, ¬ e.Cancels := by
    simp [nestedEvents, solo, opening, Process.Event.Cancels]
  refine ⟨a, hload, hstore, ?_⟩
  intro outcome houtcome
  rcases hpast outcome houtcome with hunchanged | ⟨_, e, he, hcancels⟩
  · exact hunchanged
  · exact absurd hcancels (hcalm e he)

end Reloader

end AdmissionControl.Reload
