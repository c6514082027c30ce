import AdmissionControl.Proofs.Admission
import AdmissionControl.Proofs.FileSystem

/-!
# A reload and a restart

A pass that finds the published digest does not load the file.  It is right not to, because the
entries of a snapshot are a function of the bytes that its checksum was taken of: after each pass
that ends unchanged or published the store is what a restart would make of the file.

* `Pass.run_eq` — how a pass ends, from what the file holds.
* `Mirrors` — the current snapshot is what the content of the file gives.
* `Mirrors.asFresh`, `Mirrors.steady` — such a store decides as a fresh one would, and further
  passes leave it alone.
* `Run.Occurs` — the contents of files that were on the disk.
* `Run.refresh_as_restart` — a pass and a restart, at every moment of a run.
-/

namespace AdmissionControl

/-- What a decision answers, without the identifier as it was written and the snapshot. -/
def Decision.answer (d : Decision) : Verdict × Option Text × Reason :=
  (d.verdict, d.identifier, d.reason)

/-- The answer to an identifier depends on the entries alone. -/
theorem Store.check_answer [Limits] {s s' : Store}
    (h : s.current.allowlist.entries = s'.current.allowlist.entries) (v : Value) :
    (s.check v).map Decision.answer = (s'.check v).map Decision.answer := by
  have hcontains : ∀ x, s.current.allowlist.contains x = s'.current.allowlist.contains x := by
    intro x
    rw [Allowlist.contains, Allowlist.contains, h]
  rw [Store.check, Store.check, Snapshot.decide, Snapshot.decide]
  cases rawText v with
  | error f => rfl
  | ok raw =>
    simp only [Snapshot.decideRaw]
    cases Identifier.normalize v with
    | error e => cases e <;> rfl
    | ok normal =>
      simp only [hcontains]
      rfl

namespace Reload

open Allowlist (Content contentOf LoadError readFile ofBytes)

/-! ### How a pass ends -/

/-- **How a pass ends**, from what the file holds. -/
theorem Pass.run_eq [Limits] (fs : FileSystem) (path : Text) (now : Instant) (s : State)
    (t : Trail) : ((run fs path now s).run t).1 =
      match readFile fs path with
      | .error e => failure now (begin now s) e
      | .ok bytes =>
        if Sha256.hexDigest bytes = s.store.current.allowlist.checksum then
          (⟨s.store, (s.status.begin now).unchanged.settle⟩, .unchanged)
        else conclusion now ⟨s.store, { s.status.begin now with phase := .loading }⟩
          (ofBytes path bytes now) := by
  rw [run_fst, Allowlist.fileChecksum]
  cases readFile fs path with
  | error e => rfl
  | ok bytes =>
    by_cases h : Sha256.hexDigest bytes = s.store.current.allowlist.checksum
    · have hturn : turn now (begin now s) ((Except.ok bytes).map Sha256.hexDigest) =
          .ended ⟨s.store, (s.status.begin now).unchanged.settle⟩ .unchanged := if_pos h
      rw [hturn]
      exact (if_pos h).symm
    · have hturn : turn now (begin now s) ((Except.ok bytes).map Sha256.hexDigest) =
          .loading ⟨s.store, { s.status.begin now with phase := .loading }⟩ := if_neg h
      rw [hturn]
      exact (if_neg h).symm

/-- The end of a pass that loads, from what the load comes to. -/
def Outcome.ofLoad : Except LoadError Allowlist → Outcome
  | .ok _ => .published
  | .error (.refused _) => .failed
  | .error (.fault f) => .escaped f

namespace Outcome

variable {r : Except LoadError Allowlist}

theorem ofLoad_eq_published_iff : ofLoad r = .published ↔ ∃ a, r = .ok a := by
  rcases r with (_ | _) | _ <;> simp [ofLoad]

theorem ofLoad_eq_failed_iff : ofLoad r = .failed ↔ ∃ x, r = .error (.refused x) := by
  rcases r with (_ | _) | _ <;> simp [ofLoad]

theorem ofLoad_eq_escaped_iff {f : Fault} : ofLoad r = .escaped f ↔ r = .error (.fault f) := by
  rcases r with (_ | _) | _ <;> simp [ofLoad]

/-- It does not matter when the load is. -/
theorem ofLoad_ofRead [Limits] (path : Text) (content : Except LoadError (List UInt8))
    (now later : Instant) :
    ofLoad (Allowlist.ofRead path later content) = ofLoad (Allowlist.ofRead path now content) := by
  cases content with
  | error e => rfl
  | ok bytes =>
    show ofLoad (ofBytes path bytes later) = ofLoad (ofBytes path bytes now)
    rw [Allowlist.ofBytes_loadedAt path bytes now later]
    rcases ofBytes path bytes now with (_ | _) | _ <;> rfl

end Outcome

namespace Pass

variable {fs : FileSystem} {path : Text} {now : Instant} {s : State} {t : Trail}

/-- The file holds the published digest. -/
theorem outcome_of_digest [Limits] {bytes : List UInt8} (hread : readFile fs path = .ok bytes)
    (hdigest : Sha256.hexDigest bytes = s.store.current.allowlist.checksum) :
    ((run fs path now s).run t).1.2 = .unchanged := by
  rw [run_eq, hread]
  simp only [if_pos hdigest]

theorem no_digest_of_outcome [Limits] (h : ((run fs path now s).run t).1.2 ≠ .unchanged)
    (bytes : List UInt8) (hread : readFile fs path = .ok bytes) :
    Sha256.hexDigest bytes ≠ s.store.current.allowlist.checksum :=
  fun heq => h (outcome_of_digest hread heq)

/-- The file cannot be read or holds another digest: the pass ends as a restart does, whenever that
is. -/
theorem outcome_eq_restart [Limits] (h : ∀ bytes, readFile fs path = .ok bytes →
      Sha256.hexDigest bytes ≠ s.store.current.allowlist.checksum) (now later : Instant)
    (t t' : Trail) : ((run fs path now s).run t).1.2 =
      Outcome.ofLoad ((Allowlist.load fs (.file path) later).result t') := by
  rw [Allowlist.result_load_file, Outcome.ofLoad_ofRead path _ now later, run_eq]
  cases hread : readFile fs path with
  | error e => cases e <;> rfl
  | ok bytes =>
    show (if _ then _ else _ : State × Outcome).2 = Outcome.ofLoad (ofBytes path bytes now)
    rw [if_neg (h bytes hread)]
    rcases ofBytes path bytes now with (_ | _) | _ <;> rfl

/-- A file that cannot be read ends the pass as it would end a load. -/
theorem outcome_of_unread [Limits] {e : LoadError} (hread : readFile fs path = .error e) :
    ((run fs path now s).run t).1.2 = Outcome.ofLoad (.error e) := by
  have hnone : ∀ bytes, readFile fs path = .ok bytes →
      Sha256.hexDigest bytes ≠ s.store.current.allowlist.checksum := by
    intro bytes hbytes
    rw [hread] at hbytes
    cases hbytes
  rw [outcome_eq_restart hnone now now t t, Allowlist.result_load_file, hread]
  rfl

theorem failed_of_unread [Limits] (hnames : fs.Names path)
    (hnone : ∀ bytes, readFile fs path ≠ .ok bytes) :
    ((run fs path now s).run t).1.2 = .failed := by
  cases hread : readFile fs path with
  | ok bytes => exact absurd hread (hnone bytes)
  | error e =>
    rw [outcome_of_unread hread]
    cases e with
    | refused r => rfl
    | fault f => exact absurd hnames ((Allowlist.readFile_eq_fault_iff fs path).mp ⟨f, hread⟩)

theorem escaped_of_not_names [Limits] (hnames : ¬ fs.Names path) :
    ∃ f, ((run fs path now s).run t).1.2 = .escaped f := by
  obtain ⟨f, hread⟩ := (Allowlist.readFile_eq_fault_iff fs path).mpr hnames
  exact ⟨f, outcome_of_unread hread⟩

/-- Only a pass that publishes changes the store. -/
theorem store_of_ne_published [Limits] (h : ((run fs path now s).run t).1.2 ≠ .published) :
    ((run fs path now s).run t).1.1.store = s.store := by
  rw [run_eq] at h ⊢
  cases hread : readFile fs path with
  | error e => exact store_failure now (begin now s) e
  | ok bytes =>
    rw [hread] at h
    by_cases hdigest : Sha256.hexDigest bytes = s.store.current.allowlist.checksum
    · simp only [if_pos hdigest]
    · simp only [if_neg hdigest] at h ⊢
      rcases conclusion_cases now ⟨s.store, { s.status.begin now with phase := .loading }⟩
        (ofBytes path bytes now) with ⟨_, _, hpublished, _⟩ | ⟨_, _, hstore⟩
      · exact absurd hpublished h
      · exact hstore

/-- A pass leaves a store whose allowlist some content gives. -/
theorem sourced_run [Limits] (h : s.store.Sourced) :
    ((run fs path now s).run t).1.1.store.Sourced := by
  rw [run_eq]
  cases readFile fs path with
  | error e =>
    show (failure now (begin now s) e).1.store.Sourced
    rw [store_failure]
    exact h
  | ok bytes =>
    by_cases hdigest : Sha256.hexDigest bytes = s.store.current.allowlist.checksum
    · simp only [if_pos hdigest]
      exact h
    · simp only [if_neg hdigest]
      cases hof : ofBytes path bytes now with
      | error e =>
        rw [conclusion_store_of_error]
        exact h
      | ok a => exact ⟨.file bytes, Allowlist.gives_of_ofBytes hof⟩

end Pass

/-- Passes one after the other, each with the disk and the time at which it runs. -/
def Pass.runs [Limits] (path : Text) : List (FileSystem × Instant) → State →
    StateM Trail (State × List Outcome)
  | [], s => return (s, [])
  | (fs, now) :: rest, s => do
    let (s, outcome) ← run fs path now s
    let (s, outcomes) ← runs path rest s
    return (s, outcome :: outcomes)

theorem Pass.runs_cons [Limits] (path : Text) (d : FileSystem × Instant)
    (rest : List (FileSystem × Instant)) (s : State) (t : Trail) :
    ((runs path (d :: rest) s).run t).1 =
      let (first, trail) := (run d.1 path d.2 s).run t
      let further := ((runs path rest first.1).run trail).1
      (further.1, first.2 :: further.2) := rfl

/-! ### Stores that hold what the file gives -/

/-- The file holds a content that gives the allowlist of the current snapshot. -/
def Mirrors [Limits] (fs : FileSystem) (path : Text) (s : Store) : Prop :=
  ∃ bytes, readFile fs path = .ok bytes ∧ (Content.file bytes).Gives s.current.allowlist

/-- A restart, whenever it is, loads the same entries and the same checksum, and its gate answers
every identifier in the same way. -/
def AsFresh [Limits] (fs : FileSystem) (path : Text) (s : Store) : Prop :=
  ∀ now t, ∃ a, (Allowlist.load fs (.file path) now).result t = .ok a ∧
    a.entries = s.current.allowlist.entries ∧ a.checksum = s.current.allowlist.checksum ∧
    ∀ time v, (s.check v).map Decision.answer = ((Store.new a time).check v).map Decision.answer

/-- Further passes all end unchanged as long as the file holds the same, and leave the store as it
is. -/
def Steady [Limits] (fs : FileSystem) (path : Text) (s : State) : Prop :=
  ∀ later : List (FileSystem × Instant), (∀ d ∈ later, readFile d.1 path = readFile fs path) →
    ∀ t, (∀ outcome ∈ ((Pass.runs path later s).run t).1.2, outcome = .unchanged) ∧
      ((Pass.runs path later s).run t).1.1.store = s.store

namespace Mirrors

variable {fs : FileSystem} {path : Text}

theorem asFresh [Limits] {s : Store} (h : Mirrors fs path s) : AsFresh fs path s := by
  obtain ⟨bytes, hread, hgives⟩ := h
  intro now t
  refine ⟨⟨s.current.allowlist.entries, .file, path, s.current.allowlist.checksum, now⟩, ?_, rfl,
    rfl, fun time v => Store.check_answer (by rfl) v⟩
  rw [Allowlist.result_load_file, Allowlist.ofRead_eq_ok_iff]
  exact ⟨bytes, hread, Content.ofBytes_of_gives hgives path now⟩

/-- A pass finds the published digest. -/
theorem run [Limits] {s : State} (h : Mirrors fs path s.store) (now : Instant) (t : Trail) :
    ((Pass.run fs path now s).run t).1.2 = .unchanged ∧
      ((Pass.run fs path now s).run t).1.1.store = s.store := by
  obtain ⟨bytes, hread, hgives⟩ := h
  rw [Pass.run_eq, hread]
  simp only [if_pos (Content.checksum_of_gives hgives).symm, and_self]

theorem steady [Limits] {s : State} (h : Mirrors fs path s.store) : Steady fs path s := by
  intro later
  induction later generalizing s with
  | nil => exact fun _ t => ⟨fun _ h => absurd h List.not_mem_nil, rfl⟩
  | cons d rest ih =>
    intro hsame t
    obtain ⟨hd, hrest⟩ := List.forall_mem_cons.mp hsame
    have hmirrors : Mirrors d.1 path s.store := by
      obtain ⟨bytes, hread, hgives⟩ := h
      exact ⟨bytes, hd.trans hread, hgives⟩
    obtain ⟨houtcome, hstore⟩ := hmirrors.run d.2 t
    have hafter : Mirrors fs path ((Pass.run d.1 path d.2 s).run t).1.1.store := by
      rw [hstore]
      exact h
    obtain ⟨houtcomes, hstores⟩ := ih hafter hrest ((Pass.run d.1 path d.2 s).run t).2
    rw [Pass.runs_cons]
    refine ⟨?_, hstores.trans hstore⟩
    exact List.forall_mem_cons.mpr ⟨houtcome, houtcomes⟩

end Mirrors

/-- A pass that publishes leaves a store that holds what the file gives, and so does a pass that
ends unchanged if the digest tells the file from what was published. -/
theorem mirrors_of_outcome [Limits] {fs : FileSystem} {path : Text} {s : State} {now : Instant}
    {t : Trail} (hfree : ∀ bytes, readFile fs path = .ok bytes →
      Sha256.hexDigest bytes = s.store.current.allowlist.checksum →
      (Content.file bytes).Gives s.store.current.allowlist)
    (h : ((Pass.run fs path now s).run t).1.2 = .unchanged ∨
      ((Pass.run fs path now s).run t).1.2 = .published) :
    Mirrors fs path ((Pass.run fs path now s).run t).1.1.store := by
  rw [Pass.run_eq] at h ⊢
  cases hread : readFile fs path with
  | error e =>
    rw [hread] at h
    cases e <;> simp [Pass.failure] at h
  | ok bytes =>
    rw [hread] at h
    by_cases hdigest : Sha256.hexDigest bytes = s.store.current.allowlist.checksum
    · simp only [if_pos hdigest]
      exact ⟨bytes, hread, hfree bytes hread hdigest⟩
    · simp only [if_neg hdigest] at h ⊢
      cases hof : ofBytes path bytes now with
      | error e =>
        rw [hof] at h
        cases e <;> simp [Pass.conclusion, Pass.failure] at h
      | ok a => exact ⟨bytes, hread, Allowlist.gives_of_ofBytes hof⟩

/-! ### Passes and restarts in a run -/

namespace Run

/-- Some file held these bytes at a moment up to `n`. -/
def Occurs [Limits] (r : Run) (n : Nat) (bytes : List UInt8) : Prop :=
  ∃ i ≤ n, ∃ path, readFile (r.world i).disk path = .ok bytes

theorem exists_read_of_contentOf {disk : FileSystem} {source : Source} {bytes : List UInt8}
    (h : contentOf disk source = some (.file bytes)) :
    ∃ path, readFile disk path = .ok bytes := by
  cases source with
  | file path =>
    refine ⟨path, ?_⟩
    rw [contentOf, Option.map_eq_some_iff] at h
    obtain ⟨found, hfound, heq⟩ := h
    rw [Content.file.injEq] at heq
    rw [← heq]
    exact mem_toOption_iff.mp (Option.mem_toList.mpr hfound)
  | inline content location => cases content <;> cases h
  | bare value => cases h

theorem Loaded.occurs [Limits] {r : Run} {n : Nat} {bytes : List UInt8} {a : Allowlist}
    (h : r.Loaded n (.file bytes) a) : r.Occurs n bytes := by
  cases h with
  | opening hc => exact ⟨0, Nat.zero_le n, exists_read_of_contentOf hc⟩
  | @other i _ _ hi _ hc => exact ⟨i, hi.le, exists_read_of_contentOf hc⟩
  | @pass i _ _ _ hi _ hread hc =>
    cases hc
    exact ⟨i, hi.le, _, hread⟩

/-- A snapshot that was loaded from a file is given by bytes that occurred. -/
theorem exists_occurs [Limits] (r : Run) {c₀ : Content} (hopens : r.OpensWith c₀) {n : Nat}
    (hfile : (r.store n).current.allowlist.kind = .file) :
    ∃ bytes, r.Occurs n bytes ∧ (Content.file bytes).Gives (r.store n).current.allowlist := by
  obtain ⟨c, hc⟩ := r.exists_loaded hopens n
  have hkind := Content.kind_of_gives hc.gives
  cases c with
  | file bytes => exact ⟨bytes, hc.occurs, hc.gives⟩
  | inline text =>
    rw [hfile] at hkind
    cases hkind

/-- Where the digest tells contents apart, a file with the published digest gives the published
allowlist. -/
theorem gives_of_digest [Limits] (r : Run) {c₀ : Content} (hopens : r.OpensWith c₀) {n : Nat}
    (hfile : (r.store n).current.allowlist.kind = .file)
    (hfree : ∀ b b', r.Occurs n b → r.Occurs n b' →
      Sha256.hexDigest b = Sha256.hexDigest b' → b = b') {bytes : List UInt8}
    (hread : readFile (r.world n).disk r.path = .ok bytes)
    (hdigest : Sha256.hexDigest bytes = (r.store n).current.allowlist.checksum) :
    (Content.file bytes).Gives (r.store n).current.allowlist := by
  obtain ⟨published, hoccurs, hgives⟩ := r.exists_occurs hopens hfile
  rw [Content.checksum_of_gives hgives] at hdigest
  rw [hfree bytes published ⟨n, le_rfl, r.path, hread⟩ hoccurs hdigest]
  exact hgives

/-- **A pass is as good as a restart**, at every moment of a run at which the current snapshot was
loaded from a file, if the digest tells the contents apart that occurred.

A pass on a file that cannot be read fails, unless there are no bytes for its path, which is a
fault.  On a file that can be read it ends unchanged if the digest is the published one; otherwise
it publishes exactly if a restart would load the file, and fails if a restart would be refused.
After a pass that ends unchanged or published the store is as a fresh one, and it stays so however
many passes follow.  A pass that ends otherwise leaves the store alone, and a restart would end as
it did. -/
theorem refresh_as_restart [Limits] (r : Run) {c₀ : Content} (hopens : r.OpensWith c₀) {n : Nat}
    (hfile : (r.store n).current.allowlist.kind = .file)
    (hfree : ∀ b b', r.Occurs n b → r.Occurs n b' →
      Sha256.hexDigest b = Sha256.hexDigest b' → b = b') (now : Instant) (t : Trail) :
    let disk := (r.world n).disk
    let after := ((Pass.run disk r.path now (r.world n).state).run t).1.1
    let outcome := ((Pass.run disk r.path now (r.world n).state).run t).1.2
    let restart (now : Instant) (t : Trail) := (Allowlist.load disk (.file r.path) now).result t
    (¬ disk.Names r.path → ∃ f, outcome = .escaped f) ∧
    (disk.Names r.path → (∀ b, readFile disk r.path ≠ .ok b) → outcome = .failed) ∧
    (∀ b, readFile disk r.path = .ok b →
      Sha256.hexDigest b = (r.store n).current.allowlist.checksum → outcome = .unchanged) ∧
    (∀ b, readFile disk r.path = .ok b →
      Sha256.hexDigest b ≠ (r.store n).current.allowlist.checksum → ∀ now t,
        (outcome = .published ↔ ∃ a, restart now t = .ok a) ∧
        (outcome = .failed ↔ ∃ x, restart now t = .error (.refused x))) ∧
    (outcome = .unchanged ∨ outcome = .published →
      AsFresh disk r.path after.store ∧ Steady disk r.path after) ∧
    (outcome = .failed → after.store = r.store n ∧
      ∀ now t, ∃ x, restart now t = .error (.refused x)) ∧
    ∀ f, outcome = .escaped f → after.store = r.store n ∧
      ∀ now t, restart now t = .error (.fault f) := by
  intro disk after outcome restart
  have hends : (∀ bytes, readFile disk r.path = .ok bytes →
      Sha256.hexDigest bytes ≠ (r.store n).current.allowlist.checksum) → ∀ later t',
      outcome = Outcome.ofLoad (restart later t') :=
    fun h later t' => Pass.outcome_eq_restart h now later t t'
  have hother : outcome ≠ .published → outcome ≠ .unchanged → after.store = r.store n ∧
      ∀ later t', outcome = Outcome.ofLoad (restart later t') :=
    fun hp hu => ⟨Pass.store_of_ne_published hp, hends (Pass.no_digest_of_outcome hu)⟩
  refine ⟨Pass.escaped_of_not_names, Pass.failed_of_unread, ?_, ?_, ?_, ?_, ?_⟩
  · exact fun b hread hdigest => Pass.outcome_of_digest hread hdigest
  · intro b hread hdigest later t'
    have hnew : ∀ bytes, readFile disk r.path = .ok bytes →
        Sha256.hexDigest bytes ≠ (r.store n).current.allowlist.checksum := by
      intro bytes hbytes
      rw [hread, Except.ok.injEq] at hbytes
      rw [← hbytes]
      exact hdigest
    rw [hends hnew later t']
    exact ⟨Outcome.ofLoad_eq_published_iff, Outcome.ofLoad_eq_failed_iff⟩
  · intro h
    have hmirrors := mirrors_of_outcome (fun _ => r.gives_of_digest hopens hfile hfree) h
    exact ⟨hmirrors.asFresh, hmirrors.steady⟩
  · intro h
    obtain ⟨hstore, hrestart⟩ := hother (by rw [h]; nofun) (by rw [h]; nofun)
    refine ⟨hstore, fun later t' => ?_⟩
    exact Outcome.ofLoad_eq_failed_iff.mp ((hrestart later t').symm.trans h)
  · intro f h
    obtain ⟨hstore, hrestart⟩ := hother (by rw [h]; nofun) (by rw [h]; nofun)
    refine ⟨hstore, fun later t' => ?_⟩
    exact Outcome.ofLoad_eq_escaped_iff.mp ((hrestart later t').symm.trans h)

theorem sampleDisk_mem {identifier : String} {location : Location} {b : List UInt8}
    (h : (location, .file b) ∈ (sampleDisk identifier).tree.entries) :
    b = sampleBytes identifier := by
  rw [sampleDisk, List.mem_singleton, Prod.mk.injEq, Entry.file.injEq] at h
  exact h.2

attribute [local instance] Limits.usual

/-- Two contents occur that have different digests; the pass publishes the second one. -/
theorem openedSample_refresh : openedSample.OpensWith (.inline "0xAB,Qm") ∧
    (openedSample.store 9).current.allowlist.kind = .file ∧
    AsFresh (openedSample.world 9).disk openedSample.path
      ((Pass.run (openedSample.world 9).disk openedSample.path default
        (openedSample.world 9).state).run .start).1.1.store := by
  have hdisk : ∀ i < 10, (openedSample.world i).disk.tree = (sampleDisk "x").tree ∨
      (openedSample.world i).disk.tree = (sampleDisk "y").tree := by
    decide +kernel
  have hoccurs : ∀ b, openedSample.Occurs 9 b → b = sampleBytes "x" ∨ b = sampleBytes "y" := by
    rintro b ⟨i, hi, path, hread⟩
    obtain ⟨location, hmem⟩ := Allowlist.mem_entries_of_readFile hread
    rcases hdisk i (Nat.lt_succ_of_le hi) with htree | htree
    · rw [htree] at hmem
      exact .inl (sampleDisk_mem hmem)
    · rw [htree] at hmem
      exact .inr (sampleDisk_mem hmem)
  have hdigest : Sha256.hexDigest (sampleBytes "x") ≠ Sha256.hexDigest (sampleBytes "y") := by
    decide +kernel
  have hfree : ∀ b b', openedSample.Occurs 9 b → openedSample.Occurs 9 b' →
      Sha256.hexDigest b = Sha256.hexDigest b' → b = b' := by
    intro b b' hb hb' heq
    rcases hoccurs b hb with rfl | rfl <;> rcases hoccurs b' hb' with rfl | rfl
    · rfl
    · exact absurd heq hdigest
    · exact absurd heq.symm hdigest
    · rfl
  have hfile : (openedSample.store 9).current.allowlist.kind = .file := by
    decide +kernel
  have hpublished : ((Pass.run (openedSample.world 9).disk openedSample.path default
      (openedSample.world 9).state).run .start).1.2 = .published := by
    decide +kernel
  obtain ⟨_, _, _, _, hfresh, _⟩ := openedSample.refresh_as_restart opensWith_openedSample hfile
    hfree default .start
  exact ⟨opensWith_openedSample, hfile, (hfresh (.inr hpublished)).1⟩

end Run

end Reload

end AdmissionControl
