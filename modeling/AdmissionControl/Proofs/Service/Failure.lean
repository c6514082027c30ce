import AdmissionControl.Proofs.Allowlist.Failure
import AdmissionControl.Proofs.Reload.Restart
import AdmissionControl.Proofs.Service.Startup

/-!
# What comes of a load that fails

A startup and a pass of a reload are prepared for a load that is refused: the one ends with its
message, the other records the failure.  They are not prepared for a fault, which ends the startup
without a message and leaves the pass without a record.

* `Reported`, `Escaped` — what both make of a refusal, and of a fault.
* `refused_unless_escapes` — every load that fails is refused and reported, unless its source is one
  of those that escape.
-/

namespace AdmissionControl.Service

open Allowlist (LoadError Refusal Escapes fileChecksum)
open Reload

/-- What a refused startup writes about the allowlist. -/
def refusalMessage (r : Refusal) : Text :=
  ("ALLOWLIST ERROR: " : Text) ++ r.kind ++ ": " ++ r.message ++
    "\nThe gate refuses to start without a valid allowlist."

/-- A refusal, as a startup and a pass report it: the one with a message, the other as the last
failure, which is counted. -/
structure Reported [Limits] (fs : FileSystem) (source : Source) (now : Instant) (r : Refusal) :
    Prop where
  refusal : r.Of fs source
  startUp : ∀ (a : Application) (env : Environment) (s : Settings) (t t' : Trail),
    (Settings.load env fs none).result t = .ok s → s.source = some source →
      ∃ e, (a.startUp env fs now).result t' = .error e ∧ e.message? = some (refusalMessage r)
  pass : ∀ path, source = .file path → ∀ (s : Reload.State) (t : Trail),
    fileChecksum fs path ≠ .ok s.store.current.allowlist.checksum →
      ((Pass.run fs path now s).run t).1 = (⟨s.store, { s.status with
        phase := .idle
        lastCheckedAt := some now
        lastFailure := some ⟨r.message, r.kind, now⟩
        consecutiveFailures := s.status.consecutiveFailures + 1 }⟩, .failed)

/-- A fault, which a startup does not word and a pass does not record. -/
structure Escaped [Limits] (fs : FileSystem) (source : Source) (now : Instant) (f : Fault) :
    Prop where
  escapes : Escapes fs source
  startUp : ∀ (a : Application) (env : Environment) (s : Settings) (t t' : Trail),
    (Settings.load env fs none).result t = .ok s → s.source = some source →
      ∃ e, (a.startUp env fs now).result t' = .error e ∧ e.message? = none
  pass : ∀ path, source = .file path → ∀ (s : Reload.State) (t : Trail),
    fileChecksum fs path ≠ .ok s.store.current.allowlist.checksum →
      ((Pass.run fs path now s).run t).1 = (⟨s.store, { s.status with
        phase := .idle
        lastCheckedAt := some now }⟩, .escaped f)

section Ends

variable {fs : FileSystem} {now : Instant} {e : LoadError}

/-- A startup ends with what its load ends with. -/
theorem startUp_of_load_error [Limits] {source : Source}
    (h : Allowlist.ofSource fs source now = .error e) (a : Application) {env : Environment}
    {s : Settings} {t : Trail} (t' : Trail) (hs : (Settings.load env fs none).result t = .ok s)
    (hsource : s.source = some source) :
    (a.startUp env fs now).result t' = .error (Application.StartupError.ofLoad e) := by
  have hnamed : Application.sourceOf s = source := by
    rw [Application.sourceOf, hsource]
    rfl
  rw [Settings.result_load] at hs
  rw [Application.result_startUp, Application.loadedFor, hs]
  simp only [hnamed, h]
  rfl

/-- So does a pass that has to load. -/
theorem pass_of_load_error [Limits] {path : Text}
    (h : Allowlist.ofSource fs (.file path) now = .error e) {s : Reload.State} (t : Trail)
    (hnew : fileChecksum fs path ≠ .ok s.store.current.allowlist.checksum) :
    ((Pass.run fs path now s).run t).1 = Pass.failure now (Pass.begin now s) e := by
  rw [Pass.run_eq]
  rw [fileChecksum] at hnew
  rw [Allowlist.ofSource, Allowlist.ofRead] at h
  cases hread : Allowlist.readFile fs path with
  | error e' =>
    rw [hread] at h
    rw [Except.error.inj h]
  | ok bytes =>
    rw [hread] at h hnew
    have hne : Sha256.hexDigest bytes ≠ s.store.current.allowlist.checksum :=
      fun heq => hnew (congrArg Except.ok heq)
    have hload : Allowlist.ofBytes path bytes now = .error e := h
    simp only [if_neg hne, hload]
    cases e <;> rfl

end Ends

/-- **Every load that fails is refused and reported, unless it escapes.**  A load is a fault exactly
for the sources that escape.  Any other load that fails is refused by the name of its source, as
unavailable or as malformed; then a startup from the source ends with the message, and a pass over
it ends as failed and records it.  A fault ends both without a word. -/
theorem refused_unless_escapes [Limits] (fs : FileSystem) (source : Source) (now : Instant)
    (t : Trail) : (∀ a, (Allowlist.load fs source now).result t = .ok a → ¬ Escapes fs source) ∧
    (∀ r, (Allowlist.load fs source now).result t = .error (.refused r) →
      ¬ Escapes fs source ∧ Reported fs source now r) ∧
    ∀ f, (Allowlist.load fs source now).result t = .error (.fault f) →
      Escaped fs source now f := by
  have hescapes := Allowlist.load_fault_iff fs source now t
  refine ⟨fun a ha h => ?_, fun r hr => ⟨fun h => ?_, Allowlist.refusal_of_load hr, ?_, ?_⟩,
    fun f hf => ⟨hescapes.mp ⟨f, hf⟩, ?_, ?_⟩⟩
  · obtain ⟨f, hf⟩ := hescapes.mpr h
    exact nomatch hf.symm.trans ha
  · obtain ⟨f, hf⟩ := hescapes.mpr h
    exact nomatch hf.symm.trans hr
  · intro a env s t t' hs hsource
    rw [Allowlist.result_load] at hr
    exact ⟨_, startUp_of_load_error hr a t' hs hsource, rfl⟩
  · rintro path rfl s t hnew
    rw [Allowlist.result_load] at hr
    exact pass_of_load_error hr t hnew
  · intro a env s t t' hs hsource
    rw [Allowlist.result_load] at hf
    exact ⟨_, startUp_of_load_error hf a t' hs hsource, rfl⟩
  · rintro path rfl s t hnew
    rw [Allowlist.result_load] at hf
    exact pass_of_load_error hf t hnew

/-- A document that lists a surrogate on its own. -/
def loneSurrogate : String := "\x7b\"allowlist\": [\"\\ud800\"]\x7d"

attribute [local instance] Limits.usual

theorem parse_loneSurrogate : Json.parse (Text.ofString loneSurrogate) =
    .ok (.object [("allowlist", .array [.string [⟨0xD800, by decide⟩]])]) := by
  cbv

/-- Its load is a fault, which escapes. -/
theorem loneSurrogate_escapes : ∃ f,
    (Allowlist.load (Allowlist.documentDisk loneSurrogate) (.file "/a") default).result .start =
      .error (.fault f) ∧
    Escaped (Allowlist.documentDisk loneSurrogate) (.file "/a") default f := by
  have hfree : Text.SurrogateFree (Text.ofString loneSurrogate) := by decide +kernel
  have hnames : (Allowlist.Content.file ((Text.ofString loneSurrogate).flatMap
      Utf8.encodeOne)).Names [.string [⟨0xD800, by decide⟩]] :=
    .document (Utf8.decode?_eq_ok_iff.mpr ⟨hfree, rfl⟩) parse_loneSurrogate rfl
  have hescapes : Escapes (Allowlist.documentDisk loneSurrogate) (.file "/a") :=
    .unencodable rfl hnames (.here (by decide) (by decide))
  obtain ⟨f, hf⟩ := (Allowlist.load_fault_iff _ _ default .start).mpr hescapes
  exact ⟨f, hf, (refused_unless_escapes _ _ default .start).2.2 f hf⟩

end AdmissionControl.Service
