import AdmissionControl.Proofs.Allowlist
import AdmissionControl.Settings.Load

/-!
# What the settings come to

Loading the settings leaves records, but what comes of it does not depend on them.  Each part has a
form without records here.

* `sourceOf`, `baseOf`, `ofEnvironment` — the source, the settings of the file, and all together.
* `result_load` — loading comes to what they say.
* `Environment.Alike`, `ofEnvironment_congr` — with a file named for the allowlist the inline
  variable has no part in the settings.
-/

namespace AdmissionControl

namespace Audited

variable {ε ε' α : Type}

/-- Errors under another name. -/
theorem result_adapt (f : ε → ε') (action : Audited ε α) (t : Trail) :
    Audited.result (ExceptT.adapt f action) t = (action.result t).mapError f := by
  show (StateT.run (Except.mapError f <$> action.run) t).1 = _
  rw [StateT.run_map]
  rfl

end Audited

namespace Settings

/-! ### The parts without their records -/

/-- The source that the environment names: a file wins over an inline text. -/
def sourceOf (env : Environment) : Except Fault (Option Source) :=
  let path := Text.trim ((env.lookup? fileVariable).getD [])
  if path.isEmpty then
    .ok ((env.lookup? inlineVariable).map fun text => .inline (.text text) inlineVariable)
  else (env.expand path).map fun path => some (.file path)

/-- The settings before the environment changes them. -/
def baseOf [Limits] (env : Environment) (fs : FileSystem) (given : Option Text) :
    Except Error Settings :=
  match findFile env fs (searchPaths env given) with
  | .error f => .error (.fault f)
  | .ok none => .ok Settings.default
  | .ok (some (path, content)) => ofFound path content

/-- The settings that a source completes; without one they are refused. -/
def complete (s : Settings) (source : Except Fault (Option Source)) : Except Error Settings :=
  match source with
  | .error f => .error (.fault f)
  | .ok none => refuse s.path .noSource
  | .ok (some source) => .ok { s with source := some source }

/-- The settings that a process starts with. -/
def ofEnvironment [Limits] (env : Environment) (fs : FileSystem) (given : Option Text) :
    Except Error Settings := do
  let s ← baseOf env fs given
  let s ← applyEnvironment env s
  complete s (sourceOf env)

theorem result_resolveSource (env : Environment) (t : Trail) :
    (resolveSource env).result t = sourceOf env := by
  rw [resolveSource, sourceOf]
  split
  · rfl
  · split
    · cases env.expand _ <;> rfl
    · cases env.expand _ <;> rfl

theorem result_base [Limits] (env : Environment) (fs : FileSystem) (given : Option Text)
    (t : Trail) : (base env fs given).result t = baseOf env fs given := by
  rw [base, baseOf]
  cases findFile env fs (searchPaths env given) with
  | error f => rfl
  | ok found =>
    cases found with
    | none => rfl
    | some file => exact Audited.result_liftM_except _ _

/-- **What loading the settings comes to**, whatever is on the trail. -/
theorem result_load [Limits] (env : Environment) (fs : FileSystem) (given : Option Text)
    (t : Trail) : (load env fs given).result t = ofEnvironment env fs given := by
  rw [load, ofEnvironment, Audited.result_bind, result_base]
  cases baseOf env fs given with
  | error e => rfl
  | ok s =>
    show Audited.result _ _ = (applyEnvironment env s >>= fun s => complete s (sourceOf env))
    rw [Audited.result_bind, Audited.result_liftM_except]
    cases applyEnvironment env s with
    | error e => rfl
    | ok s =>
      show Audited.result _ _ = complete s (sourceOf env)
      rw [Audited.result_bind, Audited.result_adapt, result_resolveSource]
      cases sourceOf env with
      | error f => rfl
      | ok source =>
        cases source with
        | none => rfl
        | some source => rfl

/-! ### What loaded settings have -/

theorem ofEnvironment_eq_ok_iff [Limits] {env : Environment} {fs : FileSystem} {given : Option Text}
    {s : Settings} : ofEnvironment env fs given = .ok s ↔
      ∃ found base source, baseOf env fs given = .ok found ∧
        applyEnvironment env found = .ok base ∧ sourceOf env = .ok (some source) ∧
        s = { base with source := some source } := by
  rw [ofEnvironment, bind_eq_ok_iff]
  refine exists_congr fun found => ?_
  rw [bind_eq_ok_iff]
  constructor
  · rintro ⟨hfound, base, hbase, hcomplete⟩
    cases hsource : sourceOf env with
    | error f =>
      rw [hsource] at hcomplete
      cases hcomplete
    | ok source =>
      cases source with
      | none =>
        rw [hsource] at hcomplete
        cases hcomplete
      | some source =>
        rw [hsource] at hcomplete
        exact ⟨base, source, hfound, hbase, rfl, (Except.ok.inj hcomplete).symm⟩
  · rintro ⟨base, source, hfound, hbase, hsource, rfl⟩
    exact ⟨hfound, base, hbase, by rw [hsource]; rfl⟩

/-- Loaded settings have the source that the environment names. -/
theorem source_of_ofEnvironment [Limits] {env : Environment} {fs : FileSystem} {given : Option Text}
    {s : Settings} (h : ofEnvironment env fs given = .ok s) : sourceOf env = .ok s.source := by
  obtain ⟨_, _, _, _, _, hsource, rfl⟩ := ofEnvironment_eq_ok_iff.mp h
  exact hsource

end Settings

/-! ### Two environments -/

/-- Two environments that agree in everything but the given variable. -/
structure Environment.Alike (name : Text) (env env' : Environment) : Prop where
  lookup : ∀ other, other ≠ name → env.lookup? other = env'.lookup? other
  home : env.home = env'.home
  accounts : env.accounts = env'.accounts

namespace Settings

variable {env env' : Environment} (h : env.Alike inlineVariable env')

include h

theorem expand_congr : env.expand = env'.expand := by
  funext path
  rw [Environment.expand, Environment.expand, h.home, h.accounts]

theorem findFile_congr (fs : FileSystem) (paths : List Text) :
    findFile env fs paths = findFile env' fs paths := by
  induction paths with
  | nil => rfl
  | cons path rest ih => rw [findFile, findFile, expand_congr h, ih]

theorem baseOf_congr [Limits] (fs : FileSystem) (given : Option Text) :
    baseOf env fs given = baseOf env' fs given := by
  rw [baseOf, baseOf, searchPaths, searchPaths, h.lookup configVariable (by decide),
    findFile_congr h]

theorem applyEnvironment_congr (s : Settings) :
    applyEnvironment env s = applyEnvironment env' s := by
  have hreload : overrideReload env = overrideReload env' := by
    funext s
    rw [overrideReload, overrideReload, h.lookup reloadVariable (by decide)]
  rw [applyEnvironment, applyEnvironment, hreload, overridePort, overridePort,
    h.lookup portVariable (by decide)]

/-- A file that is named for the allowlist wins. -/
theorem sourceOf_congr (hfile : ¬ Text.Blank ((env.lookup? fileVariable).getD [])) :
    sourceOf env = sourceOf env' := by
  have hnonempty : (Text.trim ((env.lookup? fileVariable).getD [])).isEmpty = false := by
    rw [List.isEmpty_eq_false_iff, Ne, Text.trim_eq_nil_iff]
    exact hfile
  rw [sourceOf, sourceOf, ← h.lookup fileVariable (by decide), expand_congr h]
  simp only [hnonempty, Bool.false_eq_true, if_false]

/-- **With a file named for the allowlist the inline variable has no part in the settings.** -/
theorem ofEnvironment_congr [Limits] (hfile : ¬ Text.Blank ((env.lookup? fileVariable).getD []))
    (fs : FileSystem) (given : Option Text) :
    ofEnvironment env fs given = ofEnvironment env' fs given := by
  rw [ofEnvironment, ofEnvironment, baseOf_congr h, sourceOf_congr h hfile]
  simp only [applyEnvironment_congr h]

end Settings

end AdmissionControl
