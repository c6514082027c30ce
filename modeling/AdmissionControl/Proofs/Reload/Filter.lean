import AdmissionControl.Proofs.FileSystem.Path
import AdmissionControl.Proofs.Reload.Restart
import AdmissionControl.Reload.Watcher

/-!
# What the watch lets through

The watch is told of the paths that change in the directory of the watched file.  Of these it lets
through the file itself, however the path is spelled below the directory, and the names that start
with two dots; nothing else.

* `Reloader.keeps_below` — which names below the watched directory count.
* `Batch`, `Reloader.changedAll` — batches of changes, one after the other.
* `Reloader.changedAll_fst` — a pass for each batch in which something counts, and for no other.
* `Reloader.filter_misses_no_change` — all of it, for every path that names a file.
-/

namespace AdmissionControl.Reload

open AdmissionControl.Path (Normal Proper FileName Idle IsRoot rooted slash)

/-! ### Names below the watched directory -/

/-- The names that count: the one of the watched file, and those that start with two dots. -/
def Counts (r : Reloader) (name : Text) : Prop :=
  name = Path.baseName r.path ∨ Text.startsWith name Path.up = true

instance (r : Reloader) (name : Text) : Decidable (Counts r name) :=
  inferInstanceAs (Decidable (_ ∨ _))

namespace Reloader

/-- The path of a reloader, if it is no root: a directory, and the name of the file in it. -/
theorem exists_file {workingDirectory path : Text} (options : Options)
    (habsolute : Path.isAbsolute workingDirectory = true)
    (hfile : ¬ IsRoot (Path.absolute workingDirectory path)) :
    ∃ k front name, Normal k (front ++ [name]) ∧
      (new workingDirectory path options).path = rooted k (front ++ [name]) := by
  obtain ⟨k, hnormal, hpath⟩ := Path.absolute_eq_rooted (Path.isAbsolute_join habsolute path)
  generalize (Path.stack workingDirectory path).reverse = segments at hnormal hpath
  have hnil : segments ≠ [] := by
    intro hnil
    rw [hpath, Path.isRoot_rooted_iff hnormal] at hfile
    exact hfile hnil
  have hlast : segments.dropLast ++ [segments.getLast hnil] = segments :=
    List.dropLast_concat_getLast hnil
  refine ⟨k, segments.dropLast, segments.getLast hnil, ?_, ?_⟩
  · rw [hlast]
    exact hnormal
  · rw [hlast]
    exact hpath

section Below

variable {r : Reloader} {k : Nat} {front spare : List Text} {base name : Text}
variable (hnormal : Normal k (front ++ [base])) (hpath : r.path = rooted k (front ++ [base]))

include hnormal hpath

theorem baseName_path : Path.baseName r.path = base := by
  have hbase : slash ∉ base := (hnormal.proper base (by simp)).notMem
  rw [hpath, Path.baseName_rooted hnormal.pos front hbase]

theorem directory_eq : r.directory = rooted k front := by
  have hbase : slash ∉ base := (hnormal.proper base (by simp)).notMem
  rw [directory, hpath, Path.parent_rooted hnormal.front hbase]

/-- **Which names below the watched directory count**, with slashes and single dots to spare. -/
theorem keeps_below (current : Text) (hspare : ∀ s ∈ spare, Idle s) (hname : FileName name)
    (hroot : front = [] → spare = []) :
    r.keeps current (rooted k (front ++ spare ++ [name])) = true ↔ Counts r name := by
  have hfront : Normal k front := hnormal.front
  have habsolute : Path.isAbsolute (rooted k (front ++ spare ++ [name])) = true :=
    Path.isAbsolute_rooted hnormal.pos _
  rw [keeps, Path.absolute_of_isAbsolute current habsolute,
    Path.normal_below hfront hspare hname.nonempty hname.notMem hroot,
    Path.baseName_rooted hnormal.pos _ hname.notMem, Bool.or_eq_true, decide_eq_true_eq, Counts,
    baseName_path hnormal hpath, hpath]
  rcases Path.idle_or_up_or_proper hname.notMem with hidle | rfl | hproper
  · rcases hidle with hnil | hhere
    · exact absurd hnil hname.nonempty
    · exact absurd hhere hname.ne_here
  · -- two dots lead to the directory above, and start with two dots
    have hup : Text.startsWith Path.up Path.up = true := by decide
    exact iff_of_true (.inr hup) (.inr hup)
  · apply or_congr_left
    rw [Path.pushSegment_of_proper hproper, List.reverse_cons, List.reverse_reverse,
      Path.rooted_inj (hfront.concat hproper) hnormal, List.append_cancel_left_eq,
      List.singleton_inj]

end Below

end Reloader

/-! ### Batches of changes -/

/-- A batch of changes, with the disk and the moment at which the watch is told of it. -/
structure Batch where
  disk : FileSystem
  time : Instant
  changes : List Text

/-- Some change of the batch counts. -/
def Batch.Wakes (r : Reloader) (b : Batch) : Prop :=
  ∃ path ∈ b.changes, r.keeps b.disk.workingDirectory path = true

instance (r : Reloader) (b : Batch) : Decidable (b.Wakes r) :=
  inferInstanceAs (Decidable (∃ path ∈ b.changes, _))

namespace Pass

/-- What passes come to does not depend on the records before them. -/
theorem runs_fst [Limits] (path : Text) (disks : List (FileSystem × Instant)) (s : State)
    (t t' : Trail) : ((runs path disks s).run t).1 = ((runs path disks s).run t').1 := by
  induction disks generalizing s t t' with
  | nil => rfl
  | cons d rest ih =>
    have hfirst : ((run d.1 path d.2 s).run t).1 = ((run d.1 path d.2 s).run t').1 := by
      rw [run_eq, run_eq]
    rw [runs_cons, runs_cons]
    generalize (run d.1 path d.2 s).run t = first at hfirst ⊢
    generalize (run d.1 path d.2 s).run t' = first' at hfirst ⊢
    obtain ⟨result, trail⟩ := first
    obtain ⟨result', trail'⟩ := first'
    obtain rfl : result = result' := hfirst
    simp only [ih result.1 trail trail']

/-- There are as many outcomes as passes. -/
theorem length_runs [Limits] (path : Text) (disks : List (FileSystem × Instant)) (s : State)
    (t : Trail) : ((runs path disks s).run t).1.2.length = disks.length := by
  induction disks generalizing s t with
  | nil => rfl
  | cons d rest ih =>
    rw [runs_cons]
    generalize (run d.1 path d.2 s).run t = first
    obtain ⟨result, trail⟩ := first
    exact congrArg (· + 1) (ih result.1 trail)

end Pass

namespace Reloader

/-- The watch is told of batches, one after the other. -/
def changedAll [Limits] : List Batch → Reloader → Store → StateM Trail (Reloader × Store)
  | [], r, store => return (r, store)
  | b :: rest, r, store => do
    let (r, store) ← r.changed b.disk b.time store b.changes
    changedAll rest r store

/-- The passes for which batches are the reason. -/
def passesFor (r : Reloader) (batches : List Batch) : List (FileSystem × Instant) :=
  (batches.filter (·.Wakes r)).map fun b => (b.disk, b.time)

variable {r : Reloader}

theorem kept_isEmpty_iff (r : Reloader) (b : Batch) :
    (r.kept b.disk.workingDirectory b.changes).isEmpty = true ↔ ¬ b.Wakes r := by
  rw [kept, List.isEmpty_iff, List.filter_eq_nil_iff, Batch.Wakes]
  simp

/-- A batch in which nothing counts does nothing. -/
theorem changed_of_not_wakes [Limits] {b : Batch} (h : ¬ b.Wakes r) (store : Store) :
    r.changed b.disk b.time store b.changes = pure (r, store) := by
  rw [changed, if_pos ((r.kept_isEmpty_iff b).mpr h)]

/-- A batch in which something counts is one refresh; what escapes from it is recorded. -/
theorem changed_of_wakes [Limits] {b : Batch} (htask : r.task = .watching) (h : b.Wakes r)
    (store : Store) : r.changed b.disk b.time store b.changes = do
      let (r, store, outcome) ← r.refresh b.disk b.time store
      recordEscape r.path outcome
      return (r, store) := by
  have hkept : ¬ (r.kept b.disk.workingDirectory b.changes).isEmpty = true := by
    rw [kept_isEmpty_iff, not_not]
    exact h
  rw [changed, if_neg hkept, wake, if_pos htask]

theorem changed_fst_of_wakes [Limits] {b : Batch} (htask : r.task = .watching) (h : b.Wakes r)
    (store : Store) (t : Trail) :
    ((r.changed b.disk b.time store b.changes).run t).1 =
      r.withState ((Pass.run b.disk r.path b.time (r.state store)).run t).1.1 := by
  rw [changed_of_wakes htask h]
  rfl

/-- **A pass for each batch in which something counts**, and for no other. -/
theorem changedAll_fst [Limits] (htask : r.task = .watching) (batches : List Batch) (store : Store)
    (t : Trail) :
    ((changedAll batches r store).run t).1 =
      r.withState ((Pass.runs r.path (r.passesFor batches) (r.state store)).run t).1.1 := by
  induction batches generalizing r store t with
  | nil => rfl
  | cons b rest ih =>
    rw [changedAll, passesFor]
    by_cases hwakes : b.Wakes r
    · have hfirst := changed_fst_of_wakes htask hwakes store t
      rw [List.filter_cons_of_pos (by simpa using hwakes), List.map_cons, Pass.runs_cons,
        StateT.run_bind]
      generalize (r.changed b.disk b.time store b.changes).run t = changed at hfirst ⊢
      generalize (Pass.run b.disk r.path b.time (r.state store)).run t = first at hfirst ⊢
      obtain ⟨⟨r', store'⟩, trail⟩ := changed
      obtain ⟨⟨s, outcome⟩, trail'⟩ := first
      obtain ⟨rfl, rfl⟩ := Prod.mk.inj hfirst
      -- the pass has left the path alone, and that is all that the filter looks at
      refine (ih (r := (r.withState s).1) htask s.store trail).trans ?_
      rw [Pass.runs_fst _ _ _ trail trail']
      rfl
    · rw [List.filter_cons_of_neg (by simpa using hwakes), changed_of_not_wakes hwakes]
      exact ih htask store t

/-! ### All together -/

/-- **The watch misses no change of the file and lets no other file through**, for every path that
names a file.  Of the entries of the watched directory exactly those count that are called like the
file or start with two dots; below a directory that is no root that is so too if the change is
spelled with slashes and single dots to spare.  Once the task watches, each batch in which some
change counts is exactly one pass, and the other batches are none. -/
theorem filter_misses_no_change [Limits] {workingDirectory path : Text} (options : Options)
    (habsolute : Path.isAbsolute workingDirectory = true)
    (hfile : ¬ IsRoot (Path.absolute workingDirectory path)) :
    let first := new workingDirectory path options
    (∀ current name, FileName name →
      (first.keeps current (Path.join first.directory name) = true ↔ Counts first name)) ∧
    (¬ IsRoot first.directory → ∀ current spare name, (∀ s ∈ spare, Idle s) → FileName name →
      (first.keeps current
        (first.directory ++ slash :: Text.joinWith [slash] (spare ++ [name])) = true ↔
          Counts first name)) ∧
    ∀ r : Reloader, r.task = .watching →
      ∀ (batches : List Batch) (store : Store) (t : Trail),
        let passes := ((Pass.runs r.path (r.passesFor batches) (r.state store)).run t).1
        ((changedAll batches r store).run t).1 = r.withState passes.1 ∧
        passes.2.length = batches.countP (·.Wakes r) := by
  intro first
  obtain ⟨k, front, base, hnormal, hpath⟩ := exists_file options habsolute hfile
  have hdirectory : first.directory = rooted k front := directory_eq hnormal hpath
  refine ⟨?_, ?_, ?_⟩
  · intro current name hname
    rw [hdirectory, Path.join_rooted hnormal.front hname.notMem]
    have hspare : ∀ s ∈ ([] : List Text), Idle s := fun s hs => absurd hs List.not_mem_nil
    have hbelow := keeps_below hnormal hpath current hspare hname fun _ => rfl
    rwa [List.append_nil] at hbelow
  · intro hroot current spare name hspare hname
    rw [hdirectory, Path.isRoot_rooted_iff hnormal.front] at hroot
    rw [hdirectory, ← Path.rooted_append k hroot (by simp), ← List.append_assoc]
    exact keeps_below hnormal hpath current hspare hname fun hnil => absurd hnil hroot
  · intro r htask batches store t
    refine ⟨changedAll_fst htask batches store t, ?_⟩
    rw [Pass.length_runs, passesFor, List.length_map, List.countP_eq_length_filter]

/-- A watch of `/work/lists/a.json`. -/
def sampleWatch : Reloader := { new "/work" "./lists//a.json" .default with task := .watching }

/-- A neighbour, the link that replaces a whole directory, and the file with a dot to spare. -/
def sampleBatches : List Batch :=
  [⟨default, default, ["/work/lists/b.json"]⟩, ⟨default, default, ["/work/lists/..data"]⟩,
    ⟨default, default, ["/work/lists/b.json", "/work/lists/./a.json"]⟩]

attribute [local instance] Limits.usual

/-- The neighbour alone is no reason for a pass, so there are two for three batches. -/
theorem sampleWatch_filter :
    sampleWatch.keeps [] "/work/lists/.//a.json" = true ∧
    ¬ sampleWatch.keeps [] "/work/lists/b.json" = true ∧
    ((Pass.runs sampleWatch.path (sampleWatch.passesFor sampleBatches)
      (sampleWatch.state default)).run .start).1.2.length = 2 := by
  have habsolute : Path.isAbsolute "/work" = true := by decide
  have hfile : ¬ IsRoot (Path.absolute "/work" "./lists//a.json") := by decide
  obtain ⟨hentries, hbelow, hbatches⟩ := filter_misses_no_change .default habsolute hfile
  have hname : FileName "a.json" := ⟨by decide, by decide, by decide⟩
  have hother : FileName "b.json" := ⟨by decide, by decide, by decide⟩
  have hspelled := hbelow (by decide) [] [Path.here, []] "a.json" (by decide) hname
  have hneighbour := hentries [] "b.json" hother
  refine ⟨hspelled.mpr (by decide), ?_, ?_⟩
  · intro h
    exact absurd (hneighbour.mp h) (by decide)
  · rw [(hbatches sampleWatch rfl sampleBatches default .start).2]
    decide

end Reloader

end AdmissionControl.Reload
