import AdmissionControl.FileSystem.Path
import AdmissionControl.Proofs.Text

/-!
# Absolute paths in normal form

A normal absolute path is one or two slashes and proper segments between slashes.  Every absolute
path is made one of these, and on these the lexical functions are what their names say.

* `Proper`, `Normal`, `rooted` — segments that name something, and the paths that they make up.
* `stack`, `absolute_eq_rooted` — the absolute form of a path is normal.
* `parent_rooted`, `baseName_rooted`, `join_rooted` — directory and last segment, and how they are
  put together again.
* `normal_below` — a path below a normal one that is spelled with slashes and dots to spare.
-/

namespace AdmissionControl.Path

/-! ### Segments -/

/-- A segment that names something in a directory. -/
structure Proper (segment : Text) : Prop where
  nonempty : segment ≠ []
  ne_here : segment ≠ here
  ne_up : segment ≠ up
  notMem : slash ∉ segment

/-- A segment that leads nowhere. -/
def Idle (segment : Text) : Prop := segment = [] ∨ segment = here

instance (segment : Text) : Decidable (Idle segment) := inferInstanceAs (Decidable (_ ∨ _))

/-- What an entry of a directory may be called, the directory above it included. -/
structure FileName (name : Text) : Prop where
  nonempty : name ≠ []
  notMem : slash ∉ name
  ne_here : name ≠ here

/-- A path of slashes alone. -/
def IsRoot (path : Text) : Prop := ∀ c ∈ path, c = slash

instance (path : Text) : Decidable (IsRoot path) := inferInstanceAs (Decidable (∀ c ∈ path, _))

section Segments

variable {root : Bool} {done segments : List Text} {segment : Text}

theorem pushSegment_of_idle (h : Idle segment) : pushSegment root done segment = done := by
  have hidle : (segment.isEmpty || segment = here) = true := by
    rcases h with rfl | rfl <;> simp
  rw [pushSegment.eq_def, if_pos hidle]

theorem pushSegment_of_proper (h : Proper segment) :
    pushSegment root done segment = segment :: done := by
  have hidle : ¬ (segment.isEmpty || segment = here) = true := by
    simp [h.nonempty, h.ne_here]
  rw [pushSegment.eq_def, if_neg hidle, if_neg h.ne_up]

/-- From a root a double dot takes the last segment away, if there is one. -/
theorem pushSegment_up (h : ∀ s ∈ done, Proper s) : pushSegment true done up = done.tail := by
  have hidle : ¬ ((up : Text).isEmpty || up = here) = true := by decide
  rw [pushSegment.eq_def, if_neg hidle, if_pos rfl]
  cases done with
  | nil => rfl
  | cons last rest => exact if_neg (h last List.mem_cons_self).ne_up

/-- Whatever else a segment may be. -/
theorem idle_or_up_or_proper (h : slash ∉ segment) : Idle segment ∨ segment = up ∨ Proper segment := by
  by_cases hidle : Idle segment
  · exact .inl hidle
  · rw [Idle, not_or] at hidle
    by_cases hup : segment = up
    · exact .inr (.inl hup)
    · exact .inr (.inr ⟨hidle.1, hidle.2, hup, h⟩)

/-- **One segment keeps the segments so far proper.** -/
theorem proper_pushSegment (hdone : ∀ s ∈ done, Proper s) (hsegment : slash ∉ segment) :
    ∀ s ∈ pushSegment true done segment, Proper s := by
  rcases idle_or_up_or_proper hsegment with hidle | rfl | hproper
  · rw [pushSegment_of_idle hidle]
    exact hdone
  · rw [pushSegment_up hdone]
    exact fun s hs => hdone s (List.mem_of_mem_tail hs)
  · rw [pushSegment_of_proper hproper]
    exact List.forall_mem_cons.mpr ⟨hproper, hdone⟩

theorem proper_foldl_pushSegment (hdone : ∀ s ∈ done, Proper s)
    (hsegments : ∀ s ∈ segments, slash ∉ s) :
    ∀ s ∈ segments.foldl (pushSegment true) done, Proper s := by
  induction segments generalizing done with
  | nil => exact hdone
  | cons segment rest ih =>
    rw [List.forall_mem_cons] at hsegments
    exact ih (proper_pushSegment hdone hsegments.1) hsegments.2

theorem foldl_pushSegment_of_idle (h : ∀ s ∈ segments, Idle s) :
    segments.foldl (pushSegment root) done = done := by
  induction segments with
  | nil => rfl
  | cons segment rest ih =>
    rw [List.forall_mem_cons] at h
    rw [List.foldl_cons, pushSegment_of_idle h.1]
    exact ih h.2

theorem foldl_pushSegment_of_proper (h : ∀ s ∈ segments, Proper s) :
    segments.foldl (pushSegment root) done = segments.reverse ++ done := by
  induction segments generalizing done with
  | nil => rfl
  | cons segment rest ih =>
    rw [List.forall_mem_cons] at h
    rw [List.foldl_cons, pushSegment_of_proper h.1, ih h.2]
    simp

end Segments

/-! ### Normal paths -/

/-- As many slashes, and then the segments with a slash between any two. -/
def rooted (slashes : Nat) (segments : List Text) : Text :=
  List.replicate slashes slash ++ Text.joinWith [slash] segments

/-- One slash or two, and proper segments. -/
structure Normal (slashes : Nat) (segments : List Text) : Prop where
  slashes : slashes = 1 ∨ slashes = 2
  proper : ∀ s ∈ segments, Proper s

section Normal

variable {k : Nat} {segments : List Text} {name : Text}

theorem Normal.pos (h : Normal k segments) : 0 < k := by
  have := h.slashes
  omega

theorem Normal.concat (h : Normal k segments) (hname : Proper name) :
    Normal k (segments ++ [name]) := by
  refine ⟨h.slashes, ?_⟩
  intro s hs
  rcases List.mem_append.mp hs with hs | hs
  · exact h.proper s hs
  · rw [List.mem_singleton.mp hs]
    exact hname

theorem Normal.front (h : Normal k (segments ++ [name])) : Normal k segments :=
  ⟨h.slashes, fun s hs => h.proper s (List.mem_append_left _ hs)⟩

/-- What segments make up starts with a slash only if the first of them is empty. -/
theorem head_joinWith_ne {first : Text} {rest : List Text} (hfirst : first ≠ [])
    (hslash : slash ∉ first) : (Text.joinWith [slash] (first :: rest)).head? ≠ some slash := by
  cases first with
  | nil => exact absurd rfl hfirst
  | cons c tail =>
    have hc : c ≠ slash := fun heq => hslash (heq ▸ List.mem_cons_self)
    cases rest with
    | nil => simpa [Text.joinWith] using hc
    | cons next more => simpa [Text.joinWith] using hc

/-- The slashes that count of those at the front of an absolute path. -/
def keptSlashes (n : Nat) : Nat := if n = 2 then 2 else 1

theorem rootSlashes_append {n : Nat} {rest : Text} (hn : 0 < n) (hrest : rest.head? ≠ some slash) :
    rootSlashes (List.replicate n slash ++ rest) = keptSlashes n := by
  have hrun : (List.replicate n slash ++ rest).takeWhile (· = slash) = List.replicate n slash := by
    rw [List.takeWhile_append_of_pos (by simp)]
    cases rest with
    | nil => simp
    | cons c tail =>
      have hc : c ≠ slash := by simpa using hrest
      simp [hc]
  rw [rootSlashes, hrun, List.length_replicate, keptSlashes]
  split
  · omega
  · rfl
  · rename_i hzero htwo
    exact (if_neg htwo).symm

/-- The segments before slashes are empty. -/
theorem splitOn_replicate_append (n : Nat) (rest : Text) :
    Text.splitOn slash (List.replicate n slash ++ rest) =
      List.replicate n [] ++ Text.splitOn slash rest := by
  induction n with
  | zero => rfl
  | succ n ih =>
    rw [List.replicate_succ, List.cons_append, Text.splitOn_cons_self, ih]
    rfl

/-- A path that starts with slashes is made normal by putting its segments one on the other. -/
theorem normal_replicate_append {n : Nat} {rest : Text} (hn : 0 < n)
    (hrest : rest.head? ≠ some slash) :
    normal (List.replicate n slash ++ rest) = rooted (keptSlashes n)
      ((Text.splitOn slash (List.replicate n slash ++ rest)).foldl (pushSegment true) []).reverse := by
  have hroot : (keptSlashes n != 0) = true := by
    rw [keptSlashes]
    split <;> rfl
  rw [normal, rootSlashes_append hn hrest, hroot, normalSegments]
  refine if_neg ?_
  rw [List.isEmpty_iff, List.append_eq_nil_iff, List.replicate_eq_nil_iff]
  simp only [bne_iff_ne] at hroot
  exact fun h => hroot h.1

/-- The segments of a path, put one on the other, are the ones that it is made up of. -/
theorem foldl_splitOn_rooted (k : Nat) (h : ∀ s ∈ segments, slash ∉ s) :
    (Text.splitOn slash (rooted k segments)).foldl (pushSegment true) [] =
      segments.foldl (pushSegment true) [] := by
  have hempty : ∀ s ∈ List.replicate k ([] : Text), Idle s :=
    fun s hs => .inl (List.eq_of_mem_replicate hs)
  rw [rooted, splitOn_replicate_append, List.foldl_append, foldl_pushSegment_of_idle hempty]
  by_cases hnil : segments = []
  · rw [hnil]
    rfl
  · rw [Text.splitOn_joinWith hnil h]

theorem normal_rooted_of_head (hk : k = 1 ∨ k = 2) (h : ∀ s ∈ segments, slash ∉ s)
    (hhead : (Text.joinWith [slash] segments).head? ≠ some slash) :
    normal (rooted k segments) = rooted k (segments.foldl (pushSegment true) []).reverse := by
  have hkept : keptSlashes k = k := by
    rcases hk with rfl | rfl <;> rfl
  rw [rooted, normal_replicate_append (by omega) hhead, hkept, ← rooted, foldl_splitOn_rooted k h]

theorem Normal.foldl_eq (h : Normal k segments) :
    segments.foldl (pushSegment true) [] = segments.reverse := by
  rw [foldl_pushSegment_of_proper h.proper, List.append_nil]

theorem isAbsolute_rooted (hk : 0 < k) (segments : List Text) :
    isAbsolute (rooted k segments) = true := by
  obtain ⟨j, rfl⟩ := Nat.exists_eq_add_of_lt hk
  simp [isAbsolute, rooted, List.replicate_succ]

theorem rooted_ne_nil (h : Normal k segments) : rooted k segments ≠ [] := by
  intro hnil
  have habsolute := isAbsolute_rooted h.pos segments
  rw [hnil] at habsolute
  cases habsolute

theorem absolute_of_isAbsolute (workingDirectory : Text) {path : Text} (h : isAbsolute path = true) :
    absolute workingDirectory path = normal path := by
  rw [absolute, join, if_pos h]

/-- Different segments make up different paths. -/
theorem rooted_inj {segments' : List Text} (h : Normal k segments) (h' : Normal k segments') :
    rooted k segments = rooted k segments' ↔ segments = segments' := by
  constructor
  · intro heq
    have hparts := foldl_splitOn_rooted k fun s hs => (h.proper s hs).notMem
    rw [heq, foldl_splitOn_rooted k fun s hs => (h'.proper s hs).notMem, h.foldl_eq,
      h'.foldl_eq] at hparts
    exact (List.reverse_inj.mp hparts).symm
  · intro heq
    rw [heq]

end Normal

/-! ### Absolute paths -/

/-- The slashes at the front of a path, cut off as far as they do not count. -/
theorem exists_slashes {path : Text} (h : isAbsolute path = true) :
    ∃ n rest, 0 < n ∧ path = List.replicate n slash ++ rest ∧ rest.head? ≠ some slash := by
  have hrun : path.takeWhile (· = slash) =
      List.replicate (path.takeWhile (· = slash)).length slash := by
    refine List.eq_replicate_iff.mpr ⟨rfl, ?_⟩
    intro c hc
    simpa using List.mem_takeWhile_imp hc
  refine ⟨(path.takeWhile (· = slash)).length, path.dropWhile (· = slash), ?_, ?_, ?_⟩
  · cases path with
    | nil => simp [isAbsolute] at h
    | cons c tail =>
      have hc : c = slash := by simpa [isAbsolute] using h
      simp [hc]
  · rw [← hrun, List.takeWhile_append_dropWhile]
  · intro hhead
    have hnot := List.head?_dropWhile_not (p := fun c => decide (c = slash)) path
    rw [hhead] at hnot
    simp at hnot

/-- The segments of the absolute form of a path, the last one first: each was put on those before it,
the ones of the working directory at the bottom. -/
def stack (workingDirectory path : Text) : List Text :=
  (Text.splitOn slash (join workingDirectory path)).foldl (pushSegment true) []

section Stack

variable {workingDirectory path : Text}

theorem proper_stack (workingDirectory path : Text) : ∀ s ∈ stack workingDirectory path, Proper s := by
  apply proper_foldl_pushSegment
  · simp
  · exact fun _ hpart => Text.notMem_of_mem_splitOn hpart

theorem isAbsolute_join (h : isAbsolute workingDirectory = true) (path : Text) :
    isAbsolute (join workingDirectory path) = true := by
  rw [join]
  split
  · assumption
  · cases workingDirectory with
    | nil => simp [isAbsolute] at h
    | cons c rest =>
      split <;> simpa [isAbsolute] using h

/-- **The absolute form of a path is normal.** -/
theorem absolute_eq_rooted (h : isAbsolute (join workingDirectory path) = true) :
    ∃ k, Normal k (stack workingDirectory path).reverse ∧
      absolute workingDirectory path = rooted k (stack workingDirectory path).reverse := by
  have hproper := proper_stack workingDirectory path
  obtain ⟨n, rest, hn, hpath, hrest⟩ := exists_slashes h
  refine ⟨keptSlashes n, ⟨?_, ?_⟩, ?_⟩
  · rw [keptSlashes]
    split
    · exact .inr rfl
    · exact .inl rfl
  · exact fun s hs => hproper s (List.mem_reverse.mp hs)
  · rw [absolute, stack, hpath, normal_replicate_append hn hrest]

/-- The segments of an absolute path stand alone. -/
theorem stack_of_isAbsolute (h : isAbsolute path = true) :
    stack workingDirectory path = (Text.splitOn slash path).foldl (pushSegment true) [] := by
  rw [stack, join, if_pos h]

/-- **The segments of a relative path stand on those of the working directory.** -/
theorem stack_of_relative (h : isAbsolute workingDirectory = true) (hpath : isAbsolute path = false) :
    stack workingDirectory path =
      (Text.splitOn slash path).foldl (pushSegment true) (stack workingDirectory []) := by
  have hrelative : ∀ {p : Text}, isAbsolute p = false → ¬ isAbsolute p = true := by
    intro p hp
    rw [hp]
    exact Bool.false_ne_true
  have hnonempty : workingDirectory.isEmpty = false := by
    cases workingDirectory with
    | nil => cases h
    | cons => rfl
  have hsplit : ∃ front, ∀ p : Text, isAbsolute p = false →
      join workingDirectory p = front ++ slash :: p := by
    by_cases hlast : workingDirectory.getLast? = some slash
    · obtain ⟨front, hfront⟩ := List.getLast?_eq_some_iff.mp hlast
      refine ⟨front, ?_⟩
      intro p hp
      rw [join, if_neg (hrelative hp), if_pos (by simp [hlast]), hfront]
      simp
    · refine ⟨workingDirectory, ?_⟩
      intro p hp
      rw [join, if_neg (hrelative hp), if_neg (by simp [hlast, hnonempty])]
  obtain ⟨front, hfront⟩ := hsplit
  have hnothing : (Text.splitOn slash []).foldl (pushSegment true)
      ((Text.splitOn slash front).foldl (pushSegment true) []) =
        (Text.splitOn slash front).foldl (pushSegment true) [] :=
    foldl_pushSegment_of_idle (by simp [Text.splitOn, Idle])
  rw [stack, stack, hfront path hpath, hfront [] rfl, Text.splitOn_append_cons,
    Text.splitOn_append_cons, List.foldl_append, List.foldl_append, hnothing]

end Stack

/-- A segment of the absolute form is one of the segments that were put on. -/
theorem mem_foldl_pushSegment {done segments : List Text} {s : Text} (hdone : ∀ s ∈ done, Proper s)
    (hsegments : ∀ s ∈ segments, slash ∉ s) (hs : s ∈ segments.foldl (pushSegment true) done) :
    s ∈ done ∨ s ∈ segments := by
  induction segments generalizing done with
  | nil => exact .inl hs
  | cons segment rest ih =>
    obtain ⟨hsegment, hrest⟩ := List.forall_mem_cons.mp hsegments
    rcases ih (proper_pushSegment hdone hsegment) hrest hs with hpushed | hlater
    · rcases idle_or_up_or_proper hsegment with hidle | rfl | hproper
      · rw [pushSegment_of_idle hidle] at hpushed
        exact .inl hpushed
      · rw [pushSegment_up hdone] at hpushed
        exact .inl (List.mem_of_mem_tail hpushed)
      · rw [pushSegment_of_proper hproper] at hpushed
        rcases List.mem_cons.mp hpushed with rfl | hold
        · exact .inr List.mem_cons_self
        · exact .inl hold
    · exact .inr (List.mem_cons_of_mem _ hlater)

/-! ### Directory and last segment -/

theorem upToLastSlash_append {front name : Text} (hname : slash ∉ name) :
    upToLastSlash (front ++ slash :: name) = front ++ [slash] := by
  have hreverse : (front ++ slash :: name).reverse = name.reverse ++ slash :: front.reverse := by
    simp
  rw [upToLastSlash, hreverse, List.dropWhile_append_of_pos]
  · simp
  · intro c hc
    have hne : c ≠ slash := fun heq => hname (heq ▸ List.mem_reverse.mp hc)
    simpa using hne

theorem baseName_append {front name : Text} (hname : slash ∉ name) :
    baseName (front ++ slash :: name) = name := by
  have hsplit := upToLastSlash_append_baseName (front ++ slash :: name)
  rw [upToLastSlash_append hname] at hsplit
  refine List.append_cancel_left (hsplit.trans ?_)
  simp

section Below

variable {k : Nat} {segments : List Text} {name : Text}

/-- Two lists of segments stand with a slash between them. -/
theorem rooted_append (k : Nat) {more : List Text} (hnil : segments ≠ []) (hmore : more ≠ []) :
    rooted k (segments ++ more) = rooted k segments ++ slash :: Text.joinWith [slash] more := by
  rw [rooted, rooted, Text.joinWith_append [slash] hnil hmore]
  simp

/-- A path with one segment more: right after a root, else after a slash. -/
theorem rooted_concat (k : Nat) (segments : List Text) (name : Text) :
    rooted k (segments ++ [name]) =
      if segments = [] then List.replicate k slash ++ name
      else rooted k segments ++ slash :: name := by
  by_cases hnil : segments = []
  · rw [if_pos hnil, hnil]
    rfl
  · rw [if_neg hnil, rooted_append k hnil (by simp), Text.joinWith]

/-- A normal path ends with a slash only if it has no segments. -/
theorem getLast_rooted (h : Normal k segments) (hnil : segments ≠ []) :
    (rooted k segments).getLast? ≠ some slash := by
  obtain ⟨front, last, rfl⟩ : ∃ front last, segments = front ++ [last] :=
    ⟨_, _, (List.dropLast_concat_getLast hnil).symm⟩
  have hlast : Proper last := h.proper last (by simp)
  have hends : ∃ start, rooted k (front ++ [last]) = start ++ last := by
    rw [rooted_concat]
    split
    · exact ⟨_, rfl⟩
    · exact ⟨rooted k front ++ [slash], by simp⟩
  obtain ⟨start, hstart⟩ := hends
  intro hslash
  rw [hstart, List.getLast?_append_of_ne_nil _ hlast.nonempty] at hslash
  exact hlast.notMem (List.mem_of_getLast? hslash)

/-- The paths without segments are the roots. -/
theorem isRoot_rooted_iff (h : Normal k segments) :
    IsRoot (rooted k segments) ↔ segments = [] := by
  constructor
  · intro hroot
    by_contra hnil
    have hlast := List.getLast?_eq_some_getLast (rooted_ne_nil h)
    apply getLast_rooted h hnil
    rw [hlast, hroot _ (List.mem_of_getLast? hlast)]
  · intro hnil c hc
    rw [hnil, rooted, Text.joinWith, List.append_nil] at hc
    exact List.eq_of_mem_replicate hc

theorem dropTrailingSlashes_append {front : Text} (h : front.getLast? ≠ some slash) :
    dropTrailingSlashes (front ++ [slash]) = front := by
  rw [dropTrailingSlashes, List.reverse_append, List.reverse_singleton, List.singleton_append,
    List.dropWhile_cons_of_pos (by simp)]
  rw [← List.head?_reverse] at h
  cases hreverse : front.reverse with
  | nil => rw [List.reverse_eq_nil_iff.mp hreverse]; rfl
  | cons c rest =>
    rw [hreverse] at h
    have hc : c ≠ slash := by simpa using h
    rw [List.dropWhile_cons_of_neg (by simpa using hc), ← hreverse, List.reverse_reverse]

/-- **The directory of a normal path** is the path without its last segment. -/
theorem parent_rooted (h : Normal k segments) (hname : slash ∉ name) :
    parent (rooted k (segments ++ [name])) = rooted k segments := by
  rw [parent, rooted_concat]
  by_cases hnil : segments = []
  · obtain ⟨j, rfl⟩ := Nat.exists_eq_add_of_lt h.pos
    have hroot : List.replicate (0 + j + 1) slash ++ name =
        List.replicate (0 + j) slash ++ slash :: name := by
      rw [List.replicate_succ', List.append_assoc, List.singleton_append]
    have hall : (List.replicate (0 + j) slash ++ [slash]).all (· = slash) = true := by simp
    rw [if_pos hnil, hroot, upToLastSlash_append hname]
    simp only [hall, if_true, hnil]
    rw [rooted, ← List.replicate_succ', Text.joinWith, List.append_nil]
  · have hlast := getLast_rooted h hnil
    have hall : ¬ (rooted k segments ++ [slash]).all (· = slash) = true := by
      intro hall
      rw [List.all_append, Bool.and_eq_true] at hall
      apply hnil
      rw [← isRoot_rooted_iff h]
      intro c hc
      simpa using List.all_eq_true.mp hall.1 c hc
    rw [if_neg hnil, upToLastSlash_append hname]
    simp only [hall, Bool.false_eq_true, if_false]
    exact dropTrailingSlashes_append hlast

/-- **The last segment of a path.** -/
theorem baseName_rooted (hk : 0 < k) (segments : List Text) (hname : slash ∉ name) :
    baseName (rooted k (segments ++ [name])) = name := by
  rw [rooted_concat]
  split
  · obtain ⟨j, rfl⟩ := Nat.exists_eq_add_of_lt hk
    rw [List.replicate_succ', List.append_assoc]
    exact baseName_append hname
  · exact baseName_append hname

/-- **A segment joined to a normal path.** -/
theorem join_rooted (h : Normal k segments) (hname : slash ∉ name) :
    join (rooted k segments) name = rooted k (segments ++ [name]) := by
  have hrelative : ¬ isAbsolute name = true := by
    intro habsolute
    rw [isAbsolute, beq_iff_eq] at habsolute
    exact hname (List.mem_of_head? habsolute)
  have hnonempty : (rooted k segments).isEmpty = false :=
    List.isEmpty_eq_false_iff.mpr (rooted_ne_nil h)
  rw [join, if_neg hrelative, hnonempty, Bool.false_or, rooted_concat]
  by_cases hnil : segments = []
  · obtain ⟨j, rfl⟩ := Nat.exists_eq_add_of_lt h.pos
    rw [if_pos hnil, hnil, rooted, Text.joinWith, List.append_nil, if_pos]
    rw [List.replicate_succ', List.getLast?_concat]
    rfl
  · rw [if_neg hnil, if_neg (by simpa using getLast_rooted h hnil)]

/-- **A segment below a normal path**, with slashes and single dots to spare in front of it: it is put
on the segments of the path. -/
theorem normal_below (h : Normal k segments) {spare : List Text} (hspare : ∀ s ∈ spare, Idle s)
    (hname : name ≠ []) (hslash : slash ∉ name) (hroot : segments = [] → spare = []) :
    normal (rooted k (segments ++ spare ++ [name])) =
      rooted k (pushSegment true segments.reverse name).reverse := by
  have hall : ∀ s ∈ segments ++ spare ++ [name], slash ∉ s := by
    intro s hs
    rcases List.mem_append.mp hs with hs | hs
    · rcases List.mem_append.mp hs with hs | hs
      · exact (h.proper s hs).notMem
      · rcases hspare s hs with rfl | rfl
        · exact List.not_mem_nil
        · decide
    · rw [List.mem_singleton.mp hs]
      exact hslash
  have hhead : (Text.joinWith [slash] (segments ++ spare ++ [name])).head? ≠ some slash := by
    cases segments with
    | nil =>
      rw [hroot rfl]
      exact head_joinWith_ne hname hslash
    | cons first rest =>
      have hfirst := h.proper first List.mem_cons_self
      exact head_joinWith_ne hfirst.nonempty hfirst.notMem
  rw [normal_rooted_of_head h.slashes hall hhead, List.foldl_append, List.foldl_append, h.foldl_eq,
    foldl_pushSegment_of_idle hspare]
  rfl

end Below

end AdmissionControl.Path
