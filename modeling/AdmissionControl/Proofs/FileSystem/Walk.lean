import AdmissionControl.Proofs.Bytes.Utf8
import AdmissionControl.Proofs.FileSystem
import AdmissionControl.Proofs.FileSystem.Path

/-!
# A path and its absolute form

The absolute form of a path is made of its text alone, while a walk looks at every directory on its
way.  Wherever the walk of a path arrives, that of its absolute form arrives too.

* `Path.bytesOf` — the bytes of a path, code point by code point.
* `Tree.Stands` — the locations that are walked to by their names; `Tree.Stands.steps` keeps them.
* `Tree.push`, `Tree.eq_of_steps` — where a walk arrives is a matter of names.
* `Tree.locate_foldl_pushSegment` — segments that are put one on the other lead where their names do.
* `FileSystem.Reaches.absolute` — a path and its absolute form name the same file.
-/

namespace AdmissionControl

/-! ### Bytes of a path -/

namespace Path

/-- The bytes of one code point of a path. -/
def codeBytes (c : CodePoint) : List UInt8 :=
  match escapedByte? c with
  | some b => [b]
  | none => Utf8.encodeOne c

def bytesOf (path : Text) : List UInt8 := path.flatMap codeBytes

/-- A byte below 0x80 stands for itself. -/
theorem mem_codeBytes {c : CodePoint} {b : UInt8} (h : b ∈ codeBytes c) :
    0x80 ≤ b.toNat ∨ codeBytes c = [b] ∧ b.toNat = c.val := by
  have hlt := c.isLt
  have hbyte : ∀ {n : Nat}, n < 0x100 → (UInt8.ofNat n).toNat = n := Utf8.toNat_ofNat
  rw [codeBytes, escapedByte?] at h ⊢
  by_cases hescaped : 0xDC80 ≤ c.val ∧ c.val ≤ 0xDCFF
  · rw [if_pos hescaped] at h
    rw [List.mem_singleton.mp h, hbyte (by omega)]
    exact .inl (by omega)
  · rw [if_neg hescaped] at h ⊢
    simp only [Utf8.encodeOne] at h ⊢
    split_ifs at h ⊢ with hone htwo hthree
    · rw [List.mem_singleton.mp h, hbyte (by omega)]
      exact .inr ⟨rfl, rfl⟩
    all_goals
      left
      simp only [List.mem_cons, List.not_mem_nil, or_false] at h
      rcases h with rfl | h
      · rw [hbyte (by omega)]
        omega
    · rw [h, hbyte (by omega)]
      omega
    · rcases h with rfl | rfl <;> rw [hbyte (by omega)] <;> omega
    · rcases h with rfl | rfl | rfl <;> rw [hbyte (by omega)] <;> omega

theorem codeBytes_ne_nil (c : CodePoint) : codeBytes c ≠ [] := by
  rw [codeBytes]
  split
  · exact List.cons_ne_nil _ _
  · rw [Utf8.encodeOne]
    split_ifs <;> exact List.cons_ne_nil _ _

theorem bytesOf_cons (c : CodePoint) (rest : Text) :
    bytesOf (c :: rest) = codeBytes c ++ bytesOf rest := List.flatMap_cons

/-- A code point below 0x80 is seen from its byte. -/
theorem eq_of_head_codeBytes {c d : CodePoint} (hd : d.val < 0x80) {rest rest' : List UInt8}
    (h : codeBytes c ++ rest = UInt8.ofNat d.val :: rest') : c = d ∧ rest = rest' := by
  have hbyte : (UInt8.ofNat d.val).toNat = d.val := Utf8.toNat_ofNat (by omega)
  cases hc : codeBytes c with
  | nil => exact absurd hc (codeBytes_ne_nil c)
  | cons b tail =>
    rw [hc, List.cons_append, List.cons.injEq] at h
    have hmem : b ∈ codeBytes c := by
      rw [hc]
      exact List.mem_cons_self
    rcases mem_codeBytes hmem with hhigh | ⟨hone, hval⟩
    · rw [h.1, hbyte] at hhigh
      omega
    · rw [hc, List.cons.injEq] at hone
      rw [h.1, hbyte] at hval
      refine ⟨CodePoint.ext_val hval.symm, ?_⟩
      rw [← h.2, hone.2, List.nil_append]

theorem codeBytes_of_lt {c : CodePoint} (h : c.val < 0x80) : codeBytes c = [UInt8.ofNat c.val] := by
  rw [codeBytes, escapedByte?, if_neg (by omega)]
  simp only [Utf8.encodeOne, if_pos h]

/-- A text of code points below 0x80 is seen from its bytes. -/
theorem bytesOf_eq_iff {s t : Text} (ht : ∀ c ∈ t, c.val < 0x80) :
    bytesOf s = bytesOf t ↔ s = t := by
  refine ⟨?_, congrArg bytesOf⟩
  intro h
  induction t generalizing s with
  | nil =>
    cases s with
    | nil => rfl
    | cons c rest =>
      rw [bytesOf_cons] at h
      exact absurd (List.append_eq_nil_iff.mp h).1 (codeBytes_ne_nil c)
  | cons d rest ih =>
    obtain ⟨hd, hrest⟩ := List.forall_mem_cons.mp ht
    rw [bytesOf_cons d, codeBytes_of_lt hd] at h
    cases s with
    | nil => cases h
    | cons c tail =>
      rw [bytesOf_cons] at h
      obtain ⟨rfl, htail⟩ := eq_of_head_codeBytes hd h
      rw [ih hrest htail]

theorem bytesOf_eq_nil_iff (s : Text) : bytesOf s = [] ↔ s = [] :=
  bytesOf_eq_iff (t := []) (fun _ h => absurd h List.not_mem_nil)

theorem bytesOf_eq_dot_iff (s : Text) : bytesOf s = Tree.dot ↔ s = here :=
  bytesOf_eq_iff (t := here) (by decide)

theorem bytesOf_eq_dotDot_iff (s : Text) : bytesOf s = Tree.dotDot ↔ s = up :=
  bytesOf_eq_iff (t := up) (by decide)

theorem encodeFrom_eq_ok {i : Nat} {path : Text} {bytes : List UInt8}
    (h : encodeFrom i path = .ok bytes) : bytes = bytesOf path := by
  induction path generalizing i bytes with
  | nil => exact (Except.ok.inj h).symm
  | cons c rest ih =>
    have hmap : ∀ front, (encodeFrom (i + 1) rest).map (front ++ ·) = .ok bytes →
        bytes = front ++ bytesOf rest := by
      intro front hfront
      cases hrest : encodeFrom (i + 1) rest with
      | error e =>
        rw [hrest] at hfront
        cases hfront
      | ok tail =>
        rw [hrest] at hfront
        rw [← Except.ok.inj hfront, ih hrest]
    rw [bytesOf_cons, codeBytes]
    rw [encodeFrom] at h
    cases hescaped : escapedByte? c with
    | some b =>
      rw [hescaped] at h
      exact hmap [b] h
    | none =>
      simp only [hescaped] at h
      split at h
      · cases h
      · exact hmap _ h

/-- **The bytes of a path**, if it has bytes. -/
theorem encode?_eq_iff {path : Text} {bytes : List UInt8} :
    encode? path = .ok bytes ↔ Named path ∧ bytes = bytesOf path := by
  have hbytes : ∀ found, encode? path = .ok found → found = bytesOf path := by
    intro found h
    rw [encode?] at h
    split at h
    · cases h
    · rename_i all hall
      split at h
      · cases h
      · rw [← Except.ok.inj h, encodeFrom_eq_ok hall]
  constructor
  · intro h
    exact ⟨(encode?_eq_ok_iff path).mp ⟨bytes, h⟩, hbytes bytes h⟩
  · rintro ⟨hnamed, rfl⟩
    obtain ⟨found, hfound⟩ := (encode?_eq_ok_iff path).mpr hnamed
    rw [hfound, hbytes found hfound]

end Path

/-! ### Names -/

namespace Tree

open AdmissionControl.Path (bytesOf slash)

theorem splitNames_ne_nil (bytes : List UInt8) : splitNames bytes ≠ [] := by
  cases bytes with
  | nil => exact List.cons_ne_nil _ _
  | cons b rest =>
    rw [splitNames]
    split
    · exact List.cons_ne_nil _ _
    · split <;> exact List.cons_ne_nil _ _

/-- Bytes without a slash are part of the first name. -/
theorem splitNames_append {front : List UInt8} (h : ∀ b ∈ front, b ≠ 0x2F) (rest : List UInt8) :
    splitNames (front ++ rest) = (splitNames rest).modifyHead (front ++ ·) := by
  induction front with
  | nil =>
    rw [List.nil_append]
    cases splitNames rest <;> rfl
  | cons b front ih =>
    obtain ⟨hb, hfront⟩ := List.forall_mem_cons.mp h
    rw [List.cons_append, splitNames, if_neg hb, ih hfront]
    cases hrest : splitNames rest with
    | nil => exact absurd hrest (splitNames_ne_nil rest)
    | cons name names => rfl

/-- **The names between slashes are the segments of the text.** -/
theorem splitNames_bytesOf (path : Text) :
    splitNames (bytesOf path) = (Text.splitOn slash path).map bytesOf := by
  induction path with
  | nil => rfl
  | cons c rest ih =>
    rw [Path.bytesOf_cons]
    by_cases hc : c = slash
    · subst hc
      have hslash : Path.codeBytes slash = [0x2F] := by decide
      rw [hslash, Text.splitOn_cons_self, List.map_cons, ← ih, List.singleton_append, splitNames,
        if_pos rfl]
      rfl
    · have hfree : ∀ b ∈ Path.codeBytes c, b ≠ 0x2F := by
        rintro b hb rfl
        rcases Path.mem_codeBytes hb with hhigh | ⟨_, hval⟩
        · exact absurd hhigh (by decide)
        · exact hc (CodePoint.ext_val hval.symm)
      rw [splitNames_append hfree, ih, Text.splitOn, if_neg hc]
      cases hrest : Text.splitOn slash rest with
      | nil => exact absurd hrest (Text.splitOn_ne_nil slash rest)
      | cons part parts => rfl

/-! ### Steps of a walk -/

/-- Where a name leads, if it leads anywhere. -/
def push (location : Location) (name : Name) : Location :=
  if name = dot then location
  else if name = dotDot then location.dropLast
  else location ++ [name]

section Walk

variable {tree : Tree} {location next : Location} {name : Name} {names : List Name}

/-- A step goes where its name leads. -/
theorem eq_of_step (h : tree.step location name = .ok next) : next = push location name := by
  rw [step] at h
  rw [push]
  split at h
  · cases h
  · cases h
  · cases h
  · cases h
  · simp only at h
    split_ifs at h ⊢ <;> exact (Except.ok.inj h).symm

theorem steps_cons_eq_ok_iff : tree.steps location (name :: names) = .ok next ↔
    ∃ l, tree.step location name = .ok l ∧ tree.steps l names = .ok next := by
  rw [steps]
  cases tree.step location name <;> simp

theorem steps_append_eq_ok_iff {more : List Name} :
    tree.steps location (names ++ more) = .ok next ↔
      ∃ l, tree.steps location names = .ok l ∧ tree.steps l more = .ok next := by
  induction names generalizing location with
  | nil => simp [steps]
  | cons name names ih =>
    simp only [List.cons_append, steps_cons_eq_ok_iff, ih]
    constructor
    · rintro ⟨l, hl, l', hl', hmore⟩
      exact ⟨l', ⟨l, hl, hl'⟩, hmore⟩
    · rintro ⟨l', ⟨l, hl, hl'⟩, hmore⟩
      exact ⟨l, hl, l', hl', hmore⟩

/-- **A walk arrives where its names lead.** -/
theorem eq_of_steps (h : tree.steps location names = .ok next) :
    next = names.foldl push location := by
  induction names generalizing location with
  | nil => exact (Except.ok.inj h).symm
  | cons name names ih =>
    obtain ⟨l, hl, hrest⟩ := steps_cons_eq_ok_iff.mp h
    rw [ih hrest, eq_of_step hl]
    rfl

/-- A location that is walked to by its names: each of them is an entry of the one before. -/
inductive Stands (tree : Tree) : Location → Prop
  | root : Stands tree []
  | child {location : Location} {name : Name} : Stands tree location →
      tree.step location name = .ok (location ++ [name]) → Stands tree (location ++ [name])

namespace Stands

theorem walk (h : Stands tree location) : tree.steps [] location = .ok location := by
  induction h with
  | root => rfl
  | child _ hstep ih =>
    refine steps_append_eq_ok_iff.mpr ⟨_, ih, ?_⟩
    exact steps_cons_eq_ok_iff.mpr ⟨_, hstep, rfl⟩

/-- The directory above stands too. -/
theorem dropLast (h : Stands tree location) : Stands tree location.dropLast := by
  cases h with
  | root => exact .root
  | child habove _ =>
    rw [List.dropLast_concat]
    exact habove

/-- **A step leads from where one stands to where one stands.** -/
theorem step (h : Stands tree location) (hstep : tree.step location name = .ok next) :
    Stands tree next := by
  obtain rfl := eq_of_step hstep
  rw [push] at hstep ⊢
  split_ifs at hstep ⊢
  · exact h
  · exact h.dropLast
  · exact h.child hstep

theorem steps (h : Stands tree location) (hsteps : tree.steps location names = .ok next) :
    Stands tree next := by
  induction names generalizing location with
  | nil =>
    rw [← Except.ok.inj hsteps]
    exact h
  | cons name names ih =>
    obtain ⟨l, hl, hrest⟩ := steps_cons_eq_ok_iff.mp hsteps
    exact ih (h.step hl) hrest

end Stands

end Walk

/-! ### Segments and names -/

section Segments

open AdmissionControl.Path (Proper Idle pushSegment)

variable {done segments : List Text} {segment : Text}

/-- The location of segments whose last one comes first. -/
def locate (done : List Text) : Location := done.reverse.map bytesOf

/-- **One segment leads where its name leads**; an empty one leads nowhere. -/
theorem locate_pushSegment (hdone : ∀ s ∈ done, Proper s) (hsegment : slash ∉ segment) :
    locate (pushSegment true done segment) =
      if segment = [] then locate done else push (locate done) (bytesOf segment) := by
  rcases Path.idle_or_up_or_proper hsegment with (rfl | rfl) | rfl | hproper
  · rw [if_pos rfl, Path.pushSegment_of_idle (.inl rfl)]
  · rw [if_neg (by decide), Path.pushSegment_of_idle (.inr rfl), push,
      if_pos ((Path.bytesOf_eq_dot_iff _).mpr rfl)]
  · have hdot : ¬ bytesOf Path.up = dot := by decide
    rw [if_neg (by decide), Path.pushSegment_up hdone, push, if_neg hdot,
      if_pos ((Path.bytesOf_eq_dotDot_iff _).mpr rfl), locate, locate, ← List.map_dropLast,
      List.dropLast_reverse]
  · have hdot : ¬ bytesOf segment = dot :=
      fun h => hproper.ne_here ((Path.bytesOf_eq_dot_iff segment).mp h)
    have hdotDot : ¬ bytesOf segment = dotDot :=
      fun h => hproper.ne_up ((Path.bytesOf_eq_dotDot_iff segment).mp h)
    rw [if_neg hproper.nonempty, Path.pushSegment_of_proper hproper, push, if_neg hdot,
      if_neg hdotDot, locate, List.reverse_cons, List.map_append]
    rfl

/-- **Segments lead where their names lead.** -/
theorem locate_foldl_pushSegment (hdone : ∀ s ∈ done, Proper s)
    (hsegments : ∀ s ∈ segments, slash ∉ s) :
    locate (segments.foldl (pushSegment true) done) =
      ((segments.map bytesOf).filter (·.length ≠ 0)).foldl push (locate done) := by
  induction segments generalizing done with
  | nil => rfl
  | cons segment rest ih =>
    obtain ⟨hsegment, hrest⟩ := List.forall_mem_cons.mp hsegments
    rw [List.foldl_cons, ih (Path.proper_pushSegment hdone hsegment) hrest,
      locate_pushSegment hdone hsegment, List.map_cons, List.filter_cons]
    by_cases hnil : segment = []
    · subst hnil
      rfl
    · have hname : (bytesOf segment).length ≠ 0 := by
        intro hlength
        exact hnil ((Path.bytesOf_eq_nil_iff segment).mp (List.length_eq_zero_iff.mp hlength))
      simp only [hnil, hname, if_false, ne_eq, not_false_eq_true, decide_true, if_true,
        List.foldl_cons]

end Segments

end Tree

/-! ### The names of an absolute path -/

namespace Path

/-- A text has bytes if each of its segments has. -/
theorem named_iff (path : Text) : Named path ↔ ∀ s ∈ Text.splitOn slash path, Named s := by
  induction path with
  | nil => simp [Named, Text.splitOn]
  | cons c rest ih =>
    by_cases hc : c = slash
    · subst hc
      have hslash : Named [slash] := by decide
      have hnil : Named [] := by decide
      rw [Text.splitOn_cons_self, List.forall_mem_cons, ← ih]
      simp only [Named, List.forall_mem_cons] at hslash hnil ⊢
      exact and_congr_left' (iff_of_true hslash.1 hnil)
    · rw [Text.splitOn, if_neg hc]
      cases hrest : Text.splitOn slash rest with
      | nil => exact absurd hrest (Text.splitOn_ne_nil slash rest)
      | cons part parts =>
        rw [hrest, List.forall_mem_cons] at ih
        simp only [Named, List.forall_mem_cons] at ih ⊢
        rw [ih]
        simp only [and_assoc]

section Rooted

variable {k : Nat} {segments : List Text}

theorem splitOn_rooted (h : Normal k segments) : Text.splitOn slash (rooted k segments) =
    List.replicate k [] ++ if segments = [] then [[]] else segments := by
  rw [rooted, splitOn_replicate_append]
  split
  · rename_i hnil
    rw [hnil]
    rfl
  · rename_i hnil
    rw [Text.splitOn_joinWith hnil fun s hs => (h.proper s hs).notMem]

theorem named_rooted_iff (h : Normal k segments) :
    Named (rooted k segments) ↔ ∀ s ∈ segments, Named s := by
  have hnil : Named [] := by decide
  rw [named_iff, splitOn_rooted h]
  constructor
  · intro hall s hs
    apply hall
    rw [if_neg (List.ne_nil_of_mem hs)]
    exact List.mem_append_right _ hs
  · intro hall s hs
    rcases List.mem_append.mp hs with hs | hs
    · rw [List.eq_of_mem_replicate hs]
      exact hnil
    · split at hs
      · rw [List.mem_singleton.mp hs]
        exact hnil
      · exact hall s hs

/-- The names of a normal path are its segments. -/
theorem names_rooted (h : Normal k segments) :
    (Tree.splitNames (bytesOf (rooted k segments))).filter (·.length ≠ 0) =
      segments.map bytesOf := by
  have hempty : (List.replicate k ([] : Text)).map bytesOf = List.replicate k [] := by
    rw [List.map_replicate]
    rfl
  rw [Tree.splitNames_bytesOf, splitOn_rooted h, List.map_append, List.filter_append, hempty,
    List.filter_replicate_of_neg (by simp), List.nil_append]
  split
  · rename_i hnil
    rw [hnil]
    rfl
  · rw [List.filter_eq_self]
    intro name hname
    obtain ⟨s, hs, rfl⟩ := List.mem_map.mp hname
    have hne := (bytesOf_eq_nil_iff s).not.mpr (h.proper s hs).nonempty
    simpa using hne

end Rooted

/-- The first byte is a slash if the path is absolute. -/
theorem head_bytesOf_iff (path : Text) :
    (bytesOf path).head? = some 0x2F ↔ isAbsolute path = true := by
  cases path with
  | nil => decide
  | cons c rest =>
    rw [bytesOf_cons, isAbsolute, List.head?_cons, beq_iff_eq, Option.some.injEq]
    constructor
    · intro h
      obtain ⟨tail, htail⟩ := List.head?_eq_some_iff.mp h
      exact (eq_of_head_codeBytes (d := slash) (by decide) htail).1
    · rintro rfl
      rfl

/-- The last byte is a slash only if the last code point is. -/
theorem getLast_of_bytesOf {path : Text} (h : (bytesOf path).getLast? = some 0x2F) :
    path.getLast? = some slash := by
  rcases List.eq_nil_or_concat' path with rfl | ⟨front, c, rfl⟩
  · cases h
  · have hlast : bytesOf (front ++ [c]) = bytesOf front ++ codeBytes c := by
      rw [bytesOf, List.flatMap_append]
      simp [bytesOf]
    rw [hlast, List.getLast?_append_of_ne_nil _ (codeBytes_ne_nil c)] at h
    rw [List.getLast?_concat, Option.some.injEq]
    rcases mem_codeBytes (List.mem_of_getLast? h) with hhigh | ⟨_, hval⟩
    · exact absurd hhigh (by decide)
    · exact CodePoint.ext_val hval.symm

end Path

namespace FileSystem

open AdmissionControl.Path (bytesOf slash isAbsolute stack absolute)

variable {fs : FileSystem} {path : Text} {location : Location}

/-- **The location of a path** is where the segments of its absolute form lead. -/
theorem location_eq_ok_iff (h : isAbsolute (Path.join fs.workingDirectory path) = true) :
    fs.location path = .ok location ↔
      Path.Named (absolute fs.workingDirectory path) ∧
        location = Tree.locate (stack fs.workingDirectory path) := by
  obtain ⟨k, hnormal, hpath⟩ := Path.absolute_eq_rooted h
  have hnames : (Tree.splitNames (bytesOf (absolute fs.workingDirectory path))).filter
      (·.length ≠ 0) = Tree.locate (stack fs.workingDirectory path) := by
    rw [hpath]
    exact Path.names_rooted hnormal
  rw [FileSystem.location, bind_eq_ok_iff]
  constructor
  · rintro ⟨bytes, hbytes, hlocation⟩
    obtain ⟨hnamed, rfl⟩ := Path.encode?_eq_iff.mp hbytes
    exact ⟨hnamed, (Except.ok.inj hlocation).symm.trans hnames⟩
  · rintro ⟨hnamed, rfl⟩
    exact ⟨_, Path.encode?_eq_iff.mpr ⟨hnamed, rfl⟩, congrArg Except.ok hnames⟩

/-! ### Where a path leads -/

/-- The walk of a path arrives at a location. -/
def Reaches (fs : FileSystem) (path : Text) (location : Location) : Prop :=
  ∃ bytes start, Path.encode? path = .ok bytes ∧ fs.location [] = .ok start ∧
    fs.tree.walk start bytes = .ok location

theorem locate_eq_ok_iff {location : Location} :
    fs.locate path = .ok (.ok location) ↔ fs.Reaches path location := by
  rw [locate, bind_eq_ok_iff]
  constructor
  · rintro ⟨bytes, hbytes, hrest⟩
    obtain ⟨start, hstart, hwalk⟩ := bind_eq_ok_iff.mp hrest
    exact ⟨bytes, start, hbytes, hstart, Except.ok.inj hwalk⟩
  · rintro ⟨bytes, start, hbytes, hstart, hwalk⟩
    exact ⟨bytes, hbytes, bind_eq_ok_iff.mpr ⟨start, hstart, congrArg Except.ok hwalk⟩⟩

/-- What is read is the content of the file that the walk arrives at. -/
theorem read_eq_ok_iff {content : List UInt8} : fs.read path = .ok (.ok content) ↔
    ∃ location, fs.Reaches path location ∧ fs.tree.contentAt location = .ok content := by
  rw [read, bind_eq_ok_iff]
  simp only [← locate_eq_ok_iff]
  constructor
  · rintro ⟨found, hfound, hread⟩
    obtain ⟨location, rfl, hcontent⟩ := bind_eq_ok_iff.mp (Except.ok.inj hread)
    exact ⟨location, hfound, hcontent⟩
  · rintro ⟨location, hfound, hcontent⟩
    exact ⟨_, hfound, congrArg Except.ok (bind_eq_ok_iff.mpr ⟨location, rfl, hcontent⟩)⟩

/-- The working directory is given by its absolute path, and each directory on the way to it is
there. -/
structure Placed (fs : FileSystem) : Prop where
  absolute : isAbsolute fs.workingDirectory = true
  stands : ∀ start, fs.location [] = .ok start → fs.tree.Stands start

section Absolute

variable (habsolute : isAbsolute (Path.join fs.workingDirectory path) = true)

include habsolute

/-- The absolute form has bytes if the working directory and the path have. -/
theorem named_absolute (hnamed : Path.Named path)
    (hstart : isAbsolute path = false → isAbsolute fs.workingDirectory = true ∧
      Path.Named (absolute fs.workingDirectory [])) :
    Path.Named (absolute fs.workingDirectory path) := by
  obtain ⟨k, hnormal, hpath⟩ := Path.absolute_eq_rooted habsolute
  have hsegments := (Path.named_iff path).mp hnamed
  have hslash : ∀ s ∈ Text.splitOn slash path, slash ∉ s :=
    fun _ hs => Text.notMem_of_mem_splitOn hs
  rw [hpath, Path.named_rooted_iff hnormal]
  intro s hs
  rw [List.mem_reverse] at hs
  by_cases hroot : isAbsolute path = true
  · rw [Path.stack_of_isAbsolute hroot] at hs
    rcases Path.mem_foldl_pushSegment (by simp) hslash hs with hnone | hmem
    · exact absurd hnone List.not_mem_nil
    · exact hsegments s hmem
  · have hrelative : isAbsolute path = false := Bool.eq_false_iff.mpr hroot
    obtain ⟨hdirectory, hnames⟩ := hstart hrelative
    obtain ⟨j, hnormal', hpath'⟩ :=
      Path.absolute_eq_rooted (Path.isAbsolute_join hdirectory ([] : Text))
    rw [hpath', Path.named_rooted_iff hnormal'] at hnames
    rw [Path.stack_of_relative hdirectory hrelative] at hs
    rcases Path.mem_foldl_pushSegment (Path.proper_stack _ _) hslash hs with hbelow | hmem
    · exact hnames s (List.mem_reverse.mpr hbelow)
    · exact hsegments s hmem

/-- **The walk of an absolute form** arrives where its names lead, if that stands. -/
theorem walk_absolute {start : Location}
    (hstands : fs.tree.Stands (Tree.locate (stack fs.workingDirectory path)))
    (hlength : (bytesOf (absolute fs.workingDirectory path)).length ≤ Tree.maxPath) :
    fs.tree.walk start (bytesOf (absolute fs.workingDirectory path)) =
      .ok (Tree.locate (stack fs.workingDirectory path)) := by
  obtain ⟨k, hnormal, hpath⟩ := Path.absolute_eq_rooted habsolute
  have hhead : (bytesOf (absolute fs.workingDirectory path)).head? = some 0x2F := by
    rw [hpath]
    exact (Path.head_bytesOf_iff _).mpr (Path.isAbsolute_rooted hnormal.pos _)
  have hnonempty : ¬ (bytesOf (absolute fs.workingDirectory path)).isEmpty = true := by
    intro hempty
    rw [List.isEmpty_iff.mp hempty] at hhead
    cases hhead
  rw [Tree.walk, if_neg hnonempty, if_neg (Nat.not_lt.mpr hlength), if_pos hhead, Tree.segments,
    Tree.steps_append_eq_ok_iff]
  refine ⟨Tree.locate (stack fs.workingDirectory path), ?_, ?_⟩
  · rw [hpath, Path.names_rooted hnormal]
    exact hstands.walk
  · split
    · -- only a root ends with a slash, and a root is a directory
      rename_i hlast
      rw [hpath] at hlast
      have hnil : (stack fs.workingDirectory path).reverse = [] := by
        by_contra hnil
        exact Path.getLast_rooted hnormal hnil (Path.getLast_of_bytesOf hlast)
      rw [Tree.locate, hnil]
      rfl
    · rfl

end Absolute

namespace Reaches

/-- A walk arrives where the segments of the absolute form lead, and that stands. -/
theorem eq_locate (h : fs.Reaches path location) (hplaced : isAbsolute path = false → fs.Placed) :
    location = Tree.locate (stack fs.workingDirectory path) ∧ fs.tree.Stands location := by
  obtain ⟨bytes, start, hbytes, hstart, hwalk⟩ := h
  obtain ⟨hnamed, rfl⟩ := Path.encode?_eq_iff.mp hbytes
  -- the bottom of the stack, and the location from which the walk sets out
  obtain ⟨done, hdone, hstack, horigin, hbelow⟩ : ∃ done, (∀ s ∈ done, Path.Proper s) ∧
      stack fs.workingDirectory path =
        (Text.splitOn slash path).foldl (Path.pushSegment true) done ∧
      (if (bytesOf path).head? = some 0x2F then [] else start) = Tree.locate done ∧
      fs.tree.Stands (Tree.locate done) := by
    by_cases hroot : isAbsolute path = true
    · refine ⟨[], by simp, Path.stack_of_isAbsolute hroot, ?_, .root⟩
      rw [if_pos ((Path.head_bytesOf_iff path).mpr hroot)]
      rfl
    · have hrelative : isAbsolute path = false := Bool.eq_false_iff.mpr hroot
      have hdirectory := (hplaced hrelative).absolute
      have hlocation := ((location_eq_ok_iff (Path.isAbsolute_join hdirectory [])).mp hstart).2
      refine ⟨_, Path.proper_stack _ _, Path.stack_of_relative hdirectory hrelative, ?_, ?_⟩
      · rw [if_neg ((Path.head_bytesOf_iff path).not.mpr hroot), hlocation]
      · rw [← hlocation]
        exact (hplaced hrelative).stands start hstart
  rw [Tree.walk, horigin] at hwalk
  split_ifs at hwalk
  refine ⟨?_, hbelow.steps hwalk⟩
  have hslash : ∀ s ∈ Text.splitOn slash path, slash ∉ s :=
    fun _ hs => Text.notMem_of_mem_splitOn hs
  have hidle : ∀ l : Location, (if (bytesOf path).getLast? = some 0x2F then [Tree.dot] else
      []).foldl Tree.push l = l := by
    intro l
    split <;> rfl
  rw [Tree.eq_of_steps hwalk, Tree.segments, List.foldl_append, hidle, Tree.splitNames_bytesOf,
    hstack, Tree.locate_foldl_pushSegment hdone hslash]

/-- **A path and its absolute form name the same file**: the walk of the one arrives where that of
the other does. -/
theorem absolute (h : fs.Reaches path location) (hplaced : isAbsolute path = false → fs.Placed)
    (hlength : ∀ bytes, Path.encode? (Path.absolute fs.workingDirectory path) = .ok bytes →
      bytes.length ≤ Tree.maxPath) :
    fs.Reaches (Path.absolute fs.workingDirectory path) location ∧
      fs.location path = .ok location := by
  obtain ⟨hlocation, hstands⟩ := h.eq_locate hplaced
  obtain ⟨bytes, start, hbytes, hstart, hwalk⟩ := h
  have habsolute : isAbsolute (Path.join fs.workingDirectory path) = true := by
    by_cases hroot : isAbsolute path = true
    · rw [Path.join, if_pos hroot]
      exact hroot
    · exact Path.isAbsolute_join (hplaced (Bool.eq_false_iff.mpr hroot)).absolute path
  have hnamed : Path.Named (Path.absolute fs.workingDirectory path) := by
    apply named_absolute habsolute (Path.encode?_eq_iff.mp hbytes).1
    intro hrelative
    have hdirectory := (hplaced hrelative).absolute
    exact ⟨hdirectory, ((location_eq_ok_iff (Path.isAbsolute_join hdirectory [])).mp hstart).1⟩
  have hencoded := Path.encode?_eq_iff.mpr ⟨hnamed, rfl⟩
  subst hlocation
  refine ⟨⟨_, start, hencoded, hstart, walk_absolute habsolute hstands (hlength _ hencoded)⟩, ?_⟩
  exact (location_eq_ok_iff habsolute).mpr ⟨hnamed, rfl⟩

end Reaches

end FileSystem

end AdmissionControl
