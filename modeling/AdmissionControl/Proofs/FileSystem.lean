import AdmissionControl.Proofs.Allowlist

/-!
# Which paths can be read

Reading a file fails with a fault if its path has no bytes, and is refused in every other case in
which it fails.

* `Path.Named` — the paths that have bytes: no null, and no surrogate but those that stand for a
  byte.
* `FileSystem.exists_locate_iff`, `readFile_eq_fault_iff` — exactly the other paths are a fault.
* `FileSystem.read_of_regular?` — what a search finds of a file is what is read there.
* `mem_entries_of_readFile` — what was read is a file of the tree.
-/

namespace AdmissionControl

theorem byte_ne_zero {n : Nat} (hpos : 0 < n) (hlt : n < 256) : UInt8.ofNat n ≠ 0 := by
  intro h
  have hmod := congrArg UInt8.toNat h
  simp only [UInt8.toNat_ofNat', UInt8.toNat_zero] at hmod
  omega

/-- Only the code point zero has a zero in its encoding. -/
theorem Utf8.zero_mem_encodeOne_iff (c : CodePoint) : (0 : UInt8) ∈ encodeOne c ↔ c.val = 0 := by
  have hlt := c.isLt
  have hne : ∀ {n : Nat}, 0 < n → n < 256 → ¬ (0 : UInt8) = UInt8.ofNat n :=
    fun hpos h heq => byte_ne_zero hpos h heq.symm
  simp only [encodeOne]
  split
  · rw [List.mem_singleton]
    constructor
    · intro h
      by_contra hzero
      exact hne (Nat.pos_of_ne_zero hzero) (by omega) h
    · intro h
      rw [h]
      rfl
  · have hzero : c.val ≠ 0 := by omega
    split_ifs <;> simp only [List.mem_cons, List.not_mem_nil, or_false, hzero, iff_false, not_or]
    · exact ⟨hne (by omega) (by omega), hne (by omega) (by omega)⟩
    · exact ⟨hne (by omega) (by omega), hne (by omega) (by omega), hne (by omega) (by omega)⟩
    · exact ⟨hne (by omega) (by omega), hne (by omega) (by omega), hne (by omega) (by omega),
        hne (by omega) (by omega)⟩

namespace Path

/-- A path that has bytes. -/
def Named (path : Text) : Prop :=
  ∀ c ∈ path, c.val ≠ 0 ∧ (c.isSurrogate = true → 0xDC80 ≤ c.val ∧ c.val ≤ 0xDCFF)

instance (path : Text) : Decidable (Named path) := inferInstanceAs (Decidable (∀ c ∈ path, _))

theorem exists_map_append_iff {ε : Type} {x : Except ε (List UInt8)} (front : List UInt8) :
    (∃ bytes, x.map (front ++ ·) = .ok bytes) ↔ ∃ bytes, x = .ok bytes := by
  cases x <;> simp [Except.map]

/-- One code point of a path: its bytes, or no bytes at all. -/
theorem encodeFrom_cons (i : Nat) (c : CodePoint) (rest : Text) :
    (∃ front, encodeFrom i (c :: rest) = (encodeFrom (i + 1) rest).map (front ++ ·) ∧
      (c.isSurrogate = true → 0xDC80 ≤ c.val ∧ c.val ≤ 0xDCFF) ∧
      ((0 : UInt8) ∈ front ↔ c.val = 0)) ∨
    (∃ e, encodeFrom i (c :: rest) = .error e ∧
      ¬ (c.isSurrogate = true → 0xDC80 ≤ c.val ∧ c.val ≤ 0xDCFF)) := by
  rw [encodeFrom, escapedByte?]
  by_cases hescaped : 0xDC80 ≤ c.val ∧ c.val ≤ 0xDCFF
  · refine .inl ⟨[UInt8.ofNat (c.val - 0xDC00)], ?_, fun _ => hescaped, ?_⟩
    · rw [if_pos hescaped]
      rfl
    · have hbyte := byte_ne_zero (n := c.val - 0xDC00) (by omega) (by omega)
      rw [List.mem_singleton]
      exact iff_of_false (fun h => hbyte h.symm) (by omega)
  · rw [if_neg hescaped]
    cases hsurrogate : c.isSurrogate with
    | false =>
      exact .inl ⟨Utf8.encodeOne c, rfl, nofun, Utf8.zero_mem_encodeOne_iff c⟩
    | true => exact .inr ⟨_, rfl, fun h => hescaped (h rfl)⟩

theorem encodeFrom_eq_ok_iff (i : Nat) (path : Text) :
    (∃ bytes, encodeFrom i path = .ok bytes) ↔
      ∀ c ∈ path, c.isSurrogate = true → 0xDC80 ≤ c.val ∧ c.val ≤ 0xDCFF := by
  induction path generalizing i with
  | nil => simp [encodeFrom]
  | cons c rest ih =>
    rw [List.forall_mem_cons, ← ih (i + 1)]
    rcases encodeFrom_cons i c rest with ⟨front, heq, hc, _⟩ | ⟨e, heq, hc⟩
    · rw [heq, exists_map_append_iff]
      exact (and_iff_right hc).symm
    · rw [heq]
      exact iff_of_false (fun ⟨_, h⟩ => by cases h) fun h => hc h.1

theorem zero_mem_of_encodeFrom {i : Nat} {path : Text} {bytes : List UInt8}
    (h : encodeFrom i path = .ok bytes) : (0 : UInt8) ∈ bytes ↔ ∃ c ∈ path, c.val = 0 := by
  induction path generalizing i bytes with
  | nil =>
    rw [encodeFrom, Except.ok.injEq] at h
    rw [← h]
    simp
  | cons c rest ih =>
    rcases encodeFrom_cons i c rest with ⟨front, heq, _, hzero⟩ | ⟨e, heq, _⟩
    · rw [heq] at h
      cases hrest : encodeFrom (i + 1) rest with
      | error e =>
        rw [hrest] at h
        cases h
      | ok tail =>
        rw [hrest] at h
        rw [← Except.ok.inj h, List.mem_append, hzero, ih hrest]
        simp
    · rw [heq] at h
      cases h

/-- **A path has bytes exactly if it is named.** -/
theorem encode?_eq_ok_iff (path : Text) : (∃ bytes, encode? path = .ok bytes) ↔ Named path := by
  have hnamed : Named path ↔ (¬ ∃ c ∈ path, c.val = 0) ∧
      ∀ c ∈ path, c.isSurrogate = true → 0xDC80 ≤ c.val ∧ c.val ≤ 0xDCFF := by
    simp only [Named, not_exists, not_and]
    exact forall₂_and
  rw [hnamed, ← encodeFrom_eq_ok_iff 0, encode?]
  cases hfrom : encodeFrom 0 path with
  | error e => simp
  | ok bytes =>
    rw [← zero_mem_of_encodeFrom hfrom]
    by_cases hzero : (0 : UInt8) ∈ bytes <;> simp [hzero]

end Path

/-- Both the path and the working directory have bytes. -/
def FileSystem.Names (fs : FileSystem) (path : Text) : Prop :=
  Path.Named path ∧ Path.Named (Path.absolute fs.workingDirectory [])

namespace FileSystem

variable {fs : FileSystem} {path : Text}

/-- **A path leads somewhere, or to an error of the system, exactly if it has bytes.** -/
theorem exists_locate_iff : (∃ found, fs.locate path = .ok found) ↔ fs.Names path := by
  rw [Names, ← Path.encode?_eq_ok_iff, ← Path.encode?_eq_ok_iff, locate, location]
  cases Path.encode? path with
  | error f => simp [bind, Except.bind]
  | ok bytes =>
    cases Path.encode? (Path.absolute fs.workingDirectory []) with
    | error f => simp [bind, Except.bind]
    | ok start => exact iff_of_true ⟨_, rfl⟩ ⟨⟨_, rfl⟩, _, rfl⟩

theorem exists_read_iff : (∃ found, fs.read path = .ok found) ↔ fs.Names path := by
  rw [← exists_locate_iff, read]
  cases fs.locate path with
  | error f => exact iff_of_false nofun nofun
  | ok found => exact iff_of_true ⟨_, rfl⟩ ⟨_, rfl⟩

/-- **What a search finds of a regular file is what is read there.** -/
theorem read_of_regular? {content : Except FileError (List UInt8)}
    (h : fs.regular? path = some content) : fs.read path = .ok content := by
  rw [regular?] at h
  split at h
  · next location hlocate =>
    rw [read, hlocate]
    exact congrArg Except.ok (Option.some.inj (Option.ite_none_right_eq_some.mp h).2)
  · cases h

/-- A link to itself is no file that a search finds, and reading it fails. -/
example :
    let fs : FileSystem := ⟨⟨[([[0x61]], .unreachable .linkLoop)]⟩, "/"⟩
    fs.regular? "a" = none ∧ fs.read "a" = .ok (.error .linkLoop) :=
  ⟨rfl, rfl⟩

end FileSystem

namespace Allowlist

/-- **Reading is a fault exactly if there are no bytes for the path.** -/
theorem readFile_eq_fault_iff (fs : FileSystem) (path : Text) :
    (∃ f, readFile fs path = .error (.fault f)) ↔ ¬ fs.Names path := by
  rw [← FileSystem.exists_read_iff, readFile]
  cases fs.read path with
  | error f => exact iff_of_true ⟨f, rfl⟩ nofun
  | ok found =>
    refine iff_of_false ?_ fun h => h ⟨found, rfl⟩
    cases found <;> rintro ⟨f, hf⟩ <;> cases hf

/-- What was read is the content of a file of the tree. -/
theorem mem_entries_of_readFile {fs : FileSystem} {path : Text} {bytes : List UInt8}
    (h : readFile fs path = .ok bytes) :
    ∃ location, (location, .file bytes) ∈ fs.tree.entries := by
  have hread : fs.read path = .ok (.ok bytes) := by
    rw [readFile] at h
    split at h
    · cases h
    · cases h
    · rename_i found hfound
      rw [Except.ok.injEq] at h
      rw [hfound, h]
  obtain ⟨found, _, hcontent⟩ := bind_eq_ok_iff.mp hread
  obtain ⟨location, _, hat⟩ := bind_eq_ok_iff.mp (Except.ok.inj hcontent)
  refine ⟨location, ?_⟩
  rw [Tree.contentAt] at hat
  split at hat
  · rename_i content hentry
    rw [Except.ok.injEq] at hat
    rw [Tree.entryAt?] at hentry
    split at hentry
    · cases hentry
    · obtain ⟨e, hfind, he⟩ := Option.map_eq_some_iff.mp hentry
      have hlocation : e.1 = location := by simpa using List.find?_some hfind
      have hmem := List.mem_of_find?_eq_some hfind
      rw [← hat, ← hlocation, ← he]
      exact hmem
  · cases hat
  · cases hat
  · cases hat
  · cases hat

end Allowlist

end AdmissionControl
