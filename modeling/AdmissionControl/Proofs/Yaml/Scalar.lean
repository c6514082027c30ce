import AdmissionControl.Proofs.Text
import AdmissionControl.Yaml.Scalar

/-!
# Faults in scalars

A computation ends with a result, with an error that is told, or with a fault.  What follows says of
each reader of a scalar which faults it can end with, and that its cursor keeps the failure of the
text, so that this is the fault a later reader may meet.

* `Ends` — the results and the faults that a computation can end with; `Ends.bind` puts parts
  together.
* `Met` — the faults that are met while tokens are read.
* `Reads` — a reader meets these faults only, and keeps the failure of the text.
* `reads_quotedScalar`, `reads_blockScalar`, `failure_plainScalar` — the three kinds of scalars.
-/

namespace AdmissionControl.Yaml

/-! ### How a computation ends -/

/-- A result of the given kind, a fault of the given kind, or an error that is told. -/
def Ends {α : Type} (P : Fault → Prop) (Q : α → Prop) : Except Error α → Prop
  | .ok a => Q a
  | .error (.fault f) => P f
  | .error (.malformed _) => True

namespace Ends

variable {α β : Type} {P : Fault → Prop} {Q : α → Prop} {R : β → Prop} {x : Except Error α}

theorem bind (h : Ends P Q x) {next : α → Except Error β} (hnext : ∀ a, Q a → Ends P R (next a)) :
    Ends P R (x >>= next) := by
  cases x with
  | ok a => exact hnext a h
  | error e =>
    cases e with
    | malformed reason => trivial
    | fault f => exact h

theorem map (h : Ends P Q x) {g : α → β} (hg : ∀ a, Q a → R (g a)) : Ends P R (x.map g) := by
  cases x with
  | ok a => exact hg a h
  | error e =>
    cases e with
    | malformed reason => trivial
    | fault f => exact h

theorem mono {Q' : α → Prop} {P' : Fault → Prop} (h : Ends P Q x) (hP : ∀ f, P f → P' f)
    (hQ : ∀ a, Q a → Q' a) : Ends P' Q' x := by
  cases x with
  | ok a => exact hQ a h
  | error e =>
    cases e with
    | malformed reason => trivial
    | fault f => exact hP f h

/-- An error is the same error of every computation. -/
theorem error {e : Error} (h : Ends P Q (.error e)) : Ends P R (.error e) := by
  cases e with
  | malformed reason => trivial
  | fault f => exact h

theorem ite {p : Prop} [Decidable p] {y : Except Error α} (hx : Ends P Q x) (hy : Ends P Q y) :
    Ends P Q (if p then x else y) := by
  split
  · exact hx
  · exact hy

end Ends

/-! ### Faults of tokens -/

/-- The faults that are met while tokens are read: that of the text, a number that is no code point,
and a version with too many digits. -/
inductive Met (failure : Option Error) : Fault → Prop
  | input {f : Fault} : failure = some (.fault f) → Met failure f
  | escape {n : Nat} {f : Fault} : escapeCode n = .error (.fault f) → Met failure f
  | version {count : Nat} : Numeral.maxDigits < count → Met failure (.tooManyDigits count)

/-- A reader meets faults of tokens only, and keeps the failure of the text. -/
abbrev Reads {α : Type} (failure : Option Error) (x : Except Error (α × Cursor)) : Prop :=
  Ends (Met failure) (fun r => r.2.failure = failure) x

namespace Cursor

@[simp] theorem failure_next (c : Cursor) : c.next.failure = c.failure := by
  rw [next]
  split
  · rfl
  · split <;> rfl

@[simp] theorem failure_forward (c : Cursor) (n : Nat) : (c.forward n).failure = c.failure := by
  induction n generalizing c with
  | zero => rfl
  | succ n ih => rw [forward, ih, failure_next]

@[simp] theorem failure_skip (c : Cursor) (p : CodePoint → Bool) :
    (c.skip p).failure = c.failure := c.failure_forward _

@[simp] theorem failure_skipSpaces (c : Cursor) : c.skipSpaces.failure = c.failure :=
  c.failure_skip _

@[simp] theorem failure_skipComment (c : Cursor) : c.skipComment.failure = c.failure := by
  rw [skipComment]
  split
  · exact c.failure_skip _
  · rfl

theorem failure_of_lineBreak? {c d : Cursor} {x : CodePoint} (h : c.lineBreak? = some (x, d)) :
    d.failure = c.failure := by
  rw [lineBreak?] at h
  split at h
  · cases h
  · split at h
    · cases h
    · obtain ⟨_, rfl⟩ := Prod.mk.inj (Option.some.inj h)
      exact c.failure_next

@[simp] theorem failure_skipBreak (c : Cursor) : c.skipBreak.failure = c.failure := by
  rw [skipBreak]
  split
  · rename_i h
    exact failure_of_lineBreak? h
  · rfl

variable {α : Type} {failure : Option Error} {c : Cursor} {Q : α → Prop}

theorem ends_refuse (h : c.failure = failure) (looked : Nat) (reason : String) :
    Ends (Met failure) Q (c.refuse looked reason) := by
  rw [refuse]
  split
  · rename_i e he
    split_ifs
    · cases e with
      | malformed reason => trivial
      | fault f => exact .input (h.symm.trans he)
    · trivial
  · trivial

/-- Nothing is read after an error. -/
theorem ends_refuse_bind {β : Type} {R : β → Prop} (h : c.failure = failure) (looked : Nat)
    (reason : String) (next : α → Except Error β) :
    Ends (Met failure) R (c.refuse looked reason >>= next) :=
  (ends_refuse (Q := fun _ => False) h looked reason).bind fun _ hno => hno.elim

theorem ends_mustGoOn (h : c.failure = failure) :
    Ends (Met failure) (fun _ => True) c.mustGoOn := by
  rw [mustGoOn]
  split
  · rename_i e he
    split_ifs
    · cases e with
      | malformed reason => trivial
      | fault f => exact .input (h.symm.trans he)
    · trivial
  · trivial

theorem ends_restOfLine (h : c.failure = failure) (reason : String) :
    Ends (Met failure) (fun d => d.failure = failure) (c.restOfLine reason) := by
  simp only [restOfLine]
  split_ifs
  · show c.skipSpaces.skipComment.skipBreak.failure = failure
    simpa using h
  · trivial

end Cursor

/-! ### Quoted scalars -/

section Quoted

variable {failure : Option Error} {c : Cursor}

theorem ends_escapeCode (n : Nat) : Ends (Met failure) (fun _ => True) (escapeCode n) := by
  cases h : escapeCode n with
  | ok c => trivial
  | error e =>
    cases e with
    | malformed reason => trivial
    | fault f => exact .escape h

theorem reads_quotedBreaks (h : c.failure = failure) (fuel : Nat) (done : Text) :
    Reads failure (quotedBreaks fuel done c) := by
  induction fuel generalizing c done with
  | zero => exact h
  | succ fuel ih =>
    rw [quotedBreaks]
    split
    · exact Cursor.ends_refuse h _ _
    · have hskip : (c.skip isSpaceOrTab).failure = failure := by simpa using h
      dsimp only
      split
      · rename_i x d hbreak
        exact ih ((Cursor.failure_of_lineBreak? hbreak).trans hskip) _
      · exact hskip

theorem reads_quotedSpaces (h : c.failure = failure) (fuel : Nat) :
    Reads failure (quotedSpaces fuel c) := by
  have hforward : (c.forward (c.run isSpaceOrTab).length).failure = failure := by simpa using h
  rw [quotedSpaces]
  split
  · exact Cursor.ends_refuse hforward _ _
  · split
    · exact hforward
    · rename_i first d hbreak
      have hd := (Cursor.failure_of_lineBreak? hbreak).trans hforward
      have hbreaks := reads_quotedBreaks hd fuel []
      split
      · rename_i e he
        rw [he] at hbreaks
        exact hbreaks.error
      · rename_i breaks d' hd
        rw [hd] at hbreaks
        exact hbreaks

theorem reads_escaped (h : c.failure = failure) (fuel : Nat) : Reads failure (escaped fuel c) := by
  have hnext : c.next.failure = failure := by simpa using h
  rw [escaped]
  split
  · exact Cursor.ends_refuse h _ _
  · split
    · exact hnext
    · rename_i width _
      dsimp only
      split
      · refine (ends_escapeCode _).map fun y _ => ?_
        simpa using h
      · exact Cursor.ends_refuse hnext _ _
    · split
      · exact reads_quotedBreaks hnext fuel []
      · trivial

theorem reads_quotedText (h : c.failure = failure) (double : Bool) (fuel : Nat) (done : Text) :
    Reads failure (quotedText double fuel done c) := by
  induction fuel generalizing c done with
  | zero => exact Cursor.ends_refuse h _ _
  | succ fuel ih =>
    have hnext : c.next.failure = failure := by simpa using h
    rw [quotedText]
    split
    · exact Cursor.ends_refuse h _ _
    · rename_i x _
      split_ifs
      · have hspaces := reads_quotedSpaces h fuel
        split
        · rename_i e he
          rw [he] at hspaces
          exact hspaces.error
        · rename_i text d hd
          rw [hd] at hspaces
          exact ih hspaces _
      · refine ih ?_ _
        simpa using h
      · exact hnext
      · exact hnext
      · have hescaped := reads_escaped hnext fuel
        split
        · rename_i e he
          rw [he] at hescaped
          exact hescaped.error
        · rename_i text d hd
          rw [hd] at hescaped
          exact ih hescaped _
      · exact ih hnext _

theorem reads_quotedScalar (h : c.failure = failure) (double : Bool) :
    Reads failure (quotedScalar double c) := by
  refine reads_quotedText ?_ double c.fuel []
  simpa using h

end Quoted

/-! ### Block scalars -/

section Block

variable {failure : Option Error} {c : Cursor}

theorem failure_of_chomping? {d : Cursor} {chomping : Chomping}
    (h : chomping? c = some (chomping, d)) : d.failure = c.failure := by
  rw [chomping?] at h
  split_ifs at h
  · obtain ⟨_, rfl⟩ := Prod.mk.inj (Option.some.inj h)
    exact c.failure_next
  · obtain ⟨_, rfl⟩ := Prod.mk.inj (Option.some.inj h)
    exact c.failure_next

theorem ends_indentation? (h : c.failure = failure) :
    Ends (Met failure) (fun r => ∀ n d, r = some (n, d) → d.failure = failure)
      (indentation? c) := by
  rw [indentation?]
  split
  · exact nofun
  · split_ifs
    · exact nofun
    · trivial
    · intro n d hd
      obtain ⟨_, rfl⟩ := Prod.mk.inj (Option.some.inj hd)
      simpa using h

/-- What is read after a header's sign and digit. -/
theorem reads_headerEnd {d : Cursor} (h : d.failure = failure) (header : BlockHeader) :
    Reads failure (do
      if !d.isSpacedAt 0 then throw (.malformed "a block header has a wrong mark")
      let e ← d.restOfLine "a block header is followed by text"
      return (header, e)) := by
  dsimp only
  split_ifs
  · trivial
  · refine (Cursor.ends_restOfLine h _).bind ?_
    intro e he
    exact he

theorem reads_blockHeader (h : c.failure = failure) : Reads failure (blockHeader c) := by
  rw [blockHeader]
  split
  · rename_i chomping d hd
    have hd' := (failure_of_chomping? hd).trans h
    refine (ends_indentation? hd').bind ?_
    intro r hr
    split
    · exact reads_headerEnd (hr _ _ rfl) _
    · exact reads_headerEnd hd' _
  · refine (ends_indentation? h).bind ?_
    intro r hr
    split
    · rename_i n d
      have hd := hr n d rfl
      split
      · rename_i chomping d' hd'
        exact reads_headerEnd ((failure_of_chomping? hd').trans hd) _
      · exact reads_headerEnd hd _
    · exact reads_headerEnd h _

theorem failure_leadingBreaks (fuel : Nat) (done : Text) (widest : Nat) (c : Cursor) :
    (leadingBreaks fuel done widest c).2.2.failure = c.failure := by
  induction fuel generalizing done widest c with
  | zero => rfl
  | succ fuel ih =>
    rw [leadingBreaks]
    split
    · rw [ih, Cursor.failure_next]
    · split
      · rename_i x d hd
        rw [ih, Cursor.failure_of_lineBreak? hd]
      · rfl

theorem failure_skipIndentation (indent : Nat) (c : Cursor) :
    (skipIndentation indent c).failure = c.failure := c.failure_forward _

theorem failure_blockBreaks (indent fuel : Nat) (done : Text) (c : Cursor) :
    (blockBreaks indent fuel done c).2.failure = c.failure := by
  induction fuel generalizing done c with
  | zero => exact failure_skipIndentation indent c
  | succ fuel ih =>
    rw [blockBreaks]
    split
    · rename_i x d hd
      rw [ih, Cursor.failure_of_lineBreak? hd, failure_skipIndentation]
    · exact failure_skipIndentation indent c

theorem failure_blockLines (folded : Bool) (chomping : Chomping) (indent fuel : Nat) (done : Text)
    (c : Cursor) : (blockLines folded chomping indent fuel done c).2.failure = c.failure := by
  induction fuel generalizing done c with
  | zero => rfl
  | succ fuel ih =>
    rw [blockLines]
    have hafter := c.failure_forward (c.run (!isBreak ·)).length
    split
    rename_i lineBreak d hd
    have hbreak : d.failure = c.failure := by
      split at hd
      · rename_i hbreak
        obtain ⟨_, rfl⟩ := Prod.mk.inj hd
        exact (Cursor.failure_of_lineBreak? hbreak).trans hafter
      · obtain ⟨_, rfl⟩ := Prod.mk.inj hd
        exact hafter
    have hbreaks := (failure_blockBreaks indent d.fuel [] d).trans hbreak
    split
    rename_i breaks e he
    rw [he] at hbreaks
    split_ifs
    · rw [ih]
      exact hbreaks
    · exact hbreaks

/-- What is read after the line ends under a header. -/
theorem reads_blockText (h : c.failure = failure) (folded : Bool) (chomping : Chomping)
    (indent : Nat) (breaks : Text) :
    Reads failure (if atBlockLine indent c then
        pure (blockLines folded chomping indent c.fuel breaks.reverse c)
      else pure (chomp chomping [] breaks, c)) := by
  split_ifs
  · exact (failure_blockLines ..).trans h
  · exact h

theorem reads_blockScalar (h : c.failure = failure) (folded : Bool) (outer : Int) :
    Reads failure (blockScalar folded outer c) := by
  rw [blockScalar]
  refine (reads_blockHeader (c.failure_next.trans h)).bind ?_
  rintro ⟨header, d⟩ hd
  dsimp only
  split
  · exact reads_blockText ((failure_blockBreaks ..).trans hd) ..
  · exact reads_blockText ((failure_leadingBreaks ..).trans hd) ..

end Block

/-! ### Plain scalars -/

theorem failure_plainBreaks (fuel : Nat) (done : Text) (c : Cursor) :
    (plainBreaks fuel done c).2.failure = c.failure := by
  induction fuel generalizing done c with
  | zero => rfl
  | succ fuel ih =>
    rw [plainBreaks]
    split
    · rw [ih, Cursor.failure_next]
    · split
      · rename_i x d hd
        split
        · exact Cursor.failure_of_lineBreak? hd
        · rw [ih, Cursor.failure_of_lineBreak? hd]
      · rfl

theorem failure_plainSpaces (c : Cursor) : (plainSpaces c).2.1.failure = c.failure := by
  have hforward : (c.forward (c.run isSpace).length).failure = c.failure := by simp
  rw [plainSpaces]
  split
  · exact hforward
  · rename_i first d hd
    have hbreak := (Cursor.failure_of_lineBreak? hd).trans hforward
    split
    · exact hbreak
    · have hbreaks := failure_plainBreaks d.fuel [] d
      split
      · rename_i d' hd'
        rw [hd'] at hbreaks
        exact hbreaks.trans hbreak
      · rename_i breaks d' hd'
        rw [hd'] at hbreaks
        exact hbreaks.trans hbreak

theorem failure_plainWords (inFlow : Bool) (least : Int) (fuel : Nat) (done spaces : Text)
    (sawBreak : Bool) (c : Cursor) :
    (plainWords inFlow least fuel done spaces sawBreak c).cursor.failure = c.failure := by
  induction fuel generalizing done spaces sawBreak c with
  | zero => rfl
  | succ fuel ih =>
    have hspaces : (plainSpaces (c.forward (plainWord inFlow c.rest).length)).2.1.failure =
        c.failure := by
      rw [failure_plainSpaces, Cursor.failure_forward]
    rw [plainWords]
    dsimp only
    split
    · rfl
    · split
      · exact hspaces
      · rw [ih, hspaces]

@[simp] theorem failure_plainScalar (inFlow : Bool) (outer : Int) (c : Cursor) :
    (plainScalar inFlow outer c).cursor.failure = c.failure := failure_plainWords ..

end AdmissionControl.Yaml
