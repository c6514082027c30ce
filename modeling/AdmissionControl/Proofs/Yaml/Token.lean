import AdmissionControl.Proofs.Yaml.Scalar
import AdmissionControl.Yaml.Token

/-!
# Faults in tokens

Every token is read from a cursor that keeps the failure of the text, so the tokens of an input end
with a fault of the input or with one that a token itself is.

* `Lexer.Steps` — a step of the lexer that meets these faults only.
* `Lexer.steps_readAt`, `Lexer.ends_step` — every kind of token, then one step.
* `met_tokens` — the tokens of an input.
-/

namespace AdmissionControl.Yaml

/-! ### Directives, anchors and tags -/

section Readers

variable {failure : Option Error} {c : Cursor}

theorem reads_directiveNumber (h : c.failure = failure) : Reads failure (directiveNumber c) := by
  have hafter := (c.failure_forward (c.run CodePoint.isAsciiDigit).length).trans h
  rw [directiveNumber]
  refine (Cursor.ends_mustGoOn hafter).bind fun _ _ => ?_
  dsimp only
  split
  · trivial
  · split
    · rename_i hlong
      exact Met.version hlong
    · exact hafter

theorem reads_versionDirective (h : c.failure = failure) : Reads failure (versionDirective c) := by
  rw [versionDirective]
  refine (reads_directiveNumber (c.failure_skipSpaces.trans h)).bind ?_
  rintro ⟨major, d⟩ hd
  dsimp only
  split
  · trivial
  · refine (reads_directiveNumber (d.failure_next.trans hd)).bind ?_
    rintro ⟨minor, e⟩ he
    dsimp only
    split
    · trivial
    · exact he

theorem reads_tagHandle (h : c.failure = failure) : Reads failure (tagHandle c) := by
  rw [tagHandle]
  split
  · exact Cursor.ends_refuse h _ _
  · split
    · exact c.failure_next.trans h
    · dsimp only
      split
      · exact (c.failure_forward _).trans h
      · exact Cursor.ends_refuse h _ _

theorem reads_percentBytes (h : c.failure = failure) (fuel : Nat) (done : List UInt8) :
    Reads failure (percentBytes fuel done c) := by
  induction fuel generalizing c done with
  | zero => exact h
  | succ fuel ih =>
    rw [percentBytes]
    split
    · exact h
    · dsimp only
      split
      · exact ih ((c.failure_forward _).trans h) _
      · exact Cursor.ends_refuse (c.failure_next.trans h) _ _

theorem reads_tagSuffix (h : c.failure = failure) (fuel : Nat) (done : Text) :
    Reads failure (tagSuffix fuel done c) := by
  induction fuel generalizing c done with
  | zero => exact h
  | succ fuel ih =>
    rw [tagSuffix]
    split
    · refine (reads_percentBytes h c.fuel []).bind ?_
      rintro ⟨bytes, d⟩ hd
      dsimp only
      split
      · exact ih hd _
      · trivial
    · dsimp only
      split
      · split
        · exact Cursor.ends_refuse h _ _
        · exact h
      · exact ih ((c.failure_forward _).trans h) _

theorem reads_tagText (h : c.failure = failure) : Reads failure (tagText c) := reads_tagSuffix h _ _

/-- What is read after a tag. -/
theorem reads_tagEnd (h : c.failure = failure) (token : Token) :
    Reads failure (do
      if !c.isSpacedAt 0 then throw (.malformed "a tag is followed by text")
      return (token, c)) := by
  dsimp only
  split
  · trivial
  · exact h

theorem reads_tagDirective (h : c.failure = failure) : Reads failure (tagDirective c) := by
  rw [tagDirective]
  refine (reads_tagHandle (c.failure_skipSpaces.trans h)).bind ?_
  rintro ⟨handle, d⟩ hd
  dsimp only
  split
  · exact Cursor.ends_refuse_bind hd _ _ _
  · refine (reads_tagText (d.failure_skipSpaces.trans hd)).bind ?_
    rintro ⟨start, e⟩ he
    exact reads_tagEnd he _

theorem reads_restOfLine (h : c.failure = failure) (token : Token) (reason : String) :
    Reads failure (do
      let d ← c.restOfLine reason
      return (token, d)) :=
  (Cursor.ends_restOfLine h reason).bind fun _ hd => hd

theorem reads_directive (h : c.failure = failure) : Reads failure (directive c) := by
  have hafter := (c.next.failure_forward (c.next.run isWord).length).trans (c.failure_next.trans h)
  rw [directive]
  dsimp only
  split
  · exact Cursor.ends_refuse_bind hafter _ _ _
  · split
    · trivial
    · split
      · refine (reads_versionDirective hafter).bind ?_
        rintro ⟨token, d⟩ hd
        exact reads_restOfLine hd _ _
      · split
        · refine (reads_tagDirective hafter).bind ?_
          rintro ⟨token, d⟩ hd
          exact reads_restOfLine hd _ _
        · exact reads_restOfLine ((Cursor.failure_skip ..).trans hafter) _ _

theorem reads_anchorName (h : c.failure = failure) : Reads failure (anchorName c) := by
  have hafter := (c.next.failure_forward (c.next.run isWord).length).trans (c.failure_next.trans h)
  rw [anchorName]
  split
  · exact Cursor.ends_refuse hafter _ _
  · split
    · exact hafter
    · trivial

theorem reads_tagToken (h : c.failure = failure) : Reads failure (tagToken c) := by
  rw [tagToken]
  split
  · refine (reads_tagText ((c.failure_forward 2).trans h)).bind ?_
    rintro ⟨suffix, d⟩ hd
    dsimp only
    split
    · exact Cursor.ends_refuse_bind hd _ _ _
    · exact reads_tagEnd (d.failure_next.trans hd) _
  · split
    · exact reads_tagEnd (c.failure_next.trans h) _
    · split
      · refine (reads_tagHandle h).bind ?_
        rintro ⟨handle, d⟩ hd
        refine (reads_tagText hd).bind ?_
        rintro ⟨suffix, e⟩ he
        exact reads_tagEnd he _
      · refine (reads_tagText (c.failure_next.trans h)).bind ?_
        rintro ⟨suffix, d⟩ hd
        exact reads_tagEnd hd _

end Readers

/-! ### The lexer -/

namespace Lexer

variable {failure : Option Error} {l : Lexer}

/-- A step of the lexer meets faults of tokens only, and keeps the failure of the text. -/
abbrev Steps (failure : Option Error) (x : Except Error Lexer) : Prop :=
  Ends (Met failure) (fun l => l.cursor.failure = failure) x

theorem failure_unwind (column : Int) (outer : List Int) (l : Lexer) :
    (unwind column outer l).cursor.failure = l.cursor.failure := by
  induction outer generalizing l with
  | nil => rfl
  | cons indent outer ih =>
    rw [unwind]
    split
    · rw [ih]
      rfl
    · rfl

theorem failure_unwindTo (l : Lexer) (column : Int) :
    (l.unwindTo column).cursor.failure = l.cursor.failure := by
  rw [unwindTo]
  split
  · rfl
  · exact failure_unwind ..

theorem failure_indentTo (l : Lexer) (column : Int) :
    (l.indentTo column).2.cursor.failure = l.cursor.failure := by
  rw [indentTo]
  split <;> rfl

theorem failure_skipToToken (fuel : Nat) (l : Lexer) :
    (l.skipToToken fuel).cursor.failure = l.cursor.failure := by
  induction fuel generalizing l with
  | zero => rfl
  | succ fuel ih =>
    have hskip : l.cursor.skipSpaces.skipComment.failure = l.cursor.failure := by simp
    rw [skipToToken]
    split
    · exact hskip
    · rename_i x d hd
      rw [ih]
      exact (Cursor.failure_of_lineBreak? hd).trans hskip

theorem failure_skipByteOrderMark (l : Lexer) :
    l.skipByteOrderMark.cursor.failure = l.cursor.failure := by
  rw [skipByteOrderMark]
  split
  · exact l.cursor.failure_next
  · rfl

section Steps

variable (h : l.cursor.failure = failure)

include h

theorem steps_removeKey : Steps failure l.removeKey := by
  rw [removeKey]
  split
  · split
    · trivial
    · exact h
  · exact h

theorem steps_saveKey : Steps failure l.saveKey := by
  rw [saveKey]
  split
  · exact h
  · refine (steps_removeKey h).bind ?_
    intro l' hl'
    exact hl'

theorem steps_dropStaleKeys : Steps failure l.dropStaleKeys := by
  rw [dropStaleKeys]
  split
  · trivial
  · exact h

theorem steps_openBlock (token : Token) (reason : String) :
    Steps failure (l.openBlock token reason) := by
  have hindent := (l.failure_indentTo l.column).trans h
  rw [openBlock]
  split
  · exact h
  · split
    · trivial
    · split
      · rename_i l' hl'
        rw [hl'] at hindent
        exact hindent
      · rename_i l' hl'
        rw [hl'] at hindent
        exact hindent

theorem steps_readStreamEnd : Steps failure l.readStreamEnd := by
  refine (steps_removeKey ((l.failure_unwindTo _).trans h)).bind ?_
  intro l' hl'
  exact hl'

theorem steps_readDirective : Steps failure l.readDirective := by
  refine (steps_removeKey ((l.failure_unwindTo _).trans h)).bind ?_
  intro l' hl'
  refine (reads_directive hl').bind ?_
  rintro ⟨token, d⟩ hd
  exact hd

theorem steps_readDocumentMark (token : Token) : Steps failure (readDocumentMark token l) := by
  refine (steps_removeKey ((l.failure_unwindTo _).trans h)).bind ?_
  intro l' hl'
  exact (Cursor.failure_forward _ 3).trans hl'

theorem steps_readFlowStart (token : Token) : Steps failure (readFlowStart token l) := by
  refine (steps_saveKey h).bind ?_
  intro l' hl'
  exact (Cursor.failure_next _).trans hl'

theorem steps_readFlowEnd (token : Token) : Steps failure (readFlowEnd token l) := by
  refine (steps_removeKey h).bind ?_
  intro l' hl'
  dsimp only
  split
  · trivial
  · exact (Cursor.failure_next _).trans hl'

theorem steps_readFlowEntry : Steps failure l.readFlowEntry := by
  refine (steps_removeKey (l := l.allowKey true) h).bind ?_
  intro l' hl'
  exact (Cursor.failure_next _).trans hl'

/-- What becomes of an indicator at which a block may start. -/
theorem steps_indicator (allowed : Bool) (token : Token) :
    Steps failure (do
      let l ← (l.allowKey allowed).removeKey
      return (l.push token).move l.cursor.next) := by
  refine (steps_removeKey (l := l.allowKey allowed) h).bind ?_
  intro l' hl'
  exact (Cursor.failure_next _).trans hl'

theorem steps_readBlockEntry : Steps failure l.readBlockEntry := by
  refine (steps_openBlock h _ _).bind ?_
  intro l' hl'
  exact steps_indicator hl' _ _

theorem steps_readKey : Steps failure l.readKey := by
  refine (steps_openBlock h _ _).bind ?_
  intro l' hl'
  exact steps_indicator hl' _ _

theorem steps_readValue : Steps failure l.readValue := by
  rw [readValue]
  split
  · rename_i k _
    have hindent : ((l.forgetKey.insertAt k.position .key).indentTo k.column).2.cursor.failure =
        failure := (failure_indentTo ..).trans h
    dsimp only
    split
    · exact (Cursor.failure_next _).trans h
    · split
      · rename_i l' hl'
        rw [hl'] at hindent
        exact (Cursor.failure_next _).trans hindent
      · rename_i l' hl'
        rw [hl'] at hindent
        exact (Cursor.failure_next _).trans hindent
  · refine (steps_openBlock h _ _).bind ?_
    intro l' hl'
    exact steps_indicator hl' _ _

theorem steps_readKeyable {read : Cursor → Except Error (Token × Cursor)}
    (hread : ∀ c : Cursor, c.failure = failure → Reads failure (read c)) :
    Steps failure (l.readKeyable read) := by
  refine (steps_saveKey h).bind ?_
  intro l' hl'
  refine (hread _ hl').bind ?_
  rintro ⟨token, d⟩ hd
  exact hd

/-- An anchor or an alias. -/
theorem steps_readAnchorName (token : Text → Token) :
    Steps failure (l.readKeyable fun c => (anchorName c).map fun (name, c) => (token name, c)) :=
  steps_readKeyable h fun _ hc => (reads_anchorName hc).map fun _ hd => hd

theorem steps_readBlockScalar (folded : Bool) : Steps failure (l.readBlockScalar folded) := by
  refine (steps_removeKey (l := l.allowKey true) h).bind ?_
  intro l' hl'
  refine (reads_blockScalar hl' _ _).bind ?_
  rintro ⟨text, d⟩ hd
  exact hd

theorem steps_readQuoted (double : Bool) : Steps failure (l.readQuoted double) :=
  steps_readKeyable h fun _ hc => (reads_quotedScalar hc double).map fun _ hd => hd

theorem steps_readPlain : Steps failure l.readPlain := by
  refine (steps_saveKey h).bind ?_
  intro l' hl'
  exact (failure_plainScalar ..).trans hl'

theorem steps_readAt (x : CodePoint) : Steps failure (l.readAt x) := by
  -- one case for each kind of token, in the order in which they are told apart
  refine .ite (steps_readDirective h) (.ite (steps_readDocumentMark h _) ?_)
  refine .ite (steps_readDocumentMark h _) ?_
  refine .ite (steps_readFlowStart h _) (.ite (steps_readFlowStart h _) ?_)
  refine .ite (steps_readFlowEnd h _) (.ite (steps_readFlowEnd h _) ?_)
  refine .ite (steps_readFlowEntry h) (.ite (steps_readBlockEntry h) ?_)
  refine .ite (steps_readKey h) (.ite (steps_readValue h) ?_)
  refine .ite (steps_readAnchorName h _) (.ite (steps_readAnchorName h _) ?_)
  refine .ite (steps_readKeyable h fun _ => reads_tagToken) ?_
  refine .ite (steps_readBlockScalar h false) (.ite (steps_readBlockScalar h true) ?_)
  refine .ite (steps_readQuoted h false) (.ite (steps_readQuoted h true) ?_)
  exact .ite (steps_readPlain h) trivial

theorem ends_step : Ends (Met failure) (fun r => r.1.cursor.failure = failure) l.step := by
  have hskip : (l.skipByteOrderMark.skipToToken l.skipByteOrderMark.cursor.fuel).cursor.failure =
      failure := (failure_skipToToken ..).trans ((failure_skipByteOrderMark l).trans h)
  rw [step]
  refine (Cursor.ends_mustGoOn hskip).bind fun _ _ => ?_
  refine (steps_dropStaleKeys hskip).bind ?_
  intro l' hl'
  have hunwind := (l'.failure_unwindTo l'.column).trans hl'
  dsimp only
  split
  · refine (steps_readStreamEnd hunwind).bind ?_
    intro l'' hl''
    exact hl''
  · refine (steps_readAt hunwind _).bind ?_
    intro l'' hl''
    refine (Cursor.ends_mustGoOn hl'').bind fun _ _ => ?_
    exact hl''

/-- The run of the lexer ends with a fault of tokens, if with a fault. -/
theorem met_run (fuel : Nat) {f : Fault} (hrun : (l.run fuel).2 = some (.fault f)) :
    Met failure f := by
  induction fuel generalizing l with
  | zero => cases hrun
  | succ fuel ih =>
    have hdrop := steps_dropStaleKeys h
    rw [run] at hrun
    split at hrun
    · rename_i e he
      obtain rfl := Option.some.inj hrun
      rw [he] at hdrop
      exact hdrop
    · rename_i l' hl'
      rw [hl'] at hdrop
      have hstep := ends_step hdrop
      split at hrun
      · rename_i e he
        obtain rfl := Option.some.inj hrun
        rw [he] at hstep
        exact hstep
      · cases hrun
      · rename_i l'' hl''
        rw [hl''] at hstep
        exact ih hstep hrun

end Steps

end Lexer

/-- **The tokens of an input end with a fault of tokens, if with a fault.** -/
theorem met_tokens {input : Input} {f : Fault} (h : (tokens input).2 = some (.fault f)) :
    Met input.failure f :=
  Lexer.met_run rfl _ h

end AdmissionControl.Yaml
