import AdmissionControl.Proofs.Admission

/-!
# Which identifiers are decided

A check answers most identifiers with a decision, and what has no normal form is denied.  The few
that it does not answer are faults: a text with a surrogate, and a value that has no literal.

* `Value.faults_of_literal` — why a value has no literal.
* `Value.Answerable`, `Value.Unanswered` — the identifiers with a decision, and the faults of the
  others.
* `Decision.About` — what a decision says about an identifier.
* `Store.decided_or_fault` — every identifier is decided or is a fault, whatever is published.
-/

namespace AdmissionControl

/-- A computation whose last part cannot fail fails where the first part does. -/
theorem error_of_bind {ε α β : Type} {x : Except ε α} {g : α → Except ε β} {e : ε}
    (hg : ∀ a, ∃ b, g a = .ok b) (h : x >>= g = .error e) : x = .error e := by
  rcases bind_eq_error_iff.mp h with hx | ⟨a, _, ha⟩
  · exact hx
  · obtain ⟨b, hb⟩ := hg a
    exact nomatch hb.symm.trans ha

namespace Value

/-! ### Why a value has no literal -/

/-- The reason is one of the two limits, and the value is beyond it. -/
def Beyond (depth height : Nat) (integers : List Int) (f : Fault) : Prop :=
  (f = .tooLongToWrite ∧ ¬ Short integers) ∨ (f = .literalTooDeep ∧ depth < height)

/-- A part that is beyond a limit takes the whole beyond it. -/
theorem Beyond.mono {depth depth' height height' : Nat} {integers integers' : List Int} {f : Fault}
    (h : Beyond depth height integers f) (hheight : depth < height → depth' < height')
    (hintegers : Short integers' → Short integers) : Beyond depth' height' integers' f := by
  rcases h with ⟨hf, hlong⟩ | ⟨hf, hdeep⟩
  · exact .inl ⟨hf, fun hshort => hlong (hintegers hshort)⟩
  · exact .inr ⟨hf, hheight hdeep⟩

theorem faults_of_integerLiteral {n : Int} {f : Fault} (h : integerLiteral n = .error f) :
    f = .tooLongToWrite ∧ ¬ Short [n] := by
  refine ⟨?_, fun hshort => ?_⟩
  · rw [integerLiteral] at h
    split at h
    · cases h
    · exact (Except.error.inj h).symm
  · obtain ⟨s, hs⟩ := (integerLiteral_eq_ok_iff n).mpr hshort
    rw [hs] at h
    cases h

mutual

theorem faults_of_literalWithin (depth : Nat) {f : Fault} : ∀ v : Value,
    literalWithin depth v = .error f → Beyond depth v.height v.integers f
  | integer n, h => .inl (faults_of_integerLiteral h)
  | list items, h => by
    refine faults_of_literalsWithin depth items (error_of_bind ?_ h)
    exact fun _ => ⟨_, rfl⟩
  | tuple items, h => by
    refine faults_of_literalsWithin depth items (error_of_bind (fun parts => ?_) h)
    split <;> exact ⟨_, rfl⟩
  | set items, h => by
    refine faults_of_literalsWithin depth items (error_of_bind (fun parts => ?_) h)
    split <;> exact ⟨_, rfl⟩
  | dict members, h => by
    refine faults_of_memberLiteralsWithin depth members (error_of_bind ?_ h)
    exact fun _ => ⟨_, rfl⟩

theorem faults_of_literalsWithin (depth : Nat) {f : Fault} : ∀ items : List Value,
    literalsWithin depth items = .error f → Beyond depth (heights items) (integersOf items) f
  | v :: rest, h => by
    have hshort : Short (integersOf (v :: rest)) → Short v.integers ∧ Short (integersOf rest) :=
      short_append.mp
    have hheight : heights (v :: rest) = max (v.height + 1) (heights rest) := rfl
    cases depth with
    | zero =>
      refine .inr ⟨(Except.error.inj h).symm, ?_⟩
      omega
    | succ depth =>
      rw [literalsWithin] at h
      rcases bind_eq_error_iff.mp h with hv | ⟨part, _, hrest⟩
      · exact (faults_of_literalWithin depth v hv).mono (by omega) fun hs => (hshort hs).1
      · have hrest := error_of_bind (fun _ => ⟨_, rfl⟩) hrest
        exact (faults_of_literalsWithin (depth + 1) rest hrest).mono (by omega)
          fun hs => (hshort hs).2

theorem faults_of_memberLiteralsWithin (depth : Nat) {f : Fault} :
    ∀ members : List (Value × Value), memberLiteralsWithin depth members = .error f →
      Beyond depth (memberHeights members) (memberIntegers members) f
  | (k, v) :: rest, h => by
    have hshort : Short (memberIntegers ((k, v) :: rest)) →
        (Short k.integers ∧ Short v.integers) ∧ Short (memberIntegers rest) := by
      rw [memberIntegers, short_append, short_append]
      exact id
    have hheight : memberHeights ((k, v) :: rest) =
        max (max (k.height + 1) (v.height + 1)) (memberHeights rest) := rfl
    cases depth with
    | zero =>
      refine .inr ⟨(Except.error.inj h).symm, ?_⟩
      omega
    | succ depth =>
      rw [memberLiteralsWithin] at h
      rcases bind_eq_error_iff.mp h with hk | ⟨name, _, h⟩
      · exact (faults_of_literalWithin depth k hk).mono (by omega) fun hs => (hshort hs).1.1
      rcases bind_eq_error_iff.mp h with hv | ⟨value, _, h⟩
      · exact (faults_of_literalWithin depth v hv).mono (by omega) fun hs => (hshort hs).1.2
      · have hrest := error_of_bind (fun _ => ⟨_, rfl⟩) h
        exact (faults_of_memberLiteralsWithin (depth + 1) rest hrest).mono (by omega)
          fun hs => (hshort hs).2

end

/-- **Why a value has no literal**: an integer in it is too long, or it nests too deep. -/
theorem faults_of_literal [Limits] {v : Value} {f : Fault} (h : v.literal = .error f) :
    Beyond Limits.literal v.height v.integers f :=
  faults_of_literalWithin Limits.literal v h

/-! ### Identifiers with a decision -/

/-- An identifier that a check answers: a text without surrogates, or another value with a
literal. -/
def Answerable [Limits] : Value → Prop
  | text x => Text.SurrogateFree x
  | v => v.Writable

theorem answerable_iff_writable [Limits] {v : Value} (hv : ∀ x, v ≠ .text x) :
    v.Answerable ↔ v.Writable := by
  cases v with
  | text x => exact absurd rfl (hv x)
  | _ => exact Iff.rfl

/-- An identifier with a normal form. -/
def Normalizable (v : Value) : Prop :=
  ∃ x, v = .text x ∧ ¬ Text.Blank x ∧ Text.SurrogateFree x

/-- The faults of the other identifiers.  That of a text names the first surrogates in it, counted
from where trimming leaves off. -/
inductive Unanswered [Limits] : Value → Fault → Prop
  | text {x before run after : Text} {c : CodePoint} (whole : Text.trim x = before ++ c :: run ++ after)
      (free : Text.SurrogateFree before) (surrogate : c.isSurrogate = true)
      (surrogates : ∀ d ∈ run, d.isSurrogate = true)
      (ends : ∀ d ∈ after.head?, d.isSurrogate = false) :
      Unanswered (text x) (.unencodable ⟨before.length, before.length + 1 + run.length, c⟩)
  | tooLong {v : Value} (other : ∀ x, v ≠ .text x) (long : ¬ Short v.integers) :
      Unanswered v .tooLongToWrite
  | tooDeep {v : Value} (other : ∀ x, v ≠ .text x) (deep : Limits.literal < v.height) :
      Unanswered v .literalTooDeep

/-- The fault of a text is that of its first surrogates. -/
theorem unanswered_of_firstSurrogates [Limits] {x : Text} {e : Utf8.EncodeError}
    (h : Utf8.firstSurrogates? (Text.trim x) = some e) : Unanswered (text x) (.unencodable e) := by
  rw [Utf8.firstSurrogates?] at h
  split at h
  · cases h
  · next c rest hdrop =>
    rw [← Option.some.inj h]
    have hc : c.isSurrogate = true := by
      have hhead := List.head?_dropWhile_not (fun d : CodePoint => !d.isSurrogate) (Text.trim x)
      rw [hdrop] at hhead
      simpa using hhead
    have hwhole : Text.trim x = (Text.trim x).takeWhile (fun d => !d.isSurrogate) ++
        c :: rest.takeWhile (·.isSurrogate) ++ rest.dropWhile (·.isSurrogate) := by
      rw [List.append_assoc, List.cons_append, List.takeWhile_append_dropWhile, ← hdrop,
        List.takeWhile_append_dropWhile]
    refine .text hwhole (fun d hd => ?_) hc (fun d hd => List.mem_takeWhile_imp hd)
      (fun d hd => ?_)
    · simpa using List.mem_takeWhile_imp hd
    · have hhead := List.head?_dropWhile_not (fun d : CodePoint => d.isSurrogate) rest
      rw [Option.mem_def.mp hd] at hhead
      simpa using hhead

end Value

/-! ### What a check comes to -/

theorem Decision.verdict_eq_permit_iff (d : Decision) : d.verdict = .permit ↔ d.reason = .listed := by
  rw [verdict]
  cases d.reason <;> decide

/-- What a decision says about an identifier, for a snapshot. -/
structure Decision.About [Limits] (d : Decision) (s : Snapshot) (v : Value) : Prop where
  version : d.snapshotVersion = s.version
  raw : rawText v = .ok d.rawIdentifier
  normal : v.Normalizable → ∃ n, Identifier.normalize v = .ok n ∧ d.identifier = some n ∧
    (d.verdict = .permit ↔ n ∈ s.allowlist.entries)
  denied : ¬ v.Normalizable → d.verdict = .deny ∧ d.identifier = none ∧ d.reason = .malformed

namespace Store

variable (s : Store)

theorem about_blank [Limits] {x : Text} (hx : Text.Blank x) :
    ∃ d, s.check (.text x) = .ok d ∧ d.About s.current (.text x) := by
  refine ⟨_, s.check_blank hx, rfl, rfl, fun h => ?_, fun _ => ⟨rfl, rfl, rfl⟩⟩
  obtain ⟨_, ⟨rfl⟩, hnot, _⟩ := h
  exact absurd hx hnot

theorem about_text [Limits] {x : Text} (hblank : ¬ Text.Blank x) (hx : Text.SurrogateFree x) :
    ∃ d, s.check (.text x) = .ok d ∧ d.About s.current (.text x) := by
  have hnormal := Identifier.normalizeText_of_not_blank hblank hx
  refine ⟨_, s.check_text hnormal, rfl, rfl, fun _ => ⟨_, hnormal, rfl, ?_⟩, fun h => ?_⟩
  · rw [Decision.verdict_eq_permit_iff, ← List.contains_iff_mem]
    show (if s.current.allowlist.entries.contains _ then _ else _) = Reason.listed ↔ _
    cases s.current.allowlist.entries.contains (Identifier.canonical (Text.trim x)) <;> simp
  · exact absurd ⟨x, rfl, hblank, hx⟩ h

/-- A text with a surrogate is a fault. -/
theorem fault_of_surrogate [Limits] {x : Text} (hx : ¬ Text.SurrogateFree x) :
    ∃ f, s.check (.text x) = .error f ∧ (Value.text x).Unanswered f := by
  obtain ⟨e, he⟩ := Identifier.exists_firstSurrogates hx
  refine ⟨.unencodable e, ?_, Value.unanswered_of_firstSurrogates he⟩
  have hnormal : Identifier.normalize (.text x) = .error (.fault (.unencodable e)) :=
    Identifier.normalizeText_of_surrogates he
  simp only [check, Snapshot.decide, rawText, Snapshot.decideRaw, hnormal]

theorem about_other [Limits] {v : Value} (hv : ∀ x, v ≠ .text x) {raw : Text}
    (hraw : v.literal = .ok raw) : ∃ d, s.check v = .ok d ∧ d.About s.current v := by
  refine ⟨_, by rw [s.check_of_not_text hv, hraw]; rfl, rfl, ?_, fun h => ?_,
    fun _ => ⟨rfl, rfl, rfl⟩⟩
  · cases v with
    | text x => exact absurd rfl (hv x)
    | _ => exact hraw
  · obtain ⟨x, hx, _⟩ := h
    exact absurd hx (hv x)

/-- **Every identifier is decided or is a fault**, whatever is published.  A check answers every text
without surrogates and every other value that has a literal, and denies those that have no normal
form.  It answers nothing else. -/
theorem decided_or_fault [Limits] (v : Value) :
    (v.Answerable → ∃ d, s.check v = .ok d ∧ d.About s.current v) ∧
      (¬ v.Answerable → ∃ f, s.check v = .error f ∧ v.Unanswered f) := by
  by_cases htext : ∃ x, v = .text x
  · obtain ⟨x, rfl⟩ := htext
    refine ⟨fun hx => ?_, s.fault_of_surrogate⟩
    by_cases hblank : Text.Blank x
    · exact s.about_blank hblank
    · exact s.about_text hblank hx
  · have hv : ∀ x, v ≠ .text x := fun x hx => htext ⟨x, hx⟩
    rw [Value.answerable_iff_writable hv, ← v.literal_eq_ok_iff]
    refine ⟨fun ⟨_, hraw⟩ => s.about_other hv hraw, fun hnone => ?_⟩
    cases hraw : v.literal with
    | ok raw => exact absurd ⟨raw, hraw⟩ hnone
    | error f =>
      refine ⟨f, by rw [s.check_of_not_text hv, hraw]; rfl, ?_⟩
      rcases Value.faults_of_literal hraw with ⟨rfl, hlong⟩ | ⟨rfl, hdeep⟩
      · exact .tooLong hv hlong
      · exact .tooDeep hv hdeep

/-- A store that permits nothing. -/
def bare : Store := new ⟨[], .inline, Allowlist.inlineVariable, [], default⟩ default

attribute [local instance] Limits.usual

/-- No value is denied by it, and a surrogate on its own is a fault. -/
theorem bare_decides : (∃ d, bare.check .none = .ok d ∧ d.verdict = .deny) ∧
    ∃ e, bare.check (.text [⟨0xD800, by decide⟩]) = .error (.unencodable e) := by
  constructor
  · obtain ⟨d, hd, habout⟩ := (bare.decided_or_fault .none).1 ⟨Nat.zero_le _, Value.short_nil⟩
    exact ⟨d, hd, (habout.denied nofun).1⟩
  · obtain ⟨f, hf, hunanswered⟩ := (bare.decided_or_fault (.text [⟨0xD800, by decide⟩])).2 (by
      show ¬ Text.SurrogateFree _
      decide)
    cases hunanswered with
    | text => exact ⟨_, hf⟩
    | tooLong other => exact absurd rfl (other _)
    | tooDeep other => exact absurd rfl (other _)

end Store

end AdmissionControl
