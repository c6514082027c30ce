import AdmissionControl.Proofs.Text

/-!
# UTF-8 is read as it is written

Reading accepts the encodings of texts without surrogates and nothing else: no long form, no
surrogate, no number beyond the last code point.

* `Shape` — the forms, each with the number that it stands for.
* `readForm_sound`, `readForm_complete` — what is read at the front are the forms.
* `decodeFrom_sound`, `decodeFrom_complete` — the forms in a row.
* `decode?_eq_ok_iff` — the bytes that have a decoding, and what it is.
-/

namespace AdmissionControl.Utf8

/-! ### Bytes as numbers -/

theorem toNat_ofNat {n : Nat} (h : n < 0x100) : (UInt8.ofNat n).toNat = n := by
  rw [UInt8.toNat_ofNat']
  exact Nat.mod_eq_of_lt h

theorem ofNat_eq {n : Nat} {b : UInt8} (h : n = b.toNat) : UInt8.ofNat n = b := by
  rw [h, UInt8.ofNat_toNat]

theorem not_lt_iff (n : Nat) {b c : UInt8} (hc : c.toNat = n) : ¬ b < c ↔ n ≤ b.toNat := by
  rw [UInt8.not_lt, UInt8.le_iff_toNat_le, hc]

theorem ofNat_eq_codePoint {n : Nat} {c : CodePoint} (h : n = c.val) : CodePoint.ofNat n = c :=
  CodePoint.ext_val ((CodePoint.ofNat_val (h ▸ c.isLt)).trans h)

theorem isContinuation_iff {b : UInt8} :
    isContinuation b = true ↔ 0x80 ≤ b.toNat ∧ b.toNat ≤ 0xBF := by
  simp [isContinuation, UInt8.le_iff_toNat_le]

theorem isSecond_iff {first second : UInt8} : isSecond first second = true ↔
    (0x80 ≤ second.toNat ∧ second.toNat ≤ 0xBF) ∧
    (first.toNat = 0xE0 → 0xA0 ≤ second.toNat) ∧ (first.toNat = 0xED → second.toNat ≤ 0x9F) ∧
    (first.toNat = 0xF0 → 0x90 ≤ second.toNat) ∧ (first.toNat = 0xF4 → second.toNat ≤ 0x8F) := by
  simp only [isSecond, Bool.and_eq_true, isContinuation_iff, Bool.or_eq_true, bne_iff_ne,
    decide_eq_true_eq, UInt8.le_iff_toNat_le, ne_eq, ← UInt8.toNat_inj, ← imp_iff_not_or, and_assoc]
  rfl

theorem isSurrogate_eq_false_iff {c : CodePoint} :
    c.isSurrogate = false ↔ c.val < 0xD800 ∨ 0xDFFF < c.val := by
  simp only [CodePoint.isSurrogate, Bool.and_eq_false_iff, decide_eq_false_iff_not, not_le]

/-! ### Forms -/

/-- The forms, each with the number that it stands for. -/
inductive Shape : List UInt8 → Nat → Prop
  | one {b : UInt8} : b.toNat < 0x80 → Shape [b] b.toNat
  | two {b b₁ : UInt8} : 0xC2 ≤ b.toNat → b.toNat < 0xE0 → isContinuation b₁ = true →
      Shape [b, b₁] ((b.toNat - 0xC0) * 0x40 + payload b₁)
  | three {b b₁ b₂ : UInt8} : 0xE0 ≤ b.toNat → b.toNat < 0xF0 → isSecond b b₁ = true →
      isContinuation b₂ = true →
      Shape [b, b₁, b₂] ((b.toNat - 0xE0) * 0x1000 + payload b₁ * 0x40 + payload b₂)
  | four {b b₁ b₂ b₃ : UInt8} : 0xF0 ≤ b.toNat → b.toNat < 0xF5 → isSecond b b₁ = true →
      isContinuation b₂ = true → isContinuation b₃ = true →
      Shape [b, b₁, b₂, b₃] ((b.toNat - 0xF0) * 0x40000 + payload b₁ * 0x1000 +
        payload b₂ * 0x40 + payload b₃)

/-- A form stands for a number that is a code point and no surrogate, and is the encoding of it. -/
theorem Shape.encodeOne {form : List UInt8} {n : Nat} (h : Shape form n) :
    n < 0x110000 ∧ (n < 0xD800 ∨ 0xDFFF < n) ∧
      ∀ c : CodePoint, c.val = n → Utf8.encodeOne c = form := by
  cases h with
  | @one b hb =>
    refine ⟨by omega, by omega, fun c hc => ?_⟩
    simp only [Utf8.encodeOne, hc]
    rw [if_pos hb, ofNat_eq rfl]
  | @two b b₁ hlow hhigh h₁ =>
    rw [isContinuation_iff] at h₁
    simp only [payload]
    refine ⟨by omega, by omega, fun c hc => ?_⟩
    simp only [Utf8.encodeOne, hc]
    rw [if_neg (by omega), if_pos (by omega)]
    rw [ofNat_eq (b := b) (by omega), ofNat_eq (b := b₁) (by omega)]
  | @three b b₁ b₂ hlow hhigh h₁ h₂ =>
    rw [isSecond_iff] at h₁
    rw [isContinuation_iff] at h₂
    simp only [payload]
    refine ⟨by omega, by omega, fun c hc => ?_⟩
    simp only [Utf8.encodeOne, hc]
    rw [if_neg (by omega), if_neg (by omega), if_pos (by omega)]
    rw [ofNat_eq (b := b) (by omega), ofNat_eq (b := b₁) (by omega), ofNat_eq (b := b₂) (by omega)]
  | @four b b₁ b₂ b₃ hlow hhigh h₁ h₂ h₃ =>
    rw [isSecond_iff] at h₁
    rw [isContinuation_iff] at h₂ h₃
    simp only [payload]
    refine ⟨by omega, by omega, fun c hc => ?_⟩
    simp only [Utf8.encodeOne, hc]
    rw [if_neg (by omega), if_neg (by omega), if_neg (by omega)]
    rw [ofNat_eq (b := b) (by omega), ofNat_eq (b := b₁) (by omega), ofNat_eq (b := b₂) (by omega),
      ofNat_eq (b := b₃) (by omega)]

/-- Every code point but the surrogates is written as a form that stands for it. -/
theorem shape_encodeOne {c : CodePoint} (hc : c.isSurrogate = false) :
    Shape (encodeOne c) c.val := by
  have hlt := c.isLt
  rw [isSurrogate_eq_false_iff] at hc
  simp only [encodeOne]
  split
  · next hone =>
    have hb := toNat_ofNat (show c.val < 0x100 by omega)
    have hshape := Shape.one (b := UInt8.ofNat c.val) (by omega)
    rwa [hb] at hshape
  split
  · next htwo =>
    have hb := toNat_ofNat (show 0xC0 + c.val / 0x40 < 0x100 by omega)
    have h₁ := toNat_ofNat (show 0x80 + c.val % 0x40 < 0x100 by omega)
    have hshape : Shape [.ofNat (0xC0 + c.val / 0x40), .ofNat (0x80 + c.val % 0x40)] _ :=
      .two (by omega) (by omega) (by rw [isContinuation_iff]; omega)
    have hn : (0xC0 + c.val / 0x40 - 0xC0) * 0x40 + (0x80 + c.val % 0x40) % 0x40 = c.val := by omega
    rwa [payload, hb, h₁, hn] at hshape
  split
  · next hthree =>
    have hb := toNat_ofNat (show 0xE0 + c.val / 0x1000 < 0x100 by omega)
    have h₁ := toNat_ofNat (show 0x80 + c.val / 0x40 % 0x40 < 0x100 by omega)
    have h₂ := toNat_ofNat (show 0x80 + c.val % 0x40 < 0x100 by omega)
    have hshape : Shape [.ofNat (0xE0 + c.val / 0x1000), .ofNat (0x80 + c.val / 0x40 % 0x40),
        .ofNat (0x80 + c.val % 0x40)] _ :=
      .three (by omega) (by omega) (by rw [isSecond_iff]; omega) (by rw [isContinuation_iff]; omega)
    have hn : (0xE0 + c.val / 0x1000 - 0xE0) * 0x1000 + (0x80 + c.val / 0x40 % 0x40) % 0x40 * 0x40 +
        (0x80 + c.val % 0x40) % 0x40 = c.val := by omega
    rwa [payload, payload, hb, h₁, h₂, hn] at hshape
  · next hfour =>
    have hb := toNat_ofNat (show 0xF0 + c.val / 0x40000 < 0x100 by omega)
    have h₁ := toNat_ofNat (show 0x80 + c.val / 0x1000 % 0x40 < 0x100 by omega)
    have h₂ := toNat_ofNat (show 0x80 + c.val / 0x40 % 0x40 < 0x100 by omega)
    have h₃ := toNat_ofNat (show 0x80 + c.val % 0x40 < 0x100 by omega)
    have hshape : Shape [.ofNat (0xF0 + c.val / 0x40000), .ofNat (0x80 + c.val / 0x1000 % 0x40),
        .ofNat (0x80 + c.val / 0x40 % 0x40), .ofNat (0x80 + c.val % 0x40)] _ :=
      .four (by omega) (by omega) (by rw [isSecond_iff]; omega) (by rw [isContinuation_iff]; omega)
        (by rw [isContinuation_iff]; omega)
    have hn : (0xF0 + c.val / 0x40000 - 0xF0) * 0x40000 +
        (0x80 + c.val / 0x1000 % 0x40) % 0x40 * 0x1000 +
        (0x80 + c.val / 0x40 % 0x40) % 0x40 * 0x40 + (0x80 + c.val % 0x40) % 0x40 = c.val := by
      omega
    rwa [payload, payload, payload, hb, h₁, h₂, h₃, hn] at hshape

/-! ### Reading one form -/

theorem readForm_complete {form : List UInt8} {n : Nat} (h : Shape form n) {b : UInt8}
    {rest tail : List UInt8} (heq : b :: rest = form ++ tail) :
    readForm b rest = .codePoint (.ofNat n) form.length := by
  cases h with
  | one hb =>
    obtain ⟨rfl, rfl⟩ := List.cons.inj heq
    exact if_pos hb
  | @two _ b₁ hlow hhigh h₁ =>
    obtain ⟨rfl, rfl⟩ := List.cons.inj heq
    have hone : ¬ b < 0x80 := (not_lt_iff 0x80 rfl).mpr (by omega)
    have hstart : ¬ b < 0xC2 := (not_lt_iff 0xC2 rfl).mpr (by omega)
    have htwo : b < 0xE0 := UInt8.lt_iff_toNat_lt.mpr hhigh
    simp only [readForm, if_neg hone, if_neg hstart, if_pos htwo]
    exact if_pos h₁
  | @three _ b₁ b₂ hlow hhigh h₁ h₂ =>
    obtain ⟨rfl, rfl⟩ := List.cons.inj heq
    have hone : ¬ b < 0x80 := (not_lt_iff 0x80 rfl).mpr (by omega)
    have hstart : ¬ b < 0xC2 := (not_lt_iff 0xC2 rfl).mpr (by omega)
    have htwo : ¬ b < 0xE0 := (not_lt_iff 0xE0 rfl).mpr (by omega)
    have hthree : b < 0xF0 := UInt8.lt_iff_toNat_lt.mpr hhigh
    simp only [readForm, if_neg hone, if_neg hstart, if_neg htwo, if_pos hthree]
    show (if !isSecond b b₁ then _ else if isContinuation b₂ then _ else _ : Form) = _
    rw [h₁, h₂]
    rfl
  | @four _ b₁ b₂ b₃ hlow hhigh h₁ h₂ h₃ =>
    obtain ⟨rfl, rfl⟩ := List.cons.inj heq
    have hone : ¬ b < 0x80 := (not_lt_iff 0x80 rfl).mpr (by omega)
    have hstart : ¬ b < 0xC2 := (not_lt_iff 0xC2 rfl).mpr (by omega)
    have htwo : ¬ b < 0xE0 := (not_lt_iff 0xE0 rfl).mpr (by omega)
    have hthree : ¬ b < 0xF0 := (not_lt_iff 0xF0 rfl).mpr (by omega)
    have hfour : b < 0xF5 := UInt8.lt_iff_toNat_lt.mpr hhigh
    simp only [readForm, if_neg hone, if_neg hstart, if_neg htwo, if_neg hthree, if_pos hfour]
    show (if !isSecond b b₁ then _ else if !isContinuation b₂ then _ else
      if isContinuation b₃ then _ else _ : Form) = _
    rw [h₁, h₂, h₃]
    rfl

theorem readForm_sound {b : UInt8} {rest : List UInt8} {c : CodePoint} {width : Nat}
    (h : readForm b rest = .codePoint c width) : ∃ form tail n,
      b :: rest = form ++ tail ∧ Shape form n ∧ c = .ofNat n ∧ width = form.length := by
  have hshape : ∀ {form tail : List UInt8} {n : Nat}, Shape form n →
      Form.codePoint (.ofNat n) form.length = .codePoint c width → b :: rest = form ++ tail →
      ∃ form tail n, b :: rest = form ++ tail ∧ Shape form n ∧ c = .ofNat n ∧
        width = form.length := by
    intro form tail n hform heq hbytes
    obtain ⟨rfl, rfl⟩ := Form.codePoint.inj heq
    exact ⟨form, tail, n, hbytes, hform, rfl, rfl⟩
  simp only [readForm] at h
  split at h
  · next hone => exact hshape (.one hone) h rfl
  split at h
  · cases h
  next hstart =>
  have hstart := (not_lt_iff 0xC2 rfl).mp hstart
  split at h
  · next htwo =>
    split at h
    · cases h
    · split at h
      · next hcontinuation => exact hshape (.two hstart htwo hcontinuation) h rfl
      · cases h
  next htwo =>
  have htwo := (not_lt_iff 0xE0 rfl).mp htwo
  split at h
  · next hthree =>
    split at h
    · cases h
    split at h
    · cases h
    next hsecond =>
    rw [Bool.not_eq_true', Bool.not_eq_false] at hsecond
    split at h
    · cases h
    · split at h
      · next hcontinuation => exact hshape (.three htwo hthree hsecond hcontinuation) h rfl
      · cases h
  next hthree =>
  have hthree := (not_lt_iff 0xF0 rfl).mp hthree
  split at h
  · next hfour =>
    split at h
    · cases h
    split at h
    · cases h
    next hsecond =>
    rw [Bool.not_eq_true', Bool.not_eq_false] at hsecond
    split at h
    · cases h
    split at h
    · cases h
    next hthird =>
    rw [Bool.not_eq_true', Bool.not_eq_false] at hthird
    split at h
    · cases h
    · split at h
      · next hlast => exact hshape (.four hthree hfour hsecond hthird hlast) h rfl
      · cases h
  · cases h

/-! ### Reading forms in a row -/

/-- The other bytes of the form that was read last are passed over. -/
theorem decodeFrom_skip (position : Nat) (done : List CodePoint) (form tail : List UInt8) :
    decodeFrom position form.length done (form ++ tail) =
      decodeFrom (position + form.length) 0 done tail := by
  induction form generalizing position with
  | nil => rfl
  | cons b form ih =>
    rw [List.length_cons, List.cons_append, decodeFrom, ih, Nat.add_right_comm, Nat.add_assoc]

/-- One form is read, and the next one follows it. -/
theorem decodeFrom_form {form : List UInt8} {n : Nat} (h : Shape form n) (position : Nat)
    (done : List CodePoint) (tail : List UInt8) :
    decodeFrom position 0 done (form ++ tail) =
      decodeFrom (position + form.length) 0 (.ofNat n :: done) tail := by
  obtain ⟨b, others, rfl⟩ : ∃ b others, form = b :: others := by
    cases h <;> exact ⟨_, _, rfl⟩
  have hread : readForm b (others ++ tail) = _ := readForm_complete h (List.cons_append ..).symm
  rw [List.cons_append, decodeFrom, hread]
  simp only [List.length_cons, Nat.add_sub_cancel]
  rw [decodeFrom_skip, Nat.add_right_comm, Nat.add_assoc]

theorem decodeFrom_complete {text : Text} (h : Text.SurrogateFree text) (position : Nat)
    (done : List CodePoint) :
    decodeFrom position 0 done (text.flatMap encodeOne) = .ok (text.reverse ++ done, []) := by
  induction text generalizing position done with
  | nil => rfl
  | cons c text ih =>
    obtain ⟨hc, htext⟩ := List.forall_mem_cons.mp h
    rw [List.flatMap_cons, decodeFrom_form (shape_encodeOne hc), ih htext,
      ofNat_eq_codePoint rfl, List.reverse_cons, List.append_assoc]
    rfl

theorem decodeFrom_sound {position : Nat} {done found : List CodePoint} {bytes : List UInt8}
    (h : decodeFrom position 0 done bytes = .ok (found, [])) :
    ∃ text, Text.SurrogateFree text ∧ text.flatMap encodeOne = bytes ∧
      found = text.reverse ++ done := by
  -- every form takes bytes away, so the induction is on how many there are
  induction hlength : bytes.length using Nat.strong_induction_on
    generalizing position done bytes with
  | _ length ih =>
    cases bytes with
    | nil =>
      obtain ⟨rfl, _⟩ := Prod.mk.inj (Except.ok.inj h)
      exact ⟨[], nofun, rfl, rfl⟩
    | cons b rest =>
      rw [decodeFrom] at h
      split at h
      · next c width hread =>
        obtain ⟨form, tail, n, hbytes, hshape, rfl, rfl⟩ := readForm_sound hread
        have hnext : decodeFrom (position + form.length) 0 (.ofNat n :: done) tail =
            .ok (found, []) := by
          rw [← decodeFrom_form hshape, ← hbytes, decodeFrom, hread]
          exact h
        have hpos : 0 < form.length := by cases hshape <;> exact Nat.succ_pos _
        have hshorter : tail.length < length := by
          rw [← hlength, hbytes, List.length_append]
          omega
        obtain ⟨text, htext, htail, hfound⟩ := ih _ hshorter hnext rfl
        obtain ⟨hlt, hnot, hencode⟩ := hshape.encodeOne
        have hval : (CodePoint.ofNat n).val = n := CodePoint.ofNat_val hlt
        refine ⟨.ofNat n :: text, ?_, ?_, ?_⟩
        · rw [Text.SurrogateFree, List.forall_mem_cons, isSurrogate_eq_false_iff, hval]
          exact ⟨hnot, htext⟩
        · rw [List.flatMap_cons, hencode _ hval, htail, hbytes]
        · rw [hfound, List.reverse_cons, List.append_assoc]
          rfl
      · cases h
      · cases h

/-- **The bytes that have a decoding** are the encodings of the texts without surrogates. -/
theorem decode?_eq_ok_iff {bytes : List UInt8} {text : Text} :
    decode? bytes = .ok text ↔ Text.SurrogateFree text ∧ text.flatMap encodeOne = bytes := by
  rw [decode?]
  constructor
  · intro h
    cases hfrom : decodeFrom 0 0 [] bytes with
    | error e =>
      rw [hfrom] at h
      cases h
    | ok result =>
      obtain ⟨found, pending⟩ := result
      rw [hfrom] at h
      cases pending with
      | cons b pending => cases h
      | nil =>
        obtain ⟨text', htext, hbytes, hfound⟩ := decodeFrom_sound hfrom
        rw [List.append_nil] at hfound
        rw [hfound] at h
        have hsame : text'.reverse.reverse = text := Except.ok.inj h
        rw [List.reverse_reverse] at hsame
        rw [← hsame]
        exact ⟨htext, hbytes⟩
  · rintro ⟨htext, rfl⟩
    rw [decodeFrom_complete htext, List.append_nil]
    show Except.ok text.reverse.reverse = _
    rw [List.reverse_reverse]

end AdmissionControl.Utf8
