import AdmissionControl.Bytes.Portions
import AdmissionControl.Proofs.Bytes.Utf8

/-!
# Portions of encoded texts

However the bytes of an encoded text are cut into blocks, every block decodes up to a form that the
next block completes, so only bytes that have no decoding are a fault for a reader.

* `readForm_incomplete` — the front of a form waits for the rest of it.
* `decodeFrom_front` — the front of an encoded text leaves the encoding of another text.
* `portions_snd` — a whole encoded text.
-/

namespace AdmissionControl.Utf8

/-- Both branches may be replaced by others that are only better known. -/
theorem ite_eq_of_ne {α : Type} {p : Prop} [Decidable p] {x x' y y' missing : α}
    (hx : x ≠ missing → x' = x) (hy : y ≠ missing → y' = y) :
    (if p then x else y) ≠ missing → (if p then x' else y') = if p then x else y := by
  intro h
  split
  · rename_i hp
    rw [if_pos hp] at h
    exact hx h
  · rename_i hp
    rw [if_neg hp] at h
    exact hy h

/-- What was read without missing anything does not depend on what follows. -/
theorem readForm_append {b : UInt8} {rest : List UInt8} (more : List UInt8) :
    readForm b rest ≠ .incomplete → readForm b (rest ++ more) = readForm b rest := by
  have missing : ∀ {form : Form}, Form.incomplete ≠ .incomplete → form = .incomplete :=
    fun h => absurd rfl h
  have known : ∀ {form : Form}, form ≠ .incomplete → form = form := fun _ => rfl
  refine ite_eq_of_ne known (ite_eq_of_ne known (ite_eq_of_ne ?_ (ite_eq_of_ne ?_
    (ite_eq_of_ne ?_ known))))
  · rcases rest with _ | ⟨b₁, rest⟩
    · exact missing
    · exact known
  · rcases rest with _ | ⟨b₁, _ | ⟨b₂, rest⟩⟩
    · exact missing
    · exact ite_eq_of_ne known missing
    · exact known
  · rcases rest with _ | ⟨b₁, _ | ⟨b₂, _ | ⟨b₃, rest⟩⟩⟩
    · exact missing
    · exact ite_eq_of_ne known missing
    · exact ite_eq_of_ne known (ite_eq_of_ne known missing)
    · exact known

/-- The front of a form is read as incomplete. -/
theorem readForm_incomplete {form : List UInt8} {n : Nat} (h : Shape form n) {b : UInt8}
    {rest more : List UInt8} (heq : b :: rest ++ more = form) (hmore : more ≠ []) :
    readForm b rest = .incomplete := by
  by_contra hread
  have hform : b :: (rest ++ more) = form ++ [] := by rw [List.append_nil, ← heq, List.cons_append]
  have hcomplete := readForm_complete h hform
  rw [readForm_append more hread] at hcomplete
  obtain ⟨_, tail, _, hbytes, -, -, hwidth⟩ := readForm_sound hcomplete
  have hlength := congrArg List.length hbytes
  have hpos := List.length_pos_iff.mpr hmore
  rw [List.length_append, ← hwidth, ← heq, List.length_append] at hlength
  omega

/-- The bytes are those of a text. -/
def IsEncoding (bytes : List UInt8) : Prop :=
  ∃ text : Text, Text.SurrogateFree text ∧ text.flatMap encodeOne = bytes

theorem decodeFrom_front {text : Text} (h : Text.SurrogateFree text) {bytes later : List UInt8}
    (heq : bytes ++ later = text.flatMap encodeOne) (position : Nat) (done : List CodePoint) :
    ∃ found pending, decodeFrom position 0 done bytes = .ok (found, pending) ∧
      IsEncoding (pending ++ later) := by
  induction text generalizing bytes position done with
  | nil =>
    obtain ⟨rfl, rfl⟩ := List.append_eq_nil_iff.mp heq
    exact ⟨done, [], rfl, [], h, rfl⟩
  | cons c text ih =>
    obtain ⟨hc, htext⟩ := List.forall_mem_cons.mp h
    rw [List.flatMap_cons] at heq
    rcases List.append_eq_append_iff.mp heq with ⟨more, hform, hlater⟩ | ⟨bytes', rfl, hrest⟩
    · cases bytes with
      | nil => exact ⟨done, [], rfl, c :: text, h, heq.symm⟩
      | cons b bytes =>
        cases more with
        | nil =>
          -- the bytes are the whole form
          rw [List.append_nil] at hform
          have hnone : [] ++ later = text.flatMap encodeOne := hlater
          obtain ⟨found, pending, hfrom, hpending⟩ :=
            ih htext hnone (position + (encodeOne c).length) (.ofNat c.val :: done)
          refine ⟨found, pending, ?_, hpending⟩
          rw [← hform, ← List.append_nil (encodeOne c), decodeFrom_form (shape_encodeOne hc)]
          exact hfrom
        | cons m more =>
          refine ⟨done, b :: bytes, ?_, c :: text, h, heq.symm⟩
          have hread :=
            readForm_incomplete (shape_encodeOne hc) hform.symm (List.cons_ne_nil m more)
          rw [decodeFrom, hread]
    · rw [decodeFrom_form (shape_encodeOne hc)]
      exact ih htext hrest.symm _ _

namespace Reader

theorem sizeFor_pos (density : Binary64) (wanted : Nat) : 0 < sizeFor density wanted :=
  Nat.lt_of_lt_of_le (by decide) (Nat.le_max_left blockSize _)

theorem isEncoding_fetch {r : Reader} (h : IsEncoding (r.pending ++ r.bytes)) (wanted : Nat) :
    ∃ r' ended, r.fetch wanted = .ok (r', ended) ∧ IsEncoding (r'.pending ++ r'.bytes) := by
  obtain ⟨text, htext, hbytes⟩ := h
  have hcut : r.pending ++ r.bytes.take (sizeFor r.density wanted) ++
      r.bytes.drop (sizeFor r.density wanted) = text.flatMap encodeOne := by
    rw [List.append_assoc, List.take_append_drop, hbytes]
  obtain ⟨found, pending, hfrom, hpending⟩ := decodeFrom_front htext hcut 0 []
  have hended :
      ¬((r.bytes.take (sizeFor r.density wanted)).isEmpty && !pending.isEmpty) = true := by
    rw [Bool.and_eq_true, not_and, List.isEmpty_iff, List.take_eq_nil_iff]
    intro hblock
    -- the bytes are all there, and no form is left
    have hnil : r.bytes = [] := hblock.resolve_left (sizeFor_pos _ _).ne'
    rw [hnil, List.append_nil] at hbytes
    rw [hnil, List.take_nil, List.append_nil, ← hbytes, decodeFrom_complete htext] at hfrom
    obtain ⟨_, rfl⟩ := Prod.mk.inj (Except.ok.inj hfrom)
    exact Bool.false_ne_true
  rw [fetch]
  simp only [hfrom, if_neg hended, bind, Except.bind]
  exact ⟨_, _, rfl, hpending⟩

theorem isEncoding_fill {r : Reader} (h : IsEncoding (r.pending ++ r.bytes)) (fuel : Nat) :
    ∃ r', r.fill fuel = .ok r' ∧ IsEncoding (r'.pending ++ r'.bytes) := by
  induction fuel generalizing r with
  | zero => exact ⟨r, rfl, h⟩
  | succ fuel ih =>
    rw [fill]
    split
    · exact ⟨r, rfl, h⟩
    · obtain ⟨r', ended, hfetch, hr'⟩ := isEncoding_fetch h (portionSize - r.ready.length)
      rw [hfetch]
      dsimp only
      split
      · exact ⟨r', rfl, hr'⟩
      · exact ih hr'

theorem portionsFrom_snd {r : Reader} (h : IsEncoding (r.pending ++ r.bytes)) (fuel : Nat) :
    (r.portionsFrom fuel).2 = none := by
  induction fuel generalizing r with
  | zero => rfl
  | succ fuel ih =>
    obtain ⟨r', hfill, hr'⟩ := isEncoding_fill h (r.bytes.length + 3)
    rw [portionsFrom, hfill]
    dsimp only
    split
    · rfl
    · exact ih (r := { r' with ready := r'.ready.drop portionSize }) hr'

end Reader

/-- **Only bytes without a decoding end portions with a fault.** -/
theorem portions_snd {bytes : List UInt8} {text : Text} (h : decode? bytes = .ok text) :
    (portions bytes).2 = none :=
  Reader.portionsFrom_snd (r := .start bytes) ⟨text, decode?_eq_ok_iff.mp h⟩ _

end AdmissionControl.Utf8
