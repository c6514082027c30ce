import AdmissionControl.Proofs.Json.Grammar
import AdmissionControl.Proofs.Text

/-!
# Strings, numbers and words

What the parser reads at the front of a text where the grammar has no brackets.  Each part has two
lemmas: what is read is spelled as the grammar has it, and what is spelled so is read, if what
follows cannot belong to it.

* `joinSurrogates_eq_iff` — the text that units stand for.
* `stringBody_sound`, `stringBody_complete` — a string after its opening quote.
* `number_sound`, `number_complete` — a number.
* `scalar_sound`, `scalar_word`, `scalar_number` — a number or a word.
-/

namespace AdmissionControl.Json

/-! ### Surrogate pairs -/

/-- Two units are looked at, so the induction is on a text and on what is one unit longer. -/
theorem joined_joinSurrogates (units : List CodePoint) : Joined units (joinSurrogates units) ∧
    ∀ c, Joined (c :: units) (joinSurrogates (c :: units)) := by
  induction units with
  | nil => exact ⟨.nil, fun c => .single (fun _ _ hl => by cases hl) .nil⟩
  | cons low rest ih =>
    refine ⟨ih.2 low, fun c => ?_⟩
    by_cases hpair : (c.isHighSurrogate && low.isLowSurrogate) = true
    · obtain ⟨hhigh, hlow⟩ := Bool.and_eq_true_iff.mp hpair
      rw [joinSurrogates, if_pos hpair]
      exact .pair hhigh hlow ih.1
    · rw [joinSurrogates, if_neg hpair]
      refine .single (fun hhigh l hl => ?_) (ih.2 low)
      rw [← Option.some.inj hl]
      simpa [hhigh] using hpair

theorem joinSurrogates_of_joined {units : List CodePoint} {s : Text} (h : Joined units s) :
    joinSurrogates units = s := by
  induction h with
  | nil => rfl
  | pair hhigh hlow _ ih =>
    rw [joinSurrogates, hhigh, hlow, ih]
    rfl
  | @single c units s halone _ ih =>
    cases units with
    | nil =>
      rw [← ih]
      rfl
    | cons low rest =>
      have hpair : ¬ (c.isHighSurrogate && low.isLowSurrogate) = true := by
        rw [Bool.and_eq_true]
        rintro ⟨hhigh, hlow⟩
        rw [halone hhigh low rfl] at hlow
        cases hlow
      rw [joinSurrogates, if_neg hpair, ih]

/-- **The text that units stand for** is the one that joining their pairs gives. -/
theorem joinSurrogates_eq_iff {units : List CodePoint} {s : Text} :
    joinSurrogates units = s ↔ Joined units s :=
  ⟨fun h => h ▸ (joined_joinSurrogates units).1, joinSurrogates_of_joined⟩

/-! ### Strings -/

theorem shortEscape?_eq_some_iff {e d : CodePoint} :
    shortEscape? e = some d ↔ (e, d) ∈ escapes := by
  simp only [shortEscape?, escapes, List.mem_cons, List.not_mem_nil, or_false, Prod.mk.injEq]
  constructor
  · intro h
    split at h
    · next hsame =>
      rw [← Option.some.inj h]
      rcases hsame with rfl | rfl | rfl <;> simp
    · repeat' split at h
      all_goals simp_all
  · rintro (⟨rfl, rfl⟩ | ⟨rfl, rfl⟩ | ⟨rfl, rfl⟩ | ⟨rfl, rfl⟩ | ⟨rfl, rfl⟩ | ⟨rfl, rfl⟩ |
      ⟨rfl, rfl⟩ | ⟨rfl, rfl⟩)
    all_goals rfl

theorem stringBody_sound {start text rest s : Text} {done : List CodePoint}
    (h : stringBody start done s = .ok (text, rest)) :
    ∃ body units, s = body ++ quote :: rest ∧ Written body units ∧
      Joined (done.reverse ++ units) text := by
  fun_induction stringBody start done s with
  | case1 | case3 | case5 | case6 | case8 | case9 => cases h
  | case2 done tail =>
    obtain ⟨hjoined, rfl⟩ := Prod.mk.inj (Except.ok.inj h)
    refine ⟨[], [], rfl, .nil, ?_⟩
    rw [List.append_nil]
    exact joinSurrogates_eq_iff.mp hjoined
  | case4 done h₁ h₂ h₃ h₄ tail hhex _ ih =>
    obtain ⟨body, units, rfl, hwritten, hjoined⟩ := ih h
    have hall := (Bool.and_eq_true_iff.mp hhex).1
    have hfour : [h₁, h₂, h₃, h₄].length = 4 := rfl
    refine ⟨_, _, ?_, .number hfour (List.all_eq_true.mp hall) hwritten, ?_⟩
    · rfl
    · rwa [List.reverse_cons, List.append_assoc] at hjoined
  | case7 done e tail _ d hescape _ ih =>
    obtain ⟨body, units, rfl, hwritten, hjoined⟩ := ih h
    refine ⟨_, _, rfl, .short (shortEscape?_eq_some_iff.mp hescape) hwritten, ?_⟩
    rwa [List.reverse_cons, List.append_assoc] at hjoined
  | case10 done c tail hquote hbackslash hcontrol ih =>
    obtain ⟨body, units, rfl, hwritten, hjoined⟩ := ih h
    refine ⟨_, _, rfl, .plain hquote hbackslash (not_le.mp hcontrol) hwritten, ?_⟩
    rwa [List.reverse_cons, List.append_assoc] at hjoined

section Step

variable (start : Text) (done : List CodePoint) {rest : Text}

theorem stringBody_quote :
    stringBody start done (quote :: rest) = .ok (joinSurrogates done.reverse, rest) := by
  rw [stringBody.eq_def]
  rfl

theorem stringBody_plain {c : CodePoint} (hquote : c ≠ quote) (hbackslash : c ≠ backslash)
    (hcontrol : 0x1F < c.val) :
    stringBody start done (c :: rest) = stringBody start (c :: done) rest := by
  rw [stringBody.eq_def]
  simp only [if_neg (show ¬ c = ('"' : CodePoint) from hquote),
    if_neg (show ¬ c = ('\\' : CodePoint) from hbackslash), if_neg (not_le.mpr hcontrol)]

theorem stringBody_short {e d : CodePoint} (h : shortEscape? e = some d) :
    stringBody start done (backslash :: e :: rest) = stringBody start (d :: done) rest := by
  have he : ¬ e = ('u' : CodePoint) := by
    rintro rfl
    cases h
  rw [stringBody.eq_def]
  simp only [if_neg (show ¬ backslash = ('"' : CodePoint) by decide),
    if_pos (show backslash = ('\\' : CodePoint) from rfl), if_neg he, h]

theorem stringBody_number {h₁ h₂ h₃ h₄ : CodePoint}
    (hhex : ∀ c ∈ [h₁, h₂, h₃, h₄], c.isHexDigit = true) (hne : rest ≠ []) :
    stringBody start done (backslash :: ('u' : CodePoint) :: h₁ :: h₂ :: h₃ :: h₄ :: rest) =
      stringBody start (.ofNat (Text.hexValue [h₁, h₂, h₃, h₄]) :: done) rest := by
  have hall : ([h₁, h₂, h₃, h₄].all CodePoint.isHexDigit && !rest.isEmpty) = true := by
    rw [Bool.and_eq_true, List.all_eq_true, Bool.not_eq_true', List.isEmpty_eq_false_iff]
    exact ⟨hhex, hne⟩
  rw [stringBody.eq_def]
  simp only [if_neg (show ¬ backslash = ('"' : CodePoint) by decide),
    if_pos (show backslash = ('\\' : CodePoint) from rfl), if_true, hall]

end Step

theorem stringBody_complete {body : Text} {units : List CodePoint} (h : Written body units)
    (start rest : Text) (done : List CodePoint) :
    stringBody start done (body ++ quote :: rest) =
      .ok (joinSurrogates (done.reverse ++ units), rest) := by
  induction h generalizing done with
  | nil => rw [List.nil_append, stringBody_quote, List.append_nil]
  | plain hquote hbackslash hcontrol _ ih =>
    rw [List.cons_append, stringBody_plain _ _ hquote hbackslash hcontrol, ih, List.reverse_cons,
      List.append_assoc]
    rfl
  | short hmem _ ih =>
    rw [List.cons_append, List.cons_append,
      stringBody_short _ _ (shortEscape?_eq_some_iff.mpr hmem), ih, List.reverse_cons,
      List.append_assoc]
    rfl
  | @number digits s units hfour hhex _ ih =>
    match digits, hfour, hhex with
    | [h₁, h₂, h₃, h₄], _, hhex =>
      simp only [List.cons_append, List.nil_append]
      rw [stringBody_number _ _ hhex (by simp), ih, List.reverse_cons, List.append_assoc]
      rfl

/-! ### Numbers -/

/-- A stretch ends where what follows it does not belong to it. -/
theorem span_eq {p : CodePoint → Bool} {s rest : Text} (hs : ∀ c ∈ s, p c = true)
    (hrest : ∀ c ∈ rest.head?, p c = false) :
    (s ++ rest).takeWhile p = s ∧ (s ++ rest).dropWhile p = rest := by
  rw [List.takeWhile_append_of_pos hs, List.dropWhile_append_of_pos hs]
  cases rest with
  | nil => simp
  | cons c rest =>
    have hc : p c = false := hrest c rfl
    simp [hc]

/-- What cannot go on with a number: no digit, no point and no letter of a power. -/
structure EndsNumber (rest : Text) : Prop where
  digit : ∀ c ∈ rest.head?, c.isAsciiDigit = false
  point : ∀ c ∈ rest.head?, c ≠ ('.' : CodePoint)
  letter : ∀ c ∈ rest.head?, c.lowerAscii ≠ ('e' : CodePoint)

theorem lowerAscii_eq_e_iff {c : CodePoint} :
    c.lowerAscii = ('e' : CodePoint) ↔ c = ('e' : CodePoint) ∨ c = ('E' : CodePoint) := by
  constructor
  · intro h
    have hval := congrArg CodePoint.val h
    rw [CodePoint.lowerAscii_val] at hval
    split at hval
    · exact .inr (CodePoint.ext_val (by simpa using hval))
    · exact .inl (CodePoint.ext_val hval)
  · rintro (rfl | rfl) <;> rfl

theorem integerPart?_sound {s whole rest : Text} (h : integerPart? s = some (whole, rest)) :
    s = whole ++ rest ∧ IsWhole whole := by
  cases s with
  | nil => cases h
  | cons c tail =>
    rw [integerPart?] at h
    split at h
    · next hzero =>
      obtain ⟨rfl, rfl⟩ := Prod.mk.inj (Option.some.inj h)
      rw [hzero]
      exact ⟨rfl, .zero⟩
    · next hzero =>
      split at h
      · next hdigit =>
        obtain ⟨rfl, rfl⟩ := Prod.mk.inj (Option.some.inj h)
        refine ⟨?_, .digits hdigit hzero fun d hd => List.mem_takeWhile_imp hd⟩
        rw [List.cons_append, List.takeWhile_append_dropWhile]
      · cases h

theorem integerPart?_complete {whole rest : Text} (h : IsWhole whole)
    (hrest : ∀ c ∈ rest.head?, c.isAsciiDigit = false) :
    integerPart? (whole ++ rest) = some (whole, rest) := by
  cases h with
  | zero => rfl
  | @digits c s hdigit hne hs =>
    obtain ⟨htake, hdrop⟩ := span_eq hs hrest
    rw [List.cons_append, integerPart?, if_neg hne, if_pos hdigit, htake, hdrop]

theorem fractionPart_sound (s : Text) :
    s = (fractionPart s).1 ++ (fractionPart s).2 ∧ IsFraction (fractionPart s).1 := by
  rw [fractionPart.eq_def]
  split
  · next c d tail =>
    split
    · next hpoint =>
      obtain ⟨rfl, hdigit⟩ := hpoint
      refine ⟨?_, .digits (List.cons_ne_nil _ _) ?_⟩
      · simp only [List.cons_append, List.takeWhile_append_dropWhile]
      · exact List.forall_mem_cons.mpr ⟨hdigit, fun e he => List.mem_takeWhile_imp he⟩
    · exact ⟨rfl, .absent⟩
  · exact ⟨rfl, .absent⟩

theorem fractionPart_complete {fraction rest : Text} (h : IsFraction fraction)
    (hdigit : ∀ c ∈ rest.head?, c.isAsciiDigit = false)
    (hpoint : ∀ c ∈ rest.head?, c ≠ ('.' : CodePoint)) :
    fractionPart (fraction ++ rest) = (fraction, rest) := by
  cases h with
  | absent =>
    match rest with
    | [] | [_] => rfl
    | c :: d :: rest =>
      exact if_neg fun hc => hpoint c rfl hc.1
  | @digits s hne hs =>
    match s, hne with
    | d :: s, _ =>
      obtain ⟨hd, hs⟩ := List.forall_mem_cons.mp hs
      obtain ⟨htake, hdrop⟩ := span_eq hs hdigit
      simp only [List.cons_append, fractionPart, hd, and_self, if_true, htake, hdrop]

theorem splitPowerSign_sound (s : Text) :
    s = (splitPowerSign s).1 ++ (splitPowerSign s).2 ∧ (splitPowerSign s).1 ∈ powerSigns := by
  cases s with
  | nil => exact ⟨rfl, by simp [splitPowerSign, powerSigns]⟩
  | cons c tail =>
    rw [splitPowerSign]
    split
    · next hsign => rcases hsign with rfl | rfl <;> exact ⟨rfl, by simp [powerSigns]⟩
    · exact ⟨rfl, by simp [powerSigns]⟩

theorem splitPowerSign_complete {sign : Text} (h : sign ∈ powerSigns) {d : CodePoint}
    (hd : d.isAsciiDigit = true) (rest : Text) :
    splitPowerSign (sign ++ d :: rest) = (sign, d :: rest) := by
  have hne : ¬ (d = ('-' : CodePoint) ∨ d = ('+' : CodePoint)) := by
    rintro (rfl | rfl) <;> cases hd
  simp only [powerSigns, List.mem_cons, List.not_mem_nil, or_false] at h
  rcases h with rfl | rfl | rfl
  · exact if_neg hne
  · rfl
  · rfl

theorem powerPart_sound (s : Text) :
    s = (powerPart s).1 ++ (powerPart s).2 ∧ IsPower (powerPart s).1 := by
  cases s with
  | nil => exact ⟨rfl, .absent⟩
  | cons e tail =>
    obtain ⟨htail, hsign⟩ := splitPowerSign_sound tail
    rw [powerPart]
    split
    · next hletter =>
      generalize splitPowerSign tail = split at htail hsign ⊢
      obtain ⟨sign, rest⟩ := split
      dsimp only at htail hsign ⊢
      split
      · exact ⟨rfl, .absent⟩
      · next hne =>
        rw [List.isEmpty_iff] at hne
        refine ⟨?_, .digits (lowerAscii_eq_e_iff.mp hletter) hsign hne
          fun d hd => List.mem_takeWhile_imp hd⟩
        dsimp only
        rw [htail, List.cons_append, List.cons_append, List.append_assoc,
          List.takeWhile_append_dropWhile]
    · exact ⟨rfl, .absent⟩

theorem powerPart_complete {power rest : Text} (h : IsPower power)
    (hdigit : ∀ c ∈ rest.head?, c.isAsciiDigit = false)
    (hletter : ∀ c ∈ rest.head?, c.lowerAscii ≠ ('e' : CodePoint)) :
    powerPart (power ++ rest) = (power, rest) := by
  cases h with
  | absent =>
    cases rest with
    | nil => rfl
    | cons c rest => exact if_neg (hletter c rfl)
  | @digits e sign s he hsign hne hs =>
    obtain ⟨d, s, rfl⟩ := List.exists_cons_of_ne_nil hne
    obtain ⟨htake, hdrop⟩ := span_eq hs hdigit
    have hsplit := splitPowerSign_complete hsign (hs d (List.mem_cons_self ..)) (s ++ rest)
    rw [List.cons_append, List.append_assoc, powerPart, if_pos (lowerAscii_eq_e_iff.mpr he),
      List.cons_append, hsplit]
    dsimp only
    rw [← List.cons_append, htake, hdrop]
    rfl

/-- A number after its sign; `start` is the text from its sign on. -/
def unsigned (negative : Bool) (start body : Text) : Except Error (Value × Text) :=
  match integerPart? body with
  | none => fail .expectingValue start
  | some (whole, rest) =>
    let (fraction, rest) := fractionPart rest
    let (power, rest) := powerPart rest
    if fraction.isEmpty && power.isEmpty then
      if Numeral.maxDigits < whole.length then .error (.tooManyDigits whole.length)
      else
        .ok (.integer (signed negative
          (Numeral.ofDigits 10 (whole.filterMap CodePoint.digitValue?))), rest)
    else .ok (.decimal (minus negative ++ whole ++ fraction ++ power), rest)

theorem number_minus (body : Text) :
    number (('-' : CodePoint) :: body) = unsigned true (('-' : CodePoint) :: body) body := rfl

theorem number_of_ne {s : Text} (h : ∀ c ∈ s.head?, c ≠ ('-' : CodePoint)) :
    number s = unsigned false s s := by
  cases s with
  | nil => rfl
  | cons c tail =>
    rw [number]
    simp only [if_neg (h c rfl)]
    rfl

theorem unsigned_sound {negative : Bool} {start body rest : Text} {v : Value}
    (h : unsigned negative start body = .ok (v, rest)) :
    ∃ used, body = used ++ rest ∧ SpellsNumber (minus negative ++ used) v := by
  rw [unsigned] at h
  cases hwhole : integerPart? body with
  | none =>
    rw [hwhole] at h
    cases h
  | some found =>
    obtain ⟨whole, afterWhole⟩ := found
    obtain ⟨rfl, hisWhole⟩ := integerPart?_sound hwhole
    obtain ⟨hfraction, hisFraction⟩ := fractionPart_sound afterWhole
    obtain ⟨hpower, hisPower⟩ := powerPart_sound (fractionPart afterWhole).2
    rw [hwhole] at h
    dsimp only at h
    generalize powerPart (fractionPart afterWhole).2 = power at h hpower hisPower
    generalize fractionPart afterWhole = fraction at h hfraction hisFraction hpower
    split at h
    · next hempty =>
      rw [Bool.and_eq_true, List.isEmpty_iff, List.isEmpty_iff] at hempty
      split at h
      · cases h
      · next hcount =>
        obtain ⟨rfl, rfl⟩ := Prod.mk.inj (Except.ok.inj h)
        refine ⟨whole, ?_, .integer hisWhole (not_lt.mp hcount)⟩
        rw [hfraction, hpower, hempty.1, hempty.2, List.nil_append, List.nil_append]
    · next hempty =>
      obtain ⟨rfl, rfl⟩ := Prod.mk.inj (Except.ok.inj h)
      refine ⟨whole ++ (fraction.1 ++ power.1), ?_, ?_⟩
      · rw [hfraction, hpower]
        simp only [List.append_assoc]
      · simp only [List.append_assoc]
        refine .decimal hisWhole hisFraction hisPower ?_
        rw [Bool.and_eq_true, List.isEmpty_iff, List.isEmpty_iff] at hempty
        exact not_and_or.mp hempty

/-- A number that is read is spelled as the grammar has it. -/
theorem number_sound {s rest : Text} {v : Value} (h : number s = .ok (v, rest)) :
    ∃ used, s = used ++ rest ∧ SpellsNumber used v := by
  by_cases hminus : ∀ c ∈ s.head?, c ≠ ('-' : CodePoint)
  · rw [number_of_ne hminus] at h
    obtain ⟨used, hused, hspells⟩ := unsigned_sound h
    exact ⟨used, hused, hspells⟩
  · obtain ⟨body, rfl⟩ : ∃ body, s = ('-' : CodePoint) :: body := by
      cases s with
      | nil => exact absurd nofun hminus
      | cons c tail =>
        refine ⟨tail, ?_⟩
        simpa using hminus
    rw [number_minus] at h
    obtain ⟨used, rfl, hspells⟩ := unsigned_sound h
    exact ⟨_, rfl, hspells⟩

theorem unsigned_complete (negative : Bool) {whole fraction power rest : Text}
    (hwhole : IsWhole whole) (hfraction : IsFraction fraction) (hpower : IsPower power)
    (hrest : EndsNumber rest) (start : Text) :
    unsigned negative start (whole ++ (fraction ++ (power ++ rest))) =
      if fraction.isEmpty && power.isEmpty then
        if Numeral.maxDigits < whole.length then .error (.tooManyDigits whole.length)
        else
          .ok (.integer (signed negative
            (Numeral.ofDigits 10 (whole.filterMap CodePoint.digitValue?))), rest)
      else .ok (.decimal (minus negative ++ whole ++ fraction ++ power), rest) := by
  -- what follows each part is a part that starts with another sign, or the rest
  have hafterFraction : (∀ c ∈ (power ++ rest).head?, c.isAsciiDigit = false) ∧
      ∀ c ∈ (power ++ rest).head?, c ≠ ('.' : CodePoint) := by
    cases hpower with
    | absent => exact ⟨hrest.digit, hrest.point⟩
    | digits he =>
      refine ⟨fun c hc => ?_, fun c hc => ?_⟩ <;>
        · rw [List.cons_append, List.head?_cons, Option.mem_some_iff] at hc
          rw [← hc]
          rcases he with rfl | rfl <;> decide
  have hafterWhole : ∀ c ∈ (fraction ++ (power ++ rest)).head?, c.isAsciiDigit = false := by
    cases hfraction with
    | absent => exact hafterFraction.1
    | digits =>
      intro c hc
      rw [List.cons_append, List.head?_cons, Option.mem_some_iff] at hc
      rw [← hc]
      decide
  rw [unsigned, integerPart?_complete hwhole hafterWhole]
  dsimp only
  rw [fractionPart_complete hfraction hafterFraction.1 hafterFraction.2]
  dsimp only
  rw [powerPart_complete hpower hrest.digit hrest.letter]

theorem IsWhole.head_digit {whole : Text} (h : IsWhole whole) :
    ∃ c tail, whole = c :: tail ∧ c.isAsciiDigit = true := by
  cases h with
  | zero => exact ⟨_, _, rfl, rfl⟩
  | digits digit => exact ⟨_, _, rfl, digit⟩

theorem number_minus_append {negative : Bool} {whole : Text} (h : IsWhole whole) (tail : Text) :
    number (minus negative ++ (whole ++ tail)) =
      unsigned negative (minus negative ++ (whole ++ tail)) (whole ++ tail) := by
  cases negative with
  | true => rfl
  | false =>
    obtain ⟨c, digits, rfl, hdigit⟩ := h.head_digit
    refine number_of_ne fun d hd => ?_
    rw [← Option.some.inj hd]
    rintro rfl
    cases hdigit

/-- A number that is spelled as the grammar has it is read, if it cannot go on. -/
theorem number_complete {s : Text} {v : Value} (h : SpellsNumber s v) {rest : Text}
    (hrest : EndsNumber rest) : number (s ++ rest) = .ok (v, rest) := by
  cases h with
  | @integer negative whole hwhole hcount =>
    have hread := unsigned_complete negative hwhole .absent .absent hrest
    rw [List.append_assoc, number_minus_append hwhole]
    exact (hread _).trans (if_neg (not_lt.mpr hcount))
  | @decimal negative whole fraction power hwhole hfraction hpower hne =>
    have hread := unsigned_complete negative hwhole hfraction hpower hrest
    have hempty : ¬ (fraction.isEmpty && power.isEmpty) = true := by
      rw [Bool.and_eq_true, List.isEmpty_iff, List.isEmpty_iff]
      exact not_and_or.mpr hne
    simp only [List.append_assoc]
    rw [number_minus_append hwhole, hread, if_neg hempty]
    simp only [List.append_assoc]

/-! ### Words -/

/-- The words, each with the value that it stands for. -/
theorem mem_words_iff {w : Text} {v : Value} : (w, v) ∈ words ↔
    (w = "null" ∧ v = .null) ∨ (w = "true" ∧ v = .bool true) ∨ (w = "false" ∧ v = .bool false) ∨
      w ∈ constants ∧ v = .decimal w := by
  simp only [words, constants, List.mem_cons, List.not_mem_nil, or_false, Prod.mk.injEq]
  constructor
  · rintro (⟨rfl, rfl⟩ | ⟨rfl, rfl⟩ | ⟨rfl, rfl⟩ | ⟨rfl, rfl⟩ | ⟨rfl, rfl⟩ | ⟨rfl, rfl⟩) <;> simp
  · rintro (⟨rfl, rfl⟩ | ⟨rfl, rfl⟩ | ⟨rfl, rfl⟩ | ⟨rfl | rfl | rfl, rfl⟩) <;> simp

theorem SpellsNumber.fits {s : Text} {v : Value} (h : SpellsNumber s v) (limit : Nat) :
    v.Fits limit := by
  cases h with
  | integer => exact ⟨Nat.zero_le _, .integer _⟩
  | decimal => exact ⟨Nat.zero_le _, .decimal _⟩

/-- A word or a number, which nests nothing. -/
theorem scalar_sound {s rest : Text} {v : Value} (h : scalar s = .ok (v, rest)) (limit : Nat) :
    ∃ used, s = used ++ rest ∧ Spells used v ∧ v.Fits limit := by
  rw [scalar] at h
  split at h
  · next result hfound =>
    rw [Except.ok.inj h] at hfound
    obtain ⟨⟨w, v'⟩, hmem, hword⟩ := List.exists_of_findSome?_eq_some hfound
    obtain ⟨tail, htail, heq⟩ := Option.map_eq_some_iff.mp hword
    obtain ⟨rfl, rfl⟩ := Prod.mk.inj heq
    refine ⟨w, Text.dropStart?_eq_some_iff.mp htail, ?_⟩
    rcases mem_words_iff.mp hmem with ⟨rfl, rfl⟩ | ⟨rfl, rfl⟩ | ⟨rfl, rfl⟩ | ⟨hconstant, rfl⟩
    · exact ⟨.null, Nat.zero_le _, .null⟩
    · exact ⟨.true, Nat.zero_le _, .bool _⟩
    · exact ⟨.false, Nat.zero_le _, .bool _⟩
    · exact ⟨.constant hconstant, Nat.zero_le _, .decimal _⟩
  · obtain ⟨used, hused, hspells⟩ := number_sound h
    exact ⟨used, hused, .number hspells, hspells.fits limit⟩

/-- No word begins another, so the only one that is read is the one that is there. -/
theorem scalar_word {w : Text} {v : Value} (h : (w, v) ∈ words) (rest : Text) :
    scalar (w ++ rest) = .ok (v, rest) := by
  have hother : ∀ x ∈ words, x.1 ≠ w → Text.dropStart? (w ++ rest) x.1 = none := by
    intro x hx hne
    have hdiverging : ∀ x ∈ words, ∀ y ∈ words, x.1 <+: y.1 → x.1 = y.1 := by decide +kernel
    cases hdrop : Text.dropStart? (w ++ rest) x.1 with
    | none => rfl
    | some tail =>
      have hprefix : x.1 <+: w ++ rest := ⟨tail, (Text.dropStart?_eq_some_iff.mp hdrop).symm⟩
      rcases List.prefix_or_prefix_of_prefix hprefix (List.prefix_append w rest) with hxw | hwx
      · exact absurd (hdiverging x hx _ h hxw) hne
      · exact absurd (hdiverging _ h x hx hwx).symm hne
  have hfound : words.findSome? (fun x => (Text.dropStart? (w ++ rest) x.1).map (x.2, ·)) =
      some (v, rest) := by
    have hnodup : (words.map (·.1)).Nodup := by decide +kernel
    generalize words = list at h hother hnodup
    induction list with
    | nil => cases h
    | cons x list ih =>
      obtain ⟨hx, hother⟩ := List.forall_mem_cons.mp hother
      rw [List.map_cons, List.nodup_cons] at hnodup
      rw [List.findSome?_cons]
      rcases List.mem_cons.mp h with rfl | hmem
      · rw [Text.dropStart?_eq_some_iff.mpr rfl]
        rfl
      · have hne : x.1 ≠ w := by
          intro heq
          exact hnodup.1 (List.mem_map.mpr ⟨_, hmem, heq.symm⟩)
        rw [hx hne]
        exact ih hmem hother hnodup.2
  rw [scalar, hfound]

/-- A number does not begin as a word does. -/
theorem scalar_number {s : Text} {v : Value} (h : SpellsNumber s v) (rest : Text) :
    scalar (s ++ rest) = number (s ++ rest) := by
  obtain ⟨negative, whole, tail, rfl, hwhole⟩ : ∃ negative whole tail,
      s = minus negative ++ (whole ++ tail) ∧ IsWhole whole := by
    cases h with
    | @integer negative whole hwhole => exact ⟨negative, whole, [], by simp, hwhole⟩
    | @decimal negative whole fraction power hwhole =>
      exact ⟨negative, whole, fraction ++ power, rfl, hwhole⟩
  obtain ⟨d, digits, rfl, hdigit⟩ := hwhole.head_digit
  have hnone : words.findSome? (fun x => (Text.dropStart?
      (minus negative ++ (d :: digits ++ tail) ++ rest) x.1).map (x.2, ·)) = none := by
    rw [List.findSome?_eq_none_iff]
    intro x hx
    rw [Option.map_eq_none_iff]
    -- the first letter of a word is no digit, and after a sign the second one is none either
    have hfirst : ∀ x ∈ words, ∀ c ∈ x.1.head?, c.isAsciiDigit = false := by decide +kernel
    have hsecond : ∀ x ∈ words, ∀ c ∈ x.1.tail.head?, c.isAsciiDigit = false := by decide +kernel
    have hlong : ∀ x ∈ words, 2 ≤ x.1.length := by decide +kernel
    cases hdrop : Text.dropStart? (minus negative ++ (d :: digits ++ tail) ++ rest) x.1 with
    | none => rfl
    | some more =>
      have htext := Text.dropStart?_eq_some_iff.mp hdrop
      have hfirst := hfirst x hx
      have hsecond := hsecond x hx
      have hlong := hlong x hx
      generalize x.1 = word at htext hfirst hsecond hlong
      match word, hlong with
      | a :: b :: word, _ =>
        cases negative with
        | false =>
          obtain ⟨rfl, _⟩ := List.cons.inj htext
          rw [hfirst d rfl] at hdigit
          cases hdigit
        | true =>
          obtain ⟨_, htext⟩ := List.cons.inj htext
          obtain ⟨rfl, _⟩ := List.cons.inj htext
          rw [hsecond d rfl] at hdigit
          cases hdigit
  rw [scalar, hnone]

end AdmissionControl.Json
