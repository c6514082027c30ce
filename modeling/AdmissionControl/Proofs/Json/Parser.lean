import AdmissionControl.Proofs.Json.Lexeme

/-!
# The parser reads the grammar

What the parser accepts is what the grammar spells, if no object repeats a name and nothing nests
deeper than the limit; and what it returns is the value that is spelled.  Both directions are by
induction on the fuel, where the three functions of the parser go together.

* `value_sound_succ`, `items_sound_succ`, `members_sound_succ`, `sound` — what is read is spelled.
* `Value.misfit?` — what the parser finds wrong with a value that does not fit.
* `value_complete_succ`, `items_complete_succ`, `members_complete_succ`, `complete` — what is
  spelled is read, or refused for what is wrong with it, with twice its length as fuel.
* `Padded.unique` — a text spells one value at most.
* `parse_of_padded` — what becomes of a text that spells a value.
* `parse_eq_ok_iff` — the texts that have a value, and which.
-/

namespace AdmissionControl.Json

/-! ### Blanks -/

theorem exists_blanks (s : Text) : ∃ blanks, Blanks blanks ∧ s = blanks ++ skipSpace s :=
  ⟨s.takeWhile isSpace, fun _ hc => List.mem_takeWhile_imp hc, List.takeWhile_append_dropWhile.symm⟩

theorem skipSpace_append {blanks s : Text} (hblanks : Blanks blanks)
    (hs : ∀ c ∈ s.head?, isSpace c = false) : skipSpace (blanks ++ s) = s :=
  (span_eq hblanks hs).2

theorem Blanks.append {s t : Text} (hs : Blanks s) (ht : Blanks t) : Blanks (s ++ t) := by
  intro c hc
  rcases List.mem_append.mp hc with hc | hc
  · exact hs c hc
  · exact ht c hc

theorem Padded.blanks_append {blanks s : Text} {v : Value} (hblanks : Blanks blanks)
    (h : Padded s v) : Padded (blanks ++ s) v := by
  cases h with
  | mk hbefore hspells hafter =>
    rw [← List.append_assoc]
    exact .mk (hblanks.append hbefore) hspells hafter

theorem Elements.blanks_append {blanks s : Text} {vs : List Value} (hblanks : Blanks blanks)
    (h : Elements s vs) : Elements (blanks ++ s) vs := by
  cases h with
  | last padded => exact .last (padded.blanks_append hblanks)
  | next padded elements =>
    rw [← List.append_assoc]
    exact .next (padded.blanks_append hblanks) elements

theorem Members.blanks_append {blanks s : Text} {ms : List (Text × Value)} (hblanks : Blanks blanks)
    (h : Members s ms) : Members (blanks ++ s) ms := by
  cases h with
  | last hbefore spells hafter padded =>
    rw [← List.append_assoc]
    exact .last (hblanks.append hbefore) spells hafter padded
  | next hbefore spells hafter padded rest =>
    rw [← List.append_assoc]
    exact .next (hblanks.append hbefore) spells hafter padded rest

/-! ### Names -/

theorem firstRepeated?_eq_none_iff {seen names : List Text} :
    firstRepeated? seen names = none ↔ names.Nodup ∧ ∀ name ∈ names, name ∉ seen := by
  induction names generalizing seen with
  | nil => simp [firstRepeated?]
  | cons name names ih =>
    rw [firstRepeated?, List.nodup_cons, List.forall_mem_cons]
    by_cases hseen : name ∈ seen
    · simp [hseen]
    · rw [if_neg (by simpa using hseen), ih]
      simp only [List.mem_cons, not_or]
      constructor
      · rintro ⟨hnodup, hnew⟩
        exact ⟨⟨fun hmem => (hnew name hmem).1 rfl, hnodup⟩, hseen, fun n hn => (hnew n hn).2⟩
      · rintro ⟨⟨hnot, hnodup⟩, _, hnew⟩
        refine ⟨hnodup, fun n hn => ⟨?_, hnew n hn⟩⟩
        rintro rfl
        exact hnot hn

theorem closeObject_eq_ok_iff {done : List (Text × Value)} {rest rest' : Text} {v : Value} :
    closeObject done rest = .ok (v, rest') ↔
      (done.reverse.map (·.1)).Nodup ∧ v = .object done.reverse ∧ rest' = rest := by
  rw [closeObject]
  cases hrepeated : firstRepeated? [] (done.reverse.map (·.1)) with
  | some name =>
    have hnot : ¬ (done.reverse.map (·.1)).Nodup := by
      intro hnodup
      rw [firstRepeated?_eq_none_iff.mpr ⟨hnodup, by simp⟩] at hrepeated
      cases hrepeated
    simp only [reduceCtorEq, hnot, false_and]
  | none =>
    have hnodup := (firstRepeated?_eq_none_iff.mp hrepeated).1
    simp only [hnodup, true_and, Except.ok.injEq, Prod.mk.injEq]
    exact ⟨fun h => ⟨h.1.symm, h.2.symm⟩, fun h => ⟨h.1.symm, h.2.symm⟩⟩

/-! ### One step -/

section Step

variable {fuel depth : Nat} {rest : Text}

theorem value_quote : value (fuel + 1) depth (quote :: rest) =
    (stringBody (quote :: rest) [] rest).map fun found => (.string found.1, found.2) := by
  rw [value.eq_def]
  simp only [if_pos (show quote = ('"' : CodePoint) from rfl)]
  cases stringBody (quote :: rest) [] rest <;> rfl

theorem value_bracket : value (fuel + 1) depth (('[' : CodePoint) :: rest) =
    match depth with
    | 0 => .error (.tooDeep .array)
    | depth + 1 =>
      match skipSpace rest with
      | [] => fail .expectingValue []
      | d :: more =>
        if d = (']' : CodePoint) then .ok (.array [], more)
        else items fuel depth [] (d :: more) := by
  rw [value.eq_def]
  rfl

theorem value_brace : value (fuel + 1) depth (('{' : CodePoint) :: rest) =
    match depth with
    | 0 => .error (.tooDeep .object)
    | depth + 1 =>
      match skipSpace rest with
      | [] => fail .expectingName []
      | d :: more =>
        if d = ('}' : CodePoint) then .ok (.object [], more)
        else members fuel depth [] (d :: more) := by
  rw [value.eq_def]
  rfl

theorem value_other {c : CodePoint} (hquote : c ≠ quote) (hbracket : c ≠ ('[' : CodePoint))
    (hbrace : c ≠ ('{' : CodePoint)) :
    value (fuel + 1) depth (c :: rest) = scalar (c :: rest) := by
  rw [value.eq_def]
  simp only [if_neg (show ¬ c = ('"' : CodePoint) from hquote), if_neg hbracket, if_neg hbrace]

theorem items_succ {done : List Value} {s : Text} : items (fuel + 1) depth done s =
    match value fuel depth s with
    | .error e => .error e
    | .ok (v, rest) =>
      match skipSpace rest with
      | [] => fail .expectingComma []
      | c :: more =>
        if c = (']' : CodePoint) then .ok (.array (v :: done).reverse, more)
        else if c = (',' : CodePoint) then items fuel depth (v :: done) (skipSpace more)
        else fail .expectingComma (c :: more) :=
  items.eq_def ..

theorem members_quote {done : List (Text × Value)} : members (fuel + 1) depth done (quote :: rest) =
    match stringBody (quote :: rest) [] rest with
    | .error e => .error e
    | .ok (name, rest) =>
      match skipSpace rest with
      | [] => fail .expectingColon []
      | colon :: more =>
        if colon = (':' : CodePoint) then
          match value fuel depth (skipSpace more) with
          | .error e => .error e
          | .ok (v, rest) =>
            match skipSpace rest with
            | [] => fail .expectingComma []
            | c :: more =>
              if c = ('}' : CodePoint) then closeObject ((name, v) :: done) more
              else if c = (',' : CodePoint) then
                members fuel depth ((name, v) :: done) (skipSpace more)
              else fail .expectingComma (c :: more)
        else fail .expectingColon (colon :: more) := by
  rw [members.eq_def]
  rfl

theorem members_other {done : List (Text × Value)} {s : Text}
    (h : ∀ c ∈ s.head?, c ≠ quote) :
    members (fuel + 1) depth done s = fail .expectingName s := by
  rw [members.eq_def]
  cases s with
  | nil => rfl
  | cons c tail => simp only [if_neg (show ¬ c = ('"' : CodePoint) from h c rfl)]

end Step

/-! ### What is read is spelled -/

/-- A value that is read is spelled by what was taken away, and fits the depth. -/
def ValueSound (fuel : Nat) : Prop :=
  ∀ {depth : Nat} {s rest : Text} {v : Value}, value fuel depth s = .ok (v, rest) →
    ∃ used, s = used ++ rest ∧ Spells used v ∧ v.Fits depth

/-- So it is with elements, up to the closing bracket. -/
def ItemsSound (fuel : Nat) : Prop :=
  ∀ {depth : Nat} {done : List Value} {s rest : Text} {v : Value},
    items fuel depth done s = .ok (v, rest) →
    ∃ used vs, s = used ++ (']' : CodePoint) :: rest ∧ Elements used vs ∧
      v = .array (done.reverse ++ vs) ∧ ∀ v ∈ vs, v.Fits depth

/-- So it is with members, up to the closing brace, and no name is repeated. -/
def MembersSound (fuel : Nat) : Prop :=
  ∀ {depth : Nat} {done : List (Text × Value)} {s rest : Text} {v : Value},
    members fuel depth done s = .ok (v, rest) →
    ∃ used ms, s = used ++ ('}' : CodePoint) :: rest ∧ Members used ms ∧
      v = .object (done.reverse ++ ms) ∧ ((done.reverse ++ ms).map (·.1)).Nodup ∧
      ∀ m ∈ ms, m.2.Fits depth

section Sound

variable {fuel : Nat}

/-- A string with its quotes, read at the front of a text. -/
theorem string_sound {start text rest s : Text} (h : stringBody start [] s = .ok (text, rest)) :
    ∃ used, quote :: s = used ++ rest ∧ SpellsString used text := by
  obtain ⟨body, units, rfl, hwritten, hjoined⟩ := stringBody_sound h
  exact ⟨quote :: (body ++ [quote]), by simp, .mk hwritten hjoined⟩

theorem quote_sound {depth : Nat} {tail rest : Text} {v : Value}
    (h : value (fuel + 1) depth (quote :: tail) = .ok (v, rest)) :
    ∃ used, quote :: tail = used ++ rest ∧ Spells used v ∧ v.Fits depth := by
  rw [value_quote] at h
  cases hstring : stringBody (quote :: tail) [] tail with
  | error e =>
    rw [hstring] at h
    cases h
  | ok found =>
    rw [hstring] at h
    obtain ⟨rfl, rfl⟩ := Prod.mk.inj (Except.ok.inj h)
    obtain ⟨used, hused, hspells⟩ := string_sound hstring
    exact ⟨used, hused, .string hspells, Nat.zero_le _, .string _⟩

theorem bracket_sound (hitems : ItemsSound fuel) {depth : Nat} {tail rest : Text} {v : Value}
    (h : value (fuel + 1) depth (('[' : CodePoint) :: tail) = .ok (v, rest)) :
    ∃ used, ('[' : CodePoint) :: tail = used ++ rest ∧ Spells used v ∧ v.Fits depth := by
  rw [value_bracket] at h
  cases depth with
  | zero => cases h
  | succ depth =>
    obtain ⟨blanks, hblanks, htail⟩ := exists_blanks tail
    dsimp only at h
    split at h
    · cases h
    next d more hskip =>
    rw [hskip] at htail
    split at h
    · next hclose =>
      obtain ⟨rfl, rfl⟩ := Prod.mk.inj (Except.ok.inj h)
      refine ⟨_, ?_, .emptyArray hblanks, Value.fits_array_iff.mpr ⟨depth, rfl, by simp⟩⟩
      rw [htail, hclose]
      simp
    · obtain ⟨used, vs, hused, helements, rfl, hfits⟩ := hitems h
      refine ⟨_, ?_, .array (helements.blanks_append hblanks),
        Value.fits_array_iff.mpr ⟨depth, rfl, hfits⟩⟩
      rw [htail, hused]
      simp

theorem brace_sound (hmembers : MembersSound fuel) {depth : Nat} {tail rest : Text} {v : Value}
    (h : value (fuel + 1) depth (('{' : CodePoint) :: tail) = .ok (v, rest)) :
    ∃ used, ('{' : CodePoint) :: tail = used ++ rest ∧ Spells used v ∧ v.Fits depth := by
  rw [value_brace] at h
  cases depth with
  | zero => cases h
  | succ depth =>
    obtain ⟨blanks, hblanks, htail⟩ := exists_blanks tail
    dsimp only at h
    split at h
    · cases h
    next d more hskip =>
    rw [hskip] at htail
    split at h
    · next hclose =>
      obtain ⟨rfl, rfl⟩ := Prod.mk.inj (Except.ok.inj h)
      refine ⟨_, ?_, .emptyObject hblanks,
        Value.fits_object_iff.mpr ⟨depth, rfl, by simp, by simp⟩⟩
      rw [htail, hclose]
      simp
    · obtain ⟨used, ms, hused, hisMembers, rfl, hnodup, hfits⟩ := hmembers h
      refine ⟨_, ?_, .object (hisMembers.blanks_append hblanks),
        Value.fits_object_iff.mpr ⟨depth, rfl, hnodup, hfits⟩⟩
      rw [htail, hused]
      simp

theorem value_sound_succ (hitems : ItemsSound fuel) (hmembers : MembersSound fuel) :
    ValueSound (fuel + 1) := by
  intro depth s rest v h
  cases s with
  | nil => cases h
  | cons c tail =>
    by_cases hquote : c = quote
    · subst hquote
      exact quote_sound h
    by_cases hbracket : c = ('[' : CodePoint)
    · subst hbracket
      exact bracket_sound hitems h
    by_cases hbrace : c = ('{' : CodePoint)
    · subst hbrace
      exact brace_sound hmembers h
    · rw [value_other hquote hbracket hbrace] at h
      exact scalar_sound h depth

theorem items_sound_succ (hvalue : ValueSound fuel) (hitems : ItemsSound fuel) :
    ItemsSound (fuel + 1) := by
  intro depth done s rest v h
  rw [items_succ] at h
  cases hread : value fuel depth s with
  | error e =>
    rw [hread] at h
    cases h
  | ok found =>
    obtain ⟨first, afterFirst⟩ := found
    obtain ⟨used, rfl, hspells, hfits⟩ := hvalue hread
    obtain ⟨blanks, hblanks, hafter⟩ := exists_blanks afterFirst
    have hpadded : Padded (used ++ blanks) first := .mk blanks_nil hspells hblanks
    rw [hread] at h
    dsimp only at h
    split at h
    · cases h
    · next c more hskip =>
      rw [hskip] at hafter
      split at h
      · next hclose =>
        obtain ⟨rfl, rfl⟩ := Prod.mk.inj (Except.ok.inj h)
        refine ⟨_, [first], ?_, .last hpadded, by simp, by simpa using hfits⟩
        rw [hafter, hclose, List.append_assoc]
      · split at h
        · next hcomma =>
          obtain ⟨blanks', hblanks', hmore⟩ := exists_blanks more
          obtain ⟨others, vs, hothers, helements, rfl, hall⟩ := hitems h
          refine ⟨_, first :: vs, ?_, .next hpadded (helements.blanks_append hblanks'), by simp,
            List.forall_mem_cons.mpr ⟨hfits, hall⟩⟩
          rw [hafter, hcomma, hmore, hothers]
          simp
        · cases h

/-- What members that are read begin with: a name, a value, and a closing brace or more members. -/
theorem exists_member {depth : Nat} {done : List (Text × Value)} {s rest : Text} {v : Value}
    (h : members (fuel + 1) depth done s = .ok (v, rest)) :
    ∃ tail name afterName afterColon first afterFirst c more,
      s = quote :: tail ∧ stringBody (quote :: tail) [] tail = .ok (name, afterName) ∧
      skipSpace afterName = (':' : CodePoint) :: afterColon ∧
      value fuel depth (skipSpace afterColon) = .ok (first, afterFirst) ∧
      skipSpace afterFirst = c :: more ∧
      (c = ('}' : CodePoint) ∧ closeObject ((name, first) :: done) more = .ok (v, rest) ∨
        c = (',' : CodePoint) ∧
          members fuel depth ((name, first) :: done) (skipSpace more) = .ok (v, rest)) := by
  by_cases hquote : ∀ c ∈ s.head?, c ≠ quote
  · rw [members_other hquote] at h
    cases h
  obtain ⟨tail, rfl⟩ : ∃ tail, s = quote :: tail := by
    cases s with
    | nil => exact absurd nofun hquote
    | cons c tail => exact ⟨tail, by simpa using hquote⟩
  rw [members_quote] at h
  split at h
  · cases h
  next name afterName hstring =>
  split at h
  · cases h
  next colon afterColon hafter =>
  split at h
  case isFalse => cases h
  next hcolon =>
  subst hcolon
  split at h
  · cases h
  next first afterFirst hread =>
  split at h
  · cases h
  next c more hskip =>
  refine ⟨tail, name, afterName, afterColon, first, afterFirst, c, more, rfl, hstring, hafter,
    hread, hskip, ?_⟩
  split at h
  · next hclose => exact .inl ⟨hclose, h⟩
  · split at h
    · next hcomma => exact .inr ⟨hcomma, h⟩
    · cases h

theorem members_sound_succ (hvalue : ValueSound fuel) (hmembers : MembersSound fuel) :
    MembersSound (fuel + 1) := by
  intro depth done s rest v h
  obtain ⟨tail, name, afterName, afterColon, first, afterFirst, c, more, rfl, hstring, hafter,
    hread, hskip, hnext⟩ := exists_member h
  obtain ⟨spelling, hspelling, hname⟩ := string_sound hstring
  obtain ⟨used, hused, hspells, hfits⟩ := hvalue hread
  obtain ⟨blanks, hblanks, hafterName⟩ := exists_blanks afterName
  obtain ⟨blanks₁, hblanks₁, hafterColon⟩ := exists_blanks afterColon
  obtain ⟨blanks₂, hblanks₂, hafterFirst⟩ := exists_blanks afterFirst
  have hpadded : Padded (blanks₁ ++ (used ++ blanks₂)) first := .mk hblanks₁ hspells hblanks₂
  have hstart : quote :: tail = spelling ++ (blanks ++ ((':' : CodePoint) ::
      (blanks₁ ++ (used ++ (blanks₂ ++ c :: more))))) := by
    rw [hspelling, hafterName, hafter, hafterColon, hused, hafterFirst, hskip]
  rcases hnext with ⟨hclose, hdone⟩ | ⟨hcomma, hrest⟩
  · obtain ⟨hnodup, rfl, rfl⟩ := closeObject_eq_ok_iff.mp hdone
    refine ⟨_, [(name, first)], ?_, .last blanks_nil hname hblanks hpadded, by simp,
      by simpa using hnodup, by simpa using hfits⟩
    rw [hstart, hclose]
    simp
  · obtain ⟨blanks₃, hblanks₃, hmore⟩ := exists_blanks more
    obtain ⟨others, ms, hothers, hisMembers, rfl, hnodup, hall⟩ := hmembers hrest
    refine ⟨_, (name, first) :: ms, ?_, .next blanks_nil hname hblanks hpadded
      (hisMembers.blanks_append hblanks₃), by simp, by simpa using hnodup,
      List.forall_mem_cons.mpr ⟨hfits, hall⟩⟩
    rw [hstart, hcomma, hmore, hothers]
    simp

/-- **What is read is spelled**, with whatever fuel. -/
theorem sound (fuel : Nat) : ValueSound fuel ∧ ItemsSound fuel ∧ MembersSound fuel := by
  induction fuel with
  | zero => exact ⟨nofun, nofun, nofun⟩
  | succ fuel ih =>
    obtain ⟨hvalue, hitems, hmembers⟩ := ih
    exact ⟨value_sound_succ hitems hmembers, items_sound_succ hvalue hitems,
      members_sound_succ hvalue hmembers⟩

end Sound

/-! ### What is spelled is read -/

/-- The signs that may follow a value. -/
def delimiters : List CodePoint := [',', ']', '}']

theorem endsNumber_of_head {rest : Text}
    (h : ∀ c ∈ rest.head?, isSpace c = true ∨ c ∈ delimiters) : EndsNumber rest := by
  have hsign : ∀ c : CodePoint, isSpace c = true ∨ c ∈ delimiters → c.isAsciiDigit = false ∧
      c ≠ ('.' : CodePoint) ∧ c.lowerAscii ≠ ('e' : CodePoint) := by
    intro c hc
    simp only [isSpace, delimiters, Bool.or_eq_true, decide_eq_true_eq, List.mem_cons,
      List.not_mem_nil, or_false] at hc
    rcases hc with (((rfl | rfl) | rfl) | rfl) | rfl | rfl | rfl <;> decide
  exact ⟨fun c hc => (hsign c (h c hc)).1, fun c hc => (hsign c (h c hc)).2.1,
    fun c hc => (hsign c (h c hc)).2.2⟩

theorem endsNumber_blanks_append {blanks rest : Text} {c : CodePoint} (hblanks : Blanks blanks)
    (hc : c ∈ delimiters) : EndsNumber (blanks ++ c :: rest) := by
  refine endsNumber_of_head fun d hd => ?_
  cases blanks with
  | nil =>
    rw [← Option.some.inj hd]
    exact .inr hc
  | cons b blanks =>
    rw [← Option.some.inj hd]
    exact .inl (hblanks b (List.mem_cons_self ..))

theorem skipSpace_delimiter {blanks rest : Text} {c : CodePoint} (hblanks : Blanks blanks)
    (hc : isSpace c = false) : skipSpace (blanks ++ c :: rest) = c :: rest :=
  skipSpace_append hblanks fun d hd => by rwa [← Option.some.inj hd]

/-- What a number may begin with. -/
theorem SpellsNumber.head {s : Text} {v : Value} (h : SpellsNumber s v) :
    ∃ c tail, s = c :: tail ∧ (c = ('-' : CodePoint) ∨ c.isAsciiDigit = true) := by
  cases h with
  | @integer negative whole hwhole =>
    obtain ⟨d, digits, rfl, hdigit⟩ := hwhole.head_digit
    cases negative with
    | true => exact ⟨_, _, rfl, .inl rfl⟩
    | false => exact ⟨_, _, rfl, .inr hdigit⟩
  | @decimal negative whole fraction power hwhole =>
    obtain ⟨d, digits, rfl, hdigit⟩ := hwhole.head_digit
    cases negative with
    | true => exact ⟨_, _, rfl, .inl rfl⟩
    | false => exact ⟨_, _, rfl, .inr hdigit⟩

/-- Where a word or a number begins, the parser looks for one. -/
theorem value_scalar {fuel depth : Nat} {s : Text}
    (h : ∃ c tail, s = c :: tail ∧ c ≠ quote ∧ c ≠ ('[' : CodePoint) ∧ c ≠ ('{' : CodePoint))
    (rest : Text) : value (fuel + 1) depth (s ++ rest) = scalar (s ++ rest) := by
  obtain ⟨c, tail, rfl, hquote, hbracket, hbrace⟩ := h
  exact value_other hquote hbracket hbrace

theorem value_word {fuel depth : Nat} {w : Text} {v : Value} (h : (w, v) ∈ words) (rest : Text) :
    value (fuel + 1) depth (w ++ rest) = .ok (v, rest) := by
  have hfirst : ∀ x ∈ words, x.1 ≠ [] ∧
      ∀ c ∈ x.1.head?, c ≠ quote ∧ c ≠ ('[' : CodePoint) ∧ c ≠ ('{' : CodePoint) := by
    decide +kernel
  obtain ⟨hne, hhead⟩ := hfirst _ h
  obtain ⟨c, tail, rfl⟩ := List.exists_cons_of_ne_nil hne
  rw [value_scalar ⟨c, tail, rfl, hhead c rfl⟩, scalar_word h]

theorem value_number {fuel depth : Nat} {s : Text} {v : Value} (h : SpellsNumber s v) {rest : Text}
    (hrest : EndsNumber rest) : value (fuel + 1) depth (s ++ rest) = .ok (v, rest) := by
  have hhead : ∃ c tail, s = c :: tail ∧ c ≠ quote ∧ c ≠ ('[' : CodePoint) ∧
      c ≠ ('{' : CodePoint) := by
    obtain ⟨c, tail, hs, hc⟩ := h.head
    refine ⟨c, tail, hs, ?_, ?_, ?_⟩ <;>
      · rintro rfl
        revert hc
        decide
  rw [value_scalar hhead, scalar_number h, number_complete h hrest]

theorem value_string {fuel depth : Nat} {s text : Text} (h : SpellsString s text) (rest : Text) :
    value (fuel + 1) depth (s ++ rest) = .ok (.string text, rest) := by
  cases h with
  | @mk body _ units hwritten hjoined =>
    have hbody := stringBody_complete hwritten (quote :: (body ++ quote :: rest)) rest []
    have hjoin : joinSurrogates ([].reverse ++ units) = text := joinSurrogates_eq_iff.mpr hjoined
    rw [hjoin] at hbody
    rw [List.cons_append, List.append_assoc, List.singleton_append, value_quote, hbody]
    rfl

/-- No value begins with a blank or with a closing bracket. -/
theorem spells_head {s : Text} {v : Value} (h : Spells s v) :
    ∃ c tail, s = c :: tail ∧ isSpace c = false ∧ c ≠ (']' : CodePoint) := by
  have hword : ∀ {w : Text} {v : Value}, (w, v) ∈ words →
      ∃ c tail, w = c :: tail ∧ isSpace c = false ∧ c ≠ (']' : CodePoint) := by
    intro w v hmem
    have hfirst : ∀ x ∈ words, x.1 ≠ [] ∧
        ∀ c ∈ x.1.head?, isSpace c = false ∧ c ≠ (']' : CodePoint) := by
      decide +kernel
    obtain ⟨hne, hhead⟩ := hfirst _ hmem
    obtain ⟨c, tail, rfl⟩ := List.exists_cons_of_ne_nil hne
    exact ⟨c, tail, rfl, hhead c rfl⟩
  cases h with
  | null => exact hword (mem_words_iff.mpr (.inl ⟨rfl, rfl⟩))
  | true => exact hword (mem_words_iff.mpr (.inr (.inl ⟨rfl, rfl⟩)))
  | false => exact hword (mem_words_iff.mpr (.inr (.inr (.inl ⟨rfl, rfl⟩))))
  | constant mem => exact hword (mem_words_iff.mpr (.inr (.inr (.inr ⟨mem, rfl⟩))))
  | number spells =>
    obtain ⟨c, tail, rfl, hc⟩ := spells.head
    refine ⟨c, tail, rfl, ?_, ?_⟩
    · rcases hc with rfl | hdigit
      · rfl
      · by_contra hspace
        rw [Bool.not_eq_false] at hspace
        have hends : EndsNumber [c] := endsNumber_of_head fun d hd => by
          rw [← Option.some.inj hd]
          exact .inl hspace
        rw [hends.digit c rfl] at hdigit
        cases hdigit
    · rintro rfl
      revert hc
      decide
  | string spells =>
    obtain ⟨hwritten, hjoined⟩ := spells
    exact ⟨_, _, rfl, rfl, by decide⟩
  | emptyArray | array | emptyObject | object => exact ⟨_, _, rfl, rfl, by decide⟩

/-- Elements begin as a value does. -/
theorem elements_head {s : Text} {vs : List Value} (h : Elements s vs) (rest : Text) :
    ∃ c tail, skipSpace (s ++ rest) = c :: tail ∧ c ≠ (']' : CodePoint) := by
  have hpadded : ∀ {s : Text} {v : Value}, Padded s v → ∀ rest,
      ∃ c tail, skipSpace (s ++ rest) = c :: tail ∧ c ≠ (']' : CodePoint) := by
    intro s v hpadded rest
    cases hpadded with
    | @mk before s after v hbefore hspells hafter =>
      obtain ⟨c, tail, rfl, hspace, hne⟩ := spells_head hspells
      refine ⟨c, tail ++ (after ++ rest), ?_, hne⟩
      rw [List.append_assoc, List.append_assoc, List.cons_append]
      exact skipSpace_delimiter hbefore hspace
  cases h with
  | last padded => exact hpadded padded rest
  | next padded =>
    rw [List.append_assoc]
    exact hpadded padded _

/-- Members begin with a quote. -/
theorem members_head {s : Text} {ms : List (Text × Value)} (h : Members s ms) (rest : Text) :
    ∃ tail, skipSpace (s ++ rest) = quote :: tail := by
  cases h with
  | last hbefore spells | next hbefore spells =>
    obtain ⟨_, _⟩ := spells
    rw [List.append_assoc]
    exact ⟨_, skipSpace_delimiter hbefore rfl⟩

/-! ### What is wrong with a value -/

namespace Value

mutual

/-- What the parser finds wrong with a value when so many containers may open: the first one that is
one too many, or the name that the first object to close repeats. -/
def misfit? (depth : Nat) : Value → Option Error
  | array items =>
    match depth with
    | 0 => some (.tooDeep .array)
    | depth + 1 => misfitItems? depth items
  | object members =>
    match depth with
    | 0 => some (.tooDeep .object)
    | depth + 1 =>
      (misfitMembers? depth members).or ((firstRepeated? [] (members.map (·.1))).map .repeatedName)
  | null | bool _ | integer _ | decimal _ | string _ => none

def misfitItems? (depth : Nat) : List Value → Option Error
  | [] => none
  | v :: items => (v.misfit? depth).or (misfitItems? depth items)

def misfitMembers? (depth : Nat) : List (Text × Value) → Option Error
  | [] => none
  | (_, v) :: members => (v.misfit? depth).or (misfitMembers? depth members)

end

mutual

/-- **Nothing is wrong with the values that fit**, and with no others. -/
theorem misfit?_eq_none_iff (limit : Nat) : ∀ v : Value, v.misfit? limit = none ↔ v.Fits limit
  | array items => by
    rw [fits_array_iff]
    cases limit with
    | zero => simp [misfit?]
    | succ below => simp [misfit?, misfitItems?_eq_none_iff below items]
  | object members => by
    rw [fits_object_iff]
    cases limit with
    | zero => simp [misfit?]
    | succ below =>
      simp only [misfit?, Option.or_eq_none_iff, Option.map_eq_none_iff, firstRepeated?_eq_none_iff,
        misfitMembers?_eq_none_iff below members]
      simp [and_comm]
  | null => iff_of_true rfl ⟨Nat.zero_le _, .null⟩
  | bool b => iff_of_true rfl ⟨Nat.zero_le _, .bool b⟩
  | integer n => iff_of_true rfl ⟨Nat.zero_le _, .integer n⟩
  | decimal s => iff_of_true rfl ⟨Nat.zero_le _, .decimal s⟩
  | string s => iff_of_true rfl ⟨Nat.zero_le _, .string s⟩

theorem misfitItems?_eq_none_iff (limit : Nat) :
    ∀ items : List Value, misfitItems? limit items = none ↔ ∀ v ∈ items, v.Fits limit
  | [] => iff_of_true rfl nofun
  | v :: items => by
    rw [misfitItems?, Option.or_eq_none_iff, List.forall_mem_cons, misfit?_eq_none_iff limit v,
      misfitItems?_eq_none_iff limit items]

theorem misfitMembers?_eq_none_iff (limit : Nat) : ∀ members : List (Text × Value),
    misfitMembers? limit members = none ↔ ∀ m ∈ members, m.2.Fits limit
  | [] => iff_of_true rfl nofun
  | (_, v) :: members => by
    rw [misfitMembers?, Option.or_eq_none_iff, List.forall_mem_cons, misfit?_eq_none_iff limit v,
      misfitMembers?_eq_none_iff limit members]

end

end Value

/-- A result, unless something is wrong. -/
def unlessWrong {α : Type} (a : α) : Option Error → Except Error α
  | none => .ok a
  | some e => .error e

theorem closeObject_eq (done : List (Text × Value)) (rest : Text) : closeObject done rest =
    unlessWrong (.object done.reverse, rest)
      ((firstRepeated? [] (done.reverse.map (·.1))).map .repeatedName) := by
  rw [closeObject]
  cases firstRepeated? [] (done.reverse.map (·.1)) <;> rfl

/-! ### How what is spelled is read -/

/-- A value that is spelled is read, or what is wrong with it is found, if what follows does not go
on with a number. -/
def ValueComplete (fuel : Nat) : Prop :=
  ∀ {depth : Nat} {s rest : Text} {v : Value}, Spells s v → EndsNumber rest →
    2 * s.length ≤ fuel → value fuel depth (s ++ rest) = unlessWrong (v, rest) (v.misfit? depth)

def ItemsComplete (fuel : Nat) : Prop :=
  ∀ {depth : Nat} {done : List Value} {s : Text} (rest : Text) {vs : List Value},
    Elements s vs → 2 * s.length + 1 ≤ fuel →
    items fuel depth done (skipSpace (s ++ (']' : CodePoint) :: rest)) =
      unlessWrong (.array (done.reverse ++ vs), rest) (Value.misfitItems? depth vs)

def MembersComplete (fuel : Nat) : Prop :=
  ∀ {depth : Nat} {done : List (Text × Value)} {s : Text} (rest : Text) {ms : List (Text × Value)},
    Members s ms → 2 * s.length + 1 ≤ fuel →
    members fuel depth done (skipSpace (s ++ ('}' : CodePoint) :: rest)) =
      unlessWrong (.object (done.reverse ++ ms), rest) ((Value.misfitMembers? depth ms).or
        ((firstRepeated? [] ((done.reverse ++ ms).map (·.1))).map .repeatedName))

section Complete

variable {fuel : Nat}

theorem value_complete_succ (hitems : ItemsComplete fuel) (hmembers : MembersComplete fuel) :
    ValueComplete (fuel + 1) := by
  intro depth s rest v h hrest hfuel
  cases h with
  | null => exact value_word (mem_words_iff.mpr (.inl ⟨rfl, rfl⟩)) rest
  | true => exact value_word (mem_words_iff.mpr (.inr (.inl ⟨rfl, rfl⟩))) rest
  | false => exact value_word (mem_words_iff.mpr (.inr (.inr (.inl ⟨rfl, rfl⟩)))) rest
  | constant mem => exact value_word (mem_words_iff.mpr (.inr (.inr (.inr ⟨mem, rfl⟩)))) rest
  | number spells =>
    rw [(Value.misfit?_eq_none_iff depth v).mpr (spells.fits depth)]
    exact value_number spells hrest
  | string spells => exact value_string spells rest
  | @emptyArray blanks hblanks =>
    rw [List.cons_append, List.append_assoc, List.singleton_append, value_bracket]
    cases depth with
    | zero => rfl
    | succ below =>
      simp only [skipSpace_delimiter hblanks (show isSpace (']' : CodePoint) = false from rfl),
        if_true]
      rfl
  | @array s vs helements =>
    rw [List.cons_append, List.append_assoc, List.singleton_append, value_bracket]
    cases depth with
    | zero => rfl
    | succ below =>
      obtain ⟨d, more, hskip, hne⟩ := elements_head helements ((']' : CodePoint) :: rest)
      have hshorter : 2 * s.length + 1 ≤ fuel := by
        simp only [List.length_cons, List.length_append, List.length_nil] at hfuel
        omega
      have hread : items fuel below [] (skipSpace (s ++ (']' : CodePoint) :: rest)) = _ :=
        hitems rest helements hshorter
      rw [hskip] at hread
      simp only [hskip, if_neg hne]
      exact hread
  | @emptyObject blanks hblanks =>
    rw [List.cons_append, List.append_assoc, List.singleton_append, value_brace]
    cases depth with
    | zero => rfl
    | succ below =>
      simp only [skipSpace_delimiter hblanks (show isSpace ('}' : CodePoint) = false from rfl),
        if_true]
      rfl
  | @object s ms hisMembers =>
    rw [List.cons_append, List.append_assoc, List.singleton_append, value_brace]
    cases depth with
    | zero => rfl
    | succ below =>
      obtain ⟨more, hskip⟩ := members_head hisMembers (('}' : CodePoint) :: rest)
      have hshorter : 2 * s.length + 1 ≤ fuel := by
        simp only [List.length_cons, List.length_append, List.length_nil] at hfuel
        omega
      have hread : members fuel below [] (skipSpace (s ++ ('}' : CodePoint) :: rest)) = _ :=
        hmembers rest hisMembers hshorter
      rw [hskip] at hread
      simp only [hskip, if_neg (show ¬ quote = ('}' : CodePoint) by decide)]
      exact hread

/-- A value with blanks around it, and the sign that follows. -/
theorem padded_complete (hvalue : ValueComplete fuel) (depth : Nat) {s : Text} {v : Value}
    (h : Padded s v) (hfuel : 2 * s.length ≤ fuel) {c : CodePoint} (hc : c ∈ delimiters)
    (rest : Text) :
    ∃ after, value fuel depth (skipSpace (s ++ c :: rest)) =
        unlessWrong (v, after) (v.misfit? depth) ∧
      skipSpace after = c :: rest := by
  cases h with
  | @mk before s after v hbefore hspells hafter =>
    have hclosing : ∀ c ∈ delimiters, isSpace c = false := by decide
    obtain ⟨d, tail, hs, hspace, _⟩ := spells_head hspells
    have hskip : skipSpace (before ++ (s ++ after) ++ c :: rest) = s ++ (after ++ c :: rest) := by
      rw [hs, List.append_assoc, List.append_assoc, List.cons_append]
      exact skipSpace_delimiter hbefore hspace
    refine ⟨after ++ c :: rest, ?_, skipSpace_delimiter hafter (hclosing c hc)⟩
    rw [hskip]
    refine hvalue hspells (endsNumber_blanks_append hafter hc) ?_
    simp only [List.length_append] at hfuel
    omega

theorem items_complete_succ (hvalue : ValueComplete fuel) (hitems : ItemsComplete fuel) :
    ItemsComplete (fuel + 1) := by
  intro depth done s rest vs h hfuel
  cases h with
  | @last s v hpadded =>
    obtain ⟨after, hread, hskip⟩ := padded_complete hvalue depth hpadded (by omega)
      (show (']' : CodePoint) ∈ delimiters by decide) rest
    rw [items_succ, hread, Value.misfitItems?, Value.misfitItems?, Option.or_none]
    cases v.misfit? depth with
    | some e => rfl
    | none => simp only [unlessWrong, hskip, if_true, List.reverse_cons]
  | @next s others v vs hpadded helements =>
    rw [List.length_append, List.length_cons] at hfuel
    obtain ⟨after, hread, hskip⟩ := padded_complete hvalue depth hpadded (by omega)
      (show (',' : CodePoint) ∈ delimiters by decide) (others ++ (']' : CodePoint) :: rest)
    have hothers : items fuel depth (v :: done) (skipSpace (_ ++ (']' : CodePoint) :: rest)) = _ :=
      hitems rest helements (by omega)
    rw [List.append_assoc, List.cons_append, items_succ, hread, Value.misfitItems?]
    cases v.misfit? depth with
    | some e => rfl
    | none =>
      simp only [unlessWrong, hskip,
        if_neg (show ¬ (',' : CodePoint) = (']' : CodePoint) by decide), if_true]
      rw [hothers, List.reverse_cons, List.append_assoc]
      rfl

/-- A name and the colon after it. -/
theorem members_named {depth : Nat} {done : List (Text × Value)} {before name after text : Text}
    (hbefore : Blanks before) (hname : SpellsString name text) (hafter : Blanks after)
    (more : Text) : members (fuel + 1) depth done
      (skipSpace (before ++ (name ++ (after ++ (':' : CodePoint) :: more)))) =
    match value fuel depth (skipSpace more) with
    | .error e => .error e
    | .ok (v, rest) =>
      match skipSpace rest with
      | [] => fail .expectingComma []
      | c :: more =>
        if c = ('}' : CodePoint) then closeObject ((text, v) :: done) more
        else if c = (',' : CodePoint) then members fuel depth ((text, v) :: done) (skipSpace more)
        else fail .expectingComma (c :: more) := by
  cases hname with
  | @mk body _ units hwritten hjoined =>
    obtain ⟨rest, hrest⟩ : ∃ rest, rest = after ++ (':' : CodePoint) :: more := ⟨_, rfl⟩
    have hbody := stringBody_complete hwritten (quote :: (body ++ quote :: rest)) rest []
    have hjoin : joinSurrogates ([].reverse ++ units) = text := joinSurrogates_eq_iff.mpr hjoined
    have hcolon : skipSpace rest = (':' : CodePoint) :: more := by
      rw [hrest]
      exact skipSpace_delimiter hafter rfl
    rw [hjoin] at hbody
    rw [← hrest, List.cons_append, List.append_assoc, List.singleton_append,
      skipSpace_delimiter hbefore rfl, members_quote, hbody]
    simp only [hcolon, if_true]

theorem members_complete_succ (hvalue : ValueComplete fuel) (hmembers : MembersComplete fuel) :
    MembersComplete (fuel + 1) := by
  intro depth done s rest ms h hfuel
  cases h with
  | @last before name after s text v hbefore hname hafter hpadded =>
    simp only [List.length_append, List.length_cons] at hfuel
    obtain ⟨afterValue, hread, hskip⟩ := padded_complete hvalue depth hpadded (by omega)
      (show ('}' : CodePoint) ∈ delimiters by decide) rest
    simp only [List.append_assoc, List.cons_append]
    rw [members_named hbefore hname hafter, hread, Value.misfitMembers?, Value.misfitMembers?,
      Option.or_none]
    cases v.misfit? depth with
    | some e => rfl
    | none =>
      simp only [unlessWrong, hskip, if_true]
      rw [closeObject_eq, List.reverse_cons]
      rfl
  | @next before name after s text others v ms hbefore hname hafter hpadded hothers =>
    simp only [List.length_append, List.length_cons] at hfuel
    obtain ⟨afterValue, hread, hskip⟩ := padded_complete hvalue depth hpadded (by omega)
      (show (',' : CodePoint) ∈ delimiters by decide) (others ++ ('}' : CodePoint) :: rest)
    have hrest : members fuel depth ((text, v) :: done)
        (skipSpace (_ ++ ('}' : CodePoint) :: rest)) = _ := hmembers rest hothers (by omega)
    simp only [List.append_assoc, List.cons_append]
    rw [members_named hbefore hname hafter, hread, Value.misfitMembers?]
    cases v.misfit? depth with
    | some e => rfl
    | none =>
      simp only [unlessWrong, hskip,
        if_neg (show ¬ (',' : CodePoint) = ('}' : CodePoint) by decide), if_true]
      rw [hrest, List.reverse_cons, List.append_assoc]
      rfl

/-- **What is spelled is read, or what is wrong with it is found**, with twice its length as
fuel. -/
theorem complete (fuel : Nat) : ValueComplete fuel ∧ ItemsComplete fuel ∧ MembersComplete fuel := by
  induction fuel with
  | zero =>
    refine ⟨fun h _ hfuel => ?_, fun _ _ _ hfuel => by omega, fun _ _ _ hfuel => by omega⟩
    obtain ⟨c, tail, rfl, _⟩ := spells_head h
    rw [List.length_cons] at hfuel
    omega
  | succ fuel ih =>
    obtain ⟨hvalue, hitems, hmembers⟩ := ih
    exact ⟨value_complete_succ hitems hmembers, items_complete_succ hvalue hitems,
      members_complete_succ hvalue hmembers⟩

end Complete

/-! ### The beginning of a text -/

/-- Every value begins with a sign of ASCII. -/
theorem spells_head_lt {s : Text} {v : Value} (h : Spells s v) : ∀ c ∈ s.head?, c.val < 0x80 := by
  have hconstant : ∀ w ∈ constants, ∀ c ∈ w.head?, c.val < 0x80 := by decide +kernel
  cases h with
  | null | true | false => decide
  | constant mem => exact hconstant s mem
  | number spells =>
    obtain ⟨d, tail, rfl, hd⟩ := spells.head
    intro c hc
    rw [← Option.some.inj hc]
    rcases hd with rfl | hdigit
    · decide
    · simp only [CodePoint.isAsciiDigit, Bool.and_eq_true, decide_eq_true_eq] at hdigit
      omega
  | string spells =>
    obtain ⟨_, _⟩ := spells
    intro c hc
    rw [← Option.some.inj hc]
    decide
  | emptyArray | array | emptyObject | object =>
    intro c hc
    rw [← Option.some.inj hc]
    decide

/-- A byte order mark is part of no text that spells a value. -/
theorem Padded.head?_ne_byteOrderMark {text : Text} {v : Value} (h : Padded text v) :
    text.head? ≠ some byteOrderMark := by
  have hspace : isSpace byteOrderMark = false := by decide
  intro hmark
  cases h with
  | @mk before s after v hbefore hspells hafter =>
    cases before with
    | cons c rest =>
      have hc := hbefore c (List.mem_cons_self ..)
      rw [Option.some.inj hmark, hspace] at hc
      cases hc
    | nil =>
      obtain ⟨c, tail, rfl, _⟩ := spells_head hspells
      have hc := spells_head_lt hspells c rfl
      rw [Option.some.inj hmark] at hc
      revert hc
      decide

/-! ### The whole text -/

/-- A value between blanks is read, unless something is wrong with it, and nothing but blanks is
left. -/
theorem value_of_padded (limit : Nat) {text : Text} {v : Value} (h : Padded text v) :
    ∃ after, value (2 * text.length + 1) limit (skipSpace text) =
        unlessWrong (v, after) (v.misfit? limit) ∧
      skipSpace after = [] := by
  cases h with
  | @mk before s after v hbefore hspells hafter =>
    obtain ⟨c, tail, hs, hspace, _⟩ := spells_head hspells
    have hskip : skipSpace (before ++ (s ++ after)) = s ++ after := by
      rw [hs, List.cons_append]
      exact skipSpace_delimiter hbefore hspace
    have hends : EndsNumber after :=
      endsNumber_of_head fun c hc => .inl (hafter c (List.mem_of_head? hc))
    have hread : value (2 * (before ++ (s ++ after)).length + 1) limit (s ++ after) =
        unlessWrong (v, after) (v.misfit? limit) := by
      refine (complete _).1 hspells hends ?_
      simp only [List.length_append]
      omega
    have hend : skipSpace after = [] := by
      have hall := skipSpace_append (s := []) hafter nofun
      rwa [List.append_nil] at hall
    exact ⟨after, by rw [hskip, hread], hend⟩

/-- So it is with the whole text. -/
theorem parse_of_padded [Limits] {text : Text} {v : Value} (h : Padded text v) :
    parse text = unlessWrong v (v.misfit? Limits.json) := by
  obtain ⟨after, hread, hend⟩ := value_of_padded Limits.json h
  rw [parse, if_neg h.head?_ne_byteOrderMark, hread]
  cases v.misfit? Limits.json with
  | some e => rfl
  | none => simp only [unlessWrong, bind, Except.bind, hend]

/-- **A text spells one value at most** in which no object repeats a name. -/
theorem Padded.unique {text : Text} {v v' : Value} (h : Padded text v) (h' : Padded text v')
    (hv : v.NamesDistinct) (hv' : v'.NamesDistinct) : v = v' := by
  -- both are read where as deep a nesting is allowed as either has
  have hfits : v.misfit? (max v.depth v'.depth) = none :=
    (Value.misfit?_eq_none_iff _ v).mpr ⟨Nat.le_max_left .., hv⟩
  have hfits' : v'.misfit? (max v.depth v'.depth) = none :=
    (Value.misfit?_eq_none_iff _ v').mpr ⟨Nat.le_max_right .., hv'⟩
  obtain ⟨after, hread, _⟩ := value_of_padded _ h
  obtain ⟨after', hread', _⟩ := value_of_padded _ h'
  rw [hfits] at hread
  rw [hread, hfits', unlessWrong, unlessWrong, Except.ok.injEq, Prod.mk.injEq] at hread'
  exact hread'.1

/-- What is read between blanks is spelled between blanks. -/
theorem padded_of_value {limit : Nat} {text after : Text} {v : Value} {fuel : Nat}
    (hread : value fuel limit (skipSpace text) = .ok (v, after)) (hend : skipSpace after = []) :
    Padded text v ∧ v.Fits limit := by
  obtain ⟨used, hused, hspells, hfits⟩ := (sound _).1 hread
  obtain ⟨blanks, hblanks, htext⟩ := exists_blanks text
  obtain ⟨blanks', hblanks', hafter⟩ := exists_blanks after
  rw [hend, List.append_nil] at hafter
  rw [htext, hused, hafter]
  exact ⟨.mk hblanks hspells hblanks', hfits⟩

/-- **The texts that have a value**: those that do not begin with a byte order mark and spell one
between blanks, in which no object repeats a name and nothing nests deeper than the limit. -/
theorem parse_eq_ok_iff [Limits] {text : Text} {v : Value} : parse text = .ok v ↔
    text.head? ≠ some byteOrderMark ∧ Padded text v ∧ v.Fits Limits.json := by
  by_cases hmark : text.head? = some byteOrderMark
  · simp [parse, hmark, fail]
  rw [parse, if_neg hmark]
  constructor
  · intro h
    cases hread : value (2 * text.length + 1) Limits.json (skipSpace text) with
    | error e =>
      rw [hread] at h
      cases h
    | ok found =>
      obtain ⟨v', after⟩ := found
      cases hend : skipSpace after with
      | cons c rest =>
        simp only [hread, bind, Except.bind, hend] at h
        cases h
      | nil =>
        simp only [hread, bind, Except.bind, hend] at h
        rw [← Except.ok.inj h]
        exact ⟨hmark, padded_of_value hread hend⟩
  · rintro ⟨_, hpadded, hfits⟩
    have hread := parse_of_padded hpadded
    rw [(Value.misfit?_eq_none_iff _ v).mpr hfits, parse, if_neg hmark] at hread
    exact hread

end AdmissionControl.Json
