import AdmissionControl.Proofs.Json.Parser

/-!
# Texts that nest too deep

The parser gives up on a text at the bracket that opens one container too many, before it has seen
the rest.  Which texts those are is said here in the terms of the grammar: everything before the
bracket must be the beginning of a value, and so many containers must be open there.

* `ElementsBefore`, `MembersBefore` — what may stand in a container before the value at hand.
* `Overfull` — a text in which one container too many opens.
* `stringBody_ne_tooDeep`, `scalar_ne_tooDeep` — nothing but a bracket nests too deep.
* `deep_sound`, `deep_complete` — where the parser gives up, and that it does.
* `parse_tooDeep_iff` — so it is with the whole text.
-/

namespace AdmissionControl.Json

/-! ### Where one container too many opens -/

/-- Elements of an array with a comma after each, before the one at hand. -/
inductive ElementsBefore (limit : Nat) : Text → Prop
  | nothing {blanks : Text} (isBlanks : Blanks blanks) : ElementsBefore limit blanks
  | next {s others : Text} {v : Value} (padded : Padded s v) (fits : v.Fits limit)
      (isBefore : ElementsBefore limit others) :
      ElementsBefore limit (s ++ (',' : CodePoint) :: others)

/-- Members of an object with a comma after each, and a name with its colon. -/
inductive MembersBefore (limit : Nat) : Text → Prop
  | named {before name after blanks text : Text} (isBefore : Blanks before)
      (spells : SpellsString name text) (isAfter : Blanks after) (isBlanks : Blanks blanks) :
      MembersBefore limit (before ++ (name ++ (after ++ (':' : CodePoint) :: blanks)))
  | next {before name after s others text : Text} {v : Value} (isBefore : Blanks before)
      (spells : SpellsString name text) (isAfter : Blanks after) (padded : Padded s v)
      (fits : v.Fits limit) (rest : MembersBefore limit others) :
      MembersBefore limit (before ++ (name ++ (after ++ (':' : CodePoint) ::
        (s ++ (',' : CodePoint) :: others))))

/-- A text in which more than so many containers are open at some point, up to which it is the
beginning of a value.  Whatever comes after that point is of no account. -/
inductive Overfull : Nat → Text → Prop
  | array (rest : Text) : Overfull 0 (('[' : CodePoint) :: rest)
  | object (rest : Text) : Overfull 0 (('{' : CodePoint) :: rest)
  | inArray {limit : Nat} {before rest : Text} (isBefore : ElementsBefore limit before)
      (overfull : Overfull limit rest) : Overfull (limit + 1) (('[' : CodePoint) :: (before ++ rest))
  | inObject {limit : Nat} {before rest : Text} (isBefore : MembersBefore limit before)
      (overfull : Overfull limit rest) : Overfull (limit + 1) (('{' : CodePoint) :: (before ++ rest))

theorem ElementsBefore.blanks_append {limit : Nat} {blanks s : Text} (hblanks : Blanks blanks)
    (h : ElementsBefore limit s) : ElementsBefore limit (blanks ++ s) := by
  cases h with
  | nothing isBlanks => exact .nothing (hblanks.append isBlanks)
  | next padded fits isBefore =>
    rw [← List.append_assoc]
    exact .next (padded.blanks_append hblanks) fits isBefore

theorem MembersBefore.blanks_append {limit : Nat} {blanks s : Text} (hblanks : Blanks blanks)
    (h : MembersBefore limit s) : MembersBefore limit (blanks ++ s) := by
  cases h with
  | named isBefore spells isAfter isBlanks =>
    rw [← List.append_assoc]
    exact .named (hblanks.append isBefore) spells isAfter isBlanks
  | next isBefore spells isAfter padded fits rest =>
    rw [← List.append_assoc]
    exact .next (hblanks.append isBefore) spells isAfter padded fits rest

/-- An overfull text begins with a bracket. -/
theorem Overfull.head {limit : Nat} {s : Text} (h : Overfull limit s) :
    ∃ c tail, s = c :: tail ∧ isSpace c = false ∧ c ≠ (']' : CodePoint) := by
  cases h <;> exact ⟨_, _, rfl, rfl, by decide⟩

theorem Overfull.skipSpace_append {limit : Nat} {blanks s : Text} (h : Overfull limit s)
    (hblanks : Blanks blanks) : skipSpace (blanks ++ s) = s := by
  obtain ⟨c, tail, rfl, hspace, _⟩ := h.head
  exact skipSpace_delimiter hblanks hspace

/-! ### Nothing but a bracket nests too deep -/

theorem stringBody_ne_tooDeep (start : Text) (done : List CodePoint) (s : Text) (c : Container) :
    stringBody start done s ≠ .error (.tooDeep c) := by
  intro h
  fun_induction stringBody start done s <;> first | contradiction | cases h

theorem scalar_ne_tooDeep (s : Text) (c : Container) : scalar s ≠ .error (.tooDeep c) := by
  have hnumber : number s ≠ .error (.tooDeep c) := by
    intro h
    rw [number.eq_def] at h
    simp only at h
    split at h
    · cases h
    · split at h
      · split at h <;> cases h
      · cases h
  rw [scalar]
  split
  · intro h
    cases h
  · exact hnumber

theorem closeObject_ne_tooDeep (done : List (Text × Value)) (s : Text) (c : Container) :
    closeObject done s ≠ .error (.tooDeep c) := by
  intro h
  rw [closeObject] at h
  split at h <;> cases h

/-! ### Where the parser gives up -/

def ValueDeep (fuel : Nat) : Prop :=
  ∀ {depth : Nat} {s : Text} {c : Container}, value fuel depth s = .error (.tooDeep c) →
    Overfull depth s

def ItemsDeep (fuel : Nat) : Prop :=
  ∀ {depth : Nat} {done : List Value} {s : Text} {c : Container},
    items fuel depth done s = .error (.tooDeep c) →
    ∃ before rest, s = before ++ rest ∧ ElementsBefore depth before ∧ Overfull depth rest

def MembersDeep (fuel : Nat) : Prop :=
  ∀ {depth : Nat} {done : List (Text × Value)} {s : Text} {c : Container},
    members fuel depth done s = .error (.tooDeep c) →
    ∃ before rest, s = before ++ rest ∧ MembersBefore depth before ∧ Overfull depth rest

section Sound

variable {fuel : Nat}

theorem bracket_deep (hitems : ItemsDeep fuel) {depth : Nat} {tail : Text} {c : Container}
    (h : value (fuel + 1) depth (('[' : CodePoint) :: tail) = .error (.tooDeep c)) :
    Overfull depth (('[' : CodePoint) :: tail) := by
  rw [value_bracket] at h
  cases depth with
  | zero => exact .array tail
  | succ depth =>
    obtain ⟨blanks, hblanks, htail⟩ := exists_blanks tail
    dsimp only at h
    split at h
    · cases h
    next d more hskip =>
    split at h
    · cases h
    · obtain ⟨before, rest, hmore, hbefore, hrest⟩ := hitems h
      rw [htail, hskip, hmore, ← List.append_assoc]
      exact .inArray (hbefore.blanks_append hblanks) hrest

theorem brace_deep (hmembers : MembersDeep fuel) {depth : Nat} {tail : Text} {c : Container}
    (h : value (fuel + 1) depth (('{' : CodePoint) :: tail) = .error (.tooDeep c)) :
    Overfull depth (('{' : CodePoint) :: tail) := by
  rw [value_brace] at h
  cases depth with
  | zero => exact .object tail
  | succ depth =>
    obtain ⟨blanks, hblanks, htail⟩ := exists_blanks tail
    dsimp only at h
    split at h
    · cases h
    next d more hskip =>
    split at h
    · cases h
    · obtain ⟨before, rest, hmore, hbefore, hrest⟩ := hmembers h
      rw [htail, hskip, hmore, ← List.append_assoc]
      exact .inObject (hbefore.blanks_append hblanks) hrest

theorem value_deep_succ (hitems : ItemsDeep fuel) (hmembers : MembersDeep fuel) :
    ValueDeep (fuel + 1) := by
  intro depth s c h
  cases s with
  | nil => cases h
  | cons d tail =>
    by_cases hquote : d = quote
    · subst hquote
      rw [value_quote] at h
      cases hstring : stringBody (quote :: tail) [] tail with
      | ok found =>
        rw [hstring] at h
        cases h
      | error e =>
        rw [hstring] at h
        rw [Except.error.inj h] at hstring
        exact absurd hstring (stringBody_ne_tooDeep _ _ _ c)
    by_cases hbracket : d = ('[' : CodePoint)
    · subst hbracket
      exact bracket_deep hitems h
    by_cases hbrace : d = ('{' : CodePoint)
    · subst hbrace
      exact brace_deep hmembers h
    · rw [value_other hquote hbracket hbrace] at h
      exact absurd h (scalar_ne_tooDeep _ c)

theorem items_deep_succ (hvalue : ValueDeep fuel) (hitems : ItemsDeep fuel) :
    ItemsDeep (fuel + 1) := by
  intro depth done s c h
  rw [items_succ] at h
  cases hread : value fuel depth s with
  | error e =>
    rw [hread] at h
    rw [Except.error.inj h] at hread
    exact ⟨[], s, rfl, .nothing blanks_nil, hvalue hread⟩
  | ok found =>
    obtain ⟨first, afterFirst⟩ := found
    obtain ⟨used, rfl, hspells, hfits⟩ := (sound fuel).1 hread
    obtain ⟨blanks, hblanks, hafter⟩ := exists_blanks afterFirst
    rw [hread] at h
    dsimp only at h
    split at h
    · cases h
    next d more hskip =>
    split at h
    · cases h
    split at h
    case isFalse => cases h
    next hcomma =>
    obtain ⟨blanks', hblanks', hmore⟩ := exists_blanks more
    obtain ⟨before, rest, hothers, hbefore, hrest⟩ := hitems h
    refine ⟨_, rest, ?_, .next (.mk blanks_nil hspells hblanks) hfits
      (hbefore.blanks_append hblanks'), hrest⟩
    rw [hafter, hskip, hcomma, hmore, hothers]
    simp

/-- Where members nest too deep: in the value of the first one, or in those behind it. -/
theorem member_deep {depth : Nat} {done : List (Text × Value)} {s : Text} {c : Container}
    (h : members (fuel + 1) depth done s = .error (.tooDeep c)) :
    ∃ tail name afterName afterColon,
      s = quote :: tail ∧ stringBody (quote :: tail) [] tail = .ok (name, afterName) ∧
      skipSpace afterName = (':' : CodePoint) :: afterColon ∧
      (value fuel depth (skipSpace afterColon) = .error (.tooDeep c) ∨
        ∃ first afterFirst more, value fuel depth (skipSpace afterColon) = .ok (first, afterFirst) ∧
          skipSpace afterFirst = (',' : CodePoint) :: more ∧
          members fuel depth ((name, first) :: done) (skipSpace more) = .error (.tooDeep c)) := by
  by_cases hquote : ∀ d ∈ s.head?, d ≠ quote
  · rw [members_other hquote] at h
    cases h
  obtain ⟨tail, rfl⟩ : ∃ tail, s = quote :: tail := by
    cases s with
    | nil => exact absurd nofun hquote
    | cons d tail => exact ⟨tail, by simpa using hquote⟩
  rw [members_quote] at h
  split at h
  · next e hstring =>
    rw [Except.error.inj h] at hstring
    exact absurd hstring (stringBody_ne_tooDeep _ _ _ c)
  next name afterName hstring =>
  split at h
  · cases h
  next colon afterColon hafter =>
  split at h
  case isFalse => cases h
  next hcolon =>
  subst hcolon
  refine ⟨tail, name, afterName, afterColon, rfl, hstring, hafter, ?_⟩
  split at h
  · next e hread => exact .inl (hread.trans h)
  next first afterFirst hread =>
  split at h
  · cases h
  next d more hskip =>
  split at h
  · exact absurd h (closeObject_ne_tooDeep _ _ c)
  split at h
  · next hcomma =>
    subst hcomma
    exact .inr ⟨first, afterFirst, more, hread, hskip, h⟩
  · cases h

theorem members_deep_succ (hvalue : ValueDeep fuel) (hmembers : MembersDeep fuel) :
    MembersDeep (fuel + 1) := by
  intro depth done s c h
  obtain ⟨tail, name, afterName, afterColon, rfl, hstring, hafter, hdeep⟩ := member_deep h
  obtain ⟨spelling, hspelling, hname⟩ := string_sound hstring
  obtain ⟨blanks, hblanks, hafterName⟩ := exists_blanks afterName
  obtain ⟨blanks₁, hblanks₁, hafterColon⟩ := exists_blanks afterColon
  have hstart : quote :: tail = spelling ++ (blanks ++ (':' : CodePoint) ::
      (blanks₁ ++ skipSpace afterColon)) := by
    rw [hspelling, hafterName, hafter, ← hafterColon]
  rcases hdeep with hread | ⟨first, afterFirst, more, hread, hskip, hrest⟩
  · refine ⟨_, skipSpace afterColon, ?_, .named blanks_nil hname hblanks hblanks₁, hvalue hread⟩
    rw [hstart]
    simp
  · obtain ⟨used, hused, hspells, hfits⟩ := (sound fuel).1 hread
    obtain ⟨blanks₂, hblanks₂, hafterFirst⟩ := exists_blanks afterFirst
    obtain ⟨blanks₃, hblanks₃, hmore⟩ := exists_blanks more
    obtain ⟨before, rest, hothers, hbefore, hoverfull⟩ := hmembers hrest
    refine ⟨_, rest, ?_, .next blanks_nil hname hblanks (.mk hblanks₁ hspells hblanks₂) hfits
      (hbefore.blanks_append hblanks₃), hoverfull⟩
    rw [hstart, hused, hafterFirst, hskip, hmore, hothers]
    simp

/-- **Where the parser gives up**, one container too many opens. -/
theorem deep_sound (fuel : Nat) : ValueDeep fuel ∧ ItemsDeep fuel ∧ MembersDeep fuel := by
  induction fuel with
  | zero => exact ⟨nofun, nofun, nofun⟩
  | succ fuel ih =>
    obtain ⟨hvalue, hitems, hmembers⟩ := ih
    exact ⟨value_deep_succ hitems hmembers, items_deep_succ hvalue hitems,
      members_deep_succ hvalue hmembers⟩

end Sound

/-! ### That it gives up there -/

/-- The parser gives up on a text, with twice its length as fuel. -/
def GivesUp (limit : Nat) (s : Text) : Prop :=
  ∀ fuel, 2 * s.length ≤ fuel → ∃ c, value fuel limit s = .error (.tooDeep c)

section Complete

variable {limit : Nat} {rest : Text}

theorem items_deep {before : Text} (hbefore : ElementsBefore limit before)
    (hoverfull : Overfull limit rest) (hrest : GivesUp limit rest) (done : List Value) {fuel : Nat}
    (hfuel : 2 * (before ++ rest).length + 1 ≤ fuel) :
    ∃ c, items fuel limit done (skipSpace (before ++ rest)) = .error (.tooDeep c) := by
  induction hbefore generalizing done fuel with
  | @nothing blanks isBlanks =>
    rw [List.length_append] at hfuel
    obtain ⟨fuel, rfl⟩ := Nat.exists_eq_add_of_le' (Nat.one_le_of_lt hfuel)
    obtain ⟨c, hc⟩ := hrest fuel (by omega)
    exact ⟨c, by rw [hoverfull.skipSpace_append isBlanks, items_succ, hc]⟩
  | @next s others v padded fits _ ih =>
    simp only [List.length_append, List.length_cons] at hfuel
    obtain ⟨fuel, rfl⟩ := Nat.exists_eq_add_of_le' (Nat.one_le_of_lt hfuel)
    obtain ⟨after, hread, hskip⟩ := padded_complete (complete fuel).1 limit padded (by omega)
      (show (',' : CodePoint) ∈ delimiters by decide) (others ++ rest)
    rw [(Value.misfit?_eq_none_iff limit v).mpr fits] at hread
    obtain ⟨c, hc⟩ : ∃ c, items fuel limit (v :: done) (skipSpace (others ++ rest)) =
        .error (.tooDeep c) := ih (v :: done) (by rw [List.length_append]; omega)
    refine ⟨c, ?_⟩
    rw [List.append_assoc, List.cons_append, items_succ, hread]
    simp only [unlessWrong, hskip, if_neg (show ¬ (',' : CodePoint) = (']' : CodePoint) by decide),
      if_true]
    exact hc

theorem members_deep {before : Text} (hbefore : MembersBefore limit before)
    (hoverfull : Overfull limit rest) (hrest : GivesUp limit rest) (done : List (Text × Value))
    {fuel : Nat} (hfuel : 2 * (before ++ rest).length + 1 ≤ fuel) :
    ∃ c, members fuel limit done (skipSpace (before ++ rest)) = .error (.tooDeep c) := by
  induction hbefore generalizing done fuel with
  | @named before name after blanks text isBefore spells isAfter isBlanks =>
    simp only [List.length_append, List.length_cons] at hfuel
    obtain ⟨fuel, rfl⟩ := Nat.exists_eq_add_of_le' (Nat.one_le_of_lt hfuel)
    obtain ⟨c, hc⟩ := hrest fuel (by omega)
    refine ⟨c, ?_⟩
    simp only [List.append_assoc, List.cons_append]
    rw [members_named isBefore spells isAfter, hoverfull.skipSpace_append isBlanks, hc]
  | @next before name after s others text v isBefore spells isAfter padded fits _ ih =>
    simp only [List.length_append, List.length_cons] at hfuel
    obtain ⟨fuel, rfl⟩ := Nat.exists_eq_add_of_le' (Nat.one_le_of_lt hfuel)
    obtain ⟨afterValue, hread, hskip⟩ := padded_complete (complete fuel).1 limit padded (by omega)
      (show (',' : CodePoint) ∈ delimiters by decide) (others ++ rest)
    rw [(Value.misfit?_eq_none_iff limit v).mpr fits] at hread
    obtain ⟨c, hc⟩ : ∃ c, members fuel limit ((text, v) :: done) (skipSpace (others ++ rest)) =
        .error (.tooDeep c) := ih ((text, v) :: done) (by rw [List.length_append]; omega)
    refine ⟨c, ?_⟩
    simp only [List.append_assoc, List.cons_append]
    rw [members_named isBefore spells isAfter, hread]
    simp only [unlessWrong, hskip, if_neg (show ¬ (',' : CodePoint) = ('}' : CodePoint) by decide),
      if_true]
    exact hc

/-- What stands before an overfull text in an array begins no closing bracket. -/
theorem ElementsBefore.head {before : Text} (h : ElementsBefore limit before)
    (hrest : Overfull limit rest) :
    ∃ c tail, skipSpace (before ++ rest) = c :: tail ∧ c ≠ (']' : CodePoint) := by
  cases h with
  | nothing isBlanks =>
    obtain ⟨c, tail, rfl, hspace, hne⟩ := hrest.head
    exact ⟨c, tail, skipSpace_delimiter isBlanks hspace, hne⟩
  | next padded =>
    rw [List.append_assoc]
    exact elements_head (.last padded) _

theorem MembersBefore.head {before : Text} (h : MembersBefore limit before) (rest : Text) :
    ∃ tail, skipSpace (before ++ rest) = quote :: tail := by
  cases h with
  | named isBefore spells | next isBefore spells =>
    obtain ⟨_, _⟩ := spells
    rw [List.append_assoc]
    exact ⟨_, skipSpace_delimiter isBefore rfl⟩

/-- **The parser gives up** where one container too many opens. -/
theorem deep_complete {s : Text} (h : Overfull limit s) : GivesUp limit s := by
  induction h with
  | array rest =>
    intro fuel hfuel
    rw [List.length_cons] at hfuel
    obtain ⟨fuel, rfl⟩ := Nat.exists_eq_add_of_le' (show 1 ≤ fuel by omega)
    exact ⟨_, value_bracket⟩
  | object rest =>
    intro fuel hfuel
    rw [List.length_cons] at hfuel
    obtain ⟨fuel, rfl⟩ := Nat.exists_eq_add_of_le' (show 1 ≤ fuel by omega)
    exact ⟨_, value_brace⟩
  | @inArray limit before rest isBefore overfull ih =>
    intro fuel hfuel
    rw [List.length_cons] at hfuel
    obtain ⟨fuel, rfl⟩ := Nat.exists_eq_add_of_le' (show 1 ≤ fuel by omega)
    obtain ⟨c, hc⟩ : ∃ c, items fuel limit [] (skipSpace (before ++ rest)) = .error (.tooDeep c) :=
      items_deep isBefore overfull ih [] (by omega)
    obtain ⟨d, tail, hskip, hne⟩ := isBefore.head overfull
    rw [hskip] at hc
    refine ⟨c, ?_⟩
    rw [value_bracket]
    simp only [hskip, if_neg hne]
    exact hc
  | @inObject limit before rest isBefore overfull ih =>
    intro fuel hfuel
    rw [List.length_cons] at hfuel
    obtain ⟨fuel, rfl⟩ := Nat.exists_eq_add_of_le' (show 1 ≤ fuel by omega)
    obtain ⟨c, hc⟩ : ∃ c, members fuel limit [] (skipSpace (before ++ rest)) =
        .error (.tooDeep c) := members_deep isBefore overfull ih [] (by omega)
    obtain ⟨tail, hskip⟩ := isBefore.head rest
    rw [hskip] at hc
    refine ⟨c, ?_⟩
    rw [value_brace]
    simp only [hskip, if_neg (show ¬ quote = ('}' : CodePoint) by decide)]
    exact hc

end Complete

/-! ### The whole text -/

/-- A text whose value nests too deep, behind blanks. -/
def TooDeep [Limits] (text : Text) : Prop :=
  ∃ blanks rest, Blanks blanks ∧ text = blanks ++ rest ∧ Overfull Limits.json rest

theorem tooDeep_iff_skipSpace [Limits] {text : Text} :
    TooDeep text ↔ Overfull Limits.json (skipSpace text) := by
  constructor
  · rintro ⟨blanks, rest, hblanks, rfl, hrest⟩
    rwa [hrest.skipSpace_append hblanks]
  · intro h
    obtain ⟨blanks, hblanks, htext⟩ := exists_blanks text
    exact ⟨blanks, _, hblanks, htext, h⟩

/-- **The texts that nest too deep** for the parser. -/
theorem parse_tooDeep_iff [Limits] {text : Text} :
    (∃ c, parse text = .error (.tooDeep c)) ↔ TooDeep text := by
  rw [tooDeep_iff_skipSpace]
  by_cases hmark : text.head? = some byteOrderMark
  · obtain ⟨tail, rfl⟩ : ∃ tail, text = byteOrderMark :: tail := by
      cases text with
      | nil => cases hmark
      | cons c tail => exact ⟨tail, by rw [Option.some.inj hmark]⟩
    rw [parse, if_pos hmark]
    refine iff_of_false ?_ ?_
    · rintro ⟨c, hc⟩
      cases hc
    · generalize Limits.json = limit
      intro h
      cases h
  rw [parse, if_neg hmark]
  constructor
  · rintro ⟨c, hc⟩
    cases hread : value (2 * text.length + 1) Limits.json (skipSpace text) with
    | error e =>
      rw [hread] at hc
      rw [Except.error.inj hc] at hread
      exact (deep_sound _).1 hread
    | ok found =>
      obtain ⟨v, after⟩ := found
      simp only [hread, bind, Except.bind] at hc
      split at hc <;> cases hc
  · intro h
    have hlength : (skipSpace text).length ≤ text.length := List.length_dropWhile_le _ _
    obtain ⟨c, hc⟩ := deep_complete h (2 * text.length + 1) (by omega)
    exact ⟨c, by rw [hc]; rfl⟩

end AdmissionControl.Json
