import AdmissionControl.Proofs.Allowlist
import AdmissionControl.Proofs.Json.Parser
import Mathlib.Data.Set.Function
import Mathlib.Logic.Equiv.Basic

/-!
# Lists that differ in their entries

Two documents hold the same list up to the names of its entries.  Loading them comes to the same
error, or to two sets of one size.

* `IsEntry`, `Renaming` — texts that are entries, and other names for them that keep apart what has
  different normal forms.
* `Renaming.document` — a document with other names for its entries and nothing else changed.
* `SameResult` — the same error, or results that are related.
* `Renaming.exchange` — two code points that no normal form depends on may be exchanged everywhere.
* `Renaming.Renamed`, `Renaming.normalizeFrom` — the sets of two such lists, entry by entry.
* `Veil` — a renaming with the documents that occur and the way in which they are written.
* `Veil.ofRead` — what loading the two comes to.
-/

namespace AdmissionControl

/-! ### Results that are related -/

/-- The same error, or results that are related. -/
inductive SameResult {ε α α' : Type} (R : α → α' → Prop) : Except ε α → Except ε α' → Prop
  | error (e : ε) : SameResult R (.error e) (.error e)
  | ok {a : α} {a' : α'} : R a a' → SameResult R (.ok a) (.ok a')

namespace SameResult

variable {ε α α' β β' : Type} {R : α → α' → Prop} {S : β → β' → Prop} {x : Except ε α}
  {x' : Except ε α'}

theorem cases (h : SameResult R x x') : (∃ e, x = .error e ∧ x' = .error e) ∨
    ∃ a a', x = .ok a ∧ x' = .ok a' ∧ R a a' := by
  cases h with
  | error e => exact .inl ⟨e, rfl, rfl⟩
  | ok hR => exact .inr ⟨_, _, rfl, rfl, hR⟩

/-- Two computations in two parts each are related if their parts are. -/
theorem bind (h : SameResult R x x') {next : α → Except ε β} {next' : α' → Except ε β'}
    (hnext : ∀ a a', R a a' → SameResult S (next a) (next' a')) :
    SameResult S (x >>= next) (x' >>= next') := by
  cases h with
  | error e => exact .error e
  | ok hR => exact hnext _ _ hR

theorem map (h : SameResult R x x') {f : α → β} {f' : α' → β'}
    (hf : ∀ a a', R a a' → S (f a) (f' a')) : SameResult S (x.map f) (x'.map f') := by
  cases h with
  | error e => exact .error e
  | ok hR => exact .ok (hf _ _ hR)

end SameResult

namespace Json.Value

/-! ### Errors that do not depend on how a value is written -/

mutual

/-- What is wrong with a value has no place in its text. -/
theorem misfit?_ne_malformed (limit : Nat) {problem : Problem} {remaining : Nat} :
    ∀ v : Value, v.misfit? limit ≠ some (.malformed problem remaining)
  | array items => by
    cases limit with
    | zero => simp [misfit?]
    | succ below => exact misfitItems?_ne_malformed below items
  | object members => by
    cases limit with
    | zero => simp [misfit?]
    | succ below =>
      simp [misfit?, Option.or_eq_some_iff, misfitMembers?_ne_malformed below members]
  | null | bool _ | integer _ | decimal _ | string _ => nofun

theorem misfitItems?_ne_malformed (limit : Nat) {problem : Problem} {remaining : Nat} :
    ∀ items : List Value, misfitItems? limit items ≠ some (.malformed problem remaining)
  | [] => nofun
  | v :: items => by
    simp [misfitItems?, Option.or_eq_some_iff, misfit?_ne_malformed limit v,
      misfitItems?_ne_malformed limit items]

theorem misfitMembers?_ne_malformed (limit : Nat) {problem : Problem} {remaining : Nat} :
    ∀ members : List (Text × Value),
      misfitMembers? limit members ≠ some (.malformed problem remaining)
  | [] => nofun
  | (_, v) :: members => by
    simp [misfitMembers?, Option.or_eq_some_iff, misfit?_ne_malformed limit v,
      misfitMembers?_ne_malformed limit members]

end

end Json.Value

namespace Allowlist

open Identifier (normalizeText normalizeText_eq_ok_iff)

/-! ### Other names for entries -/

/-- A text that has a normal form. -/
def IsEntry (s : Text) : Prop := ¬ Text.Blank s ∧ Text.SurrogateFree s

instance (s : Text) : Decidable (IsEntry s) := inferInstanceAs (Decidable (_ ∧ _))

theorem isEntry_iff {s : Text} : IsEntry s ↔ ∃ x, normalizeText s = .ok x := by
  simp only [IsEntry, normalizeText_eq_ok_iff]
  exact ⟨fun h => ⟨_, h.1, h.2, rfl⟩, fun ⟨_, hblank, hfree, _⟩ => ⟨hblank, hfree⟩⟩

/-- One-to-one other names for entries; two have one normal form exactly if the entries have. -/
structure Renaming where
  rename : Text → Text
  isEntry : ∀ s, IsEntry s → IsEntry (rename s)
  injective : ∀ s t, IsEntry s → IsEntry t → rename s = rename t → s = t
  normal : ∀ s t, IsEntry s → IsEntry t →
    (normalizeText (rename s) = normalizeText (rename t) ↔ normalizeText s = normalizeText t)

namespace Renaming

variable (ρ : Renaming)

/-- Texts that are no entries stay as they are. -/
def text (s : Text) : Text := if IsEntry s then ρ.rename s else s

def item : Json.Value → Json.Value
  | .string s => .string (ρ.text s)
  | v => v

def list : Json.Value → Json.Value
  | .array items => .array (items.map ρ.item)
  | v => v

def member (m : Text × Json.Value) : Text × Json.Value :=
  (m.1, if m.1 = memberName then ρ.list m.2 else m.2)

/-- The document with other names for the entries of its list. -/
def document : Json.Value → Json.Value
  | .object members => .object (members.map ρ.member)
  | v => v

theorem text_injective : Function.Injective ρ.text := by
  intro s t h
  by_cases hs : IsEntry s <;> by_cases ht : IsEntry t
  · rw [text, text, if_pos hs, if_pos ht] at h
    exact ρ.injective s t hs ht h
  · rw [text, text, if_pos hs, if_neg ht] at h
    exact absurd (h ▸ ρ.isEntry s hs) ht
  · rw [text, text, if_neg hs, if_pos ht] at h
    exact absurd (h ▸ ρ.isEntry t ht) hs
  · rwa [text, text, if_neg hs, if_neg ht] at h

theorem item_injective : Function.Injective ρ.item := by
  intro v w h
  cases v <;> cases w <;> simp_all [item, ρ.text_injective.eq_iff]

theorem list_injective : Function.Injective ρ.list := by
  intro v w h
  cases v <;> cases w <;> simp_all [list, (List.map_injective_iff.mpr ρ.item_injective).eq_iff]

theorem member_injective : Function.Injective ρ.member := by
  rintro ⟨name, v⟩ ⟨name', w⟩ h
  obtain ⟨rfl, hvalue⟩ := Prod.mk.inj h
  by_cases hname : name = memberName
  · simp only [hname, if_true] at hvalue
    rw [ρ.list_injective hvalue]
  · simp only [hname, if_false] at hvalue
    rw [hvalue]

theorem document_injective : Function.Injective ρ.document := by
  intro v w h
  cases v <;> cases w <;>
    simp_all [document, (List.map_injective_iff.mpr ρ.member_injective).eq_iff]

/-! ### A renamed document fits as the document does -/

theorem misfitItems?_map (limit : Nat) (items : List Json.Value) :
    Json.Value.misfitItems? limit (items.map ρ.item) = Json.Value.misfitItems? limit items := by
  induction items with
  | nil => rfl
  | cons v items ih =>
    have hitem : (ρ.item v).misfit? limit = v.misfit? limit := by
      cases v <;> rfl
    rw [List.map_cons, Json.Value.misfitItems?, Json.Value.misfitItems?, hitem, ih]

theorem misfit?_list (limit : Nat) (v : Json.Value) :
    (ρ.list v).misfit? limit = v.misfit? limit := by
  cases v with
  | array items =>
    cases limit with
    | zero => rfl
    | succ below => exact ρ.misfitItems?_map below items
  | _ => rfl

theorem misfitMembers?_map (limit : Nat) (members : List (Text × Json.Value)) :
    Json.Value.misfitMembers? limit (members.map ρ.member) =
      Json.Value.misfitMembers? limit members := by
  induction members with
  | nil => rfl
  | cons m members ih =>
    have hmember : (ρ.member m).2.misfit? limit = m.2.misfit? limit := by
      simp only [member]
      split
      · exact ρ.misfit?_list limit m.2
      · rfl
    rw [List.map_cons, Json.Value.misfitMembers?, Json.Value.misfitMembers?, hmember, ih]

theorem misfit?_document (limit : Nat) (v : Json.Value) :
    (ρ.document v).misfit? limit = v.misfit? limit := by
  cases v with
  | object members =>
    have hnames : (members.map ρ.member).map (·.1) = members.map (·.1) := by
      rw [List.map_map]
      rfl
    cases limit with
    | zero => rfl
    | succ below =>
      rw [document, Json.Value.misfit?, Json.Value.misfit?, hnames, ρ.misfitMembers?_map]
  | _ => rfl

/-! ### The sets of two lists -/

/-- The normal forms of an entry and of its other name. -/
def Renamed (x x' : Text) : Prop :=
  ∃ s, IsEntry s ∧ normalizeText s = .ok x ∧ normalizeText (ρ.rename s) = .ok x'

variable {ρ}

/-- Different normal forms stay apart, and equal ones stay equal. -/
theorem Renamed.eq_iff {x x' y y' : Text} (hx : ρ.Renamed x x') (hy : ρ.Renamed y y') :
    x = y ↔ x' = y' := by
  obtain ⟨s, hs, hsx, hsx'⟩ := hx
  obtain ⟨t, ht, hty, hty'⟩ := hy
  have hnormal := ρ.normal s t hs ht
  rw [hsx, hty, hsx', hty', Except.ok.injEq, Except.ok.injEq] at hnormal
  exact hnormal.symm

theorem Renamed.mem_iff {done done' : List Text} (h : List.Forall₂ ρ.Renamed done done')
    {x x' : Text} (hx : ρ.Renamed x x') : x ∈ done ↔ x' ∈ done' := by
  induction h with
  | nil => simp
  | cons hy _ ih => rw [List.mem_cons, List.mem_cons, hx.eq_iff hy, ih]

theorem Renamed.insertNew {done done' : List Text} (h : List.Forall₂ ρ.Renamed done done')
    {x x' : Text} (hx : ρ.Renamed x x') :
    List.Forall₂ ρ.Renamed (insertNew done x) (insertNew done' x') := by
  rw [Allowlist.insertNew, Allowlist.insertNew]
  by_cases hmem : x ∈ done
  · rw [if_pos hmem, if_pos ((Renamed.mem_iff h hx).mp hmem)]
    exact h
  · rw [if_neg hmem, if_neg (mt (Renamed.mem_iff h hx).mpr hmem)]
    exact List.rel_append h (.cons hx .nil)

variable (ρ)

/-- An element and the renamed one: the same refusal, or two normal forms of one entry. -/
theorem normalize_item (v : Json.Value) :
    SameResult ρ.Renamed (Identifier.normalize (rawEntry v))
      (Identifier.normalize (rawEntry (ρ.item v))) := by
  cases v with
  | string s =>
    show SameResult ρ.Renamed (normalizeText s) (normalizeText (ρ.text s))
    by_cases hs : IsEntry s
    · obtain ⟨x, hx⟩ := isEntry_iff.mp hs
      obtain ⟨x', hx'⟩ := isEntry_iff.mp (ρ.isEntry s hs)
      rw [text, if_pos hs, hx, hx']
      exact .ok ⟨s, hs, hx, hx'⟩
    · rw [text, if_neg hs]
      cases hnone : normalizeText s with
      | ok x => exact absurd (isEntry_iff.mpr ⟨x, hnone⟩) hs
      | error e => exact .error e
  | _ => exact .error _

/-- **Two lists come to the same refusal at the same index, or to sets that are the same entry by
entry.** -/
theorem normalizeFrom (items : List Json.Value) (index : Nat) {done done' : List Text}
    (h : List.Forall₂ ρ.Renamed done done') :
    SameResult (List.Forall₂ ρ.Renamed) (normalizeFrom index done (items.map rawEntry))
      (normalizeFrom index done' ((items.map ρ.item).map rawEntry)) := by
  induction items generalizing index done done' with
  | nil => exact .ok h
  | cons v items ih =>
    rw [List.map_cons, List.map_cons, List.map_cons, Allowlist.normalizeFrom,
      Allowlist.normalizeFrom]
    rcases (ρ.normalize_item v).cases with ⟨e, he, he'⟩ | ⟨x, x', hx, hx', hrenamed⟩
    · rw [he, he']
      cases e <;> exact .error _
    · rw [hx, hx']
      exact ih (index + 1) (hrenamed.insertNew h)

theorem entrySet (path : Text) (items : List Json.Value) :
    SameResult (List.Forall₂ ρ.Renamed) (entrySet path (items.map rawEntry))
      (entrySet path ((items.map ρ.item).map rawEntry)) := by
  rw [Allowlist.entrySet, Allowlist.entrySet, normalizeAll, normalizeAll]
  rcases (ρ.normalizeFrom items 0 .nil).cases with ⟨e, he, he'⟩ | ⟨x, x', hx, hx', hrenamed⟩
  · rw [he, he']
    cases e <;> exact .error _
  · rw [hx, hx']
    exact .ok hrenamed

/-! ### Two documents -/

theorem find?_member (members : List (Text × Json.Value)) :
    (splitMembers (members.map ρ.member)).1 = (splitMembers members).1.map ρ.list := by
  simp only [splitMembers, List.find?_map]
  have hname : (fun m : Text × Json.Value => decide (m.1 = memberName)) ∘ ρ.member =
      fun m => decide (m.1 = memberName) := rfl
  rw [hname]
  cases hfind : members.find? fun m => decide (m.1 = memberName) with
  | none => rfl
  | some m =>
    have hm : m.1 = memberName := by simpa using List.find?_some hfind
    simp [member, hm]

/-- The raw entries of a document and of the renamed one. -/
theorem rawEntriesOf (path : Text) (d : Json.Value) :
    SameResult (fun raw raw' => ∃ items : List Json.Value, raw = items.map rawEntry ∧
        raw' = (items.map ρ.item).map rawEntry)
      (rawEntriesOf path d) (rawEntriesOf path (ρ.document d)) := by
  cases d with
  | object members =>
    simp only [document, Allowlist.rawEntriesOf, ρ.find?_member]
    cases (splitMembers members).1 with
    | none => exact .error _
    | some found =>
      cases found with
      | array items => exact .ok ⟨items, rfl, rfl⟩
      | _ => exact .error _
  | _ => exact .error _

end Renaming

/-! ### Marks -/

/-- A code point that no normal form depends on: neither blank nor a surrogate, and neither a letter
nor a digit of ASCII. -/
def IsMark (c : CodePoint) : Prop :=
  Text.isBlank c = false ∧ c.isSurrogate = false ∧ c.isAsciiUpper = false ∧
    c.isAsciiLower = false ∧ c.isAsciiDigit = false

instance (c : CodePoint) : Decidable (IsMark c) := inferInstanceAs (Decidable (_ ∧ _))

theorem IsMark.lowerAscii {c : CodePoint} (h : IsMark c) : c.lowerAscii = c := by
  have hupper := h.2.2.1
  simp only [CodePoint.isAsciiUpper, Bool.and_eq_false_iff, decide_eq_false_iff_not] at hupper
  rw [CodePoint.lowerAscii, dif_neg (by omega)]

theorem IsMark.isHexDigit {c : CodePoint} (h : IsMark c) : c.isHexDigit = false := by
  obtain ⟨_, _, hupper, hlower, hdigit⟩ := h
  simp only [CodePoint.isAsciiUpper, CodePoint.isAsciiLower, CodePoint.isAsciiDigit,
    Bool.and_eq_false_iff, decide_eq_false_iff_not] at hupper hlower hdigit
  simp only [CodePoint.isHexDigit, CodePoint.isAsciiDigit, Bool.or_eq_false_iff,
    Bool.and_eq_false_iff, decide_eq_false_iff_not]
  omega

section Exchange

variable {c d : CodePoint} (hc : IsMark c) (hd : IsMark d)

/-- What is the same of two code points is the same when they are exchanged. -/
theorem swap_invariant {β : Type} {p : CodePoint → β} (h : p c = p d) (x : CodePoint) :
    p (Equiv.swap c d x) = p x := by
  rw [Equiv.swap_apply_def]
  split_ifs with hx hx
  · rw [hx, h]
  · rw [hx, h]
  · rfl

include hc hd

theorem swap_lowerAscii (x : CodePoint) :
    (Equiv.swap c d x).lowerAscii = Equiv.swap c d x.lowerAscii := by
  -- a letter in lower case is no mark, so no other code point comes to one
  have hother : ∀ y, IsMark y → x ≠ y → x.lowerAscii ≠ y := by
    rintro y hy hne rfl
    have hval := CodePoint.lowerAscii_val x
    have hlower := hy.2.2.2.1
    simp only [CodePoint.isAsciiLower, Bool.and_eq_false_iff, decide_eq_false_iff_not] at hlower
    split at hval
    · omega
    · exact hne (CodePoint.ext_val hval.symm)
  by_cases hxc : x = c
  · rw [hxc, hc.lowerAscii, Equiv.swap_apply_left, hd.lowerAscii]
  · by_cases hxd : x = d
    · rw [hxd, hd.lowerAscii, Equiv.swap_apply_right, hc.lowerAscii]
    · rw [Equiv.swap_apply_of_ne_of_ne hxc hxd,
        Equiv.swap_apply_of_ne_of_ne (hother c hc hxc) (hother d hd hxd)]

/-- A code point that is no mark is not exchanged. -/
theorem swap_eq_iff {x y : CodePoint} (hy : ¬ IsMark y) : Equiv.swap c d x = y ↔ x = y := by
  have hfixed : Equiv.swap c d y = y :=
    Equiv.swap_apply_of_ne_of_ne (fun h => hy (h ▸ hc)) fun h => hy (h ▸ hd)
  rw [Equiv.swap_apply_eq_iff, hfixed]

theorem swap_isBlank (x : CodePoint) : Text.isBlank (Equiv.swap c d x) = Text.isBlank x :=
  swap_invariant (hc.1.trans hd.1.symm) x

theorem trim_map_swap (s : Text) :
    Text.trim (s.map (Equiv.swap c d)) = (Text.trim s).map (Equiv.swap c d) := by
  have hblank : Text.isBlank ∘ Equiv.swap c d = Text.isBlank := funext (swap_isBlank hc hd)
  simp only [Text.trim, Text.trimRight, Text.trimLeft, List.dropWhile_map, ← List.map_reverse,
    hblank]

theorem isEntry_map_swap_iff {s : Text} : IsEntry (s.map (Equiv.swap c d)) ↔ IsEntry s := by
  simp only [IsEntry, Text.Blank, Text.SurrogateFree, List.forall_mem_map, swap_isBlank hc hd,
    swap_invariant (p := CodePoint.isSurrogate) (hc.2.1.trans hd.2.1.symm)]

theorem dropHexMark_map_swap (s : Text) :
    Identifier.dropHexMark (s.map (Equiv.swap c d)) =
      (Identifier.dropHexMark s).map (Equiv.swap c d) := by
  rcases s with _ | ⟨z, _ | ⟨x, rest⟩⟩
  · rfl
  · rfl
  · have hz : Equiv.swap c d z = ('0' : CodePoint) ↔ z = ('0' : CodePoint) :=
      swap_eq_iff hc hd (by decide)
    have hx : (Equiv.swap c d x).lowerAscii = ('x' : CodePoint) ↔
        x.lowerAscii = ('x' : CodePoint) := by
      rw [swap_lowerAscii hc hd]
      exact swap_eq_iff hc hd (by decide)
    simp only [List.map_cons, Identifier.dropHexMark, hz, hx]
    split <;> rfl

theorem addressDigits?_map_swap (s : Text) :
    Identifier.addressDigits? (s.map (Equiv.swap c d)) =
      (Identifier.addressDigits? s).map (List.map (Equiv.swap c d)) := by
  have hhex : CodePoint.isHexDigit ∘ Equiv.swap c d = CodePoint.isHexDigit :=
    funext (swap_invariant (hc.isHexDigit.trans hd.isHexDigit.symm))
  simp only [Identifier.addressDigits?, dropHexMark_map_swap hc hd, List.isEmpty_map,
    List.all_map, hhex]
  split <;> rfl

/-- The mark of an address has no code point that is exchanged. -/
theorem map_swap_hexMark : Identifier.hexMark.map (Equiv.swap c d) = Identifier.hexMark := by
  have hfixed : ∀ y, ¬ IsMark y → Equiv.swap c d y = y := fun y hy =>
    (swap_eq_iff hc hd hy).mpr rfl
  rw [show Identifier.hexMark = [('0' : CodePoint), ('x' : CodePoint)] from rfl, List.map_cons,
    List.map_cons, List.map_nil, hfixed _ (by decide), hfixed _ (by decide)]

/-- **Normal forms are exchanged along with the texts.** -/
theorem canonical_map_swap (s : Text) :
    Identifier.canonical (s.map (Equiv.swap c d)) =
      (Identifier.canonical s).map (Equiv.swap c d) := by
  have hlower : ∀ t : Text, Text.lowerAscii (t.map (Equiv.swap c d)) =
      (Text.lowerAscii t).map (Equiv.swap c d) := by
    intro t
    rw [Text.lowerAscii, Text.lowerAscii, List.map_map, List.map_map]
    exact List.map_congr_left fun x _ => swap_lowerAscii hc hd x
  rw [Identifier.canonical, Identifier.canonical, addressDigits?_map_swap hc hd]
  cases Identifier.addressDigits? s with
  | none => exact hlower s
  | some digits => simp only [Option.map_some, hlower, List.map_append, map_swap_hexMark hc hd]

/-- Two marks may be exchanged everywhere. -/
def Renaming.exchange : Renaming where
  rename s := s.map (Equiv.swap c d)
  isEntry _ := (isEntry_map_swap_iff hc hd).mpr
  injective _ _ _ _ h := List.map_injective_iff.mpr (Equiv.swap c d).injective h
  normal s t hs ht := by
    have hswap : ∀ s, IsEntry s → normalizeText (s.map (Equiv.swap c d)) =
        .ok ((Identifier.canonical (Text.trim s)).map (Equiv.swap c d)) := by
      intro s hs
      have hs' := (isEntry_map_swap_iff hc hd).mpr hs
      rw [Identifier.normalizeText_of_not_blank hs'.1 hs'.2, trim_map_swap hc hd,
        canonical_map_swap hc hd]
    rw [hswap s hs, hswap t ht, Identifier.normalizeText_of_not_blank hs.1 hs.2,
      Identifier.normalizeText_of_not_blank ht.1 ht.2, Except.ok.injEq, Except.ok.injEq]
    exact (List.map_injective_iff.mpr (Equiv.swap c d).injective).eq_iff

end Exchange

/-! ### How documents are written -/

/-- The bytes are a text that spells the document. -/
def Serialises (bytes : List UInt8) (d : Json.Value) : Prop :=
  ∃ text, Utf8.decode? bytes = .ok text ∧ Json.Padded text d

/-- Documents that fit alike are both parsed, or refused for the same reason. -/
theorem Serialises.parse [Limits] {bytes bytes' : List UInt8} {d d' : Json.Value}
    (h : Serialises bytes d) (h' : Serialises bytes' d')
    (hfit : d'.misfit? Limits.json = d.misfit? Limits.json) (path : Text) :
    SameResult (fun v v' => v = d ∧ v' = d') (parse path bytes) (parse path bytes') := by
  obtain ⟨text, hdecode, hpadded⟩ := h
  obtain ⟨text', hdecode', hpadded'⟩ := h'
  rw [Allowlist.parse, Allowlist.parse, hdecode, hdecode']
  simp only [Json.parse_of_padded hpadded, Json.parse_of_padded hpadded', hfit]
  cases hmisfit : d.misfit? Limits.json with
  | none => exact .ok ⟨rfl, rfl⟩
  | some e =>
    cases e with
    | malformed => exact absurd hmisfit (Json.Value.misfit?_ne_malformed _ d)
    | repeatedName | tooManyDigits | tooDeep => exact .error _

/-- Other names for entries, the paths at which lists are read, the documents that occur there, and
one way to write them; the digests of what is written do not collide. -/
structure Veil extends Renaming where
  paths : Set Text
  documents : Set Json.Value
  write : Json.Value → List UInt8
  serialises : ∀ d ∈ documents ∪ toRenaming.document '' documents, Serialises (write d) d
  write_injOn : Set.InjOn write (documents ∪ toRenaming.document '' documents)
  digest_injOn : Set.InjOn Sha256.hexDigest
    (write '' (documents ∪ toRenaming.document '' documents))

namespace Veil

variable (v : Veil)

/-- What one document is written as, and what it is written as with other names. -/
def Contents (bytes bytes' : List UInt8) : Prop :=
  ∃ d ∈ v.documents, bytes = v.write d ∧ bytes' = v.write (v.document d)

/-- The digests of such contents. -/
def Digests (digest digest' : Text) : Prop :=
  ∃ bytes bytes', v.Contents bytes bytes' ∧ digest = Sha256.hexDigest bytes ∧
    digest' = Sha256.hexDigest bytes'

/-- Two allowlists that differ in their entries and in their digests only. -/
structure Allowlists (a a' : Allowlist) : Prop where
  size : a.size = a'.size
  kind : a.kind = a'.kind
  location : a.location = a'.location
  loadedAt : a.loadedAt = a'.loadedAt
  checksum : v.Digests a.checksum a'.checksum

variable {v}

/-- **A change is seen in both or in neither.** -/
theorem Digests.eq_iff {c c' e e' : Text} (hc : v.Digests c c') (he : v.Digests e e') :
    c = e ↔ c' = e' := by
  obtain ⟨_, _, ⟨d, hd, rfl, rfl⟩, rfl, rfl⟩ := hc
  obtain ⟨_, _, ⟨f, hf, rfl, rfl⟩, rfl, rfl⟩ := he
  have hdigest : ∀ {g h : Json.Value}, g ∈ v.documents ∪ v.document '' v.documents →
      h ∈ v.documents ∪ v.document '' v.documents →
      (Sha256.hexDigest (v.write g) = Sha256.hexDigest (v.write h) ↔ g = h) := by
    intro g h hg hh
    refine ⟨fun hsame => v.write_injOn hg hh ?_, fun hsame => by rw [hsame]⟩
    exact v.digest_injOn (Set.mem_image_of_mem _ hg) (Set.mem_image_of_mem _ hh) hsame
  rw [hdigest (.inl hd) (.inl hf),
    hdigest (.inr (Set.mem_image_of_mem _ hd)) (.inr (Set.mem_image_of_mem _ hf)),
    v.document_injective.eq_iff]

/-- **What two contents come to**: the same error, or allowlists that differ in their entries and in
their digests only. -/
theorem ofBytes [Limits] {bytes bytes' : List UInt8} (h : v.Contents bytes bytes') (path : Text)
    (now : Instant) :
    SameResult v.Allowlists (ofBytes path bytes now) (ofBytes path bytes' now) := by
  have hcontents := h
  obtain ⟨d, hd, rfl, rfl⟩ := h
  have hparse := (v.serialises d (.inl hd)).parse
    (v.serialises _ (.inr (Set.mem_image_of_mem _ hd))) (v.misfit?_document _ d) path
  rw [Allowlist.ofBytes, Allowlist.ofBytes]
  refine hparse.bind ?_
  rintro _ _ ⟨rfl, rfl⟩
  refine (v.rawEntriesOf path _).bind ?_
  rintro _ _ ⟨items, rfl, rfl⟩
  refine (v.entrySet path items).bind fun entries entries' hentries => .ok ?_
  exact ⟨hentries.length_eq, rfl, rfl, rfl, _, _, hcontents, rfl, rfl⟩

/-- Two disks on which each list is missing for the same reason, or written with other names. -/
structure Disks (v : Veil) (fs fs' : FileSystem) : Prop where
  workingDirectory : fs.workingDirectory = fs'.workingDirectory
  content : ∀ path ∈ v.paths, SameResult v.Contents (readFile fs path) (readFile fs' path)

theorem ofRead [Limits] {content content' : Except LoadError (List UInt8)}
    (h : SameResult v.Contents content content') (path : Text) (now : Instant) :
    SameResult v.Allowlists (ofRead path now content) (ofRead path now content') :=
  h.bind fun _ _ hcontents => ofBytes hcontents path now

end Veil

end Allowlist

end AdmissionControl
