import AdmissionControl.Proofs.Bytes.Portions
import AdmissionControl.Proofs.Yaml.Node
import AdmissionControl.Yaml.Document

/-!
# Faults in documents

Merging changes the members of mappings and makes texts of value marks, and nothing else, so a
scalar that is read while a document is filled is one of the graph.

* `Derived` — the graphs that merging leads to; `merges_flatten` says so.
* `Unvalued` — the faults of the nodes of a graph; `Document.fills_ofGraph?` — there are no others.
* `Unreadable`, `unreadable_of_ofInput?` — all faults of bytes as a document.
-/

namespace AdmissionControl.Yaml

variable {α : Type}

/-! ### Graphs that merging leads to -/

/-- Every scalar of the later graph is one of the earlier, and every tag but that of texts. -/
structure Derived (g g' : Graph) : Prop where
  scalar : ∀ {id : NodeId} {tag : Tag} {text : Text}, g'.node? id = some ⟨tag, .scalar text⟩ →
    ∃ tag', g.node? id = some ⟨tag', .scalar text⟩
  tag : ∀ id, tagOf g' id = tagOf g id ∨ tagOf g' id = .text

namespace Derived

variable {g g' : Graph} {id : NodeId}

theorem refl (g : Graph) : Derived g g := ⟨fun h => ⟨_, h⟩, fun _ => .inl rfl⟩

theorem trans {g₁ g₂ g₃ : Graph} (h : Derived g₁ g₂) (h' : Derived g₂ g₃) : Derived g₁ g₃ where
  scalar hnode := by
    obtain ⟨_, hnode⟩ := h'.scalar hnode
    exact h.scalar hnode
  tag id := by
    rcases h'.tag id with htag | htag
    · rw [htag]
      exact h.tag id
    · exact .inr htag

/-- A node may be replaced if it stays no scalar or the same one, and keeps its tag. -/
theorem setNode {old new : Node} (hold : g.node? id = some old)
    (hcontent : ∀ text, new.content = .scalar text → old.content = .scalar text)
    (htag : new.tag = old.tag ∨ new.tag = .text) : Derived g (g.setNode id new) := by
  have hlt : id < g.nodes.size := (Array.getElem?_eq_some_iff.mp hold).1
  have hnode : ∀ other, (g.setNode id new).node? other =
      if id = other then some new else g.node? other := by
    intro other
    rw [Graph.node?, Graph.setNode, Array.getElem?_setIfInBounds, if_pos hlt]
    rfl
  constructor
  · intro other tag text hother
    rw [hnode] at hother
    split at hother
    · rename_i heq
      subst heq
      obtain rfl := Option.some.inj hother
      obtain ⟨oldTag, content⟩ := old
      obtain rfl : content = .scalar text := hcontent text rfl
      exact ⟨oldTag, hold⟩
    · exact ⟨tag, hother⟩
  · intro other
    rw [tagOf, tagOf, hnode]
    split
    · rename_i heq
      rw [← heq, hold]
      exact htag
    · exact .inl rfl

theorem setMembers (g : Graph) (id : NodeId) (members : List (NodeId × NodeId)) :
    Derived g (setMembers g id members) := by
  rw [Yaml.setMembers]
  split
  · rename_i node hnode
    exact setNode hnode nofun (.inl rfl)
  · exact refl g

theorem retag (g : Graph) (id : NodeId) : Derived g (retag g id .text) := by
  rw [Yaml.retag]
  split
  · rename_i node hnode
    exact setNode hnode (fun _ h => h) (.inr rfl)
  · exact refl g

theorem settleValueMarks (g : Graph) (members : List (NodeId × NodeId)) :
    Derived g (settleValueMarks g members) := by
  rw [Yaml.settleValueMarks]
  induction members generalizing g with
  | nil => exact refl g
  | cons m members ih =>
    rw [List.foldl_cons]
    split
    · exact (retag g m.1).trans (ih _)
    · exact ih g

end Derived

/-! ### Merging -/

/-- Merging ends with a graph that it leads to, and is a fault only if it goes too deep. -/
abbrev Merges (g : Graph) (x : Except Error Graph) : Prop :=
  Ends (· = .yamlTooDeep) (Derived g) x

theorem ends_mergedItems {flatten : Graph → NodeId → Except Error Graph}
    (hflatten : ∀ g id, Merges g (flatten g id)) (g : Graph) (done : List (NodeId × NodeId))
    (items : List NodeId) :
    Ends (· = .yamlTooDeep) (fun r => Derived g r.1) (mergedItems flatten g done items) := by
  induction items generalizing g done with
  | nil => exact .refl g
  | cons item items ih =>
    rw [mergedItems]
    split
    · have hitem := hflatten g item
      split
      · rename_i e he
        rw [he] at hitem
        exact hitem.error
      · rename_i g' hg'
        rw [hg'] at hitem
        exact (ih g' _).mono (fun _ h => h) fun _ h => hitem.trans h
    · trivial

theorem ends_mergedMembers {flatten : Graph → NodeId → Except Error Graph}
    (hflatten : ∀ g id, Merges g (flatten g id)) (g : Graph) (value : NodeId) :
    Ends (· = .yamlTooDeep) (fun r => Derived g r.1) (mergedMembers flatten g value) := by
  rw [mergedMembers]
  split
  · exact ends_mergedItems hflatten ..
  · exact ends_mergedItems hflatten ..

theorem merges_flattenFrom (fuel depth : Nat) (g : Graph) (id : NodeId)
    (merged : List (List (NodeId × NodeId))) : Merges g (flattenFrom fuel depth g id merged) := by
  induction fuel generalizing depth g id merged with
  | zero => exact rfl
  | succ fuel ih =>
    cases depth with
    | zero => exact rfl
    | succ depth =>
      rw [flattenFrom]
      split
      · have hsettle := Derived.settleValueMarks g (members g id)
        dsimp only
        split
        · exact hsettle
        · exact hsettle.trans (.setMembers ..)
      · rename_i value others _
        refine (ends_mergedMembers (fun g id => ih depth g id []) _ value).bind ?_
        rintro ⟨g', more⟩ hg'
        refine (ih (depth + 1) g' id _).mono (fun _ h => h) fun _ h => ?_
        exact (Derived.setMembers g id others).trans (hg'.trans h)

theorem merges_flatten [Limits] (g : Graph) (id : NodeId) : Merges g (flatten g id) :=
  merges_flattenFrom ..

/-! ### Objects -/

/-- The faults that are met while the nodes of a graph are given their objects: what goes too deep,
a mapping that stands for a timestamp, and a scalar of the graph that one of its tags cannot
read. -/
inductive Unvalued (g : Graph) : Fault → Prop
  | tooDeep : Unvalued g .yamlTooDeep
  | timestamp : Unvalued g (.notText "list")
  | scalar {id other : NodeId} {tag : Tag} {text : Text} {read : Text → Except Error Value}
      {f : Fault} :
    scalarValue? (tagOf g id) = some read → g.node? other = some ⟨tag, .scalar text⟩ →
    read text = .error (.fault f) → Unvalued g f

theorem ends_scalarText (g : Graph) (fuel : Nat) (id : NodeId) :
    Ends (· = .yamlTooDeep) (fun text => ∃ other tag, g.node? other = some ⟨tag, .scalar text⟩)
      (scalarText g fuel id) := by
  induction fuel generalizing id with
  | zero => exact rfl
  | succ fuel ih =>
    rw [scalarText]
    split
    · rename_i tag text hnode
      exact ⟨_, _, hnode⟩
    · split
      · exact ih _
      · trivial
    · trivial

theorem ends_sequenceItems {P : Fault → Prop} (g : Graph) (id : NodeId) :
    Ends P (fun _ => True) (Document.sequenceItems g id) := by
  rw [Document.sequenceItems]
  split <;> trivial

namespace Document

variable {g : Graph} {d : Document}

/-- A step keeps to graphs that merging leads to, and meets faults of the graph only. -/
abbrev Fills (g : Graph) (x : Except Error Document) : Prop :=
  Ends (Unvalued g) (fun d => Derived g d.graph) x

section Fills

/-- A scalar that a tag cannot read is one of the graph, and so is the tag. -/
theorem ends_read (h : Derived g d.graph) {id other : NodeId} {tag : Tag} {text : Text}
    {read : Text → Except Error Value} (hread : scalarValue? (tagOf d.graph id) = some read)
    (hnode : d.graph.node? other = some ⟨tag, .scalar text⟩) :
    Ends (Unvalued g) (fun _ => True) (read text) := by
  cases hvalue : read text with
  | ok value => trivial
  | error e =>
    cases e with
    | malformed reason => trivial
    | fault f =>
      obtain ⟨tag', hnode'⟩ := h.scalar hnode
      rcases h.tag id with htag | htag
      · rw [htag] at hread
        exact Unvalued.scalar hread hnode' hvalue
      · -- every text is a text
        rw [htag] at hread
        obtain rfl := Option.some.inj hread
        cases hvalue

variable (h : Derived g d.graph)

include h

theorem fills_meet (id : NodeId) : Fills g (d.meet id) := by
  rw [meet]
  split
  · exact h
  · dsimp only
    split
    · rename_i read hread
      have htext := (ends_scalarText d.graph (d.graph.nodes.size + 1) id).mono
        (fun _ hf => hf ▸ Unvalued.tooDeep (g := g)) fun _ h => h
      refine htext.bind ?_
      rintro text ⟨other, tag, hnode⟩
      split
      · exact Unvalued.timestamp
      · exact (ends_read h hread hnode).bind fun _ _ => h
    · exact h
    · trivial

theorem ends_meetKey (id : NodeId) :
    Ends (Unvalued g) (fun r => Derived g r.1.graph) (d.meetKey id) := by
  refine (fills_meet h id).bind ?_
  intro d' hd'
  split
  · exact hd'
  · trivial

theorem fills_meetAll (items : List NodeId) : Fills g (d.meetAll items) := by
  induction items generalizing d with
  | nil => exact h
  | cons id items ih =>
    refine (fills_meet h id).bind ?_
    intro d' hd'
    exact ih hd'

theorem ends_meetMembers (done : List (Key × NodeId)) (members : List (NodeId × NodeId)) :
    Ends (Unvalued g) (fun r => Derived g r.1.graph) (d.meetMembers done members) := by
  induction members generalizing d done with
  | nil => exact h
  | cons m members ih =>
    refine (ends_meetKey h m.1).bind ?_
    rintro ⟨d', key⟩ hd'
    refine (fills_meet hd' m.2).bind ?_
    intro d'' hd''
    exact ih hd'' _

theorem ends_meetMapping [Limits] (id : NodeId) :
    Ends (Unvalued g) (fun r => Derived g r.1.graph) (d.meetMapping id) := by
  rw [meetMapping]
  split
  · trivial
  · have hflatten := (merges_flatten d.graph id).mono
      (fun _ hf => hf ▸ Unvalued.tooDeep (g := g)) fun _ h => h
    refine hflatten.bind ?_
    intro graph hgraph
    refine (ends_meetMembers (d := { d with graph := graph }) (h.trans hgraph) [] _).bind ?_
    rintro ⟨d', members⟩ hd'
    exact hd'

theorem ends_meetPairs (done : List (NodeId × NodeId)) (items : List NodeId) :
    Ends (Unvalued g) (fun r => Derived g r.1.graph) (d.meetPairs done items) := by
  induction items generalizing d done with
  | nil => exact h
  | cons item items ih =>
    rw [meetPairs]
    split
    · rename_i key value _
      refine (fills_meet h key).bind ?_
      intro d' hd'
      refine (fills_meet hd' value).bind ?_
      intro d'' hd''
      exact ih hd'' _
    · trivial

theorem fills_fill [Limits] (id : NodeId) (shape : Shape) : Fills g (d.fill id shape) := by
  cases shape with
  | list =>
    refine (ends_sequenceItems d.graph id).bind ?_
    intro items _
    refine (fills_meetAll h items).bind ?_
    intro d' hd'
    exact hd'
  | pairs =>
    refine (ends_sequenceItems d.graph id).bind ?_
    intro items _
    refine (ends_meetPairs h [] items).bind ?_
    rintro ⟨d', pairs⟩ hd'
    exact hd'
  | set =>
    refine (ends_meetMapping h id).bind ?_
    rintro ⟨d', members⟩ hd'
    exact hd'
  | dict =>
    refine (ends_meetMapping h id).bind ?_
    rintro ⟨d', members⟩ hd'
    exact hd'

theorem fills_fillAll [Limits] (waiting : List (NodeId × Shape)) : Fills g (d.fillAll waiting) := by
  induction waiting generalizing d with
  | nil => exact h
  | cons w waiting ih =>
    refine (fills_fill h w.1 w.2).bind ?_
    intro d' hd'
    exact ih hd'

theorem fills_fillLevels [Limits] (fuel : Nat) : Fills g (d.fillLevels fuel) := by
  induction fuel generalizing d with
  | zero => exact h
  | succ fuel ih =>
    rw [fillLevels]
    split
    · exact h
    · refine (fills_fillAll (d := { d with waiting := [] }) h _).bind ?_
      intro d' hd'
      exact ih hd'

end Fills

theorem fills_ofGraph? [Limits] (g : Graph) : Fills g (ofGraph? g) := by
  refine (fills_meet (.refl g) _).bind ?_
  intro d' hd'
  exact fills_fillLevels hd' _

end Document

/-! ### Bytes -/

namespace Input

variable {f : Fault}

theorem failure_of_ofChecked {portions : List Text} {failure : Option Error}
    (h : (ofChecked portions failure).failure = some (.fault f)) : failure = some (.fault f) := by
  rw [ofChecked] at h
  dsimp only at h
  split at h
  · cases h
  · exact h

theorem failure_of_ofPortions {portions : List Text} {failure : Option Error}
    (h : (ofPortions portions failure).failure = some (.fault f)) : failure = some (.fault f) := by
  unfold ofPortions at h
  split at h
  · exact failure_of_ofChecked h
  · exact h
  · exact failure_of_ofChecked h

/-- A text breaks off with a fault only where the bytes have no decoding. -/
theorem undecodable_of_failure {bytes : List UInt8}
    (h : (ofBytes bytes).failure = some (.fault f)) :
    ∃ e, f = .undecodable e ∧ ∀ text, Utf8.decode? bytes ≠ .ok text := by
  rw [ofBytes] at h
  split at h
  rename_i portions fault hportions
  obtain ⟨e, rfl, hf⟩ := Option.map_eq_some_iff.mp (failure_of_ofPortions h)
  refine ⟨e, (Error.fault.inj hf).symm, ?_⟩
  intro text htext
  have hfault := Utf8.portions_snd htext
  rw [hportions] at hfault
  cases hfault

end Input

/-! ### Documents -/

/-- Reading an input is a fault of its tokens, or one that its graph is. -/
theorem fault_of_ofInput? [Limits] {input : Input} {f : Fault}
    (h : Document.ofInput? input = .error (.fault f)) :
    Met input.failure f ∨ f = .yamlTooDeep ∨
      ∃ g, Graph.ofTokens? (tokens input).1 (tokens input).2 = .ok (some g) ∧ Unvalued g f := by
  have hgraph := ends_ofTokens? (tokens input).1 (tokens input).2
  rw [Document.ofInput?] at h
  dsimp only at h
  cases hroot : Graph.ofTokens? (tokens input).1 (tokens input).2 with
  | error e =>
    rw [hroot] at h hgraph
    obtain rfl := Except.error.inj h
    cases (hgraph : Broken _ f) with
    | tooDeep => exact .inr (.inl rfl)
    | tokens htokens => exact .inl (met_tokens htokens)
  | ok root =>
    rw [hroot] at h
    cases root with
    | none => cases h
    | some g =>
      replace h : (Document.ofGraph? g).bind (fun d => .ok (some d)) = .error (.fault f) := h
      have hobjects := Document.fills_ofGraph? g
      cases hdocument : Document.ofGraph? g with
      | ok d =>
        rw [hdocument] at h
        cases h
      | error e =>
        rw [hdocument] at h hobjects
        obtain rfl := Except.error.inj h
        exact .inr (.inr ⟨g, rfl, hobjects⟩)

/-- The faults of bytes as a document. -/
inductive Unreadable [Limits] (bytes : List UInt8) : Fault → Prop
  /-- The bytes are not those of a text. -/
  | undecodable {e : Utf8.DecodeError} : (∀ text, Utf8.decode? bytes ≠ .ok text) →
    Unreadable bytes (.undecodable e)
  /-- An escape gives a number that no code point has. -/
  | escape {n : Nat} {f : Fault} : escapeCode n = .error (.fault f) → Unreadable bytes f
  /-- A directive gives a version with too many digits. -/
  | version {count : Nat} : Numeral.maxDigits < count → Unreadable bytes (.tooManyDigits count)
  /-- Nodes nest too deep. -/
  | tooDeep : Unreadable bytes .yamlTooDeep
  /-- A node of the document has no object. -/
  | object {input : Input} {g : Graph} {f : Fault} : input = .ofBytes bytes →
    Graph.ofTokens? (tokens input).1 (tokens input).2 = .ok (some g) → Unvalued g f →
    Unreadable bytes f

/-- **Bytes are a fault as a document only for one of these reasons.** -/
theorem unreadable_of_ofInput? [Limits] {bytes : List UInt8} {f : Fault}
    (h : Document.ofInput? (.ofBytes bytes) = .error (.fault f)) : Unreadable bytes f := by
  rcases fault_of_ofInput? h with hmet | rfl | ⟨g, hroot, hobject⟩
  · cases hmet with
    | input hfailure =>
      obtain ⟨e, rfl, hbytes⟩ := Input.undecodable_of_failure hfailure
      exact .undecodable hbytes
    | escape hescape => exact .escape hescape
    | version hcount => exact .version hcount
  · exact .tooDeep
  · exact .object rfl hroot hobject

end AdmissionControl.Yaml
