import AdmissionControl.Proofs.Yaml.Token
import AdmissionControl.Yaml.Node

/-!
# Faults in nodes

Nodes are a fault where their tokens end with one, or where they nest too deep.

* `Grammar.Parses` — a part of the grammar that meets these faults only; `Parses.bind` puts parts
  together.
* `Grammar.grammarParses` — the functions that call each other, by induction on their fuel.
* `ends_ofTokens?` — the graph of a token list.
-/

namespace AdmissionControl.Yaml

/-- The faults that are met while nodes are read from tokens: the one that the tokens end with, and
nodes that nest too deep. -/
inductive Broken (failure : Option Error) : Fault → Prop
  | tokens {f : Fault} : failure = some (.fault f) → Broken failure f
  | tooDeep : Broken failure .yamlTooDeep

namespace Grammar

variable {α β : Type} {failure : Option Error}

/-- A part of the grammar meets these faults only, and keeps the failure of the tokens. -/
def Parses (failure : Option Error) (m : Parse α) : Prop :=
  ∀ s : State, s.failure = failure →
    Ends (Broken failure) (fun r => r.2.failure = failure) (m s)

namespace Parses

theorem pure (a : α) : Parses failure (Pure.pure a : Parse α) := fun _ hs => hs

theorem bind {m : Parse α} {next : α → Parse β} (hm : Parses failure m)
    (hnext : ∀ a, Parses failure (next a)) : Parses failure (m >>= next) := by
  intro s hs
  refine Ends.bind (hm s hs) ?_
  rintro ⟨a, t⟩ ht
  exact hnext a t ht

theorem ite {p : Prop} [Decidable p] {m n : Parse α} (hm : Parses failure m)
    (hn : Parses failure n) : Parses failure (if p then m else n) := by
  split
  · exact hm
  · exact hn

end Parses

theorem parses_malformed (reason : String) : Parses failure (malformed reason : Parse α) :=
  fun _ _ => trivial

theorem parses_outOfFuel : Parses failure (outOfFuel : Parse α) := parses_malformed _

theorem parses_tooDeep : Parses failure (throw (.fault .yamlTooDeep) : Parse α) :=
  fun _ _ => Broken.tooDeep

theorem parses_get : Parses failure (get : Parse State) := fun _ hs => hs

/-- A change of the state that keeps the failure. -/
theorem parses_modify {change : State → State} (h : ∀ s, (change s).failure = s.failure) :
    Parses failure (modify change : Parse Unit) := fun s hs => (h s).trans hs

theorem parses_peek : Parses failure peek := by
  rintro ⟨tokens, met, nodes, anchors, handles⟩ hs
  cases tokens with
  | cons token rest => exact hs
  | nil =>
    cases met with
    | none => exact hs
    | some e =>
      cases e with
      | malformed reason => trivial
      | fault f => exact Broken.tokens hs.symm

theorem parses_drop : Parses failure drop := parses_modify fun _ => rfl

theorem parses_accept (token : Token) : Parses failure (accept token) :=
  parses_peek.bind fun _ => .ite (parses_drop.bind fun _ => .pure _) (.pure _)

theorem parses_addNode (node : Node) : Parses failure (addNode node) := fun _ hs => hs

theorem parses_setNode (id : NodeId) (node : Node) : Parses failure (setNode id node) :=
  parses_modify fun _ => rfl

theorem parses_resolveTag (handle : Option Text) (suffix : Text) :
    Parses failure (resolveTag handle suffix) := by
  cases handle with
  | none => exact .pure _
  | some handle =>
    refine parses_get.bind fun s => ?_
    split
    · exact .pure _
    · exact parses_malformed _

theorem parses_anchorHere? : Parses failure anchorHere? := by
  refine parses_peek.bind fun token => ?_
  split
  · exact parses_drop.bind fun _ => .pure _
  · exact .pure _

theorem parses_tagHere? : Parses failure tagHere? := by
  refine parses_peek.bind fun token => ?_
  split
  · exact parses_drop.bind fun _ => .pure _
  · exact .pure _

/-- What is read after both properties. -/
theorem parses_propertiesEnd (anchor : Option Text) (tag : Option (Option Text × Text)) :
    Parses failure (match tag with
      | none => pure ⟨anchor, none⟩
      | some (handle, suffix) => do
        return ⟨anchor, some (← resolveTag handle suffix)⟩ : Parse Properties) := by
  split
  · exact .pure _
  · exact (parses_resolveTag _ _).bind fun _ => .pure _

theorem parses_properties : Parses failure properties := by
  refine parses_anchorHere?.bind fun first => ?_
  refine parses_tagHere?.bind fun tag => ?_
  cases first with
  | some name => exact (Parses.pure _).bind fun _ => parses_propertiesEnd _ _
  | none =>
    refine .ite ?_ ?_
    · exact parses_anchorHere?.bind fun _ => parses_propertiesEnd _ _
    · exact (Parses.pure _).bind fun _ => parses_propertiesEnd _ _

theorem parses_bind (anchor : Option Text) (id : NodeId) : Parses failure (bind anchor id) := by
  cases anchor with
  | none => exact .pure _
  | some name => exact parses_modify fun _ => rfl

theorem parses_checkAnchor (anchor : Option Text) : Parses failure (checkAnchor anchor) := by
  cases anchor with
  | none => exact .pure _
  | some name => exact parses_get.bind fun _ => .ite (parses_malformed _) (.pure _)

theorem parses_addScalar (p : Properties) (text : Text) (plain : Bool) :
    Parses failure (addScalar p text plain) := by
  refine (parses_checkAnchor _).bind fun _ => ?_
  refine (parses_addNode _).bind fun id => ?_
  exact (parses_bind _ _).bind fun _ => .pure _

theorem parses_addEmpty : Parses failure addEmpty := parses_addScalar _ _ _

theorem parses_addCollection (p : Properties) (default : Tag) {read : Parse Content}
    (hread : Parses failure read) : Parses failure (addCollection p default read) := by
  refine (parses_checkAnchor _).bind fun _ => ?_
  refine (parses_addNode _).bind fun id => ?_
  refine (parses_bind _ _).bind fun _ => ?_
  refine hread.bind fun content => ?_
  exact (parses_setNode _ _).bind fun _ => .pure _

theorem parses_addSequence (p : Properties) {read : Parse (List NodeId)}
    (hread : Parses failure read) : Parses failure (addSequence p read) :=
  parses_addCollection p _ (hread.bind fun _ => .pure _)

theorem parses_addMapping (p : Properties) {read : Parse (List (NodeId × NodeId))}
    (hread : Parses failure read) : Parses failure (addMapping p read) :=
  parses_addCollection p _ (hread.bind fun _ => .pure _)

/-! ### The grammar -/

theorem parses_emptyNode (p : Properties) : Parses failure (emptyNode p) := by
  rw [emptyNode]
  exact .ite (parses_addScalar _ _ _) (parses_malformed _)

/-- The comma before every part of a collection in flow style but the first. -/
theorem parses_comma (next : Unit → Parse α) (hnext : ∀ u, Parses failure (next u)) (first : Bool)
    (reason : String) :
    Parses failure (if !first then do
        if !(← accept .flowEntry) then malformed reason >>= next else next ()
      else next ()) :=
  .ite ((parses_accept _).bind fun _ => .ite ((parses_malformed _).bind hnext) (hnext ()))
    (hnext ())

/-- Every function of the grammar, with a fuel. -/
structure GrammarParses (failure : Option Error) (fuel : Nat) : Prop where
  node : ∀ depth place, Parses failure (node fuel depth place)
  nodeUnless : ∀ depth place stops, Parses failure (nodeUnless fuel depth place stops)
  blockItems : ∀ depth, Parses failure (blockItems fuel depth)
  indentlessItems : ∀ depth, Parses failure (indentlessItems fuel depth)
  blockMembers : ∀ depth, Parses failure (blockMembers fuel depth)
  flowItems : ∀ depth first, Parses failure (flowItems fuel depth first)
  singleMember : ∀ depth, Parses failure (singleMember fuel depth)
  flowMembers : ∀ depth first, Parses failure (flowMembers fuel depth first)

theorem grammarParses_zero : GrammarParses failure 0 where
  node depth place := by
    rw [node]
    exact parses_outOfFuel
  nodeUnless depth place stops := by
    rw [nodeUnless]
    exact parses_outOfFuel
  blockItems depth := by
    rw [blockItems]
    exact parses_outOfFuel
  indentlessItems depth := by
    rw [indentlessItems]
    exact parses_outOfFuel
  blockMembers depth := by
    rw [blockMembers]
    exact parses_outOfFuel
  flowItems depth first := by
    rw [flowItems]
    exact parses_outOfFuel
  singleMember depth := by
    rw [singleMember]
    exact parses_outOfFuel
  flowMembers depth first := by
    rw [flowMembers]
    exact parses_outOfFuel

section Succ

variable {fuel : Nat} (ih : GrammarParses failure fuel)

include ih

theorem parses_node_succ (depth : Nat) (place : Place) :
    Parses failure (node (fuel + 1) depth place) := by
  cases depth with
  | zero =>
    rw [node]
    exact parses_tooDeep
  | succ depth =>
    rw [node]
    refine parses_peek.bind fun token => ?_
    split
    · refine parses_drop.bind fun _ => parses_get.bind fun s => ?_
      split
      · exact .pure _
      · exact parses_malformed _
    · refine parses_properties.bind fun p => parses_peek.bind fun token => ?_
      split
      · exact .ite (parses_addSequence p (ih.indentlessItems depth)) (parses_emptyNode p)
      · exact parses_drop.bind fun _ => parses_addScalar _ _ _
      · exact parses_drop.bind fun _ => parses_addSequence p (ih.flowItems depth true)
      · exact parses_drop.bind fun _ => parses_addMapping p (ih.flowMembers depth true)
      · exact .ite (parses_drop.bind fun _ => parses_addSequence p (ih.blockItems depth))
          (parses_emptyNode p)
      · exact .ite (parses_drop.bind fun _ => parses_addMapping p (ih.blockMembers depth))
          (parses_emptyNode p)
      · exact parses_emptyNode p

theorem parses_nodeUnless_succ (depth : Nat) (place : Place) (stops : List Token) :
    Parses failure (nodeUnless (fuel + 1) depth place stops) := by
  rw [nodeUnless]
  exact parses_peek.bind fun token => .ite parses_addEmpty (ih.node depth place)

theorem parses_blockItems_succ (depth : Nat) :
    Parses failure (blockItems (fuel + 1) depth) := by
  rw [blockItems]
  refine (parses_accept _).bind fun more => .ite ?_ ?_
  · refine (ih.nodeUnless _ _ _).bind fun item => ?_
    exact (ih.blockItems depth).bind fun items => .pure _
  · exact (parses_accept _).bind fun ended => .ite (.pure _) (parses_malformed _)

theorem parses_indentlessItems_succ (depth : Nat) :
    Parses failure (indentlessItems (fuel + 1) depth) := by
  rw [indentlessItems]
  refine (parses_accept _).bind fun more => .ite ?_ (.pure _)
  refine (ih.nodeUnless _ _ _).bind fun item => ?_
  exact (ih.indentlessItems depth).bind fun items => .pure _

theorem parses_blockMembers_succ (depth : Nat) :
    Parses failure (blockMembers (fuel + 1) depth) := by
  rw [blockMembers]
  refine (parses_accept _).bind fun more => .ite ?_ ?_
  · refine (ih.nodeUnless _ _ _).bind fun key => ?_
    refine (parses_accept _).bind fun given => ?_
    have hrest : ∀ value, Parses failure (do
        let members ← blockMembers fuel depth
        return (key, value) :: members) := fun value =>
      (ih.blockMembers depth).bind fun members => .pure _
    exact .ite ((ih.nodeUnless _ _ _).bind hrest) (parses_addEmpty.bind hrest)
  · exact (parses_accept _).bind fun ended => .ite (.pure _) (parses_malformed _)

theorem parses_flowItems_succ (depth : Nat) (first : Bool) :
    Parses failure (flowItems (fuel + 1) depth first) := by
  rw [flowItems]
  refine (parses_accept _).bind fun ended => .ite (.pure _) ?_
  extract_lets afterComma
  refine parses_comma afterComma (fun _ => ?_) first _
  refine parses_peek.bind fun token => ?_
  split
  · exact parses_drop.bind fun _ => .pure _
  · refine (ih.singleMember depth).bind fun item => ?_
    exact (ih.flowItems depth false).bind fun items => .pure _
  · refine (ih.node depth inFlow).bind fun item => ?_
    exact (ih.flowItems depth false).bind fun items => .pure _

theorem parses_singleMember_succ (depth : Nat) :
    Parses failure (singleMember (fuel + 1) depth) := by
  cases depth with
  | zero =>
    rw [singleMember]
    exact parses_tooDeep
  | succ depth =>
    rw [singleMember]
    refine parses_addMapping _ (parses_drop.bind fun _ => ?_)
    refine (ih.nodeUnless _ _ _).bind fun key => ?_
    refine (parses_accept _).bind fun given => ?_
    exact .ite ((ih.nodeUnless _ _ _).bind fun _ => .pure _) (parses_addEmpty.bind fun _ => .pure _)

theorem parses_flowMembers_succ (depth : Nat) (first : Bool) :
    Parses failure (flowMembers (fuel + 1) depth first) := by
  have hrest : ∀ key value, Parses failure (do
      let members ← flowMembers fuel depth false
      return (key, value) :: members) := fun key value =>
    (ih.flowMembers depth false).bind fun members => .pure _
  rw [flowMembers]
  refine (parses_accept _).bind fun ended => .ite (.pure _) ?_
  extract_lets afterComma
  refine parses_comma afterComma (fun _ => ?_) first _
  refine parses_peek.bind fun token => ?_
  split
  · exact parses_drop.bind fun _ => .pure _
  · refine parses_drop.bind fun _ => ?_
    refine (ih.nodeUnless _ _ _).bind fun key => ?_
    refine (parses_accept _).bind fun given => ?_
    exact .ite ((ih.nodeUnless _ _ _).bind (hrest key)) (parses_addEmpty.bind (hrest key))
  · refine (ih.node depth inFlow).bind fun key => ?_
    exact parses_addEmpty.bind (hrest key)

end Succ

theorem grammarParses (fuel : Nat) : GrammarParses failure fuel := by
  induction fuel with
  | zero => exact grammarParses_zero
  | succ fuel ih =>
    exact ⟨parses_node_succ ih, parses_nodeUnless_succ ih, parses_blockItems_succ ih,
      parses_indentlessItems_succ ih, parses_blockMembers_succ ih, parses_flowItems_succ ih,
      parses_singleMember_succ ih, parses_flowMembers_succ ih⟩

/-! ### The document -/

theorem parses_directives (fuel : Nat) (version : Bool) (handles : List (Text × Text)) :
    Parses failure (directives fuel version handles) := by
  induction fuel generalizing version handles with
  | zero => exact parses_outOfFuel
  | succ fuel ih =>
    rw [directives]
    refine parses_peek.bind fun token => ?_
    split
    · refine parses_drop.bind fun _ => ?_
      exact .ite (parses_malformed _) (.ite (parses_malformed _) (ih _ _))
    · refine parses_drop.bind fun _ => ?_
      exact .ite (parses_malformed _) (ih _ _)
    · exact parses_drop.bind fun _ => ih _ _
    · exact .pure _

theorem parses_dropDocumentEnds (fuel : Nat) : Parses failure (dropDocumentEnds fuel) := by
  induction fuel with
  | zero => exact .pure _
  | succ fuel ih =>
    rw [dropDocumentEnds]
    exact (parses_accept _).bind fun _ => .ite ih (.pure _)

theorem parses_documentStart (fuel : Nat) : Parses failure (documentStart fuel) := by
  refine (parses_directives _ _ _).bind fun handles => ?_
  refine (parses_accept _).bind fun marked => ?_
  exact .ite (parses_modify fun _ => rfl) (parses_malformed _)

theorem parses_markedRoot (fuel depth : Nat) : Parses failure (markedRoot fuel depth) := by
  refine parses_peek.bind fun token => ?_
  split <;> first
    | exact parses_addEmpty
    | exact (grammarParses fuel).node depth inBlock

theorem parses_stream [Limits] (fuel : Nat) : Parses failure (stream fuel) := by
  have hend : ∀ root : NodeId, Parses failure (do
      dropDocumentEnds fuel
      if (← peek) = .streamEnd then return some root
      else
        documentStart fuel
        malformed "a second document follows") := by
    intro root
    refine (parses_dropDocumentEnds fuel).bind fun _ => parses_peek.bind fun token => ?_
    exact .ite (.pure _) ((parses_documentStart fuel).bind fun _ => parses_malformed _)
  refine parses_peek.bind fun token => ?_
  have hmarked := (parses_documentStart fuel).bind fun _ =>
    (parses_markedRoot fuel Limits.yaml).bind hend
  split
  · exact .pure _
  · split
    · exact hmarked
    · exact hmarked
    · exact hmarked
    · exact hmarked
    · exact ((grammarParses fuel).node Limits.yaml inBlock).bind hend

end Grammar

/-- **A graph is a fault only where its tokens are one, or where nodes nest too deep.** -/
theorem ends_ofTokens? [Limits] (tokens : List Token) (failure : Option Error) :
    Ends (Broken failure) (fun _ => True) (Graph.ofTokens? tokens failure) := by
  refine Ends.bind (Grammar.parses_stream _ _ rfl) ?_
  intro r _
  trivial

end AdmissionControl.Yaml
