import Regesta.Proofs.Xml.Name
import Regesta.Proofs.Xml.Source

namespace Regesta.Xml

/-- What every step of building a document keeps. It does not hang on what is counted or pending. -/
structure Builder.Invariant (holds : Builder → Prop) : Prop where
  empty : holds .empty
  aside : ∀ {builder : Builder} (count : Nat) (pending : TagAttributes) (parted : Bool),
    holds builder → holds { builder with count, pending, parted }
  text : ∀ {builder : Builder} (value : List Char), holds builder → holds (builder.addText value)
  remark : ∀ {builder : Builder} (remark : Remark),
    holds builder → holds (builder.addRemark remark)
  opening : ∀ {builder after : Builder} {written : WrittenName} {tag : TagAttributes}
    {start : Passage}, holds builder → IsNCName written.stem → tag.Proper →
    builder.open? written tag start = some after → holds after
  closing : ∀ {builder after : Builder} {written : WrittenName} {rest : Passage},
    holds builder → builder.close? written rest = some after → holds after

structure Builder.Sound (holds : Builder → Prop) (builder : Builder) : Prop where
  kept : holds builder
  pending : builder.pending.Proper

namespace Builder.Invariant

variable {holds : Builder → Prop} (invariant : Invariant holds) {builder after : Builder}
  {text rest : List Char}

include invariant

theorem counted (sound : Sound holds builder) (count : Nat) (parted : Bool) :
    Sound holds { builder with count, parted } :=
  ⟨invariant.aside count builder.pending parted sound.kept, sound.pending⟩

theorem added (sound : Sound holds builder) (value : List Char) :
    Sound holds (builder.addText value) := by
  refine ⟨invariant.text value sound.kept, ?_⟩
  rw [addText_pending]
  exact sound.pending

theorem remarked (sound : Sound holds builder) (remark : Remark) :
    Sound holds (builder.addRemark remark) := by
  refine ⟨invariant.remark remark sound.kept, ?_⟩
  cases remark <;> exact sound.pending

theorem opened {written : WrittenName} {tag : TagAttributes} {start : Passage}
    (sound : Sound holds builder) (named : IsNCName written.stem) (proper : tag.Proper)
    (read : builder.open? written tag start = some after) : Sound holds after := by
  refine ⟨invariant.opening sound.kept named proper read, ?_⟩
  obtain ⟨_, _, _, _, _, rfl⟩ := open?_eq_some read
  exact TagAttributes.empty_proper

theorem closed {written : WrittenName} {rest : Passage} (sound : Sound holds builder)
    (read : builder.close? written rest = some after) : Sound holds after := by
  refine ⟨invariant.closing sound.kept read, ?_⟩
  obtain ⟨_, _, _, rfl⟩ := close?_eq_some read
  exact TagAttributes.empty_proper

theorem run (sound : Sound holds builder) (value : List Char) :
    Sound holds (builder.addRun value) := by
  rw [addRun]
  split
  · exact sound
  · exact invariant.added sound value

theorem remarks (sound : Sound holds builder) (remarks : List Remark) :
    Sound holds (remarks.foldl addRemark builder) := by
  induction remarks generalizing builder with
  | nil => exact sound
  | cons remark rest ih => exact ih (invariant.remarked sound remark)

theorem outside (sound : Sound holds builder)
    (read : outsideRoot? builder text = some (after, rest)) : Sound holds after := by
  obtain ⟨⟨remarks, _⟩, _, same⟩ := Option.bind_eq_some_iff.mp read
  cases same
  exact invariant.remarks sound remarks

theorem startTag {scope : Scope} {tagEnd : TagEnd} (sound : Sound holds builder)
    (read : startTag? scope builder text = some ((after, tagEnd), rest)) : Sound holds after := by
  obtain ⟨⟨written, afterName⟩, named, read⟩ := Option.bind_eq_some_iff.mp read
  obtain ⟨_, read⟩ := Option.ite_none_left_eq_some.mp read
  obtain ⟨⟨⟨tag, ends, count⟩, afterTag⟩, tagged, read⟩ := Option.bind_eq_some_iff.mp read
  have stem := writtenName?_stem named
  have proper := tagAttributes?_proper sound.pending tagged
  have counted := invariant.counted sound count builder.parted
  cases ends with
  | missing =>
    cases read
    exact ⟨invariant.aside count tag true counted.kept, proper⟩
  | opened =>
    obtain ⟨opened, opens, same⟩ := Option.bind_eq_some_iff.mp read
    cases same
    exact invariant.opened counted stem proper opens
  | empty =>
    obtain ⟨opened, opens, read⟩ := Option.bind_eq_some_iff.mp read
    obtain ⟨closed, closes, same⟩ := Option.bind_eq_some_iff.mp read
    cases same
    exact invariant.closed (invariant.opened counted stem proper opens) closes

def Expands (holds : Builder → Prop) (expand : Expansion) : Prop :=
  ∀ {builder after : Builder} {passage : Passage},
    Sound holds builder → expand builder passage = some after → Sound holds after

theorem characters {entities : Entities} {inside : Bool} {expand : Expansion}
    (expands : Expands holds expand) {fuel : Nat} {buffer : List Char} {literal : Bool}
    (sound : Sound holds builder)
    (read : characterRun entities inside expand fuel buffer literal builder text =
      some (after, rest)) : Sound holds after := by
  induction fuel generalizing buffer literal builder text with
  | zero => cases read
  | succ fuel ih =>
    cases text with
    | nil =>
      cases read
      exact invariant.run sound _
    | cons c text =>
      rw [characterRun] at read
      split at read
      · cases read
        exact invariant.run sound _
      · split at read
        · obtain ⟨⟨reference, afterReference⟩, _, read⟩ := Option.bind_eq_some_iff.mp read
          cases reference with
          | character c =>
            simp only at read
            split at read
            · exact ih sound read
            · exact ih sound read
          | entity name =>
            obtain ⟨passage, _, read⟩ := Option.bind_eq_some_iff.mp read
            obtain ⟨expanded, followed, read⟩ := Option.bind_eq_some_iff.mp read
            exact ih (expands (invariant.run sound _) followed) read
        · obtain ⟨_, read⟩ := Option.ite_none_left_eq_some.mp read
          split at read
          · exact ih sound read
          · exact ih sound read

theorem content {scope : Scope} {expand : Expansion} (expands : Expands holds expand)
    {fuel levels : Nat} {tagged : Bool} (sound : Sound holds builder)
    (read : content? scope expand fuel levels tagged builder text = some (after, rest)) :
    Sound holds after := by
  induction fuel generalizing levels tagged builder text with
  | zero => cases read
  | succ fuel ih =>
    cases text with
    | nil =>
      cases read
      exact sound
    | cons c tail =>
      unfold content? at read
      simp only at read
      split at read
      · obtain ⟨_, read⟩ := Option.ite_none_left_eq_some.mp read
        obtain ⟨⟨written, afterName⟩, _, read⟩ := Option.bind_eq_some_iff.mp read
        simp only at read
        split at read
        · obtain ⟨closed, closes, read⟩ := Option.bind_eq_some_iff.mp read
          have sound := invariant.closed sound closes
          split at read
          · cases read
            exact sound
          · exact ih sound read
        · cases read
      · split at read
        · obtain ⟨⟨_, _⟩, _, read⟩ := Option.bind_eq_some_iff.mp read
          exact ih (invariant.added sound _) read
        · obtain ⟨⟨_, _⟩, _, read⟩ := Option.bind_eq_some_iff.mp read
          exact ih (invariant.remarked sound _) read
      · obtain ⟨⟨⟨_, _⟩, _⟩, _, read⟩ := Option.bind_eq_some_iff.mp read
        exact ih (invariant.remarked sound _) read
      · obtain ⟨⟨⟨_, _⟩, _⟩, started, read⟩ := Option.bind_eq_some_iff.mp read
        exact ih (invariant.startTag sound started) read
      · obtain ⟨⟨_, _⟩, run, read⟩ := Option.bind_eq_some_iff.mp read
        exact ih (invariant.characters expands sound run) read

theorem expansion (entities : Entities) (remaining : Nat) :
    Expands holds (Xml.expansion entities remaining) := by
  induction remaining with
  | zero =>
    intro builder after passage _ followed
    cases followed
  | succ remaining ih =>
    intro builder after passage sound followed
    obtain ⟨count, _, followed⟩ := Option.bind_eq_some_iff.mp followed
    obtain ⟨⟨read, _⟩, inside, same⟩ := Option.bind_eq_some_iff.mp followed
    cases same
    have started := invariant.counted sound count builder.parted
    exact invariant.counted (invariant.content ih started inside) _ read.parted

theorem outermost {entities : Entities} (sound : Sound holds builder)
    (read : outermost? entities builder text = some (after, rest)) : Sound holds after := by
  obtain ⟨⟨⟨opened, tagEnd⟩, afterTag⟩, started, read⟩ := Option.bind_eq_some_iff.mp read
  have sound := invariant.startTag sound started
  simp only at read
  split at read
  · exact invariant.content (invariant.expansion entities referenceDepth) sound read
  · cases read
    exact sound

theorem rooted {entities : Entities} {document : Document} (sound : Sound holds builder)
    (read : (let finish := fun ended : Builder × List Char =>
        (outsideRoot? ended.1 ended.2).bind fun ended =>
          if ended.2.isEmpty && ended.1.opened.isEmpty && ended.1.nodes.any Node.isElement then
            some ⟨ended.1.nodes.reverse⟩
          else none
      if text.head? = some '<' then (outermost? entities builder text).bind finish
      else (some (builder, text)).bind finish) = some document) :
    ∃ built : Builder, holds built ∧ document.content = built.nodes.reverse := by
  have ended : ∃ (last : Builder) (remaining : List Char), Sound holds last ∧
      ((outsideRoot? last remaining).bind fun ended =>
        if ended.2.isEmpty && ended.1.opened.isEmpty && ended.1.nodes.any Node.isElement then
          some (Document.mk ended.1.nodes.reverse)
        else none) = some document := by
    split at read
    · obtain ⟨⟨last, remaining⟩, inside, read⟩ := Option.bind_eq_some_iff.mp read
      exact ⟨last, remaining, invariant.outermost sound inside, read⟩
    · exact ⟨builder, text, sound, read⟩
  obtain ⟨last, remaining, sound, read⟩ := ended
  obtain ⟨⟨built, _⟩, outside, read⟩ := Option.bind_eq_some_iff.mp read
  obtain ⟨_, same⟩ := Option.ite_none_right_eq_some.mp read
  cases same
  exact ⟨built, (invariant.outside sound outside).kept, rfl⟩

theorem document {source : String} {document : Document}
    (read : Document.read? source = some document) :
    ∃ built : Builder, holds built ∧ document.content = built.nodes.reverse := by
  obtain ⟨text, _, read⟩ := declared_suffix read
  obtain ⟨⟨remarked, afterRemarks⟩, outside, read⟩ := Option.bind_eq_some_iff.mp read
  have start : Sound holds .empty := ⟨invariant.empty, TagAttributes.empty_proper⟩
  have sound := invariant.outside start outside
  simp only at read
  split at read
  · obtain ⟨_, same, read⟩ := Option.bind_eq_some_iff.mp read
    cases same
    exact invariant.rooted sound read
  · obtain ⟨⟨⟨remarks, _⟩, _⟩, _, read⟩ := Option.bind_eq_some_iff.mp read
    obtain ⟨⟨typed, _⟩, outside, read⟩ := Option.bind_eq_some_iff.mp read
    obtain ⟨_, same, read⟩ := Option.bind_eq_some_iff.mp read
    cases same
    exact invariant.rooted (invariant.outside (invariant.remarks sound remarks) outside) read

end Builder.Invariant

inductive Node.Named : Node → Prop
  | element {name : ExpandedName} {attributes : List Attribute} {source : Option String}
      {content : List Node} (starts : startsName name.localName.toList = true)
      (inner : ∀ node ∈ content, Named node) : Named (.element name attributes source content)
  | text (value : String) : Named (.text value)
  | comment (value : String) : Named (.comment value)
  | instruction (target value : String) : Named (.instruction target value)

theorem Node.Named.content {node : Node} (named : node.Named) :
    ∀ inner ∈ node.content, inner.Named := by
  cases named with
  | element _ inner => exact inner
  | text | comment | instruction => simp [Node.content]

inductive Node.Attributed : Node → Prop
  | element {name : ExpandedName} {attributes : List Attribute} {source : Option String}
      {content : List Node}
      (named : ∀ entry ∈ attributes, IsNCName entry.name.localName.toList)
      (inner : ∀ node ∈ content, Attributed node) :
      Attributed (.element name attributes source content)
  | text (value : String) : Attributed (.text value)
  | comment (value : String) : Attributed (.comment value)
  | instruction (target value : String) : Attributed (.instruction target value)

theorem Node.Attributed.content {node : Node} (attributed : node.Attributed) :
    ∀ inner ∈ node.content, inner.Attributed := by
  cases attributed with
  | element _ inner => exact inner
  | text | comment | instruction => simp [Node.content]

/-- A kind of nodes that elements are of when what they hold is and their names and attributes are
fit for it, as those of all start tags are. -/
structure Node.Grows (kind : Node → Prop) (fit : ExpandedName → List Attribute → Prop) : Prop where
  text : ∀ value, kind (.text value)
  comment : ∀ value, kind (.comment value)
  instruction : ∀ target value, kind (.instruction target value)
  element : ∀ {name : ExpandedName} {attributes : List Attribute} {content : List Node}
    (source : Option String), fit name attributes → (∀ node ∈ content, kind node) →
    kind (.element name attributes source content)
  tag : ∀ {name : ExpandedName} {attributes : List Attribute}, IsNCName name.localName.toList →
    (∀ entry ∈ attributes, IsNCName entry.name.localName.toList) → fit name attributes

namespace Builder

variable {builder after : Builder} {kind : Node → Prop} {fit : ExpandedName → List Attribute → Prop}

structure Holds (kind : Node → Prop) (fit : ExpandedName → List Attribute → Prop)
    (builder : Builder) : Prop where
  done : ∀ node ∈ builder.nodes, kind node
  opened : ∀ element ∈ builder.opened,
    fit element.name element.attributes ∧ ∀ node ∈ element.outer, kind node

theorem Holds.addNode (holds : builder.Holds kind fit) {node : Node} (kept : kind node) :
    (builder.addNode node).Holds kind fit :=
  ⟨List.forall_mem_cons.mpr ⟨kept, holds.done⟩, holds.opened⟩

theorem Holds.addText (holds : builder.Holds kind fit) (grows : Node.Grows kind fit)
    (value : List Char) : (builder.addText value).Holds kind fit := by
  refine ⟨addText_nodes grows.text holds.done value, ?_⟩
  rw [addText_opened]
  exact holds.opened

theorem Holds.open? (holds : builder.Holds kind fit) (grows : Node.Grows kind fit)
    {written : WrittenName} {tag : TagAttributes} {start : Passage} (named : IsNCName written.stem)
    (proper : tag.Proper) (read : builder.open? written tag start = some after) :
    after.Holds kind fit := by
  obtain ⟨element, resolved, listed, _, outer, rfl⟩ := open?_eq_some read
  rw [← elementName?_stem resolved] at named
  have attributes := resolveAttributes?_named proper (by simp) listed
  refine ⟨by simp, List.forall_mem_cons.mpr ⟨⟨grows.tag named attributes, ?_⟩, holds.opened⟩⟩
  rw [outer]
  exact holds.done

theorem Holds.close? (holds : builder.Holds kind fit) (grows : Node.Grows kind fit)
    {written : WrittenName} {rest : Passage} (read : builder.close? written rest = some after) :
    after.Holds kind fit := by
  obtain ⟨element, others, inside, rfl⟩ := close?_eq_some read
  have whole := holds.opened
  rw [inside] at whole
  obtain ⟨⟨own, outer⟩, others⟩ := List.forall_mem_cons.mp whole
  refine ⟨List.forall_mem_cons.mpr ⟨grows.element _ own ?_, outer⟩, others⟩
  intro node member
  exact holds.done node (List.mem_reverse.mp member)

theorem holds_invariant (grows : Node.Grows kind fit) : Invariant (Holds kind fit) where
  empty := ⟨by simp [Builder.empty], by simp [Builder.empty]⟩
  aside _ _ _ holds := ⟨holds.done, holds.opened⟩
  text value holds := holds.addText grows value
  remark remark holds := by
    cases remark with
    | comment value => exact holds.addNode (grows.comment _)
    | instruction target value => exact holds.addNode (grows.instruction _ _)
  opening holds named proper read := holds.open? grows named proper read
  closing holds read := holds.close? grows read

end Builder

theorem Document.read?_grown {kind : Node → Prop} {fit : ExpandedName → List Attribute → Prop}
    (grows : Node.Grows kind fit) {source : String} {document : Document}
    (read : Document.read? source = some document) : ∀ node ∈ document.content, kind node := by
  obtain ⟨built, holds, same⟩ := (Builder.holds_invariant grows).document read
  intro node member
  rw [same, List.mem_reverse] at member
  exact holds.done node member

theorem Document.read?_named {source : String} {document : Document}
    (read : Document.read? source = some document) : ∀ node ∈ document.content, node.Named := by
  have grows : Node.Grows Node.Named fun name _ => startsName name.localName.toList = true :=
    ⟨.text, .comment, .instruction, fun _ own inner => .element own inner,
      fun named _ => named.starts⟩
  exact Document.read?_grown grows read

theorem Document.read?_attributed {source : String} {document : Document}
    (read : Document.read? source = some document) :
    ∀ node ∈ document.content, node.Attributed := by
  have grows : Node.Grows Node.Attributed fun _ attributes =>
      ∀ entry ∈ attributes, IsNCName entry.name.localName.toList :=
    ⟨.text, .comment, .instruction, fun _ own inner => .element own inner,
      fun _ attributes => attributes⟩
  exact Document.read?_grown grows read

end Regesta.Xml
