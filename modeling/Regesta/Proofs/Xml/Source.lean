import Regesta.Proofs.Xml.Markup
import Regesta.Proofs.Xml.Order
import Regesta.Xml.Reader

namespace Regesta.Xml

inductive Node.Sourced : Node → Prop
  | element {name : ExpandedName} {attributes : List Attribute} {source : String}
      {content : List Node} (inner : ∀ node ∈ content, Sourced node) :
      Sourced (.element name attributes (some source) content)
  | text (value : String) : Sourced (.text value)
  | comment (value : String) : Sourced (.comment value)
  | instruction (target value : String) : Sourced (.instruction target value)

namespace Builder

variable {builder after : Builder}

@[simp] theorem addText_opened (builder : Builder) (value : List Char) :
    (builder.addText value).opened = builder.opened := by
  rw [addText]
  split <;> rfl

theorem addText_nodes {kind : Node → Prop} (text : ∀ value, kind (.text value))
    (done : ∀ node ∈ builder.nodes, kind node) (value : List Char) :
    ∀ node ∈ (builder.addText value).nodes, kind node := by
  rw [addText]
  split
  · next before earlier _ nodes =>
    rw [nodes] at done
    exact List.forall_mem_cons.mpr ⟨text _, (List.forall_mem_cons.mp done).2⟩
  · exact List.forall_mem_cons.mpr ⟨text _, done⟩

@[simp] theorem addText_pending (builder : Builder) (value : List Char) :
    (builder.addText value).pending = builder.pending := by
  rw [addText]
  split <;> rfl

theorem settle?_same {tag : TagAttributes} {settled : List Attribute × Bindings}
    (read : builder.settle? tag = some (settled, after)) :
    after = { builder with pending := .empty } := by
  obtain ⟨_, _, same⟩ := Option.bind_eq_some_iff.mp read
  cases same
  rfl

theorem open?_eq_some {written : WrittenName} {tag : TagAttributes} {start : Passage}
    (read : builder.open? written tag start = some after) :
    ∃ element : OpenElement, elementName? element.bindings written = some element.name ∧
      resolveAttributes? element.bindings tag.written [] = some element.attributes ∧
      element.start = start ∧ element.outer = builder.nodes ∧
      after =
        { builder with nodes := [], opened := element :: builder.opened, pending := .empty } := by
  obtain ⟨⟨⟨attributes, bindings⟩, settled⟩, same, read⟩ := Option.bind_eq_some_iff.mp read
  obtain ⟨name, resolved, made⟩ := Option.bind_eq_some_iff.mp read
  obtain ⟨attributes, listed, same⟩ := Option.bind_eq_some_iff.mp same
  cases same
  cases made
  exact ⟨⟨written, name, attributes, _, start, builder.nodes⟩, resolved, listed, rfl, rfl, rfl⟩

theorem close?_eq_some {written : WrittenName} {rest : Passage}
    (read : builder.close? written rest = some after) :
    ∃ element others, builder.opened = element :: others ∧
      after = { builder with
        nodes := .element element.name element.attributes
          ((element.start.until? rest).map String.ofList) builder.nodes.reverse :: element.outer
        opened := others
        pending := .empty } := by
  obtain ⟨⟨_, settled⟩, same, read⟩ := Option.bind_eq_some_iff.mp read
  have settled := settle?_same same
  subst settled
  simp only at read
  split at read
  · cases read
  · next element others inside =>
    obtain ⟨_, made⟩ := Option.ite_none_right_eq_some.mp read
    cases made
    exact ⟨element, others, inside, rfl⟩

/-- The elements that are done have a source, and those that are open do not start behind a place
in the document. -/
structure UpTo (builder : Builder) (place : Passage) : Prop where
  done : ∀ node ∈ builder.nodes, node.Sourced
  opened : ∀ element ∈ builder.opened,
    place.left ≤ element.start.left ∧ ∀ node ∈ element.outer, node.Sourced

variable {place : Passage}

theorem UpTo.forward {text rest following : List Char} (upTo : builder.UpTo ⟨text, following⟩)
    (behind : rest <:+ text) : builder.UpTo ⟨rest, following⟩ := by
  refine ⟨upTo.done, fun element member => ?_⟩
  obtain ⟨start, outer⟩ := upTo.opened element member
  exact ⟨Nat.le_trans (Nat.add_le_add_right behind.length_le _) start, outer⟩

theorem UpTo.addNode (upTo : builder.UpTo place) {node : Node} (sourced : node.Sourced) :
    (builder.addNode node).UpTo place :=
  ⟨List.forall_mem_cons.mpr ⟨sourced, upTo.done⟩, upTo.opened⟩

theorem UpTo.addText (upTo : builder.UpTo place) (value : List Char) :
    (builder.addText value).UpTo place := by
  refine ⟨addText_nodes .text upTo.done value, ?_⟩
  rw [addText_opened]
  exact upTo.opened

theorem UpTo.addRun (upTo : builder.UpTo place) (value : List Char) :
    (builder.addRun value).UpTo place := by
  rw [Builder.addRun]
  split
  · exact upTo
  · exact upTo.addText value

theorem UpTo.addRemark (upTo : builder.UpTo place) (remark : Remark) :
    (builder.addRemark remark).UpTo place := by
  cases remark with
  | comment value => exact upTo.addNode (.comment _)
  | instruction target value => exact upTo.addNode (.instruction _ _)

theorem UpTo.addRemarks (upTo : builder.UpTo place) (remarks : List Remark) :
    (remarks.foldl Builder.addRemark builder).UpTo place := by
  induction remarks generalizing builder with
  | nil => exact upTo
  | cons remark rest ih => exact ih (upTo.addRemark remark)

theorem UpTo.empty (place : Passage) : Builder.empty.UpTo place :=
  ⟨by simp [Builder.empty], by simp [Builder.empty]⟩

theorem UpTo.open? (upTo : builder.UpTo place) {written : WrittenName} {tag : TagAttributes}
    (read : builder.open? written tag place = some after) : after.UpTo place := by
  obtain ⟨element, _, _, start, outer, rfl⟩ := open?_eq_some read
  refine ⟨by simp, List.forall_mem_cons.mpr ⟨?_, upTo.opened⟩⟩
  rw [start, outer]
  exact ⟨Nat.le_refl _, upTo.done⟩

theorem until?_isSome {start rest : Passage} (order : rest.left ≤ start.left) :
    (start.until? rest).isSome = true := by
  rw [Passage.until?, if_neg (Nat.not_lt.mpr order)]
  rfl

theorem UpTo.close? (upTo : builder.UpTo place) {written : WrittenName}
    (read : builder.close? written place = some after) : after.UpTo place := by
  obtain ⟨element, others, inside, rfl⟩ := close?_eq_some read
  have whole := upTo.opened
  rw [inside] at whole
  obtain ⟨⟨start, outer⟩, others⟩ := List.forall_mem_cons.mp whole
  obtain ⟨source, between⟩ := Option.isSome_iff_exists.mp (until?_isSome start)
  rw [between]
  refine ⟨List.forall_mem_cons.mpr ⟨.element ?_, outer⟩, others⟩
  intro node member
  exact upTo.done node (List.mem_reverse.mp member)

end Builder

theorem tagAttributes?_suffix {scope : Scope} {fuel count : Nat} {tag : TagAttributes}
    {text rest : List Char} {found : TagAttributes × TagEnd × Nat}
    (read : tagAttributes? scope fuel count tag text = some (found, rest)) : rest <:+ text := by
  induction fuel generalizing count tag text with
  | zero => cases read
  | succ fuel ih =>
    cases text with
    | nil =>
      cases read
      exact List.suffix_refl _
    | cons c text =>
      have skipped := skipSpaces_suffix (c :: text)
      rw [tagAttributes?] at read
      · split at read
        · next behind same =>
          cases read
          rw [same] at skipped
          exact (List.suffix_cons _ _).trans ((List.suffix_cons _ _).trans skipped)
        · next behind same =>
          cases read
          rw [same] at skipped
          exact (List.suffix_cons _ _).trans skipped
        · obtain ⟨_, read⟩ := Option.ite_none_left_eq_some.mp read
          obtain ⟨⟨⟨_, _⟩, _⟩, written, read⟩ := Option.bind_eq_some_iff.mp read
          obtain ⟨⟨_, _⟩, valued, read⟩ := Option.bind_eq_some_iff.mp read
          obtain ⟨_, _, read⟩ := Option.bind_eq_some_iff.mp read
          exact (ih read).trans ((writtenAttribute?_suffix written).trans skipped)
      · simp

section

variable {scope : Scope} {builder after : Builder} {text rest : List Char}

theorem startTag?_upTo {tagEnd : TagEnd} (upTo : builder.UpTo ⟨text, scope.following⟩)
    (read : startTag? scope builder text = some ((after, tagEnd), rest)) :
    after.UpTo ⟨rest, scope.following⟩ ∧ rest <:+ text := by
  obtain ⟨⟨written, afterName⟩, named, read⟩ := Option.bind_eq_some_iff.mp read
  obtain ⟨_, read⟩ := Option.ite_none_left_eq_some.mp read
  obtain ⟨⟨⟨tag, ends, count⟩, afterTag⟩, tagged, read⟩ := Option.bind_eq_some_iff.mp read
  have behind : afterTag <:+ text := (tagAttributes?_suffix tagged).trans
    ((writtenName?_suffix named).trans (List.drop_suffix 1 text))
  have counted : Builder.UpTo { builder with count } ⟨text, scope.following⟩ :=
    ⟨upTo.done, upTo.opened⟩
  cases ends with
  | missing =>
    cases read
    have kept := upTo.forward behind
    exact ⟨⟨kept.done, kept.opened⟩, behind⟩
  | opened =>
    obtain ⟨opened, opens, same⟩ := Option.bind_eq_some_iff.mp read
    cases same
    exact ⟨(counted.open? opens).forward behind, behind⟩
  | empty =>
    obtain ⟨opened, opens, read⟩ := Option.bind_eq_some_iff.mp read
    obtain ⟨closed, closes, same⟩ := Option.bind_eq_some_iff.mp read
    cases same
    exact ⟨((counted.open? opens).forward behind).close? closes, behind⟩

theorem endTag_suffix {written : WrittenName} {afterName : List Char}
    (named : writtenName? text = some (written, afterName))
    (closing : skipSpaces afterName = '>' :: rest) : rest <:+ '<' :: '/' :: text := by
  have skipped := skipSpaces_suffix afterName
  rw [closing] at skipped
  have inside := ((List.suffix_cons _ _).trans skipped).trans (writtenName?_suffix named)
  exact inside.trans ((List.suffix_cons _ _).trans (List.suffix_cons _ _))

theorem characterRun_upTo {inside : Bool} {expand : Expansion} {fuel : Nat} {buffer : List Char}
    {literal : Bool} {place : Passage} (upTo : builder.UpTo place)
    (read : characterRun [] inside expand fuel buffer literal builder text = some (after, rest)) :
    after.UpTo place ∧ rest <:+ text := by
  induction fuel generalizing buffer literal text with
  | zero => cases read
  | succ fuel ih =>
    cases text with
    | nil =>
      cases read
      exact ⟨upTo.addRun _, List.suffix_refl _⟩
    | cons c text =>
      have further : ∀ {buffer literal middle}, middle <:+ text →
          characterRun [] inside expand fuel buffer literal builder middle = some (after, rest) →
            after.UpTo place ∧ rest <:+ c :: text := by
        intro buffer literal middle behind read
        obtain ⟨upTo, ends⟩ := ih read
        exact ⟨upTo, ends.trans (behind.trans (List.suffix_cons _ _))⟩
      rw [characterRun] at read
      split at read
      · cases read
        exact ⟨upTo.addRun _, List.suffix_refl _⟩
      · split at read
        · obtain ⟨⟨reference, afterReference⟩, referred, read⟩ := Option.bind_eq_some_iff.mp read
          have behind := reference?_suffix referred
          cases reference with
          | character c =>
            simp only at read
            split at read
            · exact further behind read
            · exact further behind read
          | entity name => cases read
        · obtain ⟨_, read⟩ := Option.ite_none_left_eq_some.mp read
          split at read
          · exact further (List.suffix_refl _) read
          · exact further (List.suffix_refl _) read

theorem content?_upTo (plain : scope.entities = []) {expand : Expansion} {fuel levels : Nat}
    {tagged : Bool} (upTo : builder.UpTo ⟨text, scope.following⟩)
    (read : content? scope expand fuel levels tagged builder text = some (after, rest)) :
    after.UpTo ⟨rest, scope.following⟩ ∧ rest <:+ text := by
  induction fuel generalizing levels tagged builder text with
  | zero => cases read
  | succ fuel ih =>
    -- Every piece of content ends in reading what comes behind it.
    have further : ∀ {levels tagged} {middle : List Char} {next : Builder}, middle <:+ text →
        next.UpTo ⟨middle, scope.following⟩ →
        content? scope expand fuel levels tagged next middle = some (after, rest) →
          after.UpTo ⟨rest, scope.following⟩ ∧ rest <:+ text := by
      intro levels tagged middle next behind upTo read
      obtain ⟨upTo, ends⟩ := ih upTo read
      exact ⟨upTo, ends.trans behind⟩
    cases text with
    | nil =>
      cases read
      exact ⟨upTo, List.suffix_refl _⟩
    | cons c tail =>
      unfold content? at read
      simp only at read
      split at read
      · next inner same =>
        obtain ⟨_, read⟩ := Option.ite_none_left_eq_some.mp read
        obtain ⟨⟨written, afterName⟩, named, read⟩ := Option.bind_eq_some_iff.mp read
        simp only at read
        split at read
        · next behind closing =>
          obtain ⟨closed, closes, read⟩ := Option.bind_eq_some_iff.mp read
          have ends : behind <:+ c :: tail := same ▸ endTag_suffix named closing
          have upTo := (upTo.forward ends).close? closes
          split at read
          · cases read
            exact ⟨upTo, ends⟩
          · exact further ends upTo read
        · cases read
      · split at read
        · next inner opened =>
          obtain ⟨⟨_, _⟩, marked, read⟩ := Option.bind_eq_some_iff.mp read
          have behind := (section?_suffix marked).trans (exactly?_suffix opened)
          exact further behind ((upTo.addText _).forward behind) read
        · obtain ⟨⟨_, _⟩, commented, read⟩ := Option.bind_eq_some_iff.mp read
          obtain ⟨inner, opened, commented⟩ := Option.bind_eq_some_iff.mp commented
          have behind := (comment?_suffix commented).trans (exactly?_suffix opened)
          exact further behind ((upTo.addRemark _).forward behind) read
      · obtain ⟨⟨⟨_, _⟩, _⟩, instructed, read⟩ := Option.bind_eq_some_iff.mp read
        have behind := instruction?_suffix instructed
        exact further behind ((upTo.addRemark _).forward behind) read
      · obtain ⟨⟨⟨_, _⟩, _⟩, started, read⟩ := Option.bind_eq_some_iff.mp read
        obtain ⟨upTo, behind⟩ := startTag?_upTo upTo started
        exact further behind upTo read
      · rw [plain] at read
        obtain ⟨⟨_, _⟩, run, read⟩ := Option.bind_eq_some_iff.mp read
        obtain ⟨upTo, behind⟩ := characterRun_upTo upTo run
        exact further behind (upTo.forward behind) read

theorem outermost?_upTo (upTo : builder.UpTo ⟨text, []⟩)
    (read : outermost? [] builder text = some (after, rest)) : after.UpTo ⟨rest, []⟩ := by
  obtain ⟨⟨⟨opened, tagEnd⟩, afterTag⟩, started, read⟩ := Option.bind_eq_some_iff.mp read
  obtain ⟨upTo, _⟩ := startTag?_upTo upTo started
  simp only at read
  split at read
  · exact (content?_upTo rfl upTo read).1
  · cases read
    exact upTo

theorem outsideRoot?_upTo {place : Passage} (upTo : builder.UpTo place)
    (read : outsideRoot? builder text = some (after, rest)) : after.UpTo place ∧ rest <:+ text := by
  obtain ⟨⟨remarks, _⟩, found, same⟩ := Option.bind_eq_some_iff.mp read
  cases same
  exact ⟨upTo.addRemarks remarks, remarks?_suffix found⟩

end

theorem declared_suffix {α : Type} {text : List Char} {result : α} {next : List Char → Option α}
    (read : (if "<?xml ".toList.isPrefixOf text then (declaration? text).bind next
      else (some text).bind next) = some result) :
    ∃ body, body <:+ text ∧ next body = some result := by
  split at read
  · obtain ⟨body, declared, read⟩ := Option.bind_eq_some_iff.mp read
    exact ⟨body, declaration?_suffix declared, read⟩
  · exact ⟨text, List.suffix_refl _, read⟩

theorem sourced_of_end {builder : Builder} {text : List Char} {place : Passage}
    {document : Document} (upTo : builder.UpTo place)
    (read : ((outsideRoot? builder text).bind fun ended =>
      if ended.2.isEmpty && ended.1.opened.isEmpty && ended.1.nodes.any Node.isElement then
        some ⟨ended.1.nodes.reverse⟩
      else none) = some document) : ∀ node ∈ document.content, node.Sourced := by
  obtain ⟨⟨built, _⟩, outside, read⟩ := Option.bind_eq_some_iff.mp read
  obtain ⟨_, same⟩ := Option.ite_none_right_eq_some.mp read
  cases same
  have done := (outsideRoot?_upTo upTo outside).1.done
  exact fun node member => done node (List.mem_reverse.mp member)

/-- Without a document type all elements have a source. -/
theorem Document.read?_sourced {source : String} {document : Document}
    (plain : ¬ "<!DOCTYPE".toList <:+: source.toList)
    (read : Document.read? source = some document) : ∀ node ∈ document.content, node.Sourced := by
  obtain ⟨text, declared, read⟩ := declared_suffix read
  have whole : text <:+ source.toList := by
    split at declared
    · exact declared.trans (List.drop_suffix _ _)
    · exact declared
  obtain ⟨⟨remarked, afterRemarks⟩, outside, read⟩ := Option.bind_eq_some_iff.mp read
  obtain ⟨upTo, behind⟩ := outsideRoot?_upTo (.empty ⟨afterRemarks, []⟩) outside
  have absent : exactly? "<!DOCTYPE" afterRemarks = none := by
    by_contra present
    obtain ⟨rest, found⟩ := Option.ne_none_iff_exists'.mp present
    have inside : "<!DOCTYPE".toList <:+: afterRemarks :=
      ⟨[], rest, by rw [List.nil_append]; exact Text.isPrefixOf?_sound found⟩
    exact plain (inside.trans (behind.trans whole).isInfix)
  simp only [absent] at read
  obtain ⟨_, same, read⟩ := Option.bind_eq_some_iff.mp read
  cases same
  split at read
  · obtain ⟨⟨built, afterRoot⟩, inside, read⟩ := Option.bind_eq_some_iff.mp read
    exact sourced_of_end (outermost?_upTo upTo inside) read
  · exact sourced_of_end upTo read

theorem Node.Sourced.content {node : Node} (sourced : node.Sourced) :
    ∀ inner ∈ node.content, inner.Sourced := by
  cases sourced with
  | element inner => exact inner
  | text | comment | instruction => simp [Node.content]

theorem Node.Sourced.source?_isSome {node : Node} (sourced : node.Sourced)
    (element : node.isElement = true) : node.source?.isSome = true := by
  cases sourced with
  | element inner => rfl
  | text | comment | instruction => cases element

theorem Document.source?_isSome {document : Document} {place : Place}
    (sourced : ∀ node ∈ document.content, node.Sourced) (member : place ∈ document.places)
    (element : place.isElement = true) : place.source?.isSome = true := by
  cases found : place.node? with
  | none =>
    rw [Place.isElement, found] at element
    cases element
  | some node =>
    rw [Place.isElement, found] at element
    rw [Place.source?, found]
    exact (node_of_inherited Node.Sourced.content sourced member found).source?_isSome element

end Regesta.Xml
