import Mathlib.Data.List.Forall2
import Regesta.Evaluation
import Regesta.Proofs.Xml.Order
import Regesta.Xml.Data
import Regesta.Xml.Reader

namespace Regesta.Xml

def Node.isRemark : Node → Bool
  | .comment _ | .instruction _ _ => true
  | .element .. | .text _ => false

/-- Nodes and what is left of them without remarks, at all depths. A text is joined to the next one
when there were only remarks between the two. What an element was read from may be another text. -/
inductive Bares : List Node → List Node → Prop
  | nil : Bares [] []
  | remark {node : Node} {rest bare : List Node} :
    node.isRemark = true → Bares rest bare → Bares (node :: rest) bare
  | element {name : ExpandedName} {attributes : List Attribute} {source other : Option String}
    {content inner rest bare : List Node} :
    Bares content inner → Bares rest bare →
    Bares (.element name attributes source content :: rest)
      (.element name attributes other inner :: bare)
  | text {value : String} {rest bare : List Node} :
    (rest.head?.any Node.isRemark = true → bare.head?.any Node.isText = false) → Bares rest bare →
    Bares (.text value :: rest) (.text value :: bare)
  | joined {value next : String} {rest bare : List Node} :
    rest.head?.any Node.isRemark = true → Bares rest (.text next :: bare) →
    Bares (.text value :: rest) (.text (value ++ next) :: bare)

theorem exists_bares (content : List Node) : ∃ bare, Bares content bare := by
  match content with
  | [] => exact ⟨[], .nil⟩
  | .comment value :: rest =>
    obtain ⟨bare, bares⟩ := exists_bares rest
    exact ⟨bare, .remark rfl bares⟩
  | .instruction target value :: rest =>
    obtain ⟨bare, bares⟩ := exists_bares rest
    exact ⟨bare, .remark rfl bares⟩
  | .element name attributes source content :: rest =>
    obtain ⟨inner, inside⟩ := exists_bares content
    obtain ⟨bare, bares⟩ := exists_bares rest
    exact ⟨.element name attributes source inner :: bare, .element inside bares⟩
  | .text value :: rest =>
    obtain ⟨bare, bares⟩ := exists_bares rest
    by_cases parted : rest.head?.any Node.isRemark = true
    · cases bare with
      | nil => exact ⟨_, .text (fun _ => rfl) bares⟩
      | cons node others =>
        cases node with
        | text next => exact ⟨_, .joined parted bares⟩
        | element | comment | instruction => exact ⟨_, .text (fun _ => rfl) bares⟩
    · exact ⟨_, .text (fun remark => absurd remark parted) bares⟩

@[simp] theorem ownText_text (value : String) (rest : List Node) :
    ownText (.text value :: rest) = value.toList ++ ownText rest := List.flatMap_cons

namespace Bares

variable {content bare : List Node}

theorem textAll (bares : Bares content bare) : Node.textAll bare = Node.textAll content := by
  induction bares with
  | nil => rfl
  | @remark node rest bare remark _ ih =>
    cases node with
    | comment | instruction => rw [ih, Node.textAll, Node.fullText, String.empty_append]
    | element | text => cases remark
  | element _ _ inner ih => rw [Node.textAll, Node.textAll, Node.fullText, Node.fullText, inner, ih]
  | text _ _ ih => rw [Node.textAll, Node.textAll, ih]
  | joined _ _ ih =>
    rw [Node.textAll, Node.fullText] at ih ⊢
    rw [Node.textAll, Node.fullText, ← ih, String.append_assoc]

theorem ownText (bares : Bares content bare) : Xml.ownText bare = Xml.ownText content := by
  induction bares with
  | nil => rfl
  | @remark node rest bare remark _ ih =>
    cases node with
    | comment | instruction => exact ih
    | element | text => cases remark
  | element _ _ _ ih => exact ih
  | text _ _ ih => simp [ih]
  | joined _ _ ih =>
    rw [ownText_text] at ih ⊢
    rw [ownText_text, ← ih, String.toList_append, List.append_assoc]

theorem gatherAll (bares : Bares content bare) (members : Members) :
    Xml.gatherAll members bare = Xml.gatherAll members content := by
  induction bares generalizing members with
  | nil => rfl
  | @remark node rest bare remark _ ih =>
    cases node with
    | comment | instruction => rw [Xml.gatherAll]; exact ih members
    | element | text => cases remark
  | element inside _ inner ih =>
    rw [Xml.gatherAll, Xml.gatherAll]
    simp only [Node.name?, contentValue, inner, inside.ownText]
    exact ih _
  | text _ _ ih =>
    rw [Xml.gatherAll, Xml.gatherAll]
    exact ih members
  | joined _ _ ih =>
    have rest := ih members
    rw [Xml.gatherAll] at rest ⊢
    rw [Xml.gatherAll]
    exact rest

theorem contentValue (bares : Bares content bare) (name : ExpandedName)
    (attributes : List Attribute) (source other : Option String) :
    Xml.contentValue (.element name attributes other bare) =
      Xml.contentValue (.element name attributes source content) := by
  rw [Xml.contentValue, Xml.contentValue, bares.gatherAll, bares.ownText]

end Bares

def Place.Bares (place bare : Place) : Prop :=
  ∃ name attributes source other content inner,
    place.node? = some (.element name attributes source content) ∧
      bare.node? = some (.element name attributes other inner) ∧ Xml.Bares content inner

theorem elements_bare {content bare : List Node} (bares : Bares content bare)
    (parent other : Place) (next number : Nat) :
    List.Forall₂ Place.Bares ((Place.withinAll parent next content).filter Place.isElement)
      ((Place.withinAll other number bare).filter Place.isElement) := by
  -- The places of texts and remarks are passed over, so only the numbers of the others change.
  induction bares generalizing parent other next number with
  | nil => exact .nil
  | @remark node rest bare remark _ ih =>
    cases node with
    | comment | instruction => exact ih _ _ _ _
    | element | text => cases remark
  | element inside _ inner ih =>
    rw [Place.withinAll, Place.withinAll]
    refine .cons ⟨_, _, _, _, _, _, rfl, rfl, inside⟩ ?_
    rw [List.filter_append, List.filter_append]
    exact List.rel_append (inner _ _ _ _) (ih _ _ _ _)
  | text _ _ ih => exact ih _ _ _ _
  | joined _ _ ih => exact ih _ _ _ _

namespace Document

def elements (document : Document) : List Place := document.places.filter Place.isElement

def Bares (document bare : Document) : Prop := Xml.Bares document.content bare.content

end Document

/-- Two places of which nothing is made that differs, apart from the parts of a person's name: of
those each text is one by itself. -/
structure Place.SeenAlike (place other : Place) : Prop where
  value : other.toValue = place.toValue
  fullText : other.fullText = place.fullText
  normalized : Text.normalized other.fullText = Text.normalized place.fullText
  filter : ∀ filter : Filter, filter ≠ .joinedChildren → filter.apply other = filter.apply place
  extract : ∀ (property : String) (attributes : List ExpandedName) (filter : Option FilterRef),
    (attributes = [] → filter ≠ some (.known .joinedChildren)) →
    Regesta.extract property attributes filter other =
      Regesta.extract property attributes filter place

namespace Place.Bares

variable {place bare : Place}

theorem toValue (bares : place.Bares bare) : bare.toValue = place.toValue := by
  obtain ⟨name, attributes, source, other, content, inner, found, there, inside⟩ := bares
  cases place with
  | document => cases found
  | inside parent number node =>
    cases found
    cases bare with
    | document => cases there
    | inside parent number node =>
      cases there
      rw [Place.toValue, Place.toValue, inside.contentValue]
      rfl

theorem fullText (bares : place.Bares bare) : bare.fullText = place.fullText := by
  obtain ⟨name, attributes, source, other, content, inner, found, there, inside⟩ := bares
  cases place with
  | document => cases found
  | inside parent number node =>
    cases found
    cases bare with
    | document => cases there
    | inside parent number node =>
      cases there
      exact inside.textAll

theorem tag (bares : place.Bares bare) : bare.tag = place.tag := by
  obtain ⟨name, attributes, source, other, content, inner, found, there, _⟩ := bares
  rw [Place.tag, Place.tag, found, there]
  rfl

theorem attribute? (bares : place.Bares bare) (name : ExpandedName) :
    bare.attribute? name = place.attribute? name := by
  obtain ⟨_, attributes, source, other, content, inner, found, there, _⟩ := bares
  rw [Place.attribute?, Place.attribute?, found, there]
  rfl

theorem apply (bares : place.Bares bare) {filter : Filter} (whole : filter ≠ .joinedChildren) :
    filter.apply bare = filter.apply place := by
  cases filter with
  | truncate => rw [Filter.apply, Filter.apply, bares.fullText]
  | tagName => exact bares.tag
  | joinedChildren => exact absurd rfl whole

theorem extract (bares : place.Bares bare) (property : String) (attributes : List ExpandedName)
    (filter : Option FilterRef)
    (whole : attributes = [] → filter ≠ some (.known .joinedChildren)) :
    Regesta.extract property attributes filter bare =
      Regesta.extract property attributes filter place := by
  have given : firstAttribute? attributes bare = firstAttribute? attributes place := by
    rw [firstAttribute?, firstAttribute?, funext bares.attribute?]
  unfold Regesta.extract
  by_cases unlisted : attributes = []
  · subst unlisted
    rw [if_pos List.isEmpty_nil, if_pos List.isEmpty_nil]
    match filter with
    | none => rw [bares.fullText]
    | some (.unknown name) => rfl
    | some (.known known) =>
      have kept : known ≠ .joinedChildren := by
        intro same
        exact whole rfl (by rw [same])
      simp only [filtered, bares.apply kept]
  · have listed : ¬ attributes.isEmpty = true := by simpa using unlisted
    rw [if_neg listed, if_neg listed, given]

theorem seenAlike (bares : place.Bares bare) : place.SeenAlike bare :=
  ⟨bares.toValue, bares.fullText, congrArg Text.normalized bares.fullText,
    fun _ whole => bares.apply whole, bares.extract⟩

end Place.Bares

/-- Each document can be laid bare of its remarks, and then its elements are seen alike one by one,
in document order. -/
theorem remarks_unseen (document : Document) :
    (∃ bare, document.Bares bare) ∧
      ∀ bare, document.Bares bare →
        List.Forall₂ (fun place other => place.Bares other ∧ place.SeenAlike other)
          document.elements bare.elements := by
  constructor
  · obtain ⟨content, bares⟩ := exists_bares document.content
    exact ⟨⟨content⟩, bares⟩
  · intro bare bares
    apply (elements_bare bares document.root bare.root 1 1).imp
    intro place other found
    exact ⟨found, found.seenAlike⟩

-- A person's name is told in as many parts as there are texts.
example :
    Filter.joinedParts [.text "a", .comment "x", .text "b"] = "a, b" ∧
      Filter.joinedParts [.text "ab"] = "ab" := by
  cbv

namespace Remarked

def text : String := "<p n='1'>a<!--x-->b<i><?t u?>c</i></p>"

def bareText : String := "<p n='1'>ab<i>c</i></p>"

def document : Document :=
  ⟨[.element ⟨none, "p"⟩ [⟨⟨none, "n"⟩, "1"⟩] (some text)
    [.text "a", .comment "x", .text "b",
      .element ⟨none, "i"⟩ [] (some "<i><?t u?>c</i>") [.instruction "t" "u", .text "c"]]]⟩

def bare : Document :=
  ⟨[.element ⟨none, "p"⟩ [⟨⟨none, "n"⟩, "1"⟩] (some bareText)
    [.text "ab", .element ⟨none, "i"⟩ [] (some "<i>c</i>") [.text "c"]]]⟩

theorem bares : document.Bares bare := by
  have inner : Bares [.instruction "t" "u", .text "c"] [.text "c"] :=
    .remark rfl (.text (fun _ => rfl) .nil)
  have rest : Bares [.text "b", .element ⟨none, "i"⟩ [] (some "<i><?t u?>c</i>")
        [.instruction "t" "u", .text "c"]]
      [.text "b", .element ⟨none, "i"⟩ [] (some "<i>c</i>") [.text "c"]] :=
    .text (fun _ => rfl) (.element inner .nil)
  exact .element (.joined rfl (.remark rfl rest)) .nil

theorem remarks_unseen_read :
    Document.read? text = some document ∧ Document.read? bareText = some bare ∧
      document.Bares bare ∧
      List.Forall₂ (fun place other => other.toValue = place.toValue ∧
        Filter.truncate.apply other = Filter.truncate.apply place)
        document.elements bare.elements := by
  have alike := (remarks_unseen document).2 bare bares
  refine ⟨by rfl, by rfl, bares, alike.imp ?_⟩
  intro place other seen
  exact ⟨seen.2.value, seen.2.filter .truncate (by decide)⟩

end Remarked

end Regesta.Xml
