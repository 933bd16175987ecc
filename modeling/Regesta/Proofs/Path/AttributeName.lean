import Regesta.Proofs.Path.Denotation
import Regesta.Proofs.Text.Letter
import Regesta.Proofs.Xml.Invariant

namespace Regesta

open Xml (Document ExpandedName IsNCName Place)
open Text (Tight isBlank)

namespace Namespaces

variable {namespaces : Namespaces}

theorem Spells.suffix {text : List Char} {name : ExpandedName}
    (spells : namespaces.Spells text name) :
    IsLocal name.localName.toList ∧ name.localName.toList <:+ text := by
  cases spells with
  | plain fits =>
    rw [String.toList_ofList]
    exact ⟨fits, List.suffix_refl _⟩
  | @labelled label stem _ _ _ _ fits =>
    rw [String.toList_ofList]
    exact ⟨fits, label ++ [':'], by simp⟩
  | @braced uri stem _ fits =>
    rw [String.toList_ofList]
    exact ⟨fits, '{' :: uri ++ ['}'], by simp⟩

/-- In one spelling or another, all local names are accepted that no blank ends. -/
theorem local_accepted_iff (namespaces : Namespaces) (stem : List Char) :
    (∃ text uri, namespaces.name text = .ok ⟨uri, String.ofList stem⟩) ↔
      IsLocal stem ∧ ∀ c, stem.getLast? = some c → isBlank c = false := by
  constructor
  · intro accepted
    obtain ⟨text, uri, read⟩ := accepted
    obtain ⟨fits, front, whole⟩ := ((name_spelled_iff _ _ _).mp read).suffix
    rw [String.toList_ofList] at fits whole
    refine ⟨fits, ?_⟩
    intro c last
    apply (Text.tight_trim text.toList).last c
    rw [← whole, List.getLast?_append, last]
    rfl
  · intro both
    obtain ⟨fits, last⟩ := both
    have tight : Tight ('{' :: [] ++ '}' :: stem) := tight_braced fits.1 last
    refine ⟨String.ofList ('{' :: [] ++ '}' :: stem), some "", ?_⟩
    rw [name_spelled_iff, String.toList_ofList, Text.trim_of_tight tight]
    exact .braced List.not_mem_nil fits

end Namespaces

theorem Xml.Place.attribute?_named {source : String} {document : Document}
    (read : Document.read? source = some document) {place : Place}
    (member : place ∈ document.places) {name : ExpandedName} {value : String}
    (borne : place.attribute? name = some value) : IsNCName name.localName.toList := by
  obtain ⟨node, found, borne⟩ := Option.bind_eq_some_iff.mp borne
  obtain ⟨entry, among, _⟩ := Option.map_eq_some_iff.mp borne
  have attributed : node.Attributed :=
    Document.node_of_inherited Xml.Node.Attributed.content (Document.read?_attributed read) member
      found
  have same : entry.name = name := by simpa using List.find?_some among
  cases attributed with
  | element named => exact same ▸ named entry (List.mem_of_find?_eq_some among)
  | text | comment | instruction => cases among

namespace Predicate

structure IsLocal (stem : List Char) : Prop where
  fits : Namespaces.IsLocal stem
  free : ∀ c ∈ stem, Path.endsAttributeName c = false

def attribute? : Predicate → Option ExpandedName
  | hasAttribute name => some name
  | attributeIs name _ => some name
  | _ => none

theorem SpellsAttribute.isLocal {namespaces : Namespaces} {text : List Char} {name : ExpandedName}
    (spells : SpellsAttribute namespaces text name) : IsLocal name.localName.toList := by
  obtain ⟨fits, suffix⟩ := spells.spells.suffix
  exact ⟨fits, fun c member => spells.free c (suffix.subset member)⟩

theorem Spells.attribute_isLocal {namespaces : Namespaces} {text : List Char}
    {predicate : Predicate} (spells : predicate.Spells namespaces text) {name : ExpandedName}
    (asked : predicate.attribute? = some name) : IsLocal name.localName.toList := by
  cases spells with
  | position | last | hasChild => cases asked
  | hasAttribute spelled | attributeIs spelled =>
    cases asked
    exact spelled.isLocal

/-- An attribute predicate with a plain name is accepted for all texts without the signs that end
names and those that names may not have. -/
theorem hasAttribute_iff (namespaces : Namespaces) (path : String) (stem : List Char) :
    Path.predicate namespaces path ('@' :: stem) = .ok (.hasAttribute ⟨none, String.ofList stem⟩) ↔
      IsLocal stem := by
  constructor
  · intro read
    have isLocal := (Path.predicate_sound read).attribute_isLocal rfl
    rwa [String.toList_ofList] at isLocal
  · intro isLocal
    have visible : ∀ c ∈ '@' :: stem, isBlank c = false := by
      refine List.forall_mem_cons.mpr ⟨by decide, ?_⟩
      intro c member
      exact Path.visible_of_free (isLocal.free c member)
    have spells : Predicate.Spells namespaces ('@' :: stem)
        (.hasAttribute ⟨none, String.ofList stem⟩) :=
    .hasAttribute ⟨isLocal.free, .plain isLocal.fits⟩
    rw [← Text.trim_of_tight (.of_visible visible)] at spells
    exact Path.predicate_complete spells path

theorem keep_unborne {predicate : Predicate} {name : ExpandedName}
    (asked : predicate.attribute? = some name) {candidates : List Place}
    (unborne : ∀ place ∈ candidates, place.attribute? name = none) :
    predicate.keep candidates = [] := by
  cases predicate with
  | position | last | hasChild => cases asked
  | hasAttribute | attributeIs =>
    cases asked
    refine List.filter_eq_nil_iff.mpr fun place member => ?_
    simp [unborne place member]

end Predicate

def Path.attributes (path : Path) : List ExpandedName :=
  match path.route with
  | .here => []
  | .steps _ steps => steps.flatMap fun step => step.predicates.filterMap Predicate.attribute?

theorem Path.asked_of_mem {path : Path} {name : ExpandedName} (member : name ∈ path.attributes) :
    ∃ absolute steps, path.route = .steps absolute steps ∧ ∃ step ∈ steps,
      ∃ predicate ∈ step.predicates, predicate.attribute? = some name := by
  obtain ⟨source, route⟩ := path
  cases route with
  | here => cases member
  | steps absolute steps =>
    obtain ⟨step, taken, member⟩ := List.mem_flatMap.mp member
    obtain ⟨predicate, among, asked⟩ := List.mem_filterMap.mp member
    exact ⟨absolute, steps, rfl, step, taken, predicate, among, asked⟩

section

variable {document : Document} {name : ExpandedName}
  (unborne : ∀ place ∈ document.places, place.attribute? name = none)

include unborne

theorem Step.places_unborne {step : Step} {predicate : Predicate}
    (among : predicate ∈ step.predicates) (asked : predicate.attribute? = some name) {origin : Place}
    (member : origin ∈ document.places) : step.places origin = [] := by
  obtain ⟨before, after, parts⟩ := List.append_of_mem among
  have found : ∀ place ∈ (step.axis.places origin).filter step.test.accepts,
      place ∈ document.places := fun place inside =>
    ((Axis.mem_places_iff member _ _).mp (List.mem_of_mem_filter inside)).1
  rw [Step.places, parts, List.foldl_append, List.foldl_cons, Predicate.keep_unborne asked]
  · exact List.subset_nil.mp (Predicate.keepAll_subset after [])
  · intro place kept
    exact unborne place (found place (Predicate.keepAll_subset before _ kept))

theorem followSteps_unborne {steps : List Step} {step : Step} {predicate : Predicate}
    (taken : step ∈ steps) (among : predicate ∈ step.predicates)
    (asked : predicate.attribute? = some name) {places : List Place}
    (placed : ∀ place ∈ places, place ∈ document.places) : followSteps steps places = [] := by
  induction steps generalizing places with
  | nil => cases taken
  | cons first rest ih =>
    rw [followSteps_cons]
    rcases List.mem_cons.mp taken with rfl | later
    · have none : step.advance places = [] := by
        refine List.eq_nil_iff_forall_not_mem.mpr fun place reached => ?_
        rw [step.mem_advance placed, List.mem_flatMap] at reached
        obtain ⟨origin, inside, reached⟩ := reached
        rw [Step.places_unborne unborne among asked (placed origin inside)] at reached
        cases reached
      rw [none, followSteps_nil]
    · exact ih later (first.advance_subset placed)

theorem Path.select_unborne {path : Path} (listed : name ∈ path.attributes) {start : Place}
    (member : start ∈ document.places) : path.select start = [] := by
  obtain ⟨absolute, steps, route, step, taken, predicate, among, asked⟩ := asked_of_mem listed
  rw [select, route]
  exact followSteps_unborne unborne taken among asked (start_mem member absolute)

end

theorem Path.read_attribute_isLocal {namespaces : Namespaces} {text : String} {path : Path}
    (found : read namespaces text = .ok path) {name : ExpandedName}
    (listed : name ∈ path.attributes) : Predicate.IsLocal name.localName.toList := by
  obtain ⟨absolute, steps, route, step, taken, predicate, among, asked⟩ := asked_of_mem listed
  have spells := ((read_ok_iff namespaces text path).mp found).2
  rw [route] at spells
  obtain ⟨body, spelled⟩ := spells.predicates step taken predicate among
  exact spelled.attribute_isLocal asked

theorem Xml.isForbidden_foreign {c : Char} (forbidden : Namespaces.isForbidden c = true) :
    c = ':' ∨ isNameChar c = false := by
  simp only [Namespaces.isForbidden, Bool.or_eq_true, decide_eq_true_eq, or_assoc] at forbidden
  rcases forbidden with rfl | rfl | rfl | rfl | rfl <;> decide

theorem Xml.blankCodes_foreign :
    ∀ n ∈ Text.blankCodes, n = 0x1680 ∨ isNameChar (Char.ofNat n) = false := by
  decide

/-- The one blank that names may have is that of the Ogham script. -/
theorem Xml.endsAttributeName_foreign {c : Char} (ends : Path.endsAttributeName c = true) :
    c = '\u1680' ∨ isNameChar c = false := by
  simp only [Path.endsAttributeName, Bool.or_eq_true, decide_eq_true_eq, or_assoc] at ends
  rcases ends with blank | rfl | rfl | rfl
  · have known := blankCodes_foreign _ (Text.mem_blankCodes blank)
    rw [Char.ofNat_toNat] at known
    apply known.imp_left
    intro same
    rw [← Char.ofNat_toNat c, same]
  all_goals decide

namespace Xml.IsNCName

variable {stem : List Char} (named : IsNCName stem)

include named

theorem foreign_not_mem {c : Char} (foreign : isNameChar c = false) : c ∉ stem := by
  intro member
  rw [named.characters c member] at foreign
  cases foreign

theorem quote_not_mem {q : Char} (quote : Predicate.IsQuote q) : q ∉ stem := by
  rcases quote with rfl | rfl
  · exact named.foreign_not_mem (by decide)
  · exact named.foreign_not_mem (by decide)

theorem isLocal : Namespaces.IsLocal stem := by
  refine ⟨?_, ?_⟩
  · intro empty
    have starts := named.starts
    rw [empty] at starts
    cases starts
  · intro c member
    by_contra forbidden
    rw [Bool.not_eq_false] at forbidden
    rcases isForbidden_foreign forbidden with rfl | foreign
    · exact named.plain member
    · exact named.foreign_not_mem foreign member

theorem predicate_isLocal_iff : Predicate.IsLocal stem ↔ '\u1680' ∉ stem := by
  constructor
  · intro isLocal member
    have free := isLocal.free _ member
    rw [show Path.endsAttributeName '\u1680' = true by decide] at free
    cases free
  · intro fresh
    refine ⟨named.isLocal, ?_⟩
    intro c member
    by_contra ends
    rw [Bool.not_eq_false] at ends
    rcases endsAttributeName_foreign ends with rfl | foreign
    · exact fresh member
    · exact named.foreign_not_mem foreign member

end Xml.IsNCName

/-- Where the sign before a quoted value is forgotten, the value with its quotes is read as part of
the name, unless a sign in it stands against that. -/
theorem Predicate.forgotten_isLocal_iff (name value : List Char) {q : Char}
    (quote : Predicate.IsQuote q) :
    Predicate.IsLocal (name ++ q :: value ++ [q]) ↔
      ∀ c ∈ name ++ value, Namespaces.isForbidden c = false ∧ Path.endsAttributeName c = false := by
  have fine : Namespaces.isForbidden q = false ∧ Path.endsAttributeName q = false := by
    rcases quote with rfl | rfl <;> decide
  constructor
  · intro isLocal c member
    have inside : c ∈ name ++ q :: value ++ [q] := by
      rcases List.mem_append.mp member with member | member <;> simp [member]
    exact ⟨isLocal.fits.2 c inside, isLocal.free c inside⟩
  · intro clear
    have each : ∀ c ∈ name ++ q :: value ++ [q],
        Namespaces.isForbidden c = false ∧ Path.endsAttributeName c = false := by
      intro c member
      by_cases same : c = q
      · exact same ▸ fine
      · exact clear c (by simpa [same] using member)
    exact ⟨⟨by simp, fun c member => (each c member).1⟩, fun c member => (each c member).2⟩

/-- Names of attributes are accepted when no character in them is against that and no blank ends
them. So are those that elements have, apart from a blank that names may have. A path that is
accepted with another name selects nothing, such as one in which the sign before a quoted value is
forgotten. -/
theorem attribute_names_accepted (namespaces : Namespaces) :
    (∀ stem : List Char, (∃ text uri, namespaces.name text = .ok ⟨uri, String.ofList stem⟩) ↔
      Namespaces.IsLocal stem ∧ ∀ c, stem.getLast? = some c → isBlank c = false) ∧
    (∀ (source : String) (document : Document), Document.read? source = some document →
      ∀ place ∈ document.places, ∀ name value, place.attribute? name = some value →
        let stem := name.localName.toList
        IsNCName stem ∧ Namespaces.IsLocal stem ∧ (Predicate.IsLocal stem ↔ '\u1680' ∉ stem)) ∧
    (∀ (text : String) (path : Path), Path.read namespaces text = .ok path →
      ∀ name ∈ path.attributes, Predicate.IsLocal name.localName.toList ∧
        (¬ IsNCName name.localName.toList →
          ∀ (source : String) (document : Document), Document.read? source = some document →
            ∀ start ∈ document.places, path.select start = [])) ∧
    ∀ (path : String) (name value : List Char) (q : Char), Predicate.IsQuote q →
      let forgotten := name ++ q :: value ++ [q]
      ¬ IsNCName forgotten ∧
        (Path.predicate namespaces path ('@' :: forgotten) =
            .ok (.hasAttribute ⟨none, String.ofList forgotten⟩) ↔
          ∀ c ∈ name ++ value,
            Namespaces.isForbidden c = false ∧ Path.endsAttributeName c = false) := by
  refine ⟨Namespaces.local_accepted_iff namespaces, ?_, ?_, ?_⟩
  · intro source document read place member name value borne
    have named := Place.attribute?_named read member borne
    exact ⟨named, named.isLocal, named.predicate_isLocal_iff⟩
  · intro text path found name asked
    refine ⟨Path.read_attribute_isLocal found asked, ?_⟩
    intro other source document read start member
    refine Path.select_unborne ?_ asked member
    intro place inside
    by_contra borne
    obtain ⟨value, borne⟩ := Option.ne_none_iff_exists'.mp borne
    exact other (Place.attribute?_named read inside borne)
  · intro path name value q quote forgotten
    refine ⟨fun named => named.quote_not_mem quote (by simp [forgotten]), ?_⟩
    exact (Predicate.hasAttribute_iff namespaces path forgotten).trans
      (Predicate.forgotten_isLocal_iff name value quote)

theorem forgotten_sign_accepted :
    Namespaces.name [] "n'v'" = .ok ⟨none, "n'v'"⟩ ∧ ¬ IsNCName "n'v'".toList ∧
      Path.read [] "p[@n'v']" =
        .ok ⟨"p[@n'v']", .steps false [⟨.child, .tag "p", [.hasAttribute ⟨none, "n'v'"⟩]⟩]⟩ := by
  refine ⟨by rfl, ?_, by rfl⟩
  intro named
  exact named.quote_not_mem (.inl rfl) (by decide)

theorem attribute_names_accepted_forgotten :
    let path : Path :=
      ⟨"p[@n'v']", .steps false [⟨.child, .tag "p", [.hasAttribute ⟨none, "n'v'"⟩]⟩]⟩
    let document : Document := ⟨[.element ⟨none, "p"⟩ [⟨⟨none, "n"⟩, "v"⟩] (some "<p n='v'/>") []]⟩
    Document.read? "<p n='v'/>" = some document ∧ Path.read [] "p[@n'v']" = .ok path ∧
      path.select document.root = [] := by
  intro path document
  have read : Document.read? "<p n='v'/>" = some document := by rfl
  have found : Path.read [] "p[@n'v']" = .ok path := by rfl
  obtain ⟨_, _, selects, _⟩ := attribute_names_accepted []
  have asked : (⟨none, "n'v'"⟩ : ExpandedName) ∈ path.attributes := List.mem_cons_self
  have foreign : ¬ IsNCName "n'v'".toList := fun named => named.quote_not_mem (.inl rfl) (by decide)
  exact ⟨read, found, (selects _ path found _ asked).2 foreign _ document read _ document.root_mem⟩

end Regesta
