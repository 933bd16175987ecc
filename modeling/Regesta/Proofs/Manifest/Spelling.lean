import Regesta.Manifest.Validation
import Regesta.Proofs.Manifest.Decoding
import Mathlib.Logic.Relation

namespace Regesta

open Yaml (Tree Tag Style)

namespace Decode

inductive Synonym : Part → String → String → Prop
  | entityPath : Synonym .entity "xpath" "path"
  | identifier : Synonym .entity "id_attribute" "id_attrib"
  | propertyPaths : Synonym .property "xpath" "path"
  | attributes : Synonym .property "attrib" "attribute_names"
  | nested : Synonym .property "properties" "sub_properties"

/-- The same tree with one thing in it spelled differently, when it stands for a part of a manifest.
The name by which an entry goes in faults may change with its key. -/
inductive Respelled : Part → Tree → Tree → Prop
  | key {part : Part} {spelling second : String} (synonym : Synonym part spelling second)
    (tag keyTag otherTag : Option Tag) (style otherStyle : Style) (name other : Option String)
    (value : Tree) (before after : List MapEntry) :
    Respelled part (.mapping tag (before ++ (name, .scalar keyTag style spelling, value) :: after))
      (.mapping tag (before ++ (other, .scalar otherTag otherStyle second, value) :: after))
  | one {single : Tree} {text : String} {tag : Option Tag} (proper : properText? single = some text)
    (standard : tag.any Tag.isOwn = false) : Respelled .texts single (.sequence tag [single])
  | extra {spelling : String} {value : Tree} (unknown : isManifestKey spelling = false)
    (readable : value ≠ .fault) (tag keyTag : Option Tag) (style : Style) (name : Option String)
    (before after : List MapEntry) :
    Respelled .manifest (.mapping tag (before ++ after))
      (.mapping tag (before ++ (name, .scalar keyTag style spelling, value) :: after))
  | value {part inner : Part} {spelling : String} {value other : Tree}
    (below : part.Under spelling inner) (respelled : Respelled inner value other)
    (tag keyTag : Option Tag) (style : Style) (name : Option String)
    (before after : List MapEntry) :
    Respelled part (.mapping tag (before ++ (name, .scalar keyTag style spelling, value) :: after))
      (.mapping tag (before ++ (name, .scalar keyTag style spelling, other) :: after))
  | item {item other : Tree} (respelled : Respelled .properties item other) (tag : Option Tag)
    (before after : List Tree) :
    Respelled .nested (.sequence tag (before ++ item :: after))
      (.sequence tag (before ++ other :: after))

inductive Within : Part → Tree → Part → Tree → Prop
  | here (part : Part) (tree : Tree) : Within part tree part tree
  | value {part inner found : Part} {spelling : String} {value tree : Tree}
    {tag keyTag : Option Tag} {style : Style} {name : Option String} {entries : List MapEntry} :
    part.Under spelling inner → (name, .scalar keyTag style spelling, value) ∈ entries →
    Within inner value found tree → Within part (.mapping tag entries) found tree
  | item {found : Part} {item tree : Tree} {tag : Option Tag} {items : List Tree} :
    item ∈ items → Within .properties item found tree →
    Within .nested (.sequence tag items) found tree

/-- The keys that a part knows, when it refuses others. -/
def Part.keys? : Part → Option (List String)
  | entity => some ["xpath", "path", "properties", "id_attribute", "id_attrib"]
  | property => some ["xpath", "path", "multiple", "attrib", "attribute_names", "filter",
      "properties", "sub_properties"]
  | _ => none

/-- Somewhere in a tree that stands for a manifest, an entity type or a property has a key that it
does not know. -/
def HasStrangeKey (tree : Tree) : Prop :=
  ∃ part keys tag entries key, Within .manifest tree part (.mapping tag entries) ∧
    part.keys? = some keys ∧ (∃ name value, (name, key, value) ∈ entries) ∧
    ∀ keyTag style spelling, key = .scalar keyTag style spelling → spelling ∉ keys

theorem Synonym.propertyKey {spelling second : String}
    (synonym : Synonym .property spelling second) :
    ∃ key, Decode.propertyKey spelling = .ok key ∧ Decode.propertyKey second = .ok key := by
  cases synonym with
  | propertyPaths => exact ⟨.paths, rfl, rfl⟩
  | attributes => exact ⟨.attributes, rfl, rfl⟩
  | nested => exact ⟨.nested, rfl, rfl⟩

theorem propertyField_agree (step other : FaultStep) (value : Tree) (fields : PropertyFields)
    (key : PropertyKey) :
    Agree (propertyField step value fields key) (propertyField other value fields key) := by
  cases key with
  | paths | attributes =>
    have decoded := Agree.optional value (oneOrMany_agree step other)
    exact (decoded.fill _ _).bind fun _ => Agree.refl _
  | multiple =>
    have decoded := (Agree.refl (truth value)).under step other
    exact (decoded.fill _ _).bind fun _ => Agree.refl _
  | filter =>
    have decoded := Agree.optional value fun tree => (Agree.refl (text tree)).under step other
    exact (decoded.fill _ _).bind fun _ => Agree.refl _
  | nested =>
    have decoded := Part.nested_agree (Agree.refl (Part.nested.decode value)) step other
    exact (decoded.fill _ _).bind fun _ => Agree.refl _

theorem Synonym.entityFields_agree {spelling second : String}
    (synonym : Synonym .entity spelling second) (keyTag otherTag : Option Tag)
    (style otherStyle : Style) (name other : Option String) (value : Tree) (fields : EntityFields) :
    Agree (entityFields [(name, .scalar keyTag style spelling, value)] fields)
      (entityFields [(other, .scalar otherTag otherStyle second, value)] fields) := by
  cases synonym with
  | entityPath =>
    have decoded := (Agree.refl (text value)).under (stepTo name) (stepTo other)
    exact (decoded.fill _ _).bind fun _ => Agree.refl _
  | identifier =>
    have decoded := Agree.optional value fun tree =>
      (Agree.refl (text tree)).under (stepTo name) (stepTo other)
    exact (decoded.fill _ _).bind fun _ => Agree.refl _

theorem Synonym.agree {part : Part} {spelling second : String}
    (synonym : Synonym part spelling second) (tag keyTag otherTag : Option Tag)
    (style otherStyle : Style) (name other : Option String) (value : Tree)
    (before after : List MapEntry) :
    Agree
      (part.decode (.mapping tag (before ++ (name, .scalar keyTag style spelling, value) :: after)))
      (part.decode (.mapping tag
        (before ++ (other, .scalar otherTag otherStyle second, value) :: after))) := by
  cases part with
  | entity =>
    exact Part.entity_folds.exchange tag before after fun fields =>
      synonym.entityFields_agree keyTag otherTag style otherStyle name other value fields
  | property =>
    obtain ⟨key, first, same⟩ := synonym.propertyKey
    refine Part.property_folds.exchange tag before after fun fields => ?_
    rw [propertyFields_entry first, propertyFields_entry same]
    exact propertyField_agree (stepTo name) (stepTo other) value fields key
  | _ => nomatch synonym

theorem null_ne_text (style : Style) (text : String) :
    Yaml.meaning (some (.standard "null")) style text ≠ .text := by
  have bool : Tag.standard "null" ≠ .standard "bool" := by decide +kernel
  have int : Tag.standard "null" ≠ .standard "int" := by decide +kernel
  have float : Tag.standard "null" ≠ .standard "float" := by decide +kernel
  simp only [Yaml.meaning, Yaml.taggedMeaning, if_neg bool, if_neg int, if_neg float, if_true]
  split <;> simp

theorem isLeftOut_of_proper {tree : Tree} {text : String} (proper : properText? tree = some text) :
    isLeftOut tree = .ok false := by
  obtain ⟨tag, style, rfl, means⟩ : ∃ tag style, tree = .scalar tag style text ∧
      Yaml.meaning tag style text = .text := by
    cases tree with
    | scalar tag style written =>
      simp only [properText?, Option.ite_none_right_eq_some, Option.some.injEq] at proper
      obtain ⟨means, rfl⟩ := proper
      exact ⟨tag, style, rfl, means⟩
    | _ => cases proper
  cases style with
  | plain =>
    cases tag with
    | none =>
      by_cases blank : (text.isEmpty || Yaml.isNullWord text) = true
      · simp [Yaml.meaning, Yaml.plainMeaning, blank] at means
      · simp [isLeftOut, blank]
    | some tag =>
      by_cases null : tag = .standard "null"
      · exact absurd (null ▸ means) (null_ne_text .plain text)
      · simp [isLeftOut, null]
  | _ => rfl

theorem one_agree {single : Tree} {text : String} {tag : Option Tag}
    (proper : properText? single = some text) (standard : tag.any Tag.isOwn = false) :
    Agree (Part.texts.decode single) (Part.texts.decode (.sequence tag [single])) := by
  have present : isLeftOut single = .ok false := isLeftOut_of_proper proper
  change Agree (optional (oneOrMany .unnamed) single) (optional (oneOrMany .unnamed) _)
  unfold optional
  rw [present]
  refine Agree.bind (Agree.refl _) fun _ => ?_
  split
  · exact Agree.refl _
  have through : readThrough (.sequence tag [single]) = under (.item 0) (readThrough single) := by
    simp only [readThrough, readItems, standard]
    exact bind_pure _
  have read : Agree (readThrough single) (readThrough (.sequence tag [single])) :=
    fun value => by rw [through, under_ok_iff]
  have several : properText? (.sequence tag [single]) = none := rfl
  have listed : [single].mapM properText? = some [text] := by simp [proper]
  refine Agree.map some (Agree.bind (read.under _ _) fun _ => .of_eq ?_)
  simp only [proper, several, listed]

theorem manifestFields_extra {spelling : String} {value : Tree}
    (unknown : isManifestKey spelling = false) (readable : value ≠ .fault) (name : Option String)
    (tag : Option Tag) (style : Style) (fields : ManifestFields) :
    manifestFields [(name, .scalar tag style spelling, value)] fields = .ok fields := by
  have passed : ignored value = .ok () := by
    cases value with
    | fault => exact absurd rfl readable
    | _ => rfl
  simp only [isManifestKey, List.contains_eq_mem, List.mem_cons, not_or, List.not_mem_nil,
    decide_eq_false_iff_not] at unknown
  obtain ⟨collection, entities, idAttribute, namespaces, mode⟩ := unknown
  simp only [manifestFields, text, Bind.bind, Except.bind]
  split <;> first | contradiction | simp only [passed]

theorem Respelled.agree {part : Part} {tree other : Tree} (respelled : Respelled part tree other) :
    Agree (part.decode tree) (part.decode other) := by
  -- Further in, the part below is decoded alike, and so is what holds it.
  induction respelled with
  | key synonym tag keyTag otherTag style otherStyle name other value before after =>
    exact synonym.agree tag keyTag otherTag style otherStyle name other value before after
  | one proper standard => exact one_agree proper standard
  | extra unknown readable tag keyTag style name before after =>
    have idle := manifestFields_extra unknown readable name keyTag style
    exact (Part.manifest_folds.insert tag before after idle).symm
  | value below _ tag keyTag style name before after ih =>
    exact below.exchange ih tag keyTag style name before after
  | item _ tag before after ih =>
    rw [Part.nested_sequence, Part.nested_sequence]
    split
    · exact Agree.refl _
    · exact (Part.templates_exchange ih before after 0).map _

theorem respelled_agree {part : Part} {tree other : Tree}
    (respelled : Relation.EqvGen (Respelled part) tree other) :
    Agree (part.decode tree) (part.decode other) := by
  induction respelled with
  | rel _ _ once => exact once.agree
  | refl tree => exact Agree.refl _
  | symm _ _ _ ih => exact ih.symm
  | trans _ _ _ _ _ first second => exact first.trans second

theorem Within.decoded {part found : Part} {tree inner : Tree}
    (within : Within part tree found inner) (whole : ∃ value, part.decode tree = .ok value) :
    ∃ value, found.decode inner = .ok value := by
  induction within with
  | here => exact whole
  | value below member _ ih =>
    obtain ⟨value, decoded⟩ := whole
    exact ih (below.each member decoded)
  | item member _ ih =>
    obtain ⟨value, decoded⟩ := whole
    rw [Part.nested_sequence] at decoded
    split at decoded
    · cases decoded
    · obtain ⟨sets, listed, _⟩ := map_ok_iff.mp decoded
      exact ih (Part.templates_each listed member)

theorem text_ok {key : Tree} {spelling : String} (read : text key = .ok spelling) :
    ∃ tag style, key = .scalar tag style spelling := by
  cases key with
  | scalar tag style written => exact ⟨tag, style, by rw [Except.ok.inj read]⟩
  | _ => cases read

theorem propertyKey_known {spelling : String} {key : PropertyKey}
    (known : propertyKey spelling = .ok key) :
    spelling ∈ ["xpath", "path", "multiple", "attrib", "attribute_names", "filter", "properties",
      "sub_properties"] := by
  unfold propertyKey at known
  split at known
  case h_9 => cases known
  all_goals simp

theorem Part.keys_known {part : Part} {keys : List String} (closed : part.keys? = some keys)
    {tag : Option Tag} {entries : List MapEntry} {entry : MapEntry} (member : entry ∈ entries)
    {whole : part.Value} (decoded : part.decode (.mapping tag entries) = .ok whole) :
    ∃ keyTag style spelling, entry.2.1 = .scalar keyTag style spelling ∧ spelling ∈ keys := by
  obtain ⟨name, key, value⟩ := entry
  cases part with
  | entity =>
    cases closed
    obtain ⟨fields, next, ran⟩ := entity_folds.each member decoded
    rw [entityFields] at ran
    obtain ⟨spelling, read, later⟩ := bind_ok_iff.mp ran
    obtain ⟨keyTag, style, rfl⟩ := text_ok read
    refine ⟨keyTag, style, spelling, rfl, ?_⟩
    split at later
    case h_6 => cases later
    all_goals simp
  | property =>
    cases closed
    obtain ⟨fields, next, ran⟩ := property_folds.each member decoded
    rw [propertyFields_cons] at ran
    obtain ⟨spelled, found⟩ := first_ok ran
    obtain ⟨field, named⟩ := first_ok found
    obtain ⟨spelling, read, known⟩ := bind_ok_iff.mp named
    obtain ⟨keyTag, style, rfl⟩ := text_ok read
    exact ⟨keyTag, style, spelling, rfl, propertyKey_known known⟩
  | _ => cases closed

theorem HasStrangeKey.refused {tree : Tree} (strange : HasStrangeKey tree) :
    ∃ fault, Decode.manifest tree = .error fault := by
  obtain ⟨part, keys, tag, entries, key, within, closed, ⟨name, value, member⟩, unknown⟩ := strange
  cases decoded : Decode.manifest tree with
  | error fault => exact ⟨fault, rfl⟩
  | ok manifest =>
    obtain ⟨whole, reached⟩ := within.decoded ⟨manifest, decoded⟩
    obtain ⟨keyTag, style, spelling, rfl, known⟩ := Part.keys_known closed member reached
    exact absurd known (unknown keyTag style spelling rfl)

end Decode

namespace Manifest

def ofTree (tree : Tree) : Except Error Manifest :=
  (Decode.manifest tree).mapError .unreadableManifest >>= ofDescriptor

/-- Two texts read alike: with the same result, or both as no manifest. -/
inductive Alike : Except Error Manifest → Except Error Manifest → Prop
  | same (result : Except Error Manifest) : Alike result result
  | unreadable (fault other : ManifestFault) :
    Alike (.error (.unreadableManifest fault)) (.error (.unreadableManifest other))

theorem ofTree_alike {tree other : Tree}
    (agree : Decode.Agree (Decode.manifest tree) (Decode.manifest other)) :
    Alike (ofTree tree) (ofTree other) := by
  unfold ofTree
  cases decoded : Decode.manifest tree with
  | error fault =>
    obtain ⟨second, failed⟩ := agree.error decoded
    rw [failed]
    exact .unreadable fault second
  | ok descriptor =>
    rw [(agree descriptor).mp decoded]
    exact .same _

theorem read_eq_ofTree {source : String} (sound : (Yaml.read source).sound) :
    read source = ofTree ((Yaml.read source).tree Decode.isManifestKey) := by
  unfold read load ManifestDescriptor.ofYaml ofTree
  dsimp only
  rw [sound]
  cases Decode.manifest ((Yaml.read source).tree Decode.isManifestKey) <;> rfl

/-- A text that is YAML is read as its tree. However a tree is spelled, the manifest is the same, or
the error is; only why a text is no manifest may be told differently. With a strange key in an
entity type or a property, however deep, it is none. -/
theorem read_indifferent_to_spelling :
    (∀ source, (Yaml.read source).sound →
      read source = ofTree ((Yaml.read source).tree Decode.isManifestKey)) ∧
    (∀ tree other, Relation.EqvGen (Decode.Respelled .manifest) tree other →
      Alike (ofTree tree) (ofTree other)) ∧
    (∀ tree, Decode.HasStrangeKey tree →
      ∃ fault, ofTree tree = .error (.unreadableManifest fault)) := by
  refine ⟨fun _ => read_eq_ofTree, ?_, ?_⟩
  · intro tree other respelled
    exact ofTree_alike (Decode.respelled_agree respelled)
  · intro tree strange
    obtain ⟨fault, refused⟩ := strange.refused
    refine ⟨fault, ?_⟩
    rw [ofTree, refused]
    rfl

namespace Templated

open Decode

def scalar (text : String) : Tree := .scalar none .plain text

def entry (key : String) (value : Tree) : MapEntry := (some key, scalar key, value)

def template (leaf : List MapEntry) : Tree :=
  .mapping none [entry "multiple" (scalar "true"),
    entry "properties" (.sequence none [.mapping none [entry "q" (.mapping none leaf)]])]

def tree (leaf more : List MapEntry) : Tree :=
  .mapping none (entry "collection" (scalar "c") :: entry "entities" (.mapping none [entry "e"
    (.mapping none [entry "xpath" (scalar "//e"),
      entry "properties" (.mapping none [entry "p" (template leaf)])])]) :: more)

theorem respelled_inside {leaf other : List MapEntry} (more : List MapEntry)
    (respelled : Respelled .property (.mapping none leaf) (.mapping none other)) :
    Respelled .manifest (tree leaf more) (tree other more) := by
  have inTemplate : Respelled .property (template leaf) (template other) :=
    .value (.nested rfl)
      (.item (.value (.property "q") respelled none none .plain (some "q") [] []) none [] [])
      none none .plain (some "properties") [entry "multiple" (scalar "true")] []
  have inEntity := Respelled.value .properties
    (.value (.property "p") inTemplate none none .plain (some "p") [] [])
    none none .plain (some "properties") [entry "xpath" (scalar "//e")] []
  exact .value .entities (.value (.entity "e") inEntity none none .plain (some "e") [] [])
    none none .plain (some "entities") [entry "collection" (scalar "c")] more

theorem within_template (leaf : List MapEntry) :
    Within .manifest (tree leaf []) .property (.mapping none leaf) := by
  have inTemplate : Within .property (template leaf) .property (.mapping none leaf) :=
    .value (.nested rfl) (.tail _ (.head _))
      (.item (.head _) (.value (.property "q") (.head _) (.here _ _)))
  exact .value .entities (.tail _ (.head _)) (.value (.entity "e") (.head _)
    (.value .properties (.tail _ (.head _)) (.value (.property "p") (.head _) inTemplate)))

/-- In a template one path stands for a list of one and `path` for `xpath`, and a note is passed
over; `xpth` makes the text no manifest. -/
theorem read_template_indifferent :
    (Yaml.read "collection: c\n").sound ∧
    read "collection: c\n" = ofTree ((Yaml.read "collection: c\n").tree Decode.isManifestKey) ∧
    (∃ manifest, ofTree (tree [entry "xpath" (scalar "a")] []) = .ok manifest) ∧
    Alike (ofTree (tree [entry "xpath" (scalar "a")] []))
      (ofTree (tree [entry "path" (.sequence none [scalar "a"])] [entry "note" .void])) ∧
    (∃ fault,
      ofTree (tree [entry "xpth" (scalar "a")] []) = .error (.unreadableManifest fault)) := by
  obtain ⟨texts, respellings, strange⟩ := read_indifferent_to_spelling
  have key : Respelled .property (.mapping none [entry "xpath" (scalar "a")])
      (.mapping none [entry "path" (scalar "a")]) :=
    .key .propertyPaths none none none .plain .plain (some "xpath") (some "path") (scalar "a") [] []
  have listed : Respelled .property (.mapping none [entry "path" (scalar "a")])
      (.mapping none [entry "path" (.sequence none [scalar "a"])]) :=
    .value (.paths rfl) (.one rfl rfl) none none .plain (some "path") [] []
  have noted : Respelled .manifest (tree [entry "path" (.sequence none [scalar "a"])] [])
      (tree [entry "path" (.sequence none [scalar "a"])] [entry "note" .void]) :=
    .extra rfl Tree.noConfusion none none .plain (some "note") [_, _] []
  refine ⟨by rfl, texts _ (by rfl), ⟨_, rfl⟩, respellings _ _ ?_, strange _ ?_⟩
  · exact .trans _ _ _ (.rel _ _ (respelled_inside [] key))
      (.trans _ _ _ (.rel _ _ (respelled_inside [] listed)) (.rel _ _ noted))
  · refine ⟨.property, _, none, _, scalar "xpth", within_template _, rfl, ⟨_, _, .head _⟩, ?_⟩
    intro keyTag style spelling same
    cases same
    decide

end Templated
end Manifest
end Regesta
