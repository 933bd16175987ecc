import Regesta.Yaml.Token

namespace Regesta.Yaml

inductive Node where
  | scalar (anchor : Option Nat) (tag : Option Tag) (style : Style) (text : String)
  | sequence (anchor : Option Nat) (tag : Option Tag) (items : List Node)
  | mapping (anchor : Option Nat) (tag : Option Tag) (entries : List (Node × Node))
  | alias (anchor : Nat)
  | fault
  deriving Inhabited

structure Document where
  root : Option Node
  /-- Whether the text holds nothing else, neither a fault nor another document. -/
  sound : Bool

structure Reading where
  tokens : Tokens
  handles : List (List Char × Tag)
  /-- Anchors by name. An anchor's number is how many names came before it. -/
  anchors : List (List Char × Nat)

namespace Reading

def peek? (reading : Reading) : Option Token := reading.tokens.head?

def skip (reading : Reading) : Reading := { reading with tokens := reading.tokens.tail }

/-- Gives an anchor its number; a name that is used again gets a new one. -/
def anchored (reading : Reading) : Option (List Char) → Option Nat × Reading
  | none => (none, reading)
  | some name =>
    let number := reading.anchors.length
    let others := reading.anchors.filter fun anchor => anchor.1 ≠ name
    (some number, { reading with anchors := (name, number) :: others })

def resolve? (reading : Reading) (handle : List Char) (suffix : Tag) : Option Tag :=
  if handle.isEmpty then some (Tag.joined ⟨[]⟩ suffix)
  else
    (reading.handles.find? fun known => known.1 == handle).map fun known => known.2.joined suffix

end Reading

structure Properties where
  anchor : Option (List Char)
  tag : Option Tag

def Properties.isNone (properties : Properties) : Bool :=
  properties.anchor.isNone && properties.tag.isNone

def properties? (reading : Reading) : Option (Properties × Reading) :=
  match reading.tokens with
  | .anchor name :: .tag handle suffix :: _ | .tag handle suffix :: .anchor name :: _ => do
    let tag ← reading.resolve? handle suffix
    some (⟨some name, some tag⟩, reading.skip.skip)
  | .anchor name :: _ => some (⟨some name, none⟩, reading.skip)
  | .tag handle suffix :: _ => do
    let tag ← reading.resolve? handle suffix
    some (⟨none, some tag⟩, reading.skip)
  | _ => some (⟨none, none⟩, reading)

def emptyNode (properties : Properties) (reading : Reading) : Node × Option Reading :=
  let (anchor, reading) := reading.anchored properties.anchor
  (.scalar anchor properties.tag .plain "", some reading)

def absent : Node := .scalar none none .plain ""

def endless {α : Type} (items : List α) : List α × Option Reading := (items, none)

mutual
/-- Reads a node; with no reading left the node ends in a fault. Block collections may stand here
when `block` is set, and a sequence that is not indented when `flush` is. -/
def node : Nat → Bool → Bool → Reading → Node × Option Reading
  | 0, _, _, _ => (.fault, none)
  | fuel + 1, block, flush, reading =>
    match reading.tokens with
    | .alias name :: _ =>
      match reading.anchors.find? fun anchor => anchor.1 == name with
      | some anchor => (.alias anchor.2, some reading.skip)
      | none => (.fault, none)
    | _ =>
      match properties? reading with
      | none => (.fault, none)
      | some (properties, reading) =>
        match reading.tokens with
        | [] => (.fault, none)
        | token :: _ =>
          match token with
          | .entry =>
            if flush then
              let (anchor, reading) := reading.anchored properties.anchor
              let (items, reading) := flushItems fuel reading
              (.sequence anchor properties.tag items, reading)
            else if properties.isNone then (.fault, none)
            else emptyNode properties reading
          | .scalar style text =>
            let (anchor, reading) := reading.anchored properties.anchor
            (.scalar anchor properties.tag style (String.ofList text), some reading.skip)
          | .flowSequence =>
            let (anchor, reading) := reading.anchored properties.anchor
            let (items, reading) := flowItems fuel true reading.skip
            (.sequence anchor properties.tag items, reading)
          | .flowMapping =>
            let (anchor, reading) := reading.anchored properties.anchor
            let (entries, reading) := flowEntries fuel true reading.skip
            (.mapping anchor properties.tag entries, reading)
          | .blockSequence =>
            if block then
              let (anchor, reading) := reading.anchored properties.anchor
              let (items, reading) := blockItems fuel reading.skip
              (.sequence anchor properties.tag items, reading)
            else if properties.isNone then (.fault, none)
            else emptyNode properties reading
          | .blockMapping =>
            if block then
              let (anchor, reading) := reading.anchored properties.anchor
              let (entries, reading) := blockEntries fuel reading.skip
              (.mapping anchor properties.tag entries, reading)
            else if properties.isNone then (.fault, none)
            else emptyNode properties reading
          | _ => if properties.isNone then (.fault, none) else emptyNode properties reading

def blockItems : Nat → Reading → List Node × Option Reading
  | 0, _ => endless [.fault]
  | fuel + 1, reading =>
    match reading.tokens with
    | .blockEnd :: _ => ([], some reading.skip)
    | .entry :: [] => endless [.fault]
    | .entry :: next :: _ =>
      let (item, reading) :=
        if next = .entry || next = .blockEnd then (absent, some reading.skip)
        else node fuel true false reading.skip
      match reading with
      | none => endless [item]
      | some reading =>
        let (items, reading) := blockItems fuel reading
        (item :: items, reading)
    | _ => endless [.fault]

def flushItems : Nat → Reading → List Node × Option Reading
  | 0, _ => endless [.fault]
  | fuel + 1, reading =>
    match reading.tokens with
    | [] => endless [.fault]
    | .entry :: [] => endless [.fault]
    | .entry :: next :: _ =>
      let (item, reading) :=
        if next = .entry || next = .key || next = .value || next = .blockEnd then
          (absent, some reading.skip)
        else node fuel true false reading.skip
      match reading with
      | none => endless [item]
      | some reading =>
        let (items, reading) := flushItems fuel reading
        (item :: items, reading)
    | _ => ([], some reading)

def blockPart : Nat → Reading → Node × Option Reading
  | 0, _ => (.fault, none)
  | fuel + 1, reading =>
    match reading.peek? with
    | none => (.fault, none)
    | some token =>
      if token = .key || token = .value || token = .blockEnd then (absent, some reading)
      else node fuel true true reading

def blockEntries : Nat → Reading → List (Node × Node) × Option Reading
  | 0, _ => endless [(.fault, .fault)]
  | fuel + 1, reading =>
    match reading.peek? with
    | some .blockEnd => ([], some reading.skip)
    | some .key =>
      match blockPart fuel reading.skip with
      | (key, none) => endless [(key, .fault)]
      | (key, some reading) =>
        let (value, reading) : Node × Option Reading :=
          match reading.peek? with
          | none => (.fault, none)
          | some .value => blockPart fuel reading.skip
          | some _ => (absent, some reading)
        match reading with
        | none => endless [(key, value)]
        | some reading =>
          let (entries, reading) := blockEntries fuel reading
          ((key, value) :: entries, reading)
    | _ => endless [(.fault, .fault)]

def flowItems : Nat → Bool → Reading → List Node × Option Reading
  | 0, _, _ => endless [.fault]
  | fuel + 1, first, reading =>
    match reading.peek? with
    | none => endless [.fault]
    | some .flowSequenceEnd => ([], some reading.skip)
    | some token =>
      if !first && token ≠ .comma then endless [.fault]
      else
        let reading := if first then reading else reading.skip
        match reading.peek? with
        | none => endless [.fault]
        | some .flowSequenceEnd => ([], some reading.skip)
        | some token =>
          let (item, reading) :=
            if token = .key then flowPair fuel reading.skip else node fuel false false reading
          match reading with
          | none => endless [item]
          | some reading =>
            let (items, reading) := flowItems fuel false reading
            (item :: items, reading)

def flowPair : Nat → Reading → Node × Option Reading
  | 0, _ => (.fault, none)
  | fuel + 1, reading =>
    let (key, reading) : Node × Option Reading :=
      match reading.peek? with
      | none => (.fault, none)
      | some token =>
        if token = .value || token = .comma || token = .flowSequenceEnd then
          (absent, some reading.skip)
        else node fuel false false reading
    match reading with
    | none => (.mapping none none [(key, .fault)], none)
    | some reading =>
      let (value, reading) : Node × Option Reading :=
        match reading.peek? with
        | none => (.fault, none)
        | some .value =>
          match reading.skip.peek? with
          | none => (.fault, none)
          | some token =>
            if token = .comma || token = .flowSequenceEnd then (absent, some reading.skip)
            else node fuel false false reading.skip
        | some _ => (absent, some reading)
      (.mapping none none [(key, value)], reading)

def flowEntries : Nat → Bool → Reading → List (Node × Node) × Option Reading
  | 0, _, _ => endless [(.fault, .fault)]
  | fuel + 1, first, reading =>
    match reading.peek? with
    | none => endless [(.fault, .fault)]
    | some .flowMappingEnd => ([], some reading.skip)
    | some token =>
      if !first && token ≠ .comma then endless [(.fault, .fault)]
      else
        let reading := if first then reading else reading.skip
        match reading.peek? with
        | none => endless [(.fault, .fault)]
        | some .flowMappingEnd => ([], some reading.skip)
        | some token =>
          let keyed := token = .key
          let (key, reading) : Node × Option Reading :=
            if keyed then
              match reading.skip.peek? with
              | none => (.fault, none)
              | some token =>
                if token = .value || token = .comma || token = .flowMappingEnd then
                  (absent, some reading.skip)
                else node fuel false false reading.skip
            else node fuel false false reading
          match reading with
          | none => endless [(key, .fault)]
          | some reading =>
            let (value, reading) : Node × Option Reading :=
              match reading.peek? with
              | none => (.fault, none)
              | some .value =>
                if keyed then
                  match reading.skip.peek? with
                  | none => (.fault, none)
                  | some token =>
                    if token = .comma || token = .flowMappingEnd then (absent, some reading.skip)
                    else node fuel false false reading.skip
                else (absent, some reading)
              | some _ => (absent, some reading)
            match reading with
            | none => endless [(key, value)]
            | some reading =>
              let (entries, reading) := flowEntries fuel false reading
              ((key, value) :: entries, reading)
end

def knownHandles : List (List Char × Tag) :=
  [(['!'], Tag.ofText "!"), (['!', '!'], Tag.standard "")]

/-- Reads the directives in front of a document: at most one version, each handle once. -/
def directives? : Tokens → Bool → List (List Char × Tag) →
    Option (List (List Char × Tag) × Tokens)
  | .version major minor :: rest, versioned, handles =>
    if versioned || major ≠ 1 || (minor ≠ 1 && minor ≠ 2) then none
    else directives? rest true handles
  | .handle name value :: rest, versioned, handles =>
    if handles.any fun known => known.1 == name then none
    else directives? rest versioned ((name, value) :: handles)
  | rest, _, handles => some (handles, rest)

def endsDocument : Token → Bool
  | .version _ _ | .handle _ _ | .documentStart | .documentEnd | .streamEnd => true
  | _ => false

def nothingMore : Tokens → Bool
  | .documentEnd :: rest => nothingMore rest
  | [.streamEnd] => true
  | _ => false

def closeDocument : Node × Option Reading → Document
  | (root, none) => ⟨some root, false⟩
  | (root, some reading) => ⟨some root, nothingMore reading.tokens⟩

def document (tokens : Tokens) : Document :=
  let faulty : Document := ⟨some .fault, false⟩
  let fuel := 4 * tokens.length + 4
  match tokens with
  | [] => faulty
  | .streamEnd :: _ => ⟨none, true⟩
  | .version _ _ :: _ | .handle _ _ :: _ | .documentStart :: _ =>
    match directives? tokens false [] with
    | some (handles, .documentStart :: rest) =>
      let reading : Reading := ⟨rest, handles ++ knownHandles, []⟩
      match rest with
      | [] => faulty
      | token :: _ =>
        if endsDocument token then closeDocument (absent, some reading)
        else closeDocument (node fuel true false reading)
    | _ => faulty
  | _ => closeDocument (node fuel true false ⟨tokens, knownHandles, []⟩)

end Regesta.Yaml
