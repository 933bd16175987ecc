import Regesta.Settings
import Regesta.Text.Split

/-!
Command lines. Options are given before or after the name of the command, `--name value`,
`--name=value`, `-n value`, `-nvalue` or `-n=value`; after `--` nothing is an option. The manifest
and the root may be given in both places, and then the one after the command's name counts.
-/
namespace Regesta

inductive Command where
  | validate
  | list (entity : String)
  | show (entity id form : String)
  /-- The interval is given in seconds. -/
  | watch (interval : Option Nat)
  deriving DecidableEq, Repr

structure Invocation where
  manifestPath : Option String
  collectionRoot : Option String
  command : Command
  deriving DecidableEq, Repr

inductive Request where
  | run (invocation : Invocation)
  | version
  | help
  deriving DecidableEq, Repr

inductive Misuse where
  | noCommand
  | unknownCommand (name : String)
  | unexpected (argument : String)
  | missingArgument (name : String)
  | missingValue (option : String)
  | badValue (option value : String)
  | repeated (option : String)
  deriving DecidableEq, Repr

def Misuse.message : Misuse → String
  | noCommand => "a command is required"
  | unknownCommand name => "unrecognized command '" ++ name ++ "'"
  | unexpected argument => "unexpected argument '" ++ argument ++ "'"
  | missingArgument name => "the argument <" ++ name ++ "> is required"
  | missingValue option => "a value is required for '--" ++ option ++ "'"
  | badValue option value => "invalid value '" ++ value ++ "' for '--" ++ option ++ "'"
  | repeated option => "the argument '--" ++ option ++ "' cannot be used multiple times"

namespace CommandLine

inductive Setting where
  | manifest
  | root
  | form
  | interval
  deriving DecidableEq, Repr

namespace Setting

def name : Setting → String
  | manifest => "manifest"
  | root => "root"
  | form => "format"
  | interval => "interval"

def letter : Setting → Char
  | manifest => 'm'
  | root => 'r'
  | form => 'f'
  | interval => 'i'

def accepts (setting : Setting) (value : String) : Bool :=
  match setting with
  | manifest | root => !value.isEmpty
  | form => true
  | interval => (Text.word? value).isSome

end Setting

inductive Word where
  | long (name : String) (value : Option String)
  | short (letter : Char) (value : Option String)
  | separator
  | plain (text : String)
  deriving DecidableEq, Repr

/-- The value behind a letter; an equals sign between them does not count. -/
def attached (text : List Char) : Option String :=
  match text with
  | [] => none
  | '=' :: value => some (String.ofList value)
  | value => some (String.ofList value)

def Word.of (argument : String) : Word :=
  match argument.toList with
  | ['-', '-'] => .separator
  | '-' :: '-' :: text =>
    match Text.splitFirst ['='] text with
    | none => .long (String.ofList text) none
    | some (name, value) => .long (String.ofList name) (some (String.ofList value))
  | '-' :: letter :: text => .short letter (attached text)
  | _ => .plain argument

structure Level where
  settings : List Setting
  arguments : List String
  outer : Bool
  deriving DecidableEq, Repr

abbrev Values := List (Setting × String)

def Values.get? (values : Values) (setting : Setting) : Option String :=
  (List.find? (fun value => value.1 == setting) values).map Prod.snd

inductive Part where
  | help
  | version
  | given (values : Values) (arguments rest : List String)

def record (values : Values) (setting : Setting) (value : String) : Except Misuse Values :=
  if (values.get? setting).isSome then .error (.repeated setting.name)
  else if setting.accepts value then .ok (values ++ [(setting, value)])
  else .error (.badValue setting.name value)

inductive Meaning where
  | ends (part : Part)
  | takes (setting : Setting) (value : Option String)

def Level.meaning (level : Level) (argument : String) : Word → Except Misuse Meaning
  | .long name value =>
    match level.settings.find? fun setting => setting.name == name with
    | some setting => .ok (.takes setting value)
    | none =>
      if name = "help" ∧ value = none then .ok (.ends .help)
      else if name = "version" ∧ value = none ∧ level.outer then .ok (.ends .version)
      else .error (.unexpected argument)
  | .short letter value =>
    match level.settings.find? fun setting => setting.letter == letter with
    | some setting => .ok (.takes setting value)
    | none =>
      if letter = 'h' then .ok (.ends .help)
      else if letter = 'V' ∧ level.outer then .ok (.ends .version)
      else .error (.unexpected argument)
  | .separator | .plain _ => .error (.unexpected argument)

/-- The end of a part after which all arguments are plain. -/
def Level.finish (level : Level) (values : Values) (plain rest : List String) :
    Except Misuse Part :=
  match (plain ++ rest).drop level.arguments.length with
  | [] => .ok (.given values (plain ++ rest) [])
  | extra :: _ => .error (.unexpected extra)

def Level.read (level : Level) (values : Values) (plain : List String) :
    List String → Except Misuse Part
  | [] => .ok (.given values plain [])
  | argument :: rest =>
    match Word.of argument with
    | .separator => level.finish values plain rest
    | .plain text =>
      if level.outer then .ok (.given values plain (argument :: rest))
      else if plain.length < level.arguments.length then level.read values (plain ++ [text]) rest
      else .error (.unexpected text)
    | word => do
      match ← level.meaning argument word with
      | .ends part => .ok part
      | .takes setting (some value) => do
        let values ← record values setting value
        level.read values plain rest
      | .takes setting none =>
        match rest with
        | [] => .error (.missingValue setting.name)
        | next :: rest =>
          match Word.of next with
          | .plain value => do
            let values ← record values setting value
            level.read values plain rest
          | _ => .error (.missingValue setting.name)

def outerLevel : Level := ⟨[.manifest, .root], [], true⟩

def levelOf? : String → Option Level
  | "validate" => some ⟨[.manifest, .root], [], false⟩
  | "list" => some ⟨[.manifest, .root], ["ENTITY"], false⟩
  | "show" => some ⟨[.manifest, .root, .form], ["ENTITY", "ID"], false⟩
  | "watch" => some ⟨[.manifest, .root, .interval], [], false⟩
  | _ => none

def command (name : String) (values : Values) (arguments : List String) :
    Except Misuse Command :=
  match name, arguments with
  | "validate", _ => .ok .validate
  | "list", [entity] => .ok (.list entity)
  | "list", _ => .error (.missingArgument "ENTITY")
  | "show", [entity, id] => .ok (.show entity id ((values.get? .form).getD "record"))
  | "show", [_] => .error (.missingArgument "ID")
  | "show", _ => .error (.missingArgument "ENTITY")
  | "watch", _ => .ok (.watch ((values.get? .interval).bind Text.word?))
  | _, _ => .error (.unknownCommand name)

def help : List String → Except Misuse Request
  | [] => .ok .help
  | name :: rest =>
    if name ≠ "help" ∧ levelOf? name = none then .error (.unknownCommand name)
    else
      match rest with
      | [] => .ok .help
      | extra :: _ => .error (.unknownCommand extra)

def read (arguments : List String) : Except Misuse Request := do
  match ← outerLevel.read [] [] arguments with
  | .help => .ok .help
  | .version => .ok .version
  | .given _ _ [] => .error .noCommand
  | .given before _ (name :: rest) =>
    if name = "help" then help rest
    else
      match levelOf? name with
      | none => .error (.unknownCommand name)
      | some level => do
        match ← level.read [] [] rest with
        | .help => .ok .help
        | .version => .ok .version
        | .given values arguments _ => do
          let command ← command name values arguments
          .ok (.run
            ⟨values.get? .manifest <|> before.get? .manifest,
              values.get? .root <|> before.get? .root, command⟩)

end CommandLine

def Invocation.settings (invocation : Invocation) (settings : Settings) : Settings :=
  { manifestPath := invocation.manifestPath.getD settings.manifestPath
    collectionRoot := invocation.collectionRoot.getD settings.collectionRoot
    watchInterval :=
      match invocation.command with
      | .watch (some seconds) => seconds * 1000
      | _ => settings.watchInterval }

end Regesta
