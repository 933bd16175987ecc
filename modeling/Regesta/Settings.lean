import Regesta.Error
import Regesta.Text.Numeral

namespace Regesta

structure Settings where
  manifestPath : String
  collectionRoot : String
  /-- The time between two looks, in milliseconds. -/
  watchInterval : Nat
  deriving DecidableEq, Repr

namespace Settings

def standardManifestPath : String := "config.yml"
def standardRoot : String := "."
def standardInterval : Nat := 2000

def standard (manifestPath collectionRoot : String) : Settings :=
  ⟨manifestPath, collectionRoot, standardInterval⟩

def intervalOf (seconds : String) : Except Error Nat :=
  match Text.word? seconds with
  | none => .error (.watchInterval seconds)
  | some seconds => .ok (seconds * 1000)

def ofEnvironment (environment : String → Option String) : Except Error Settings := do
  let interval ←
    match environment "WATCH_INTERVAL_SECS" with
    | none => pure standardInterval
    | some seconds => intervalOf seconds
  pure
    ⟨(environment "MANIFEST_PATH").getD standardManifestPath,
      (environment "COLLECTION_ROOT").getD standardRoot, interval⟩

/-- Thousandths as the digits after a decimal point, without zeros at the end. -/
def fractionText (thousandths : Nat) : String :=
  let digits :=
    [thousandths / 100, thousandths / 10 % 10, thousandths % 10].map Nat.digitChar
  let kept := (digits.reverse.dropWhile fun c => c = '0').reverse
  if kept.isEmpty then "" else "." ++ String.ofList kept

def durationText (milliseconds : Nat) : String :=
  if milliseconds = 0 then "0ns"
  else if milliseconds < 1000 then toString milliseconds ++ "ms"
  else toString (milliseconds / 1000) ++ fractionText (milliseconds % 1000) ++ "s"

end Settings
end Regesta
