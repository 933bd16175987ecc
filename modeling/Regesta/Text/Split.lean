namespace Regesta.Text

def splitFirst (separator : List Char) : List Char → Option (List Char × List Char)
  | [] => none
  | c :: rest =>
    if separator.isPrefixOf (c :: rest) then some ([], (c :: rest).drop separator.length)
    else (splitFirst separator rest).map fun (before, after) => (c :: before, after)

def extendFirst (c : Char) : List (List Char) → List (List Char)
  | [] => [[c]]
  | part :: others => (c :: part) :: others

def splitEvery (separator : Char) : List Char → List (List Char)
  | [] => [[]]
  | c :: rest =>
    if c = separator then [] :: splitEvery separator rest
    else extendFirst c (splitEvery separator rest)

def splitLast (separator : Char) (text : List Char) : Option (List Char × List Char) :=
  (splitFirst [separator] text.reverse).map fun (after, before) => (before.reverse, after.reverse)

end Regesta.Text
