namespace Regesta.Text

/-- Characters with the Unicode property White_Space. -/
def isBlank (c : Char) : Bool :=
  let n := c.toNat
  (0x9 ≤ n && n ≤ 0xD) || n == 0x20 || n == 0x85 || n == 0xA0 || n == 0x1680 ||
    (0x2000 ≤ n && n ≤ 0x200A) || n == 0x2028 || n == 0x2029 || n == 0x202F || n == 0x205F ||
    n == 0x3000

def trimStart (text : List Char) : List Char := text.dropWhile isBlank

def trimEnd (text : List Char) : List Char := (text.reverse.dropWhile isBlank).reverse

def trim (text : List Char) : List Char := trimEnd (trimStart text)

def trimmed (text : String) : String := String.ofList (trim text.toList)

def extendWords (c : Char) (rest : List Char) (words : List (List Char)) : List (List Char) :=
  match rest, words with
  | d :: _, word :: others => if isBlank d then [c] :: word :: others else (c :: word) :: others
  | _, words => [c] :: words

def words : List Char → List (List Char)
  | [] => []
  | c :: rest => if isBlank c then words rest else extendWords c rest (words rest)

def normalize (text : List Char) : List Char := [' '].intercalate (words text)

def normalized (text : String) : String := String.ofList (normalize text.toList)

end Regesta.Text
