set_option autoImplicit false

namespace ProofOfWork.Text

/-- Whether a character lies in one of some runs, each given by its first and last code point. -/
def inRuns (runs : List (Nat × Nat)) (c : Char) : Bool :=
  runs.any fun (first, last) => first ≤ c.toNat && c.toNat ≤ last

/-- A character with the Unicode property `White_Space`. -/
def isBlank (c : Char) : Bool :=
  let n := c.toNat
  (9 ≤ n && n ≤ 13) || n == 0x20 || n == 0x85 || n == 0xA0 || n == 0x1680 ||
    (0x2000 ≤ n && n ≤ 0x200A) || n == 0x2028 || n == 0x2029 || n == 0x202F || n == 0x205F ||
    n == 0x3000

/-- The text without the blanks at its two ends. -/
def trimBlanks (text : List Char) : List Char :=
  ((text.dropWhile isBlank).reverse.dropWhile isBlank).reverse

/-- The part before the first `mark` and the part after it. -/
def splitAt? (mark : Char) : List Char → Option (List Char × List Char)
  | [] => none
  | c :: rest =>
    if c = mark then some ([], rest)
    else (splitAt? mark rest).map fun (before, after) => (c :: before, after)

/-- What follows `start`, if the text begins with it. -/
def dropStart? : List Char → List Char → Option (List Char)
  | [], text => some text
  | _ :: _, [] => none
  | p :: start, c :: text => if p = c then dropStart? start text else none

/-- The ASCII letters in lower case, all else unchanged. -/
def lowerAscii (text : List Char) : List Char := text.map Char.toLower

def byteCount : List Char → Nat
  | [] => 0
  | c :: rest => c.utf8Size + byteCount rest

/-- The first characters of a text, as many as lie within some bytes. -/
def takeBytes : Nat → List Char → List Char
  | _, [] => []
  | n, c :: rest => if c.utf8Size ≤ n then c :: takeBytes (n - c.utf8Size) rest else []

/-- A text without the characters that lie within its first bytes. -/
def dropBytes : Nat → List Char → List Char
  | _, [] => []
  | n, c :: rest => if c.utf8Size ≤ n then dropBytes (n - c.utf8Size) rest else c :: rest

section Named
variable {α : Type}

/-- The alternative of exactly this name. -/
def named? (all : List α) (name : α → String) (text : List Char) : Option α :=
  all.find? fun a => (name a).toList = text

/-- The alternative of this name, in letters of either case. -/
def namedAnyCase? (all : List α) (name : α → String) (text : List Char) : Option α :=
  all.find? fun a => lowerAscii (name a).toList = lowerAscii text

end Named
end ProofOfWork.Text
