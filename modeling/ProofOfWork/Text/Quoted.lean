import ProofOfWork.Text.Unprinted
set_option autoImplicit false

namespace ProofOfWork.Text

def hexDigit (n : Nat) : Char :=
  if n < 10 then Char.ofNat (48 + n) else Char.ofNat (87 + n)

/-- A character inside quotes of the kind `quote`. -/
def escaped (quote c : Char) : List Char :=
  if c = '\x00' then ['\\', '0']
  else if c = '\t' then ['\\', 't']
  else if c = '\n' then ['\\', 'n']
  else if c = '\r' then ['\\', 'r']
  else if c = '\\' || c = quote then ['\\', c]
  else if isUnprinted c then
    ['\\', 'u', '\x7b'] ++ Nat.toDigits 16 c.toNat ++ ['\x7d']
  else [c]

def apostrophe : Char := Char.ofNat 39

def quoteChar (c : Char) : String :=
  String.ofList ([apostrophe] ++ escaped apostrophe c ++ [apostrophe])

def quoteText (text : List Char) : String :=
  String.ofList ([ '"'] ++ text.flatMap (escaped '"') ++ [ '"'])

end ProofOfWork.Text
