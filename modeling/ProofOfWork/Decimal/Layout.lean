import ProofOfWork.Decimal.Shortest
import ProofOfWork.Text.Unsigned
set_option autoImplicit false

namespace ProofOfWork.Decimal

/-- The conventions of one place that writes numbers. The point position of `0.d₁d₂… * 10 ^ p`
is `p`. -/
structure Layout where
  /-- The point positions written without an exponent; `none` for all of them. -/
  positional : Option (Int × Int)
  /-- Whether a number without decimals ends in `.0`. -/
  keepsPoint : Bool
  /-- Whether an exponent that is not negative has a plus sign. -/
  signsExponent : Bool
  tie : Tie
  nan : String
  infinite : String
  negativeInfinite : String

/-- Messages and target specifications: no exponent ever. -/
def plainLayout : Layout := ⟨none, false, false, .up, "NaN", "inf", "-inf"⟩

/-- JSON: an exponent from `1e+16` up and below `0.00001`. -/
def jsonLayout : Layout := ⟨some (-4, 16), true, true, .even, "null", "null", "null"⟩

/-- YAML: as JSON, without a plus sign in the exponent. -/
def yamlLayout : Layout := ⟨some (-4, 16), true, false, .even, ".nan", ".inf", "-.inf"⟩

/-- Digits with the point after the first `point` of them. -/
def positionalText (keepsPoint : Bool) (digits : List Char) (point : Int) : List Char :=
  match point with
  | .negSucc k => ['0', '.'] ++ List.replicate (k + 1) '0' ++ digits
  | .ofNat 0 => ['0', '.'] ++ digits
  | .ofNat k =>
    if digits.length ≤ k then
      digits ++ List.replicate (k - digits.length) '0' ++ (if keepsPoint then ['.', '0'] else [])
    else digits.take k ++ ['.'] ++ digits.drop k

/-- Digits with the point after the first one, and the power of ten. -/
def exponentText (signsExponent : Bool) (digits : List Char) (power : Int) : List Char :=
  let head := match digits with
    | [] => []
    | [d] => [d]
    | d :: rest => d :: '.' :: rest
  let tail := match power with
    | .ofNat k => (if signsExponent then ['+'] else []) ++ Text.decimal k
    | .negSucc k => '-' :: Text.decimal (k + 1)
  head ++ ['e'] ++ tail

/-- The text of a magnitude that is not zero. -/
def Layout.magnitude (l : Layout) (s : Scaled) : List Char :=
  let digits := Text.decimal s.digits
  let point := s.exponent + digits.length
  let inside := match l.positional with
    | none => true
    | some (first, last) => first ≤ point && point ≤ last
  if inside then positionalText l.keepsPoint digits point
  else exponentText l.signsExponent digits (point - 1)

def Layout.text (l : Layout) (x : Float) : List Char :=
  match shape x with
  | .notANumber => l.nan.toList
  | .infinite false => l.infinite.toList
  | .infinite true => l.negativeInfinite.toList
  | .finite negative mantissa exponent =>
    let sign := if negative then ['-'] else []
    if mantissa = 0 then sign ++ ['0'] ++ (if l.keepsPoint then ['.', '0'] else [])
    else sign ++ l.magnitude (shortest l.tie mantissa exponent)

/-- The integer nearest to `num / den`, a half going to the even one. -/
def roundHalfEven (num den : Nat) : Nat :=
  let below := num / den
  let rest := num % den
  if 2 * rest > den ∨ (2 * rest = den ∧ below % 2 = 1) then below + 1 else below

/-- The text of a number with `places` decimals, rounded from its exact value. -/
def fixedText (places : Nat) (x : Float) : List Char :=
  match shape x with
  | .notANumber => plainLayout.nan.toList
  | .infinite false => plainLayout.infinite.toList
  | .infinite true => plainLayout.negativeInfinite.toList
  | .finite negative mantissa exponent =>
    let (up, down) := match exponent with
      | .ofNat k => (2 ^ k, 1)
      | .negSucc k => (1, 2 ^ (k + 1))
    let units := roundHalfEven (mantissa * up * 10 ^ places) down
    (if negative then ['-'] else []) ++ Text.decimal (units / 10 ^ places) ++ ['.'] ++
      Text.padded 10 places (units % 10 ^ places)

end ProofOfWork.Decimal
