import DbGovernor.Model.DbuserMap
import DbGovernor.Model.Xml
import DbGovernor.Verification.Shared.Rounding

/-!
# The C library on strings

The functions of the C library that read and print the numbers of the configuration, in the
C locale and with a `long` of 64 bits. The `double` of an `atof` has 53 binary digits, and its
exponent is not bounded: out of the range of a `long` a conversion gives what the processor gives,
for an infinity as for a large number.
-/

namespace DbGovernor

def isDigit (c : UInt8) : Bool := 48 ≤ c && c ≤ 57

def isSpace (c : UInt8) : Bool := c == 32 || (9 ≤ c && c ≤ 13)

def isPrint (c : UInt8) : Bool := 32 ≤ c && c ≤ 126

def toLower (c : UInt8) : UInt8 := if 65 ≤ c && c ≤ 90 then c + 32 else c

/-- `!strcasecmp (a, b)` for a literal `b`. -/
def strcaseEq (a : CString) (b : String) : Bool := a.map toLower == (ascii b).map toLower

def isHexDigit (c : UInt8) : Bool := isDigit c || (97 ≤ toLower c && toLower c ≤ 102)

def hexadecimal (s : CString) : ℕ :=
  s.foldl (fun n c => 16 * n + (if isDigit c then c.toNat - 48 else (toLower c).toNat - 87)) 0

/-- The decimal integer that `strtol` and `strtoll` read at the front of a string, before they
force it into the range of their type. -/
def leadingInt (s : CString) : ℤ :=
  match s.dropWhile isSpace with
  | 45 :: rest => -decimal (digits rest)
  | 43 :: rest => decimal (digits rest)
  | s => decimal (digits s)

/-- `atoll`. -/
def atoll (s : CString) : ℤ := saturate (leadingInt s)

/-- An optional sign, and what follows it. -/
def splitSign : CString → Bool × CString
  | 43 :: s => (false, s)
  | 45 :: s => (true, s)
  | s => (false, s)

/-- The exponent after its letter: an optional sign and decimal digits. -/
def exponentValue (s : CString) : ℤ :=
  let r := splitSign s
  if r.1 then -decimal (digits r.2) else decimal (digits r.2)

/-- The number that `strtod` reads after a sign: digits with an optional point, and the power
that an exponent letter introduces. -/
def floatBody (value : CString → ℕ) (base power : ℕ) (isDig : UInt8 → Bool) (letter : UInt8)
    (s : CString) : ℚ :=
  let whole := s.takeWhile isDig
  let rest := s.dropWhile isDig
  let fraction := match rest with
    | 46 :: t => t.takeWhile isDig
    | _ => []
  let rest := match rest with
    | 46 :: t => t.dropWhile isDig
    | _ => rest
  let exponent := match rest with
    | c :: t => if toLower c = letter then exponentValue t else 0
    | [] => 0
  value (whole ++ fraction) * (power : ℚ) ^ exponent / (base : ℚ) ^ fraction.length

def decimalBody (s : CString) : ℚ := floatBody decimal 10 10 isDigit 101 s

/-- Whether what follows `0x` is a hexadecimal number. -/
def hexFollows : CString → Bool
  | 46 :: c :: _ => isHexDigit c
  | c :: _ => isHexDigit c
  | [] => false

/-- The number that `strtod` reads after a sign, with `none` for an infinity or a NaN. -/
def unsignedFloat (s : CString) : Option ℚ :=
  match s with
  | 48 :: x :: t =>
      if toLower x = 120 ∧ hexFollows t then some (floatBody hexadecimal 16 2 isHexDigit 112 t)
      else some (decimalBody s)
  | _ =>
      if strcaseEq (s.take 3) "inf" ∨ strcaseEq (s.take 3) "nan" then none
      else some (decimalBody s)

/-- The number that a text stands for. -/
def strtodNumber (s : CString) : Option ℚ :=
  let r := splitSign (s.dropWhile isSpace)
  (unsignedFloat r.2).map fun q => if r.1 then -q else q

/-- `atof`: the `double` next to the number. -/
def atof (s : CString) : Option ℚ := (strtodNumber s).map (Rounding.nearest 53)

/-- The conversion of a `double` to `long`. -/
def longOfDouble : Option ℚ → ℤ
  | none => -2 ^ 63
  | some q =>
      let n := q.num.tdiv q.den
      if -2 ^ 63 ≤ n ∧ n < 2 ^ 63 then n else -2 ^ 63

/-- What `"%lld"` prints. -/
def lldText (n : ℤ) : CString :=
  let digits := (Nat.toDigits 10 n.natAbs).map fun c => UInt8.ofNat c.toNat
  if n < 0 then 45 :: digits else digits

end DbGovernor
