import Mathlib.Data.BitVec

/-!
# C strings and CGI parameters (`ustdlib.c`, `cgifuncs.c`)

A C string is the list of its bytes before the terminating NUL.  The number
conversion of the product code is `PalStrToUl`, which is `ustrtoul` on the
TM4C1294 and the C library's `strtoul` on the CC35x1; results about the handlers
are stated for every conversion into 32-bit words.
-/

namespace HomeAuto

/-- The bytes of a C string before its NUL. -/
abbrev CStr := List UInt8

/-- The bytes of an ASCII string literal. -/
def ascii (s : String) : CStr := s.toList.map fun c => UInt8.ofNat c.toNat

/-- `s[i]`: past the last byte a C string reads as NUL. -/
def charAt (s : CStr) (i : Nat) : UInt8 := s.getD i 0

/-- `'0' <= c && c <= '9'`. -/
def isDecDigit (c : UInt8) : Bool := 48 ≤ c && c ≤ 57

/-- The value of a decimal digit, `c - '0'`. -/
def decDigit (c : UInt8) : Nat := c.toNat - 48

/-- A string-to-number conversion: the string and the base. -/
abbrev StrToUl := CStr → Nat → BitVec 32

/-- The value `ustrtoul` gives a character: digits and letters of either case. -/
def ulDigit (c : UInt8) : Option Nat :=
  if 48 ≤ c ∧ c ≤ 57 then some (c.toNat - 48)
  else if 65 ≤ c ∧ c ≤ 90 then some (c.toNat - 65 + 10)
  else if 97 ≤ c ∧ c ≤ 122 then some (c.toNat - 97 + 10)
  else none

/-- The digit loop of `ustrtoul`; the accumulator wraps like `unsigned long`. -/
def ustrtoulLoop (base : Nat) (ulRet : BitVec 32) : CStr → BitVec 32
  | [] => ulRet
  | c :: cs =>
      match ulDigit c with
      | none => ulRet
      | some d =>
          if base ≤ d then ulRet
          else ustrtoulLoop base (ulRet * BitVec.ofNat 32 base + BitVec.ofNat 32 d) cs

/-- The radix prefix rules of `ustrtoul`. -/
def ustrtoulRadix (base : Nat) (s : CStr) : Nat × CStr :=
  if (base = 0 ∨ base = 16) ∧ charAt s 0 = 48 ∧ (charAt s 1 = 120 ∨ charAt s 1 = 88) then
    (16, s.drop 2)
  else if base = 0 then (if charAt s 0 = 48 then 8 else 10, s)
  else (base, s)

/-- `ustrtoul`: blanks, one optional sign, the digits; a minus sign negates modulo
`2 ^ 32`. -/
def ustrtoul : StrToUl := fun nptr base =>
  let s := nptr.dropWhile fun c => c = 32 || c = 9
  let ulNeg : Bool := charAt s 0 = 45
  let s := if charAt s 0 = 45 ∨ charAt s 0 = 43 then s.drop 1 else s
  let (radix, s) := ustrtoulRadix base s
  let ulRet := ustrtoulLoop radix 0#32 s
  if ulNeg then -ulRet else ulRet

example : ustrtoul (ascii " 0x1Fg") 16 = 31#32 := by decide

/-- The parameters of a CGI request: names and values.  A parameter without `=` has
a null value, which the handlers read as whatever bytes lie at address 0, so the
value is then arbitrary. -/
abbrev CgiParams := List (CStr × CStr)

/-- `FindCGIParameter`, with the value at the index it returns: the first parameter
of exactly this name. -/
def findCGIParameter (toFind : CStr) (params : CgiParams) : Option CStr :=
  (params.find? fun p => toFind = p.1).map Prod.snd

end HomeAuto
