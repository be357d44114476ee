import Mathlib.Data.List.Basic

/-!
# JSON texts

The grammar of JSON, as the texts it derives.  An object is taken apart into its members, each
with the units that the string of its key stands for; what a character stands for is a
parameter.
-/

namespace JsonText

/-- Blank space between tokens. -/
def Blank (t : List Char) : Prop := ∀ c ∈ t, c = ' ' ∨ c = '\t' ∨ c = '\n' ∨ c = '\r'

/-- A run of decimal digits. -/
def Digits (t : List Char) : Prop := t ≠ [] ∧ ∀ c ∈ t, c.isDigit = true

/-- A number: sign, whole part, fraction and exponent. -/
def IsNumber (t : List Char) : Prop :=
  ∃ sign whole fraction exponent, t = sign ++ whole ++ fraction ++ exponent ∧
    (sign = [] ∨ sign = ['-']) ∧
    (whole = ['0'] ∨ Digits whole ∧ whole.head? ≠ some '0') ∧
    (fraction = [] ∨ ∃ ds, Digits ds ∧ fraction = '.' :: ds) ∧
    (exponent = [] ∨ ∃ e s ds, (e = 'e' ∨ e = 'E') ∧ (s = [] ∨ s = ['+'] ∨ s = ['-']) ∧
      Digits ds ∧ exponent = e :: (s ++ ds))

/-- The value of a hexadecimal digit. -/
def hexValue (c : Char) : Option Nat :=
  if '0' ≤ c ∧ c ≤ '9' then some (c.toNat - 48)
  else if 'a' ≤ c ∧ c ≤ 'f' then some (c.toNat - 87)
  else if 'A' ≤ c ∧ c ≤ 'F' then some (c.toNat - 55)
  else none

/-- The unit that a letter behind a backslash stands for. -/
def escapeUnit : Char → Option Nat
  | '"' => some 34
  | '\\' => some 92
  | '/' => some 47
  | 'b' => some 8
  | 'f' => some 12
  | 'n' => some 10
  | 'r' => some 13
  | 't' => some 9
  | _ => none

variable (unitsOf : Char → List Nat)

/-- The text between the quotation marks of a string, with the units that it stands for. -/
inductive StringBody : List Char → List Nat → Prop
  | nil : StringBody [] []
  | plain {c : Char} {t : List Char} {us : List Nat} (hquote : c ≠ '"') (hslash : c ≠ '\\')
      (hcontrol : 32 ≤ c.toNat) (h : StringBody t us) : StringBody (c :: t) (unitsOf c ++ us)
  | letter {c : Char} {t : List Char} {u : Nat} {us : List Nat} (hc : escapeUnit c = some u)
      (h : StringBody t us) : StringBody ('\\' :: c :: t) (u :: us)
  | unit {a b c d : Char} {t : List Char} {n₃ n₂ n₁ n₀ : Nat} {us : List Nat}
      (ha : hexValue a = some n₃) (hb : hexValue b = some n₂) (hc : hexValue c = some n₁)
      (hd : hexValue d = some n₀) (h : StringBody t us) :
      StringBody ('\\' :: 'u' :: a :: b :: c :: d :: t)
        ((((n₃ * 16 + n₂) * 16 + n₁) * 16 + n₀) :: us)

/-! ## Values -/

/-- An element of an array, as it is written. -/
structure Element where
  lead : List Char
  value : List Char
  trail : List Char

def Element.text (e : Element) : List Char := e.lead ++ e.value ++ e.trail

/-- A member of an object, as it is written: the text of its key between the quotation marks,
with the units that it stands for, the text of its value, and the blank space around them. -/
structure Member where
  lead : List Char
  key : List Char
  units : List Nat
  afterKey : List Char
  beforeValue : List Char
  value : List Char
  trail : List Char

namespace Member

/-- The text from the closing quotation mark of the key up to the value. -/
def middle (m : Member) : List Char := '"' :: m.afterKey ++ ':' :: m.beforeValue

def text (m : Member) : List Char :=
  m.lead ++ '"' :: m.key ++ m.middle ++ m.value ++ m.trail

/-- All of a member but its value is well formed. -/
structure Framed (m : Member) : Prop where
  lead : Blank m.lead
  key : StringBody unitsOf m.key m.units
  afterKey : Blank m.afterKey
  beforeValue : Blank m.beforeValue
  trail : Blank m.trail

end Member

/-- Texts with commas between them. -/
def commaRow : List (List Char) → List Char
  | [] => []
  | [t] => t
  | t :: ts => t ++ ',' :: commaRow ts

theorem commaRow_cons {t : List Char} {ts : List (List Char)} (h : ts ≠ []) :
    commaRow (t :: ts) = t ++ ',' :: commaRow ts := by
  cases ts with
  | nil => exact absurd rfl h
  | cons _ _ => rfl

/-- A value. -/
inductive Value : List Char → Prop
  | word {t : List Char} (h : t = "true".toList ∨ t = "false".toList ∨ t = "null".toList) : Value t
  | number {t : List Char} (h : IsNumber t) : Value t
  | string {t : List Char} {us : List Nat} (h : StringBody unitsOf t us) : Value ('"' :: t ++ ['"'])
  | emptyArray {ws : List Char} (hws : Blank ws) : Value ('[' :: ws ++ [']'])
  | array {es : List Element} (hne : es ≠ []) (hblank : ∀ e ∈ es, Blank e.lead ∧ Blank e.trail)
      (h : ∀ e ∈ es, Value e.value) : Value ('[' :: commaRow (es.map Element.text) ++ [']'])
  | emptyObject {ws : List Char} (hws : Blank ws) : Value ('{' :: ws ++ ['}'])
  | object {ms : List Member} (hne : ms ≠ []) (hframed : ∀ m ∈ ms, m.Framed unitsOf)
      (h : ∀ m ∈ ms, Value m.value) : Value ('{' :: commaRow (ms.map Member.text) ++ ['}'])

/-- A text that is one object, with its members. -/
structure Object where
  lead : List Char
  members : List Member
  /-- What stands between the braces when there are no members. -/
  blank : List Char
  trail : List Char
  leadBlank : Blank lead
  framed : ∀ m ∈ members, m.Framed unitsOf
  values : ∀ m ∈ members, Value unitsOf m.value
  blankBlank : Blank blank
  trailBlank : Blank trail

namespace Object

variable {unitsOf} (o : Object unitsOf)

/-- What stands between the braces. -/
def inner : List Char :=
  if o.members = [] then o.blank else commaRow (o.members.map Member.text)

def text : List Char := o.lead ++ '{' :: o.inner ++ '}' :: o.trail

/-- The keys of the members. -/
def keys : List (List Nat) := o.members.map Member.units

end Object

end JsonText
