import Chronicle.Identifier.Basic
import Chronicle.Text.Blank

/-! The text form of identifiers, in base 36. -/

namespace Chronicle.Identifier

def leastWidth : Nat := 12

def digit (d : Nat) : Char := Char.ofNat (if d < 10 then 48 + d else 55 + d)

def digits (n : Nat) : List Char :=
  if _h : n < 36 then [digit n] else digits (n / 36) ++ [digit (n % 36)]
termination_by n
decreasing_by omega

def render (x : Identifier) : String :=
  let ds := digits x.raw.toInt.natAbs
  if x.raw < 0 then String.ofList ('-' :: ds)
  else String.ofList (List.replicate (leastWidth - ds.length) '0' ++ ds)

inductive TextFault where
  | empty
  | notADigit (text : String)
  | tooLarge (text : String)
  | tooSmall (text : String)
deriving DecidableEq, Repr

namespace TextFault

def message : TextFault → String
  | empty => "empty"
  | notADigit text => s!"'{text}': invalid digit found in string"
  | tooLarge text => s!"'{text}': number too large to fit in target type"
  | tooSmall text => s!"'{text}': number too small to fit in target type"

end TextFault

def digitValue? (c : Char) : Option Nat :=
  if '0' ≤ c ∧ c ≤ '9' then some (c.toNat - 48)
  else if 'A' ≤ c ∧ c ≤ 'Z' then some (c.toNat - 55)
  else if 'a' ≤ c ∧ c ≤ 'z' then some (c.toNat - 87)
  else none

/-- Reads digits after `value`, adding each to a value that grows, or taking it from one that falls. The first
character that is no digit, or leaves the range of a signed word, decides the fault. -/
def readDigits (falling : Bool) (text : String) (value : Int) : List Char → Except TextFault Int
  | [] => .ok value
  | c :: cs =>
    match digitValue? c with
    | none => .error (.notADigit text)
    | some d =>
      let next := if falling then value * 36 - d else value * 36 + d
      if next < Int64.minValue.toInt then .error (.tooSmall text)
      else if Int64.maxValue.toInt < next then .error (.tooLarge text)
      else readDigits falling text next cs

def splitSign : List Char → Bool × List Char
  | '-' :: ds => (true, ds)
  | '+' :: ds => (false, ds)
  | ds => (false, ds)

def parse (text : String) : Except TextFault Identifier :=
  let body := Text.trim text.toList
  let shown := String.ofList body
  let (falling, ds) := splitSign body
  if body.isEmpty then .error .empty
  else if ds.isEmpty then .error (.notADigit shown)
  else (readDigits falling shown 0 ds).map fun v => ⟨Int64.ofInt v⟩

end Chronicle.Identifier
