import Chronicle.Text.Blank
import Chronicle.Text.CaseTables

/-! Lower-casing of whole texts. The capital sigma has a final form at the end of a word. -/

namespace Chronicle.Text

/-- The lower-case form of a character on its own. Only the capital I with a dot has two characters. -/
def lowerChar (c : Char) : List Char :=
  if c = 'İ' then ['i', '\u0307']
  else
    match lowerRuns.find? fun r => r.first ≤ c.toNat && c.toNat ≤ r.last && (c.toNat - r.first) % r.step == 0 with
    | some r => [Char.ofNat (c.toNat + r.offset).toNat]
    | none => [c]

def isCased (c : Char) : Bool := inRanges casedRanges c

def isCaseIgnorable (c : Char) : Bool := inRanges caseIgnorableRanges c

def nextIsCased (cs : List Char) : Bool := ((cs.dropWhile isCaseIgnorable).head?).any isCased

def lowerAfter (before : List Char) : List Char → List Char
  | [] => []
  | c :: cs =>
    let form :=
      if c = 'Σ' then [if nextIsCased before && !nextIsCased cs then 'ς' else 'σ'] else lowerChar c
    form ++ lowerAfter (c :: before) cs

def lowercase (text : String) : String := String.ofList (lowerAfter [] text.toList)

end Chronicle.Text
