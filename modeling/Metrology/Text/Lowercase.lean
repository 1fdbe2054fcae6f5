import Metrology.Text.CaseTables

/-!
# Lower case

`lowercase` maps a text to lower case by the Unicode rules: one character at a time, save that a
capital sigma becomes `ς` at the end of a word and `σ` elsewhere.
-/

namespace Metrology.Text

def isCased (c : Char) : Bool :=
  casedRuns.any fun (first, last) => first ≤ c.toNat && c.toNat ≤ last

def isCaseIgnorable (c : Char) : Bool :=
  caseIgnorableRuns.any fun (first, last) => first ≤ c.toNat && c.toNat ≤ last

def CaseRun.contains (r : CaseRun) (n : Nat) : Bool :=
  r.first ≤ n && n ≤ r.last && (n - r.first) % r.stride == 0

/-- The lower case of one character. A dotted capital I keeps its dot as a combining mark. -/
def lowercaseChar (c : Char) : List Char :=
  if c = 'İ' then ['i', '\u0307']
  else
    match lowercaseRuns.find? (·.contains c.toNat) with
    | some r => [Char.ofNat (c.toNat + r.offset).toNat]
    | none => [c]

/-- Whether a cased character comes first, past those that case ignores. -/
def meetsCased (cs : List Char) : Bool :=
  (cs.dropWhile isCaseIgnorable).head?.any isCased

/-- The lower case of `cs` after the text `before`, which is held in reverse. -/
def lowercaseAfter (before : List Char) : List Char → List Char
  | [] => []
  | c :: cs =>
    let lowered :=
      if c = 'Σ' then [if meetsCased before && !meetsCased cs then 'ς' else 'σ']
      else lowercaseChar c
    lowered ++ lowercaseAfter (c :: before) cs

def lowercase (cs : List Char) : List Char :=
  lowercaseAfter [] cs

end Metrology.Text
