import TemplateTidy.Lint.Catalog
import TemplateTidy.Lint.Orphan
import TemplateTidy.Region

/-! # Linting

`lint` runs the rules over a document in order and collects what they find.  A match counts unless it
touches an ignored region, lies in a raw block, or its rule is off there.  Findings that repeat an
earlier one are dropped. -/

namespace TemplateTidy.Lint

open Text

structure Document where
  text : Array Char
  /-- The name by which a check knows the document. -/
  path : String
  lines : List Span
  ignored : List Span
  raw : List Span
  ruleRegions : List Region.RuleRegion

def Document.ofText (text : List Char) (path : String) : Document :=
  let chars := text.toArray
  { text := chars, path, lines := lineSpans text, ignored := Region.ignoredSpans chars,
    raw := Region.spansOf Region.raw chars, ruleRegions := Region.ruleRegions chars }

/-- Whether a match of a rule counts. -/
def Document.counts (doc : Document) (rule : Value) (s : Span) : Bool :=
  let off := match rule with
    | .text name => doc.ruleRegions.any (·.covers name.toList s)
    | _ => doc.ruleRegions.any fun r => r.all && r.span.start ≤ s.stop && s.stop ≤ r.span.stop
  !doc.ignored.any (Region.touches s) && !off && !doc.raw.any (Region.within s)

def Document.finding (doc : Document) (rule : Rule) (s : Span) : Outcome Finding := do
  return { code := rule.name, place := ← placeOf s.start doc.lines,
           excerpt := excerptOf (s.of doc.text), message := rule.message }

/-- The findings of a rule at those of the spans that count. -/
def Document.findings (doc : Document) (rule : Rule) (spans : List Span) : Outcome (List Finding) :=
  (spans.filter (doc.counts rule.name)).mapM (doc.finding rule)

/-- A check known by name: its findings, or nothing if it answers with something else. -/
abbrev Check := Rule → Document → Outcome (Option (List Finding))

def orphanCheck : Check := fun rule doc => do
  return some (← doc.findings rule (orphanSpans doc.text))

def builtinChecks : List (String × Check) :=
  [("djlint.rules.H025", orphanCheck)]

/-- The part of a dotted name that cannot be found. -/
def missingPart (name : String) : String :=
  if name.startsWith "djlint." then name
  else String.ofList (name.toList.takeWhile (· != '.'))

def readPattern (options pattern : Value) : Outcome Pattern := do
  let flags ← match options with
    | .text s => Lint.options s
    | _ => .error .missingOperation
  match pattern with
  | .text s => compile flags s.toList
  | _ => .error .wrongType

def runRule (checks : List (String × Check)) (doc : Document) (rule : Rule) :
    Outcome (List Finding) :=
  match rule.test with
  | .patterns ps =>
    (ps.mapM fun p => doc.findings rule (Region.spansOf p doc.text)).map List.flatten
  | .search find => doc.findings rule (find doc.text)
  | .written options patterns => do
    let found ← (← patterns.elements).mapM fun pattern => do
      let p ← readPattern options pattern
      doc.findings rule (Region.spansOf p doc.text)
    return found.flatten
  | .check (.text name) =>
    match checks.lookup name with
    | some check => do
      match ← check rule doc with
      | some found => return found
      | none => .error (.badCheck rule.name.render)
    | none => .error (.unknownCheck (missingPart name))
  | .check _ => .error .missingOperation

def dropRepeats (found : List Finding) : List Finding :=
  (found.foldl (fun kept f => if kept.any (·.same f) then kept else f :: kept) []).reverse

/-- The codes that the per-file settings switch off for a path. -/
def switchedOff (perFile : Value) (path : String) : Outcome (List String) := do
  match perFile with
  | .dict entries =>
    let off ← entries.mapM fun (pattern, codes) => do
      let p ← match pattern with
        | .text s => compile { verbose := true } s.toList
        | _ => .error .wrongType
      if p.occurs path.toList.toArray then
        match codes with
        | .text s => return (s.toList.splitOn ',').map fun c => String.ofList (strip c)
        | _ => .error .missingOperation
      else return []
    return off.flatten
  | _ => .error .missingOperation

/-- Whether a rule is among the switched off codes. -/
def Rule.isOff (rule : Rule) (off : List String) : Bool :=
  match rule.name with
  | .text s => off.contains s
  | _ => false

/-- All that the rules find in a document. -/
def lint (checks : List (String × Check)) (rules : List Rule) (perFile : Value)
    (text : List Char) (path : String) : Outcome (List Finding) := do
  let doc := Document.ofText text path
  let off ← switchedOff perFile path
  let found ← (rules.filter (!·.isOff off)).mapM (runRule checks doc)
  return dropRepeats found.flatten

end TemplateTidy.Lint
