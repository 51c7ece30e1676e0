import LintCorpus.CorpusResult
import LintCorpus.Diff
import LintCorpus.Report.Table

/-!
Reports in Markdown. Everything is sorted before it is written and times are left out, so equal
findings give equal reports.
-/
namespace LintCorpus.Report

def missingCell : Text := "-"

/-- Makes a fence longer for as long as the text contains it. -/
def lengthen (t fence : Text) : Text :=
  if t.includes fence then lengthen t (fence ++ "`") else fence
termination_by t.length + 1 - fence.length
decreasing_by
  have fits := Text.length_le_of_includes ‹_›
  have longer : (fence ++ Text.ofString "`").length = fence.length + 1 := List.length_append
  omega

/-- A fence that the text does not contain: at least three grave accents. -/
def fence (t : Text) : Text := lengthen t "```"

def diagnosticLine (d : Diagnostic) (withPackage : Bool) : Text :=
  let owner : Text := if withPackage then "`" ++ d.package ++ "` " else []
  "- " ++ owner ++ "`" ++ d.location ++ "` [" ++ d.rule ++ "] " ++ d.severity.name ++ ": " ++
    d.message

def exitLabel (o : Outcome) : Text := (o.returncode.map Text.ofInt).getD missingCell

def countTable (title value : Text) (rows : List (Text × Int)) : Table where
  headers := [title, value]
  rows := rows.map fun row => [.text row.1, .int row.2]
  fit := List.forall_mem_map.mpr fun _ _ => rfl

def heading (title : Text) : List Text := [title, []]

def subheading (title : Text) : List Text := [[], title, []]

def totalLine (total : Int) : Text := "Total: " ++ Text.ofInt total

def summarySection (r : CorpusResult) : List Text :=
  let s := r.summary
  let lint : Text :=
    match r.targetLint with
    | some (c :: rest) => "`" ++ (c :: rest) ++ "`"
    | _ => "all lints"
  heading "# Summary" ++ heading ("Lint: " ++ lint) ++
    (countTable "Outcome" "Count"
      [("Attempted", s.attempted), ("Succeeded", s.succeeded), ("Had findings", s.hadFindings),
        ("Failed to build", s.failedToBuild), ("Crashed", s.crashed), ("Timed out", s.timedOut),
        ("Diagnostics", s.diagnostics)]).lines

/-- The class of an outcome, marked when nothing of the lint under test was seen. -/
def statusCell (o : Outcome) : Text :=
  if o.evaluated then o.status.label else o.status.label ++ " (not evaluated)"

def sortedOutcomes (r : CorpusResult) : List (Text × Outcome) :=
  r.outcomes.entries.mergeSort fun a b => Text.le a.1 b.1

def packagesTable (outcomes : List (Text × Outcome)) : Table where
  headers := ["Crate", "Status", "Exit", "Diagnostics", "Filtered"]
  rows := outcomes.map fun (name, o) =>
    [.text name, .text (statusCell o), .text (exitLabel o), .int o.diagnostics, .int o.filteredOut]
  fit := List.forall_mem_map.mpr fun _ _ => rfl

def packagesSection (outcomes : List (Text × Outcome)) : List Text :=
  heading "## Packages" ++
    if outcomes.isEmpty then [Text.ofString "No packages were found."]
    else (packagesTable outcomes).lines

def packageCounts (ds : List Diagnostic) : List (Text × Int) :=
  let packages := ds.map Diagnostic.package
  (Text.sort packages.eraseDups).map fun package => (package, (packages.count package : Int))

def sortedRules (r : CorpusResult) : List (Text × List Diagnostic) :=
  r.diagnostics.entries.mergeSort fun a b => Text.le a.1 b.1

def warningsSection (r : CorpusResult) : List Text :=
  heading "## Warnings" ++ [totalLine r.summary.diagnostics] ++
    (sortedRules r).flatMap fun (rule, ds) =>
      subheading ("### `" ++ rule ++ "`") ++ (countTable "Crate" "Count" (packageCounts ds)).lines

def findingLines (d : Diagnostic) : List Text :=
  diagnosticLine d false ::
    (d.suggestion.map fun (s : Text) => ("  - suggestion: `" ++ s ++ "`" : Text)).toList

def diagnosticsSection (r : CorpusResult) (names : List Text) : List Text :=
  ("## Diagnostics" : Text) :: names.flatMap fun name =>
    match r.diagnosticsFor name with
    | [] => []
    | ds => subheading ("### " ++ name) ++ ds.flatMap findingLines

def failureLines (name : Text) (o : Outcome) : List Text :=
  let quoted : List Text :=
    if o.tail.isEmpty then []
    else [[], fence o.tail ++ "text", o.tail, fence o.tail]
  let title : Text :=
    "### " ++ name ++ " - " ++ o.status.label ++ " (exit " ++ exitLabel o ++ ")"
  [[], title] ++ quoted

def failuresSection (outcomes : List (Text × Outcome)) : List Text :=
  let failed := outcomes.filter fun entry => entry.2.status.brokeBuild
  heading "## Build failures" ++ [totalLine failed.length] ++
    failed.flatMap fun (name, o) => failureLines name o

def unparsedSection (outcomes : List (Text × Outcome)) : List Text :=
  let flagged := outcomes.filter fun entry => entry.2.parseIssues != 0
  heading "## Unparsed output" ++ [totalLine flagged.length] ++
    (if flagged.isEmpty then [] else [[]]) ++
    flagged.map fun (name, o) =>
      let extent : Text := if o.unparsedOutput then "nothing decoded" else "partially decoded"
      Text.ofString "- " ++ name ++ ": " ++ Text.ofInt o.parseIssues ++
        " skipped fragment(s), " ++ extent

def allowsSection (outcomes : List (Text × Outcome)) : List Text :=
  let counts := outcomes.filterMap fun (name, o) => o.allowCount.map fun count => (name, count)
  let rows := counts.filter fun row => row.2 != 0
  heading "## Allows" ++ [totalLine ((counts.map Prod.snd).foldl (· + ·) 0)] ++
    (if rows.isEmpty then [] else [] :: (countTable "Crate" "Count" rows).lines)

def joinSections (sections : List (List Text)) : Text :=
  Text.join "\n\n" (sections.map (Text.join "\n")) ++ "\n"

def render (r : CorpusResult) : Text :=
  let outcomes := sortedOutcomes r
  let names := outcomes.map Prod.fst
  let allows :=
    if outcomes.any fun entry => entry.2.allowCount.isSome then [allowsSection outcomes] else []
  joinSections ([summarySection r, packagesSection outcomes, warningsSection r,
    diagnosticsSection r names, failuresSection outcomes, unparsedSection outcomes] ++ allows)

def diffSection (title : Text) (ds : List Diagnostic) : List (List Text) :=
  if ds.isEmpty then [] else [heading ("## " ++ title) ++ ds.map (diagnosticLine · true)]

def renderDiff (d : ResultDiff) : Text :=
  let introduced : Text := "Introduced: " ++ Text.ofNat d.introduced.length
  let resolved : Text := "Resolved: " ++ Text.ofNat d.resolved.length
  joinSections ([heading "# Diff" ++ [introduced, resolved]] ++
    diffSection "Introduced" d.introduced ++ diffSection "Resolved" d.resolved)

end LintCorpus.Report
