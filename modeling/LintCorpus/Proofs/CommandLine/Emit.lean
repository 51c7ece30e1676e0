import LintCorpus.CommandLine.Lint
import LintCorpus.Proofs.CommandLine.Session
import LintCorpus.Proofs.Files.Write
import LintCorpus.Proofs.Json.Encodable
import LintCorpus.Proofs.Report.Markdown
import LintCorpus.Proofs.Stream.Outcome

/-!
Reporting what packages wrote. Whatever bytes they write and however they end, their runs are read,
classed, merged and rendered, unless a record is beyond the limits of JSON texts. The report is then
written unless one of the findings in it has a text with a surrogate, which an escape in a record
can denote; such a report ends the command, and the stored result is not written either.
-/
namespace LintCorpus

namespace PackageRun

/-- The run of a package as it is told from what was captured and what was read of it. -/
def ofParsed (package : Package) (c : Capture) (parsed : Parsed) : PackageRun where
  package
  invocation := Linter.ofParsed package.name .lint c parsed
  parsed

def ofCapture (limits : StreamLimits) (entry : Package × Capture) : Except Json.Excess PackageRun :=
  (Parsed.ofStream limits entry.2.stdout entry.1.name).map (ofParsed entry.1 entry.2)

variable {limits : StreamLimits} {entry : Package × Capture}

theorem ofCapture_of_within (within : StreamReader.Within limits entry.2.stdout) :
    ofCapture limits entry = .ok (ofParsed entry.1 entry.2
      (Parsed.ofEvents (StreamReader.read limits {} entry.2.stdout).2 entry.1.name)) := by
  rw [ofCapture, StreamReader.ofStream_of_within limits _ within]
  rfl

theorem of_mapM_ofCapture {captured : List (Package × Capture)} {runs : List PackageRun}
    (made : captured.mapM (ofCapture limits) = .ok runs) :
    (∀ entry ∈ captured, StreamReader.Within limits entry.2.stdout) ∧
      runs.map PackageRun.name = captured.map fun entry => entry.1.name := by
  have each : List.Forall₂ (fun entry run => StreamReader.Within limits entry.2.stdout ∧
      entry.1.name = PackageRun.name run) captured runs := by
    refine (forall₂_of_mapM made).imp fun entry run made => ?_
    obtain ⟨parsed, read, rfl⟩ := map_eq_ok.mp made
    exact ⟨StreamReader.within_of_ofStream limits read, rfl⟩
  obtain ⟨within, named⟩ := (List.forall₂_and_left _ _).mp each
  refine ⟨within, Eq.symm ?_⟩
  rwa [← List.forall₂_eq_eq_eq, List.forall₂_map_left_iff, List.forall₂_map_right_iff]

end PackageRun

namespace CommandLine

namespace Step

variable {s : Session} {p : Path} {content : Text} {files : FileTree}

theorem run_write_ok (written : StoredReport.writeFile s.files p content = (files, .ok ())) :
    (change fun t => StoredReport.writeFile t p content).run.run s = (.ok (), { s with files }) := by
  rw [run_change, written]
  rfl

theorem run_write_error {fault : FileFault}
    (refused : StoredReport.writeFile s.files p content = (files, .error fault)) :
    (change fun t => StoredReport.writeFile t p content).run.run s =
      (.error (.abort fault), { s with files }) := by
  rw [run_change, refused]
  rfl

end Step

/-- The session once something has been written, and that has been told. -/
def Session.written (s : Session) (files : FileTree) (emoji : Bool) (t : Text) : Session :=
  { s with files, log := s.log ++ Message.displayAll [⟨.ok, t⟩] emoji }

variable {o : RunOptions} {config : OutputConfig} {r : CorpusResult} {p : Path} {s : Session}

/-- The report is written to `p`, and after it the stored result if it is wanted and can be
written. -/
def Delivers (o : RunOptions) (config : OutputConfig) (r : CorpusResult) (p : Path) (s : Session) :
    Prop :=
  ∃ files, files.read p = .ok (Utf8.encode (Report.render r)) ∧
    let reported := s.written files o.emoji ("Report written to " ++ p.toText)
    match config.jsonOut with
    | none => (emit o config r).run.run s = (.ok (), reported)
    | some q => files.Writable q → ∃ stored,
        stored.read q = .ok (Utf8.encode (StoredReport.write r)) ∧
        (emit o config r).run.run s =
          (.ok (), reported.written stored o.emoji ("JSON result written to " ++ q.toText))

/-- An empty report is left and nothing else is written. -/
def Abandons (o : RunOptions) (config : OutputConfig) (r : CorpusResult) (p : Path) (s : Session) :
    Prop :=
  ∃ files fault, files.read p = .ok [] ∧ StoredReport.writeFile s.files p [] = (files, .ok ()) ∧
    (emit o config r).run.run s = (.error (.abort (.unencodable fault)), { s with files })

section Emit

variable (out : config.reportOut = some p) (writable : s.files.Writable p)

include out writable

theorem emit_encodable (encodable : (Report.render r).Encodable) : Delivers o config r p s := by
  obtain ⟨files, written, held⟩ := StoredReport.writeFile_encodable writable encodable
  have told : (Step.say o.emoji .ok ("Report written to " ++ p.toText)).run.run { s with files } =
      (.ok (), s.written files o.emoji ("Report written to " ++ p.toText)) := rfl
  refine ⟨files, held, ?_⟩
  unfold emit
  dsimp only
  rw [out]
  dsimp only
  rw [Step.run_bind_ok (Step.run_write_ok written), Step.run_bind_ok told]
  cases config.jsonOut with
  | none => rfl
  | some q =>
    intro ready
    have plain : (StoredReport.write r).Encodable := by
      rw [StoredReport.write, Text.encodable_append]
      exact ⟨Json.encodable_write _ _, Text.encodable_ofString _⟩
    obtain ⟨stored, kept, read⟩ := StoredReport.writeFile_encodable ready plain
    refine ⟨stored, read, ?_⟩
    dsimp only
    rw [Step.run_bind_ok (Step.run_write_ok kept)]
    rfl

theorem emit_surrogate (surrogate : ¬(Report.render r).Encodable) : Abandons o config r p s := by
  obtain ⟨files, fault, refused, emptied, held⟩ :=
    StoredReport.writeFile_surrogate writable surrogate
  refine ⟨files, fault, held, emptied, ?_⟩
  unfold emit
  dsimp only
  rw [out]
  exact Step.run_bind_error (Step.run_write_error refused)

end Emit

/-- Whatever packages write and however they end, what was captured is merged into a result, if all
of it is within the limits of JSON texts. The report has bytes exactly if the target lint and what
is shown of the findings kept have. In that case it is written, and after it the stored result; else
the command ends with an empty report. -/
theorem captured_output_delivered (limits : StreamLimits) (captured : List (Package × Capture))
    (target : Option Text) (root : Path)
    (distinct : (captured.map fun entry => entry.1.name).Nodup)
    (named : ∀ entry ∈ captured, ∀ c ∈ entry.1.name, c.isValidChar) :
    ((∃ runs, captured.mapM (PackageRun.ofCapture limits) = .ok runs) ↔
        ∀ entry ∈ captured, StreamReader.Within limits entry.2.stdout) ∧
      ∀ runs, captured.mapM (PackageRun.ofCapture limits) = .ok runs →
        ∃ result, aggregate runs target root = .ok result ∧
          ((Report.render result).Encodable ↔ Reportable target runs) ∧
          ∀ o config p s, config.reportOut = some p → s.files.Writable p →
            (Reportable target runs → Delivers o config result p s) ∧
            (¬Reportable target runs → Abandons o config result p s) := by
  refine ⟨⟨fun ⟨_, made⟩ => (PackageRun.of_mapM_ofCapture made).1, fun within => ?_⟩,
    fun runs made => ?_⟩
  · exact ⟨_, mapM_eq_ok fun entry member => PackageRun.ofCapture_of_within (within entry member)⟩
  have names := (PackageRun.of_mapM_ofCapture made).2
  have apart : (runs.map PackageRun.name).Nodup := names ▸ distinct
  have characters : ∀ run ∈ runs, run.name.Encodable := by
    intro run present
    obtain ⟨entry, member, same⟩ := List.mem_map.mp (names ▸ List.mem_map_of_mem present)
    exact same ▸ Text.encodable_of_valid _ (named entry member)
  obtain ⟨m, covers, merged⟩ := aggregate_covers runs target root apart
  have shown : (Report.render (m.result target root)).Encodable ↔ Reportable target runs :=
    (Report.encodable_render _).trans (covers.encodable_result apart root characters)
  refine ⟨_, merged, shown, fun o config p s out writable => ⟨fun reportable => ?_, fun not => ?_⟩⟩
  · exact emit_encodable out writable (shown.mpr reportable)
  · exact emit_surrogate out writable (mt shown.mp not)

private def bare : FileTree := { workingDirectory := Path.ofText "/" }

private def reportPath : Path := Path.ofText "report.md"

private theorem bare_writable : bare.Writable reportPath := by
  refine ⟨bare, bare.put ["report.md"] ⟨.file [], 0⟩, ?_, rfl⟩
  rw [FileTree.ensureDirectories]
  rfl

/-- A package that could not be built wrote a finding after bytes that are no text. -/
theorem captured_output_delivered_broken :
    let demo : Package := { name := "demo", path := Path.ofText "/crates/demo" }
    let output : Bytes := 0xFF :: 0x0A :: Utf8.encode
      "\x7b\"message\": \"m\", \"level\": \"warning\", \"code\": \x7b\"code\": \"a\"\x7d\x7d\n"
    let c : Capture :=
      { command := [], returncode := some 101, stdout := output, stderr := [0xFF] }
    let config : OutputConfig := { reportOut := some reportPath }
    ∃ runs result, [(demo, c)].mapM (PackageRun.ofCapture {}) = .ok runs ∧
      aggregate runs none (Path.ofText "/crates") = .ok result ∧ (Report.render result).Encodable ∧
      ∀ o, Delivers o config result reportPath { files := bare } := by
  intro demo output c config
  have within : StreamReader.Within {} output :=
    (StreamReader.within_iff {} output).mpr (by decide +kernel)
  let run : PackageRun := PackageRun.ofParsed demo c
    (Parsed.ofEvents (StreamReader.read {} {} output).2 "demo")
  have made : [(demo, c)].mapM (PackageRun.ofCapture {}) = .ok [run] := by
    rw [List.mapM_cons, PackageRun.ofCapture_of_within within]
    rfl
  obtain ⟨-, delivered⟩ :=
    captured_output_delivered {} [(demo, c)] none (Path.ofText "/crates") (by decide) (by decide)
  obtain ⟨result, merged, shown, emitted⟩ := delivered [run] made
  have findings : ∀ other ∈ [run], ∀ d ∈ other.kept none, d.Encodable := by decide +kernel
  have reportable : Reportable none [run] := ⟨nofun, findings⟩
  refine ⟨[run], result, made, merged, shown.mpr reportable, fun o => ?_⟩
  exact (emitted o config reportPath { files := bare } rfl bare_writable).1 reportable

/-- One escape in the output of one package denotes a surrogate: the report stays empty, and the
result is not stored. -/
theorem surrogate_undelivered :
    let demo : Package := { name := "demo", path := Path.ofText "/crates/demo" }
    let output : Bytes := Utf8.encode
      "\x7b\"message\": \"\\ud800\", \"level\": \"warning\", \"code\": \x7b\"code\": \"a\"\x7d\x7d\n"
    let c : Capture := { command := [], returncode := some 0, stdout := output }
    let config : OutputConfig :=
      { reportOut := some reportPath, jsonOut := some (Path.ofText "result.json") }
    ∃ run result, PackageRun.ofCapture {} (demo, c) = .ok run ∧
      aggregate [run] none (Path.ofText "/crates") = .ok result ∧
      ¬(Report.render result).Encodable ∧ bare.Writable reportPath ∧
      ∀ o, ∃ files fault, (emit o config result).run.run { files := bare } =
          (.error (.abort (.unencodable fault)), { files }) ∧
        files.read reportPath = .ok [] ∧
        files.read (Path.ofText "result.json") =
          .error (.refused .notFound (some (Path.ofText "result.json").toText)) := by
  intro demo output c config
  have within : StreamReader.Within {} output :=
    (StreamReader.within_iff {} output).mpr (by decide +kernel)
  let run : PackageRun := PackageRun.ofParsed demo c
    (Parsed.ofEvents (StreamReader.read {} {} output).2 "demo")
  have made : PackageRun.ofCapture {} (demo, c) = .ok run := PackageRun.ofCapture_of_within within
  obtain ⟨m, covers, merged⟩ := aggregate_covers [run] none (Path.ofText "/crates") (by decide)
  have kept : ∃ d ∈ run.kept none, ¬d.Encodable := by decide +kernel
  have surrogate : ¬(Report.render (m.result none (Path.ofText "/crates"))).Encodable := by
    rw [Report.encodable_render, covers.encodable_result (by decide) _ (by decide)]
    intro reportable
    obtain ⟨d, inside, surrogate⟩ := kept
    exact surrogate (reportable.findings _ List.mem_cons_self d inside)
  refine ⟨run, _, made, merged, surrogate, bare_writable, fun o => ?_⟩
  have abandons : Abandons o config _ reportPath { files := bare } :=
    emit_surrogate rfl bare_writable surrogate
  obtain ⟨files, fault, empty, written, stopped⟩ := abandons
  refine ⟨files, fault, stopped, empty, ?_⟩
  have left : StoredReport.writeFile bare reportPath [] =
      (bare.put ["report.md"] ⟨.file [], 0⟩, .ok ()) := by
    rw [StoredReport.writeFile, FileTree.ensureDirectories]
    rfl
  obtain rfl : files = _ := congrArg Prod.fst (written.symm.trans left)
  rfl

end CommandLine
end LintCorpus
