import LintCorpus.Diff
import LintCorpus.Gate
import LintCorpus.Proofs.Files.Write
import LintCorpus.Proofs.Stored.Form
import LintCorpus.Report.Markdown

/-!
Results that are stored and read back. The text of a valid result is read as that result, whatever
stands in it for the counts, and so is the file that it is written to.
-/
namespace LintCorpus

/-- A number equals itself unless it is not-a-number. -/
theorem Binary64.same_self (x : Binary64) : x.same x = true ↔ x ≠ .nan := by
  cases x with
  | nan => simp [same, rank?]
  | infinity negative => simp [same, rank?]
  | finite negative m => simp [same, rank?]

theorem CorpusResult.same_self (r : CorpusResult) :
    r.same r = true ↔ ∀ o ∈ r.outcomes.values, o.duration ≠ .nan := by
  have pairs : ∀ outcomes : List Outcome,
      ((outcomes.zip outcomes).all fun pair => pair.1.same pair.2) = true ↔
        ∀ o ∈ outcomes, o.duration ≠ .nan := by
    intro outcomes
    induction outcomes with
    | nil => simp
    | cons o rest ih =>
      rw [List.zip_cons_cons, List.all_cons, Bool.and_eq_true, ih, List.forall_mem_cons]
      simp [Outcome.same, Binary64.same_self]
  rw [← pairs]
  simp [CorpusResult.same]

namespace FileTree

/-- A file of printable ASCII on lines is read as the text that was written to it. -/
theorem readText_encode {t : FileTree} {p : Path} {content : Text} (plain : content.Plain)
    (held : t.read p = .ok (Utf8.encode content)) : t.readText p = .ok content := by
  rw [readText, held]
  simp only [bind, Except.bind, Utf8.decodeStrict_encode_of_plain plain]
  rw [Text.normalizeNewlines_eq plain]
  rfl

end FileTree

namespace StoredReport

/-- The text of a result, with a value beside it for readers that want nothing else. -/
def writeBeside (r : CorpusResult) (beside : Option Value) : Text :=
  Json.write .indented (.object (r.toMembers ++ (beside.map (summaryName, ·)).toList)) ++ "\n"

theorem write_eq (r : CorpusResult) : write r = writeBeside r (some r.summary.toValue) := rfl

theorem plain_write (r : CorpusResult) : (write r).Plain :=
  (Text.plain_append _ _).mpr ⟨Json.plain_write _ _, by decide⟩

variable {r : CorpusResult} (valid : r.Valid) (scalar : r.Scalar)

include scalar

private theorem storable_beside {beside : Option Value} (storable : ∀ v ∈ beside, v.Storable) :
    Value.Storable (.object (r.toMembers ++ (beside.map (summaryName, ·)).toList)) := by
  have all : ∀ m ∈ (beside.map (summaryName, ·)).toList, Value.Storable m.2 := by
    rintro m member
    obtain ⟨v, present, rfl⟩ := Option.map_eq_some_iff.mp (Option.mem_toList.mp member)
    exact storable v present
  -- The names are the same whatever the members hold.
  have names : ∃ ns : List Text, ns.Nodup ∧ (∀ name ∈ ns, name.Scalar) ∧
      (r.toMembers ++ (beside.map (summaryName, ·)).toList).map Prod.fst = ns := by
    cases beside with
    | none => exact ⟨["root", "target_lint", "packages", "outcomes", "diagnostics"],
        by decide, by decide, rfl⟩
    | some v => exact ⟨["root", "target_lint", "packages", "outcomes", "diagnostics", summaryName],
        by decide, by decide, rfl⟩
  obtain ⟨ns, distinct, plain, same⟩ := names
  refine .object (same ▸ distinct) (fun m member => plain m.1 ?_) ?_
  · rw [← same]
    exact List.mem_map_of_mem member
  · exact List.forall_mem_append.mpr ⟨scalar.storable_members, all⟩

include valid

/-- What stands beside a result plays no part. -/
theorem ofText_writeBeside (path : Path) (beside : Option Value) (storable : ∀ v ∈ beside, v.Storable) :
    ofText path (writeBeside r beside) = .ok r := by
  have kept : (r.toMembers ++ (beside.map (summaryName, ·)).toList).filter
      (fun m => m.1 != summaryName) = r.toMembers := by
    cases beside <;> rfl
  rw [ofText, writeBeside, Json.read_write .indented (storable_beside scalar storable)]
  simp only [kept, scalar.ofMembers_toMembers valid]

theorem ofText_write (path : Path) : ofText path (write r) = .ok r := by
  rw [write_eq]
  refine ofText_writeBeside valid scalar path _ fun v same => ?_
  cases same
  exact r.summary.storable

variable {t : FileTree} {path : Path} (writable : t.Writable path)

include writable

theorem load_write : ∃ u, writeFile t path (write r) = (u, .ok ()) ∧ load u path = .ok r := by
  obtain ⟨u, written, held⟩ := writeFile_encodable writable (plain_write r).encodable
  refine ⟨u, written, ?_⟩
  rw [load, FileTree.readText_encode (plain_write r) held]
  show (ofText path (write r)).mapError Failure.reported = .ok r
  rw [ofText_write valid scalar path]
  rfl

end StoredReport

/-- A valid result of characters that is written to a file is read back from it as it was, with
everything in its order; it is the same whatever stands beside it, and equal to the one that was
written if no duration is not-a-number. Its report, every verdict on it and every comparison with it
are those of the result that was written. -/
theorem stored_copy_faithful {r : CorpusResult} (valid : r.Valid) (scalar : r.Scalar)
    (timed : ∀ o ∈ r.outcomes.values, o.duration ≠ .nan) {t : FileTree} {path : Path}
    (writable : t.Writable path) :
    (∀ beside : Option Value, (∀ v ∈ beside, v.Storable) →
      StoredReport.ofText path (StoredReport.writeBeside r beside) = .ok r) ∧
    ∃ u copy, StoredReport.writeFile t path (StoredReport.write r) = (u, .ok ()) ∧
      StoredReport.load u path = .ok copy ∧ copy = r ∧ copy.same r = true ∧
      Report.render copy = Report.render r ∧
      (∀ policy, Gate.evaluate copy policy = Gate.evaluate r policy) ∧
      ∀ other, ResultDiff.between copy other = ResultDiff.between r other ∧
        ResultDiff.between other copy = ResultDiff.between other r := by
  obtain ⟨u, written, loaded⟩ := StoredReport.load_write valid scalar writable
  refine ⟨StoredReport.ofText_writeBeside valid scalar path, u, r, written, loaded, rfl, ?_, rfl, ?_, ?_⟩
  · exact r.same_self.mpr timed
  · exact fun _ => rfl
  · exact fun _ => ⟨rfl, rfl⟩

/-- A package that took forever has a finding with quotes and with a character above the basic
plane. -/
theorem stored_copy_faithful_unending :
    let d : Diagnostic :=
      { package := "demo", rule := "a", severity := .warning, message := "é \"😀\"\n",
        file := some "src/lib.rs", line := some 3 }
    let o : Outcome :=
      { name := "demo", status := .timeout, duration := .infinity false, tail := "\x7f" }
    let r : CorpusResult :=
      { root := Path.ofText "/crates", packages := ["demo"],
        outcomes := Dict.empty.insert "demo" o, diagnostics := Dict.empty.insert "a" [d] }
    let bare : FileTree := { workingDirectory := Path.ofText "/" }
    ∃ u, StoredReport.writeFile bare (Path.ofText "result.json") (StoredReport.write r) = (u, .ok ()) ∧
      StoredReport.load u (Path.ofText "result.json") = .ok r ∧ r.same r = true := by
  intro d o r bare
  have valid : r.Valid := ⟨by decide +kernel, by decide +kernel, by decide +kernel⟩
  have scalar : r.Scalar := by
    constructor <;> decide +kernel
  have timed : ∀ o ∈ r.outcomes.values, o.duration ≠ .nan := by decide +kernel
  have writable : bare.Writable (Path.ofText "result.json") := by
    refine ⟨bare, bare.put ["result.json"] ⟨.file [], 0⟩, ?_, rfl⟩
    rw [FileTree.ensureDirectories]
    rfl
  obtain ⟨-, u, copy, written, loaded, rfl, same, -⟩ :=
    stored_copy_faithful valid scalar timed writable
  exact ⟨u, written, loaded, same⟩

end LintCorpus
