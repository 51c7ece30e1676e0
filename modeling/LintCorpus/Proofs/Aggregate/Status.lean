import LintCorpus.Linter.Invoke
import LintCorpus.Proofs.Aggregate.Merge
import LintCorpus.Proofs.Stream.Outcome

/-!
The class of a run is told twice, from what it wrote and from the findings left after merging. A run
whose findings were read from its own output is classed the same both times, but for findings that
the target lint is not about.
-/
namespace LintCorpus

theorem Record.package_of_diagnostic? {record : Members} {package : Text} {d : Diagnostic}
    (found : Record.diagnostic? record package = some d) : d.package = package := by
  unfold Record.diagnostic? at found
  obtain ⟨message, -, found⟩ := Option.bind_eq_some_iff.mp found
  obtain ⟨code, -, found⟩ := Option.bind_eq_some_iff.mp found
  split at found
  · cases found
  · cases found
    rfl

theorem Parsed.ofEvents_of_ofStream {limits : StreamLimits} {stream : Bytes} {package : Text}
    {parsed : Parsed} (read : Parsed.ofStream limits stream package = .ok parsed) :
    parsed = Parsed.ofEvents (StreamReader.read limits {} stream).2 package := by
  rw [Parsed.ofStream] at read
  split at read
  · cases read
  · exact (Except.ok.inj read).symm

theorem Parsed.package_of_ofEvents {events : List StreamEvent} {package : Text} {d : Diagnostic}
    (member : d ∈ (Parsed.ofEvents events package).lintDiagnostics) : d.package = package := by
  obtain ⟨record, -, found⟩ := List.mem_filterMap.mp (List.mem_filter.mp member).1
  exact Record.package_of_diagnostic? found

/-- A run that did not break the build has findings, or it has none and exited with zero. -/
theorem Linter.classify_cases (returncode : Option Int) (timedOut : Bool) (stderr : Bytes)
    (parsed : Parsed) :
    (classify returncode timedOut stderr parsed).brokeBuild = true ∨
      classify returncode timedOut stderr parsed = .lintFindings ∧ parsed.lintDiagnostics ≠ [] ∨
      classify returncode timedOut stderr parsed = .success ∧ parsed.lintDiagnostics = [] ∧
        returncode = some 0 := by
  cases timedOut with
  | true => exact .inl rfl
  | false =>
    cases returncode with
    | none => exact .inl rfl
    | some code =>
      simp only [classify, Bool.false_eq_true, if_false, classifyExit]
      split
      · exact .inl rfl
      · split
        · exact .inl rfl
        · split
          · next found => exact .inr (.inl ⟨rfl, by simpa using found⟩)
          · next clean =>
            split
            · next zero => exact .inr (.inr ⟨rfl, by simpa using clean, congrArg some zero⟩)
            · exact .inl rfl

namespace PackageRun

/-- The findings and the class of a run are those that its output and its end amount to. -/
structure Observed (run : PackageRun) : Prop where
  parsed : ∃ limits, Parsed.ofStream limits run.invocation.stdout run.name = .ok run.parsed
  status : ∃ timedOut, run.invocation.status =
    Linter.classify run.invocation.returncode timedOut run.invocation.stderr run.parsed

/-- However a launch is answered, the run that it amounts to is read and classed like this. -/
theorem observed_answered {l : Linter} {package : Package} {command : List Text}
    {mode : InvocationMode} {answer : Except StartFault Capture} {i : Invocation} {parsed : Parsed}
    (made : l.answered package.name command mode answer = .ok i)
    (read : Parsed.ofStream l.limits i.stdout package.name = .ok parsed) (allowCount : Option Int) :
    Observed ⟨package, i, parsed, allowCount⟩ := by
  refine ⟨⟨_, read⟩, ?_⟩
  cases answer with
  | error fault =>
    obtain rfl := Except.ok.inj made
    exact ⟨false, rfl⟩
  | ok captured =>
    obtain ⟨known, first, rfl⟩ := map_eq_ok.mp made
    obtain rfl := Except.ok.inj (first.symm.trans read)
    exact ⟨captured.timedOut, rfl⟩

variable {run : PackageRun} (target : Option Text)

theorem Observed.own (observed : run.Observed) {d : Diagnostic}
    (member : d ∈ run.parsed.lintDiagnostics) : d.package = run.name := by
  obtain ⟨limits, read⟩ := observed.parsed
  rw [Parsed.ofEvents_of_ofStream read] at member
  exact Parsed.package_of_ofEvents member

theorem Observed.warnings (observed : run.Observed) : run.warnings = [] := by
  rw [PackageRun.warnings, List.map_eq_nil_iff, List.filter_eq_nil_iff]
  intro d member
  simp [observed.own member]

theorem Observed.kept_eq_nil (observed : run.Observed) :
    run.kept target = [] ↔ ∀ d ∈ run.parsed.lintDiagnostics, d.matchesTarget target = false := by
  rw [PackageRun.kept_eq_nil]
  constructor
  · exact fun none d member => none d member (observed.own member)
  · exact fun none d member _ => none d member

theorem Observed.ownDiagnostics_eq_nil (observed : run.Observed) :
    run.ownDiagnostics = [] ↔ run.parsed.lintDiagnostics = [] := by
  have all : run.kept none = run.ownDiagnostics := kept_none
  rw [← all, observed.kept_eq_nil none, List.eq_nil_iff_forall_not_mem]
  simp [Diagnostic.matchesTarget]

theorem Observed.kept_rule_eq_nil (observed : run.Observed) (rule : Text) :
    run.kept (some rule) = [] ↔ ∀ d ∈ run.parsed.lintDiagnostics, d.rule ≠ rule := by
  rw [observed.kept_eq_nil]
  simp [Diagnostic.matchesTarget]

theorem Observed.cases (observed : run.Observed) :
    run.invocation.status.brokeBuild = true ∨
      run.invocation.status = .lintFindings ∧ run.parsed.lintDiagnostics ≠ [] ∨
      run.invocation.status = .success ∧ run.parsed.lintDiagnostics = [] ∧
        run.invocation.returncode = some 0 := by
  obtain ⟨timedOut, classed⟩ := observed.status
  rw [classed]
  exact Linter.classify_cases run.invocation.returncode timedOut run.invocation.stderr run.parsed

theorem settle_broken {status : Status} (broken : status.brokeBuild = true)
    (returncode : Option Int) (ds : List Diagnostic) : settle status returncode ds = status :=
  if_pos broken

theorem settle_findings (returncode : Option Int) (ds : List Diagnostic) :
    settle .lintFindings returncode ds =
      if ds = [] then if returncode = some 0 then .success else .compileError
      else .lintFindings := by
  cases ds <;> rfl

theorem settle_sound {status : Status} (sound : status.brokeBuild = false)
    (returncode : Option Int) (ds : List Diagnostic) :
    settle status returncode ds =
      if ds = [] then if returncode = some 0 then .success else .compileError
      else .lintFindings := by
  rw [← settle_findings, settle, settle, sound]
  rfl

theorem Observed.settle_all (observed : run.Observed) :
    settle run.invocation.status run.invocation.returncode (run.kept none) =
      run.invocation.status := by
  rcases observed.cases with broken | ⟨findings, present⟩ | ⟨clean, none, zero⟩
  · exact settle_broken broken _ _
  · rw [findings, settle_findings, kept_none, if_neg (mt observed.ownDiagnostics_eq_nil.mp present)]
  · rw [clean, kept_none, observed.ownDiagnostics_eq_nil.mpr none, zero]
    rfl

/-- Under a target lint the class changes only if there were findings but none of that rule. -/
theorem Observed.settle_rule (observed : run.Observed) (rule : Text) :
    settle run.invocation.status run.invocation.returncode (run.kept (some rule)) =
      if run.invocation.status = .lintFindings ∧
          ∀ d ∈ run.parsed.lintDiagnostics, d.rule ≠ rule then
        if run.invocation.returncode = some 0 then .success else .compileError
      else run.invocation.status := by
  rcases observed.cases with broken | ⟨findings, -⟩ | ⟨clean, none, zero⟩
  · rw [settle_broken broken, if_neg]
    rintro ⟨findings, -⟩
    rw [findings] at broken
    cases broken
  · rw [findings, settle_findings]
    by_cases absent : ∀ d ∈ run.parsed.lintDiagnostics, d.rule ≠ rule
    · have both : Status.lintFindings = .lintFindings ∧
          ∀ d ∈ run.parsed.lintDiagnostics, d.rule ≠ rule := ⟨rfl, absent⟩
      rw [if_pos ((observed.kept_rule_eq_nil rule).mpr absent), if_pos both]
    · rw [if_neg (mt (observed.kept_rule_eq_nil rule).mp absent), if_neg fun both => absent both.2]
  · rw [clean, zero, (observed.kept_rule_eq_nil rule).mpr (by simp [none])]
    rfl

theorem settle_success {status : Status} {returncode : Option Int} {ds : List Diagnostic}
    (settled : settle status returncode ds = .success) : ds = [] ∧ returncode = some 0 := by
  unfold settle at settled
  split at settled
  · next broken =>
    rw [settled] at broken
    cases broken
  · split at settled
    · cases settled
    · next empty =>
      split at settled
      · next zero => exact ⟨by simpa using empty, zero⟩
      · cases settled

theorem Observed.lintFindings_iff (observed : run.Observed) :
    run.invocation.status = .lintFindings ↔
      run.invocation.status.brokeBuild = false ∧ run.ownDiagnostics ≠ [] := by
  rw [Ne, observed.ownDiagnostics_eq_nil]
  rcases observed.cases with broken | ⟨findings, present⟩ | ⟨clean, none, -⟩
  · rw [broken]
    refine iff_of_false ?_ nofun
    intro findings
    rw [findings] at broken
    cases broken
  · rw [findings]
    exact iff_of_true rfl ⟨rfl, present⟩
  · rw [clean]
    exact iff_of_false nofun fun both => both.2 none

theorem evaluated_outcome (kept : List Diagnostic) (filteredOut : Int) :
    (run.outcome kept filteredOut).evaluated = false ↔
      settle run.invocation.status run.invocation.returncode kept = .success ∧
        0 < filteredOut := by
  simp [Outcome.evaluated, outcome]

/-- A run counts as not evaluated if and only if it exited with zero and had findings, but none of
the rule under test. -/
theorem Observed.evaluated_eq_false (observed : run.Observed) :
    (run.outcome (run.kept target) (run.filteredOut target)).evaluated = false ↔
      ∃ rule, target = some rule ∧ run.invocation.status = .lintFindings ∧
        run.invocation.returncode = some 0 ∧ ∀ d ∈ run.parsed.lintDiagnostics, d.rule ≠ rule := by
  rw [evaluated_outcome]
  constructor
  · rintro ⟨clean, dropped⟩
    obtain ⟨nothing, zero⟩ := settle_success clean
    have own : run.ownDiagnostics ≠ [] := by
      intro none
      rw [filteredOut, none] at dropped
      simp only [List.length_nil] at dropped
      omega
    have sound : run.invocation.status.brokeBuild = false := by
      by_contra broken
      rw [Bool.not_eq_false] at broken
      rw [settle_broken broken] at clean
      rw [clean] at broken
      cases broken
    cases target with
    | none => exact absurd (kept_none.symm.trans nothing) own
    | some rule =>
      exact ⟨rule, rfl, observed.lintFindings_iff.mpr ⟨sound, own⟩, zero,
        (observed.kept_rule_eq_nil rule).mp nothing⟩
  · rintro ⟨rule, rfl, findings, zero, absent⟩
    rw [observed.settle_rule, if_pos ⟨findings, absent⟩, if_pos zero]
    refine ⟨rfl, ?_⟩
    have dropped := List.length_pos_iff.mpr (observed.lintFindings_iff.mp findings).2
    rw [filteredOut, (observed.kept_rule_eq_nil rule).mpr absent]
    simpa using dropped

end PackageRun

/-- Runs of distinct packages whose findings were read from their own output are merged without a
finding being discarded. Their classes stay the same, but for findings that are not of the rule
under test, and no run that exited with another code than zero counts as a success. -/
theorem outcomes_agree_with_runs (runs : List PackageRun) (target : Option Text) (root : Path)
    (distinct : (runs.map PackageRun.name).Nodup) (observed : ∀ run ∈ runs, run.Observed) :
    aggregateWarnings runs = [] ∧ (Merged.addAll target {} runs).1.messages = [] ∧
      ∃ result, aggregate runs target root = .ok result ∧
        result.outcomes.keys = runs.map PackageRun.name ∧
        ∀ run ∈ runs, ∃ o, result.outcomes.find? run.name = some o ∧
          o.returncode = run.invocation.returncode ∧
          (target = none → o.status = run.invocation.status) ∧
          (∀ rule, target = some rule → o.status =
            if run.invocation.status = .lintFindings ∧
                ∀ d ∈ run.parsed.lintDiagnostics, d.rule ≠ rule then
              if run.invocation.returncode = some 0 then .success else .compileError
            else run.invocation.status) ∧
          (o.evaluated = false ↔ ∃ rule, target = some rule ∧
            run.invocation.status = .lintFindings ∧ run.invocation.returncode = some 0 ∧
              ∀ d ∈ run.parsed.lintDiagnostics, d.rule ≠ rule) ∧
          (o.status = .success → o.returncode = some 0) := by
  obtain ⟨m, covers, merged⟩ := aggregate_covers runs target root distinct
  have silent : ∀ rule, (Merged.addAll rule {} runs).1.messages = [] := by
    intro rule
    rw [messages_addAll runs rule distinct, List.flatMap_eq_nil_iff]
    exact fun run member => (observed run member).warnings
  refine ⟨silent none, silent target, m.result target root, merged, covers.keys,
    fun run member => ?_⟩
  have own := observed run member
  refine ⟨run.outcome (run.kept target) (run.filteredOut target), ?_, rfl, ?_, ?_, ?_, ?_⟩
  · rw [Dict.find?_eq_some, Merged.result, covers.outcomes]
    exact List.mem_map_of_mem member
  · rintro rfl
    exact own.settle_all
  · rintro rule rfl
    exact own.settle_rule rule
  · exact own.evaluated_eq_false target
  · exact fun clean => (PackageRun.settle_success clean).2

/-- One finding, and another rule under test. -/
theorem outcomes_agree_with_filtered_run :
    let l : Linter := { program := ["cargo"], root := Path.ofText "/crates" }
    let demo : Package := { name := "demo", path := Path.ofText "/crates/demo" }
    let output : Bytes := Utf8.encode ("\x7b\"message\":\"m\",\"level\":\"warning\"," ++
      "\"code\":\x7b\"code\":\"clippy::a\"\x7d\x7d")
    ∃ i parsed, l.answered "demo" [] .lint
        (.ok { command := [], returncode := some 0, stdout := output }) = .ok i ∧
      Parsed.ofStream l.limits output "demo" = .ok parsed ∧ i.status = .lintFindings ∧
      ∃ result, aggregate [⟨demo, i, parsed, none⟩] (some "b") (Path.ofText "/crates") = .ok result ∧
        ∃ o, result.outcomes.find? "demo" = some o ∧ o.status = .success ∧ o.evaluated = false := by
  intro l demo output
  have within : StreamReader.Within l.limits output :=
    (StreamReader.within_iff _ _).mpr (by decide +kernel)
  have read := StreamReader.ofStream_of_within l.limits "demo" within
  let c : Capture := { command := [], returncode := some 0, stdout := output }
  let parsed := Parsed.ofEvents (StreamReader.read l.limits {} output).2 "demo"
  let run : PackageRun := ⟨demo, Linter.ofParsed "demo" .lint c parsed, parsed, none⟩
  have made : l.answered "demo" [] .lint (.ok c) = .ok run.invocation := by
    rw [Linter.answered, Linter.ofCapture, map_eq_ok]
    exact ⟨parsed, read, rfl⟩
  have observed : run.Observed :=
    @PackageRun.observed_answered l demo [] .lint (.ok c) run.invocation parsed made read none
  have findings : run.invocation.status = .lintFindings := by decide +kernel
  have other : ∀ d ∈ run.parsed.lintDiagnostics, d.rule ≠ ("b" : Text) := by decide +kernel
  obtain ⟨-, -, result, merged, -, told⟩ := outcomes_agree_with_runs [run] (some "b")
    (Path.ofText "/crates") (by simp) (by simpa using observed)
  obtain ⟨o, given, -, -, classed, judged, -⟩ := told run List.mem_cons_self
  have zero : run.invocation.returncode = some 0 := rfl
  have clean : o.status = .success := by rw [classed "b" rfl, if_pos ⟨findings, other⟩, if_pos zero]
  exact ⟨run.invocation, parsed, made, read, findings, result, merged, o, given, clean,
    judged.mpr ⟨"b", rfl, findings, zero, other⟩⟩

end LintCorpus
