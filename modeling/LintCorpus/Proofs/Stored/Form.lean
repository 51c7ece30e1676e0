import LintCorpus.Proofs.Aggregate.Valid
import LintCorpus.Proofs.Files.Path
import LintCorpus.Proofs.Json.RoundTrip
import LintCorpus.Proofs.Schema
import LintCorpus.Stored.Form
import LintCorpus.Stored.Schema

/-!
Stored forms pass their checks. A finding, an outcome and a valid result are what their stored forms
are checked to be, with everything in its place; and the forms have texts of their own if all they
hold is characters.
-/
namespace LintCorpus

namespace Schema

variable {α : Type} {check : Check α}

theorem optional_ofText? (t : Option Text) : optional text (.ofText? t) = .valid t := by
  cases t <;> rfl

theorem optional_ofInt? (i : Option Int) : optional int (.ofInt? i) = .valid i := by
  cases i <;> rfl

variable {form : α → Value} (checked : ∀ a, check (form a) = .valid a)

include checked

/-- A list is what the list of its stored items is checked to be. -/
theorem list_map (items : List α) : list check (.list (items.map form)) = .valid items := by
  have all (index : Nat) : Checked.all (itemsFrom check index (items.map form)) = .valid items := by
    induction items generalizing index with
    | nil => rfl
    | cons item rest ih =>
      rw [List.map_cons, itemsFrom, Checked.all, checked, ih (index + 1)]
      rfl
  exact all 0

/-- A map is what the object of its stored values is checked to be. -/
theorem map_object (d : Dict α) :
    map check (.object (d.mapValues form).entries) = .valid d := by
  have all (entries : List (Text × α)) :
      Checked.all ((entries.map fun entry => (entry.1, form entry.2)).map fun m =>
        (m.1, ·) <$> (check m.2).inside (.member m.1)) = .valid entries := by
    induction entries with
    | nil => rfl
    | cons entry rest ih =>
      rw [List.map_cons, List.map_cons, Checked.all, ih, checked]
      rfl
  rw [map, Dict.mapValues, all d.entries]
  exact congrArg Checked.valid d.ofList_entries

end Schema

open Schema

theorem Severity.check_name (s : Severity) : Severity.check (.text s.name) = .valid s := by
  cases s <;> rfl

theorem Status.check_name (s : Status) : Status.check (.text s.name) = .valid s := by
  cases s <;> rfl

open Checked in
theorem Diagnostic.check_toValue (d : Diagnostic) : Diagnostic.check d.toValue = .valid d := by
  show _ = Checked.valid (Diagnostic.mk d.package d.rule d.severity d.message d.file d.line d.column
    d.suggestion d.rendered)
  refine seq_valid ?_ (defaulted_of_lookup none rfl (optional_ofText? d.rendered))
  refine seq_valid ?_ (defaulted_of_lookup none rfl (optional_ofText? d.suggestion))
  refine seq_valid ?_ (defaulted_of_lookup none rfl (optional_ofInt? d.column))
  refine seq_valid ?_ (defaulted_of_lookup none rfl (optional_ofInt? d.line))
  refine seq_valid ?_ (defaulted_of_lookup none rfl (optional_ofText? d.file))
  refine seq_valid ?_ (required_of_lookup rfl rfl)
  refine seq_valid ?_ (required_of_lookup rfl d.severity.check_name)
  refine seq_valid ?_ (required_of_lookup rfl rfl)
  exact map_valid (required_of_lookup rfl rfl)

open Checked in
theorem Outcome.check_toValue (o : Outcome) : Outcome.check o.toValue = .valid o := by
  show _ = Checked.valid (Outcome.mk o.name o.status o.returncode o.diagnostics o.filteredOut
    o.unparsedOutput o.parseIssues o.duration o.allowCount o.tail)
  refine seq_valid ?_ (defaulted_of_lookup _ rfl rfl)
  refine seq_valid ?_ (defaulted_of_lookup _ rfl (optional_ofInt? o.allowCount))
  refine seq_valid ?_ (defaulted_of_lookup _ rfl rfl)
  refine seq_valid ?_ (defaulted_of_lookup _ rfl rfl)
  refine seq_valid ?_ (defaulted_of_lookup _ rfl rfl)
  refine seq_valid ?_ (defaulted_of_lookup _ rfl rfl)
  refine seq_valid ?_ (defaulted_of_lookup _ rfl rfl)
  refine seq_valid ?_ (defaulted_of_lookup _ rfl (optional_ofInt? o.returncode))
  refine seq_valid ?_ (required_of_lookup rfl o.status.check_name)
  exact map_valid (required_of_lookup rfl rfl)

structure Diagnostic.Scalar (d : Diagnostic) : Prop where
  package : d.package.Scalar
  rule : d.rule.Scalar
  message : d.message.Scalar
  file : ∀ file ∈ d.file, Text.Scalar file
  suggestion : ∀ proposal ∈ d.suggestion, Text.Scalar proposal
  rendered : ∀ rendering ∈ d.rendered, Text.Scalar rendering

instance (d : Diagnostic) : Decidable d.Scalar :=
  decidable_of_iff (d.package.Scalar ∧ d.rule.Scalar ∧ d.message.Scalar ∧
      (∀ file ∈ d.file, Text.Scalar file) ∧ (∀ proposal ∈ d.suggestion, Text.Scalar proposal) ∧
      ∀ rendering ∈ d.rendered, Text.Scalar rendering)
    ⟨fun ⟨package, rule, message, file, suggestion, rendered⟩ =>
      ⟨package, rule, message, file, suggestion, rendered⟩,
    fun s => ⟨s.package, s.rule, s.message, s.file, s.suggestion, s.rendered⟩⟩

structure CorpusResult.Scalar (r : CorpusResult) : Prop where
  root : r.root.toText.Scalar
  target : ∀ lint ∈ r.targetLint, Text.Scalar lint
  packages : ∀ package ∈ r.packages, package.Scalar
  outcomes : ∀ entry ∈ r.outcomes.entries,
    entry.1.Scalar ∧ entry.2.name.Scalar ∧ entry.2.tail.Scalar
  rules : ∀ entry ∈ r.diagnostics.entries, entry.1.Scalar
  findings : ∀ entry ∈ r.diagnostics.entries, ∀ d ∈ entry.2, d.Scalar

namespace Value.Storable

theorem ofText? {t : Option Text} (scalar : ∀ u ∈ t, Text.Scalar u) :
    Storable (.ofText? t) := by
  cases t with
  | none => exact .null
  | some u => exact .text (scalar u rfl)

theorem ofInt? (i : Option Int) : Storable (.ofInt? i) := by
  cases i with
  | none => exact .null
  | some i => exact .int i

/-- An object with the same names whatever it holds. -/
theorem record (names : List Text) (values : List Value) (length : names.length = values.length)
    (distinct : names.Nodup) (scalar : ∀ name ∈ names, name.Scalar)
    (all : ∀ v ∈ values, Storable v) : Storable (.object (names.zip values)) := by
  refine .object ?_ ?_ ?_
  · rwa [List.map_fst_zip (Nat.le_of_eq length)]
  · exact fun m member => scalar m.1 (List.of_mem_zip member).1
  · exact fun m member => all m.2 (List.of_mem_zip member).2

variable {α : Type} {form : α → Value}

theorem list_map {items : List α} (all : ∀ item ∈ items, Storable (form item)) :
    Storable (.list (items.map form)) := by
  refine .list fun v member => ?_
  obtain ⟨item, present, rfl⟩ := List.mem_map.mp member
  exact all item present

theorem mapValues {d : Dict α} (names : ∀ entry ∈ d.entries, entry.1.Scalar)
    (all : ∀ entry ∈ d.entries, Storable (form entry.2)) :
    Storable (.object (d.mapValues form).entries) := by
  refine .object (d.mapValues form).distinct ?_ ?_
  · rintro m member
    obtain ⟨entry, present, rfl⟩ := List.mem_map.mp member
    exact names entry present
  · rintro m member
    obtain ⟨entry, present, rfl⟩ := List.mem_map.mp member
    exact all entry present

end Value.Storable

open Value (Storable)

theorem Diagnostic.Scalar.storable {d : Diagnostic} (scalar : d.Scalar) : Storable d.toValue := by
  apply Storable.record ["package", "rule", "severity", "message", "file", "line", "column",
    "suggestion", "rendered"] [_, _, _, _, _, _, _, _, _] rfl (by decide) (by decide)
  simp only [List.forall_mem_cons]
  have severity : d.severity.name.Scalar := by cases d.severity <;> decide
  exact ⟨.text scalar.package, .text scalar.rule, .text severity, .text scalar.message,
    .ofText? scalar.file, .ofInt? _, .ofInt? _, .ofText? scalar.suggestion,
    .ofText? scalar.rendered, nofun⟩

theorem Outcome.storable {o : Outcome} (name : o.name.Scalar) (tail : o.tail.Scalar) :
    Storable o.toValue := by
  apply Storable.record ["name", "status", "returncode", "diagnostics", "filtered_out",
    "unparsed_output", "parse_issues", "duration_s", "allow_count", "tail"]
    [_, _, _, _, _, _, _, _, _, _] rfl (by decide) (by decide)
  simp only [List.forall_mem_cons]
  have status : o.status.name.Scalar := by cases o.status <;> decide
  exact ⟨.text name, .text status, .ofInt? _, .int _, .int _, .bool _, .int _, .float _, .ofInt? _,
    .text tail, nofun⟩

theorem Summary.storable (s : Summary) : Storable s.toValue := by
  apply Storable.record ["attempted", "succeeded", "had_findings", "failed_to_build", "crashed",
    "timed_out", "diagnostics"] [_, _, _, _, _, _, _] rfl (by decide) (by decide)
  simp only [List.forall_mem_cons]
  exact ⟨.int _, .int _, .int _, .int _, .int _, .int _, .int _, nofun⟩

/-- A map keeps its keys if bytes can hold them. -/
theorem Value.ofDict_mapValues {α : Type} (form : α → Value) {d : Dict α}
    (scalar : ∀ entry ∈ d.entries, entry.1.Scalar) :
    Value.ofDict (d.mapValues form) = .object (d.mapValues form).entries := by
  have same : ((d.mapValues form).entries.map fun entry => (Utf8.scrub entry.1, entry.2)) =
      (d.mapValues form).entries := by
    refine (List.map_congr_left fun entry member => ?_).trans (List.map_id _)
    obtain ⟨held, present, rfl⟩ := List.mem_map.mp member
    rw [Utf8.scrub, Utf8.decode_encode held.1 (scalar held present)]
    rfl
  rw [Value.ofDict, same, Value.ofMembers, Dict.ofList_entries]

namespace CorpusResult

variable {r : CorpusResult} (scalar : r.Scalar)

include scalar

theorem Scalar.ofDict_outcomes : Value.ofDict (r.outcomes.mapValues Outcome.toValue) =
    .object (r.outcomes.mapValues Outcome.toValue).entries :=
  Value.ofDict_mapValues _ fun entry member => (scalar.outcomes entry member).1

theorem Scalar.ofDict_diagnostics : Value.ofDict (r.diagnostics.mapValues Diagnostic.listToValue) =
    .object (r.diagnostics.mapValues Diagnostic.listToValue).entries :=
  Value.ofDict_mapValues _ scalar.rules

theorem Scalar.storable_members : ∀ m ∈ r.toMembers, Storable m.2 := by
  have outcomes : Storable (.object (r.outcomes.mapValues Outcome.toValue).entries) :=
    .mapValues (fun entry member => (scalar.outcomes entry member).1) fun entry member =>
      Outcome.storable (scalar.outcomes entry member).2.1 (scalar.outcomes entry member).2.2
  have diagnostics : Storable (.object (r.diagnostics.mapValues Diagnostic.listToValue).entries) :=
    .mapValues scalar.rules fun entry member =>
      .list_map fun d among => (scalar.findings entry member d among).storable
  have packages : Storable (.ofTexts r.packages) :=
    .list_map fun package among => .text (scalar.packages package among)
  rw [toMembers, scalar.ofDict_outcomes, scalar.ofDict_diagnostics]
  simp only [List.forall_mem_cons]
  exact ⟨.text scalar.root, .ofText? scalar.target, packages, outcomes, diagnostics, nofun⟩

open Checked in
theorem Scalar.ofMembers_toMembers (valid : r.Valid) : ofMembers r.toMembers = .valid r := by
  have outcomes : map Outcome.check (.ofDict (r.outcomes.mapValues Outcome.toValue)) =
      .valid r.outcomes := by
    rw [scalar.ofDict_outcomes]
    exact map_object Outcome.check_toValue r.outcomes
  have diagnostics : filedCheck (.ofDict (r.diagnostics.mapValues Diagnostic.listToValue)) =
      .valid r.diagnostics := by
    rw [scalar.ofDict_diagnostics]
    exact map_object (list_map Diagnostic.check_toValue) r.diagnostics
  have itself (t : Text) : text (.text t) = .valid t := rfl
  have packages : list text (.ofTexts r.packages) = .valid r.packages := list_map itself r.packages
  have root : path (.text r.root.toText) = .valid r.root := by
    rw [path, Path.ofText_toText]
  have parts : CorpusResult.mk <$> required r.toMembers "root" path <*>
      defaulted r.toMembers "target_lint" none (optional text) <*>
      defaulted r.toMembers "packages" [] (list text) <*>
      defaulted r.toMembers "outcomes" .empty (map Outcome.check) <*>
      defaulted r.toMembers "diagnostics" .empty filedCheck = .valid r := by
    show _ = Checked.valid (CorpusResult.mk r.root r.targetLint r.packages r.outcomes r.diagnostics)
    refine seq_valid ?_ (defaulted_of_lookup _ rfl diagnostics)
    refine seq_valid ?_ (defaulted_of_lookup _ rfl outcomes)
    refine seq_valid ?_ (defaulted_of_lookup _ rfl packages)
    refine seq_valid ?_ (defaulted_of_lookup _ rfl (optional_ofText? r.targetLint))
    exact map_valid (required_of_lookup rfl root)
  rw [ofMembers, parts, andThen, checkValid, (check_eq_ok r r).mpr ⟨rfl, valid⟩]

end CorpusResult
end LintCorpus
