import LintCorpus.Proofs.Report.Alike

/-!
Findings that are sorted to one place. An unknown file, line or column is sorted as an empty file or
as number zero. A report lists two findings of a package for which that is the only difference in
the order in which they are stored; apart from these it tells nothing of any order.
-/
namespace LintCorpus

namespace CorpusResult

theorem Alike.trans {r s t : CorpusResult} (first : r.Alike s) (second : s.Alike t) :
    r.Alike t where
  target := first.target.trans second.target
  outcomes name := (first.outcomes name).trans (second.outcomes name)
  rules rule := (first.rules rule).trans (second.rules rule)
  findings d := (first.findings d).trans (second.findings d)

def refiled (r : CorpusResult) (rule : Text) (ds : List Diagnostic) : CorpusResult :=
  { r with diagnostics := r.diagnostics.insert rule ds }

section Refiled

variable {r : CorpusResult} {rule : Text} {ds : List Diagnostic}

theorem Valid.refiled_allDiagnostics (valid : r.Valid)
    (found : r.diagnostics.find? rule = some ds) :
    ∃ before behind, (∀ d ∈ before, d.rule ≠ rule) ∧ r.allDiagnostics = before ++ ds ++ behind ∧
      ∀ es, (r.refiled rule es).allDiagnostics = before ++ es ++ behind := by
  obtain ⟨front, back, cut⟩ := List.append_of_mem ((Dict.find?_eq_some _ _).mp found)
  have distinct := r.diagnostics.distinct
  rw [cut, List.map_append, List.nodup_append] at distinct
  have absent : rule ∉ front.map Prod.fst := fun early =>
    distinct.2.2 rule early rule List.mem_cons_self rfl
  refine ⟨(front.map Prod.snd).flatten, (back.map Prod.snd).flatten, ?_, ?_, fun es => ?_⟩
  · intro d member
    obtain ⟨_, listed, inside⟩ := List.mem_flatten.mp member
    obtain ⟨entry, early, rfl⟩ := List.mem_map.mp listed
    have own : d.rule = entry.1 := by
      refine valid.filed (entry.1, d) ((mem_filed r entry.1 d).mpr ⟨entry.2, ?_, inside⟩)
      rw [cut]
      exact List.mem_append_left _ early
    rintro rfl
    exact absent (own ▸ List.mem_map_of_mem early)
  · simp [allDiagnostics, Dict.values, cut]
  · have exchanged := Dict.put_of_mem rule ds es front back absent
    simp [allDiagnostics, Dict.values, refiled, Dict.insert, cut, exchanged]

variable (valid : r.Valid) (found : r.diagnostics.find? rule = some ds) {es : List Diagnostic}
  (same : es.Perm ds)

include valid found same

theorem Valid.refiled_perm : (r.refiled rule es).allDiagnostics.Perm r.allDiagnostics := by
  obtain ⟨before, behind, -, whole, exchanged⟩ := valid.refiled_allDiagnostics found
  rw [whole, exchanged es]
  exact (same.append_left before).append_right behind

theorem Valid.refiled_valid : (r.refiled rule es).Valid := by
  have moved := valid.refiled_perm found same
  constructor
  · rintro ⟨name, d⟩ member
    obtain ⟨held, listed, inside⟩ := (mem_filed _ name d).mp member
    have given := (Dict.find?_eq_some _ _).mpr listed
    rw [refiled, Dict.find?_insert] at given
    split at given
    · next here =>
      obtain rfl : es = held := Option.some.inj given
      have stored := (Dict.find?_eq_some _ _).mp found
      rw [here]
      exact valid.filed (rule, d) ((mem_filed r rule d).mpr ⟨ds, stored, same.subset inside⟩)
    · have stored := (Dict.find?_eq_some _ _).mp given
      exact valid.filed (name, d) ((mem_filed r name d).mpr ⟨held, stored, inside⟩)
  · exact fun d member => valid.known d (moved.subset member)
  · exact (moved.map Diagnostic.key).nodup_iff.mpr valid.distinct

theorem Valid.refiled_alike : r.Alike (r.refiled rule es) where
  target := rfl
  outcomes _ := rfl
  rules name := by
    rw [refiled, Dict.mem_keys_insert]
    constructor
    · exact .inr
    · rintro (rfl | known)
      · rw [← not_not (a := name ∈ _), ← Dict.find?_eq_none, found]
        exact Option.some_ne_none ds
      · exact known
  findings d := (valid.refiled_perm found same).mem_iff.symm

end Refiled

end CorpusResult

namespace Report

def closed (lines : List Text) : Text := lines.flatMap fun line => line ++ "\n"

theorem closed_append (front back : List Text) :
    closed (front ++ back) = closed front ++ closed back := List.flatMap_append

theorem closed_flatMap {α : Type} (items : List α) (lines : α → List Text) :
    closed (items.flatMap lines) = items.flatMap fun item => closed (lines item) := by
  rw [closed, List.flatMap_assoc]
  rfl

theorem join_append_feed {lines : List Text} (some : lines ≠ []) :
    Text.join "\n" lines ++ "\n" = closed lines := by
  induction lines with
  | nil => cases some rfl
  | cons line rest ih =>
    by_cases more : rest = []
    · rw [more, Text.join_singleton, closed, List.flatMap_singleton]
    · rw [Text.join_cons _ _ _ more, List.append_assoc, ih more]
      rfl

theorem join_eq_iff {lines others : List Text} (some : lines ≠ []) (any : others ≠ []) :
    Text.join "\n" lines = Text.join "\n" others ↔ closed lines = closed others := by
  rw [← join_append_feed some, ← join_append_feed any, List.append_cancel_right_eq]

/-- Sections are lines with an empty one in front of each section but the first. -/
theorem joinSections_cons (lines : List Text) (rest : List (List Text)) (some : lines ≠ [])
    (each : ∀ part ∈ rest, part ≠ []) :
    joinSections (lines :: rest) = closed (lines ++ rest.flatMap fun part => [] :: part) := by
  induction rest generalizing lines with
  | nil =>
    rw [joinSections, List.map_cons, List.map_nil, Text.join_singleton, join_append_feed some,
      List.flatMap_nil, List.append_nil]
  | cons part more ih =>
    obtain ⟨here, later⟩ := List.forall_mem_cons.mp each
    have feeds : ("\n\n" : Text) = "\n" ++ "\n" := rfl
    have tail := ih part here later
    rw [joinSections] at tail
    rw [joinSections, List.map_cons, Text.join_cons _ _ _ (by simp), List.append_assoc,
      List.append_assoc, tail, feeds, closed_append lines, ← join_append_feed some,
      List.flatMap_cons]
    simp only [List.append_assoc, closed, List.cons_append, List.flatMap_cons, List.nil_append]

/-- What a report shows of findings, one after the other. -/
def shown (ds : List Diagnostic) : Text := Text.join "\n" (ds.flatMap findingLines)

def block (d : Diagnostic) : Text := closed (findingLines d)

theorem shown_pair_eq_iff (d e : Diagnostic) :
    shown [d, e] = shown [e, d] ↔ block d ++ block e = block e ++ block d := by
  have pair : ∀ d e : Diagnostic, closed ([d, e].flatMap findingLines) = block d ++ block e := by
    intro d e
    rw [closed_flatMap, List.flatMap_cons, List.flatMap_singleton]
    rfl
  rw [shown, shown, join_eq_iff (by simp [findingLines]) (by simp [findingLines]), pair, pair]

def packageLines (name : Text) : List Diagnostic → List Text
  | [] => []
  | d :: rest => subheading ("### " ++ name) ++ (d :: rest).flatMap findingLines

theorem diagnosticsSection_ne_nil (r : CorpusResult) (names : List Text) :
    diagnosticsSection r names ≠ [] := List.cons_ne_nil _ _

theorem diagnosticsSection_eq (r : CorpusResult) (names : List Text) :
    diagnosticsSection r names = (["## Diagnostics"] : List Text) ++
      names.flatMap fun name => packageLines name (r.diagnosticsFor name) := by
  rw [diagnosticsSection, List.singleton_append]
  congr 2
  funext name
  cases r.diagnosticsFor name <;> rfl

theorem closed_diagnosticsSection (r : CorpusResult) (names : List Text) :
    closed (diagnosticsSection r names) = closed ["## Diagnostics"] ++
      names.flatMap fun name => closed (packageLines name (r.diagnosticsFor name)) := by
  rw [diagnosticsSection_eq, closed_append, closed_flatMap]

theorem closed_packageLines_iff (name : Text) {ds es : List Diagnostic} (same : ds.Perm es) :
    closed (packageLines name ds) = closed (packageLines name es) ↔
      ds.flatMap block = es.flatMap block := by
  have text : ∀ {ds : List Diagnostic}, ds ≠ [] → closed (packageLines name ds) =
      closed (subheading ("### " ++ name)) ++ ds.flatMap block := by
    intro ds some
    cases ds with
    | nil => cases some rfl
    | cons d rest =>
      rw [packageLines, closed_append, closed_flatMap]
      rfl
  by_cases empty : ds = []
  · subst empty
    rw [same.nil_eq]
    exact iff_of_true rfl rfl
  · have other : es ≠ [] := fun none => empty (List.perm_nil.mp (none ▸ same))
    rw [text empty, text other, List.append_cancel_left_eq]

variable {r s : CorpusResult}

/-- Results that hold the same have the same report if those findings of a package that are sorted
to one place can be shown in either order. -/
theorem render_eq_of_alike (alike : r.Alike s) (valid : r.Valid) (sound : s.Valid)
    (either : ∀ d ∈ r.allDiagnostics, ∀ e ∈ r.allDiagnostics, d.package ∈ r.outcomes.keys →
      e.package = d.package → e.sortKey = d.sortKey → shown [d, e] = shown [e, d]) :
    render r = render s := by
  rw [render_eq_iff alike valid sound,
    join_eq_iff (diagnosticsSection_ne_nil _ _) (diagnosticsSection_ne_nil _ _),
    closed_diagnosticsSection, closed_diagnosticsSection]
  congr 1
  apply List.flatMap_congr
  intro name present
  rw [mem_sortedNames] at present
  have own := (alike.perm valid sound).filter fun d => d.package == name
  have sorted : (r.diagnosticsFor name).Perm (s.diagnosticsFor name) :=
    (List.mergeSort_perm _ _).trans (own.trans (List.mergeSort_perm _ _).symm)
  rw [closed_packageLines_iff name sorted]
  apply flatMap_mergeSort_congr Diagnostic.le_trans Diagnostic.le_total own
  intro d here e there level
  rw [List.mem_filter, beq_iff_eq] at here there
  have known : d.package ∈ r.outcomes.keys := here.2 ▸ present
  rw [← shown_pair_eq_iff]
  exact either d here.1 e there.1 known (there.2.trans here.2.symm)
    (Diagnostic.tied_iff.mp level).symm

private theorem eq_of_getD {α : Type} {a b : Option α} {unknown : α} (first : a ≠ some unknown)
    (second : b ≠ some unknown) (same : a.getD unknown = b.getD unknown) : a = b := by
  cases a <;> cases b <;> simp_all

/-- A place with no part that is empty or zero is told apart from all others by the sort. -/
theorem key_eq_of_sortKey {d e : Diagnostic}
    (first : d.file ≠ some [] ∧ d.line ≠ some 0 ∧ d.column ≠ some 0)
    (second : e.file ≠ some [] ∧ e.line ≠ some 0 ∧ e.column ≠ some 0)
    (together : e.package = d.package) (level : e.sortKey = d.sortKey) : e.key = d.key := by
  rw [Diagnostic.sortKey, Diagnostic.sortKey, SortKey.mk.injEq] at level
  obtain ⟨file, line, column, message, rule⟩ := level
  rw [Diagnostic.key, Diagnostic.key, together, rule, message,
    eq_of_getD second.1 first.1 file, eq_of_getD second.2.1 first.2.1 line,
    eq_of_getD second.2.2 first.2.2 column]

theorem nodup_sortedNames (r : CorpusResult) : (sortedNames r).Nodup :=
  ((List.mergeSort_perm r.outcomes.entries _).map Prod.fst).nodup_iff.mpr r.outcomes.distinct

section Swap

variable {rule : Text} {ds : List Diagnostic} (others : List Diagnostic) {d e : Diagnostic}
  (valid : r.Valid) (found : r.diagnostics.find? rule = some ds) (filed : d.rule = rule)
  (together : e.package = d.package) (level : e.sortKey = d.sortKey)

include valid found filed together level

private theorem diagnosticsFor_pair : ∃ low high : List Diagnostic,
    (r.refiled rule (d :: e :: others)).diagnosticsFor d.package = low ++ d :: e :: high ∧
      (r.refiled rule (e :: d :: others)).diagnosticsFor d.package = low ++ e :: d :: high := by
  obtain ⟨before, behind, apart, -, exchanged⟩ := valid.refiled_allDiagnostics found
  let own (ds : List Diagnostic) : List Diagnostic := ds.filter fun x => x.package == d.package
  have front : (own before).filter (tied (fun a b => a.sortKey.le b.sortKey) d) = [] := by
    rw [List.filter_eq_nil_iff]
    intro x member same
    have ruled : d.rule = x.rule := congrArg SortKey.rule (Diagnostic.tied_iff.mp same)
    exact apart x (List.mem_filter.mp member).1 (ruled.symm.trans filed)
  have pair : ∀ a b : Diagnostic, a.package = d.package → b.package = d.package →
      own (before ++ (a :: b :: others) ++ behind) =
        own before ++ a :: b :: own (others ++ behind) := by
    intro a b first second
    simp [own, first, second]
  have one : tied (fun a b => a.sortKey.le b.sortKey) d d = true := Diagnostic.tied_iff.mpr rfl
  have two : tied (fun a b => a.sortKey.le b.sortKey) d e = true :=
    Diagnostic.tied_iff.mpr level.symm
  let sorted := (own before ++ own (others ++ behind)).mergeSort fun a b => a.sortKey.le b.sortKey
  refine ⟨sorted.filter fun x => !d.sortKey.le x.sortKey,
    sorted.filter fun x => d.sortKey.le x.sortKey, ?_, ?_⟩
  · rw [CorpusResult.diagnosticsFor, exchanged]
    exact (congrArg Diagnostic.sort (pair d e rfl together)).trans
      (mergeSort_pair Diagnostic.le_trans Diagnostic.le_total one two front)
  · rw [CorpusResult.diagnosticsFor, exchanged]
    exact (congrArg Diagnostic.sort (pair e d together rfl)).trans
      (mergeSort_pair Diagnostic.le_trans Diagnostic.le_total two one front)

omit filed level in
private theorem diagnosticsFor_others (name : Text) (other : name ≠ d.package) :
    (r.refiled rule (d :: e :: others)).diagnosticsFor name =
      (r.refiled rule (e :: d :: others)).diagnosticsFor name := by
  obtain ⟨before, behind, -, -, exchanged⟩ := valid.refiled_allDiagnostics found
  rw [CorpusResult.diagnosticsFor, CorpusResult.diagnosticsFor, exchanged, exchanged]
  simp [together, Ne.symm other]

theorem shown_comm_of_render (same : (d :: e :: others).Perm ds)
    (known : d.package ∈ r.outcomes.keys)
    (equal : render (r.refiled rule (d :: e :: others)) =
      render (r.refiled rule (e :: d :: others))) : shown [d, e] = shown [e, d] := by
  have swapped : (e :: d :: others).Perm ds := (List.Perm.swap d e others).trans same
  have alike := (valid.refiled_alike found same).symm.trans (valid.refiled_alike found swapped)
  rw [render_eq_iff alike (valid.refiled_valid found same) (valid.refiled_valid found swapped),
    join_eq_iff (diagnosticsSection_ne_nil _ _) (diagnosticsSection_ne_nil _ _),
    closed_diagnosticsSection, closed_diagnosticsSection, List.append_cancel_left_eq] at equal
  have names : sortedNames (r.refiled rule (d :: e :: others)) = sortedNames r := rfl
  obtain ⟨front, back, cut⟩ := List.append_of_mem ((mem_sortedNames r d.package).mpr known)
  have distinct := nodup_sortedNames r
  rw [cut, List.nodup_append] at distinct
  have away := diagnosticsFor_others others valid found together
  have before : ∀ name ∈ front, name ≠ d.package := fun name early =>
    distinct.2.2 name early d.package List.mem_cons_self
  have behind : ∀ name ∈ back, name ≠ d.package := by
    rintro name late rfl
    exact (List.nodup_cons.mp distinct.2.1).1 late
  rw [names, cut, List.flatMap_append, List.flatMap_append, List.flatMap_cons, List.flatMap_cons,
    List.flatMap_congr fun name early => by rw [away name (before name early)],
    List.append_cancel_left_eq,
    List.flatMap_congr fun name late => by rw [away name (behind name late)],
    List.append_cancel_right_eq] at equal
  obtain ⟨low, high, first, second⟩ :=
    diagnosticsFor_pair others valid found filed together level
  have moved : (low ++ d :: e :: high).Perm (low ++ e :: d :: high) :=
    (List.Perm.swap e d high).append_left low
  rw [first, second, closed_packageLines_iff _ moved] at equal
  simp only [List.flatMap_append, List.flatMap_cons, List.append_cancel_left_eq] at equal
  rw [← List.append_assoc, ← List.append_assoc, List.append_cancel_right_eq] at equal
  exact (shown_pair_eq_iff d e).mpr equal

end Swap

end Report

open Report

/-- What a report tells is the same for all results that hold the same in any order, exactly if
findings of one package that are sorted to one place look the same in either order. -/
theorem render_unmoved_by_order_iff (r : CorpusResult) (valid : r.Valid) :
    (∀ s : CorpusResult, s.Valid → r.Alike s → render s = render r) ↔
      ∀ d ∈ r.allDiagnostics, ∀ e ∈ r.allDiagnostics, d.package ∈ r.outcomes.keys →
        e.package = d.package → e.sortKey = d.sortKey → shown [d, e] = shown [e, d] := by
  constructor
  · intro unmoved d here e there known together level
    by_cases same : e = d
    · rw [same]
    have rule : e.rule = d.rule := congrArg SortKey.rule level
    have filed := valid.filter_rule d.rule
    have first : d ∈ (r.diagnostics.find? d.rule).getD [] := by
      rw [← filed]
      exact List.mem_filter.mpr ⟨here, beq_self_eq_true _⟩
    have second : e ∈ (r.diagnostics.find? d.rule).getD [] := by
      rw [← filed]
      exact List.mem_filter.mpr ⟨there, beq_iff_eq.mpr rule⟩
    rcases found : r.diagnostics.find? d.rule with _ | ds
    · rw [found] at first
      cases first
    rw [found] at first second
    have cut : (d :: e :: (ds.erase d).erase e).Perm ds := by
      have rest := List.perm_cons_erase ((List.mem_erase_of_ne same).mpr second)
      exact (rest.symm.cons d).trans (List.perm_cons_erase first).symm
    have swapped := (List.Perm.swap d e ((ds.erase d).erase e)).trans cut
    apply shown_comm_of_render _ valid found rfl together level cut known
    rw [unmoved _ (valid.refiled_valid found cut) (valid.refiled_alike found cut),
      unmoved _ (valid.refiled_valid found swapped) (valid.refiled_alike found swapped)]
  · intro either s sound alike
    exact (render_eq_of_alike alike valid sound either).symm

/-- Findings in one file, the later one stored first. -/
theorem render_unmoved_by_order_lines :
    let finding (line : Int) : Diagnostic :=
      { package := "a", rule := "x", severity := .warning, message := "m", file := some "a.rs",
        line := some line }
    let r : CorpusResult :=
      { root := Path.ofText "/here", packages := ["a"]
        outcomes := .ofList [("a", { name := "a", status := .lintFindings })]
        diagnostics := .ofList [("x", [finding 2, finding 1])] }
    r.Valid ∧ ∀ s : CorpusResult, s.Valid → r.Alike s → render s = render r := by
  intro finding r
  have valid : r.Valid := ⟨by decide +kernel, by decide +kernel, by decide +kernel⟩
  refine ⟨valid, (render_unmoved_by_order_iff r valid).mpr ?_⟩
  decide +kernel

/-- A finding without a file and one whose file has an empty name, stored in either order. -/
theorem render_moved_by_order :
    let finding (file : Option Text) : Diagnostic :=
      { package := "a", rule := "x", severity := .warning, message := "m", file }
    let result (files : List (Option Text)) : CorpusResult :=
      { root := Path.ofText "/here", packages := ["a"]
        outcomes := .ofList [("a", { name := "a", status := .lintFindings })]
        diagnostics := .ofList [("x", files.map finding)] }
    let r := result [none, some []]
    let s := result [some [], none]
    r.Valid ∧ s.Valid ∧ r.Alike s ∧ render r ≠ render s := by
  intro finding result r s
  have valid : r.Valid := ⟨by decide +kernel, by decide +kernel, by decide +kernel⟩
  have listed : r.allDiagnostics.Perm s.allDiagnostics := List.Perm.swap _ _ _
  refine ⟨valid, ⟨by decide +kernel, by decide +kernel, by decide +kernel⟩,
    ⟨rfl, fun _ => rfl, fun _ => Iff.rfl, fun d => listed.mem_iff⟩, fun equal => ?_⟩
  let d := finding none
  let e := finding (some [])
  have first : r.refiled "x" [d, e] = r := by decide +kernel
  have second : r.refiled "x" [e, d] = s := by decide +kernel
  have found : r.diagnostics.find? "x" = some [d, e] := by decide +kernel
  rw [← first, ← second] at equal
  have same := shown_comm_of_render (d := d) (e := e) [] valid found rfl rfl rfl
    (List.Perm.refl _) (by decide) equal
  exact absurd same (by decide +kernel)

end LintCorpus
