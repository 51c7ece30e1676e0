import LintCorpus.Proofs.CrateRoots

/-!
What marking the roots of a package changes. The paths that are told are those whose time is new:
the declared ones in the order of the manifest, then the customary ones that are there. If marking
stops on the way, the paths before the one it stops at have been marked.
-/
namespace LintCorpus.CrateRoots

open FileTree

section Declared

/-- The targets that a manifest lists: the library, then the programs. -/
def targets (manifest : Members) : List Value :=
  manifest.field "lib" ::
    match manifest.field "bin" with
    | .list programs => programs
    | _ => []

/-- The target is a table with a path that is a text. -/
def Declares (target : Value) (path : Text) : Prop :=
  ∃ members : Members, target = .object members ∧ members.field "path" = .text path

/-- The paths that targets declare, in the order of the targets. -/
inductive Paths : List Value → List Text → Prop
  | nil : Paths [] []
  | declared {target : Value} {targets : List Value} {path : Text} {paths : List Text} :
      Declares target path → Paths targets paths → Paths (target :: targets) (path :: paths)
  | other {target : Value} {targets : List Value} {paths : List Text} :
      (∀ path, ¬Declares target path) → Paths targets paths → Paths (target :: targets) paths

theorem declaredPath?_eq_some (target : Value) (path : Text) :
    declaredPath? target = some path ↔ Declares target path := by
  rw [declaredPath?, Declares]
  cases target with
  | object members =>
    have self : (Value.object members).asMembers = members := rfl
    rw [self]
    rcases found : Members.field members "path" with _ | _ | _ | _ | _ | _ | _ | _ | _ | _ <;>
      simp [found]
  | _ =>
    refine iff_of_false (fun found => ?_) ?_
    · cases found
    · rintro ⟨members, same, -⟩
      cases same

theorem paths_filterMap (targets : List Value) :
    Paths targets (targets.filterMap declaredPath?) := by
  induction targets with
  | nil => exact .nil
  | cons target rest ih =>
    rcases found : declaredPath? target with _ | path
    · rw [List.filterMap_cons_none found]
      refine .other (fun path declares => ?_) ih
      cases found.symm.trans ((declaredPath?_eq_some target path).mpr declares)
    · rw [List.filterMap_cons_some found]
      exact .declared ((declaredPath?_eq_some target path).mp found) ih

theorem paths_declared (manifest : Members) : Paths (targets manifest) (declared manifest) := by
  have whole : declared manifest = (targets manifest).filterMap declaredPath? := by
    rw [declared, targets]
    rcases found : declaredPath? (manifest.field "lib") with _ | path
    · rw [List.filterMap_cons_none found]
      rfl
    · rw [List.filterMap_cons_some found]
      rfl
  rw [whole]
  exact paths_filterMap (targets manifest)

end Declared

/-- A customary root can be marked exactly if there is one. -/
theorem holds_customary {t : FileTree} {package : Path} (fits : checkPath package = .ok ()) {p : Path}
    (among : p ∈ customary.map package.child) :
    t.holds p = .ok true ↔ t.touchFault? p = none := by
  have last : ∀ name ∈ customary, (Path.ofText name).parts.getLast? =
      some (Path.ofText name).name ∧ (Path.ofText name).name ≠ ".." := by decide
  have fit := checkPath_customary fits p among
  obtain ⟨name, listed, rfl⟩ := List.mem_map.mp among
  have final : (package.child name).parts.getLast? = some (Path.ofText name).name := by
    rw [parts_customary package listed, List.getLast?_append, (last name listed).1]
    rfl
  exact holds_iff_touchFault? fit final (last name listed).2

/-- Marking takes the declared paths in the order of the manifest and then the customary roots that
are there and not declared. It comes to its end unless a declared path cannot be marked or a
customary one cannot for another reason than that it is missing. Then it has marked what stands
before the first such path, and otherwise all that it tells; nothing else is changed. -/
theorem touch_marks_exactly (t : FileTree) (package : Path) (manifest : Members)
    (loaded : Toml.load t (package.child manifestName) = .ok manifest) :
    Paths (targets manifest) (declared manifest) ∧
      ((∃ fault, (touch t package).2 = .error fault) ↔
        (∃ p ∈ roots package manifest, ∃ fault, t.touch p = .error fault) ∨
          ∃ p ∈ customary.map package.child, ∃ fault,
            t.touch p = .error fault ∧ isMissing fault = false) ∧
      (∀ marked, (touch t package).2 = .ok marked →
        marked = roots package manifest ++
            (spare package manifest).filter (fun p => t.holds p = .ok true) ∧
          Marked t (touch t package).1 marked) ∧
      ∀ fault, (touch t package).2 = .error fault →
        ∃ front p back stopped,
          roots package manifest ++ spare package manifest = front ++ p :: back ∧
            (∀ q ∈ front, obstacle? t (roots package manifest) q = none) ∧
            obstacle? t (roots package manifest) p = some stopped ∧ fault = .file stopped ∧
            Marked t (touch t package).1 front := by
  refine ⟨paths_declared manifest, ?_⟩
  have fits := checkPath_of_load loaded
  have told : touch t package =
      ((mark t package manifest).1, (mark t package manifest).2.mapError Toml.LoadFault.file) := by
    rw [touch, loaded]
  rw [told, mark_eq_sweep]
  rcases sweep_cases t (roots package manifest) [] (roots package manifest ++ spare package manifest)
    with ⟨u, clear, done, marked⟩ | ⟨front, p, back, fault, u, cut, clear, stopped, failed, marked⟩
  · rw [done]
    obtain ⟨required, others⟩ := List.forall_mem_append.mp clear
    have all : (roots package manifest).filter (fun p => t.touchFault? p = none) =
        roots package manifest := by
      refine List.filter_eq_self.mpr fun p among => decide_eq_true ?_
      rw [← obstacle?_required among]
      exact required p among
    have present : (spare package manifest).filter (fun p => t.touchFault? p = none) =
        (spare package manifest).filter (fun p => t.holds p = .ok true) := by
      refine List.filter_congr fun p among => ?_
      rw [decide_eq_decide, holds_customary fits (List.mem_filter.mp among).1]
    rw [List.filter_append, all, present] at marked ⊢
    refine ⟨iff_of_false ?_ ?_, ?_, fun fault failed => ?_⟩
    · rintro ⟨fault, failed⟩
      cases failed
    · rintro (⟨p, among, fault, failed⟩ | ⟨p, among, fault, failed, alien⟩)
      · cases (required p among).symm.trans (obstacle?_eq_some.mpr ⟨failed, .inl among⟩)
      · by_cases declared : p ∈ roots package manifest
        · cases (required p declared).symm.trans (obstacle?_eq_some.mpr ⟨failed, .inl declared⟩)
        · have rest : p ∈ spare package manifest :=
            List.mem_filter.mpr ⟨among, decide_eq_true declared⟩
          cases (others p rest).symm.trans (obstacle?_eq_some.mpr ⟨failed, .inr alien⟩)
    · rintro _ ⟨⟩
      exact ⟨rfl, marked⟩
    · cases failed
  · rw [failed]
    refine ⟨iff_of_true ⟨_, rfl⟩ ?_, fun marked ended => ?_, ?_⟩
    · obtain ⟨refused, reason⟩ := obstacle?_eq_some.mp stopped
      have among : p ∈ roots package manifest ++ spare package manifest := by simp [cut]
      rcases List.mem_append.mp among with declared | rest
      · exact .inl ⟨p, declared, fault, refused⟩
      · obtain ⟨listed, apart⟩ := List.mem_filter.mp rest
        exact .inr ⟨p, listed, fault, refused, reason.resolve_left (of_decide_eq_true apart)⟩
    · cases ended
    · rintro _ ⟨⟩
      exact ⟨front, p, back, fault, cut, clear, stopped, rfl, marked⟩

/-- A library and two programs, one of them missing: the second program is not marked any more. -/
theorem touch_marks_exactly_stopped :
    let t : FileTree :=
      { nodes := [(["demo"], ⟨.directory, 0⟩), (["demo", "src"], ⟨.directory, 0⟩),
          (["demo", "src", "lib.rs"], ⟨.file [], 0⟩), (["demo", "tool.rs"], ⟨.file [], 0⟩),
          (["demo", "Cargo.toml"], ⟨.file (Utf8.encode
            "lib.path = './src/lib.rs'\nbin = [\x7bpath = 'gone.rs'\x7d, \x7bpath = 'tool.rs'\x7d]"), 0⟩)]
        workingDirectory := Path.ofText "/"
        clock := 7 }
    let package := Path.ofText "/demo"
    (∃ manifest, Toml.load t (package.child manifestName) = .ok manifest) ∧
      (touch t package).2 = .error (.file (.refused .notFound none)) ∧
      Marked t (touch t package).1 [package.child "src/lib.rs"] := by
  intro t package
  have stops : (touch t package).2 = .error (.file (.refused .notFound none)) := by decide +kernel
  have order : (Toml.load t (package.child manifestName)).toOption.map
      (fun manifest => (roots package manifest, spare package manifest)) =
        some ((["src/lib.rs", "gone.rs", "tool.rs"] : List Text).map package.child,
          [package.child "src/main.rs"]) := by
    decide +kernel
  rcases loaded : Toml.load t (package.child manifestName) with fault | manifest
  · rw [loaded] at order
    cases order
  rw [loaded] at order
  obtain ⟨listed, rest⟩ := Prod.mk.inj (Option.some.inj order)
  obtain ⟨-, -, -, failed⟩ := touch_marks_exactly t package manifest loaded
  obtain ⟨front, p, back, stopped, cut, clear, here, -, marked⟩ := failed _ stops
  rw [listed] at clear here
  rw [listed, rest] at cut
  refine ⟨⟨manifest, rfl⟩, stops, ?_⟩
  rcases front with _ | ⟨first, _ | ⟨second, more⟩⟩
  · cases cut
    have free : obstacle? t ((["src/lib.rs", "gone.rs", "tool.rs"] : List Text).map package.child)
        (package.child "src/lib.rs") = none := by
      decide +kernel
    cases free.symm.trans here
  · cases cut
    exact marked
  · have same : package.child "gone.rs" = second := (List.cons.inj (List.cons.inj cut).2).1
    have blocked : obstacle? t ((["src/lib.rs", "gone.rs", "tool.rs"] : List Text).map package.child)
        (package.child "gone.rs") ≠ none := by
      decide +kernel
    exact absurd (clear second (.tail _ List.mem_cons_self)) (same ▸ blocked)

end LintCorpus.CrateRoots
