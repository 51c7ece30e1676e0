import LintCorpus.Catalog

/-!
Marking the roots of a package as changed, so that the build tool lints it again although its
sources are the same. Roots are the files that the manifest declares and two customary ones; only
the latter may be missing.
-/
namespace LintCorpus.CrateRoots

/-- The roots of packages that declare none. -/
def customary : List Text := ["src/lib.rs", "src/main.rs"]

def declaredPath? (target : Value) : Option Text :=
  match target.asMembers.field "path" with
  | .text path => some path
  | _ => none

def declared (manifest : Members) : List Text :=
  let programs : List Value :=
    match manifest.field "bin" with
    | .list targets => targets
    | _ => []
  (declaredPath? (manifest.field "lib")).toList ++ programs.filterMap declaredPath?

/-- The files after marking, and the paths marked, or what went wrong on the way. -/
abbrev Marking := FileTree × Except FileFault (List Path)

/-- Marks paths one after the other, up to the first one that cannot be marked. -/
def markDeclared (t : FileTree) (marked : List Path) : List Path → Marking
  | [] => (t, .ok marked)
  | p :: rest =>
    match t.touch p with
    | .error fault => (t, .error fault)
    | .ok touched => markDeclared touched (marked ++ [p]) rest

/-- Marks those paths that are there and have not been marked before. -/
def markCustomary (t : FileTree) (marked : List Path) : List Path → Marking
  | [] => (t, .ok marked)
  | p :: rest =>
    if marked.contains p then markCustomary t marked rest
    else
      match t.touch p with
      | .error (.refused .notFound _) => markCustomary t marked rest
      | .error fault => (t, .error fault)
      | .ok touched => markCustomary touched (marked ++ [p]) rest

def mark (t : FileTree) (package : Path) (manifest : Members) : Marking :=
  match markDeclared t [] ((declared manifest).map package.child) with
  | (touched, .ok marked) => markCustomary touched marked (customary.map package.child)
  | result => result

def touch (t : FileTree) (package : Path) : FileTree × Except Toml.LoadFault (List Path) :=
  match Toml.load t (package.child manifestName) with
  | .error fault => (t, .error fault)
  | .ok manifest =>
    let (touched, result) := mark t package manifest
    (touched, result.mapError Toml.LoadFault.file)

end LintCorpus.CrateRoots
