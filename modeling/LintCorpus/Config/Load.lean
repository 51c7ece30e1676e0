import LintCorpus.Config.Basic
import LintCorpus.Schema.Objection
import LintCorpus.Toml.Load

/-!
Loading a configuration: the tables of a file, changed by values given elsewhere, then checked as
a whole.
-/
namespace LintCorpus

/-- Values by section and name that win over those of a file. -/
abbrev Overrides := List (Text × Members)

inductive ConfigFault where
  | unreadable (path : Path) (fault : FileFault)
  | malformed (path : Path) (fault : Toml.DocumentFault)
  | unknownSections (names : List Text)
  | notATable (name : Text)
  | unknownOverride (name : Text)
  | invalid (path : Option Path) (objections : List Objection)
  | allowsWithoutLint
deriving DecidableEq

namespace ConfigFault

/-- What a fault is about; the faults of an invalid configuration are told apart. -/
def headline : ConfigFault → Text
  | .unreadable path fault =>
    "Unable to read configuration at " ++ path.toText ++ ": " ++ fault.message
  | .malformed path fault =>
    "Configuration at " ++ path.toText ++ " is not valid TOML: " ++ fault.message
  | .unknownSections names => "Unknown configuration sections: " ++ Text.join ", " names
  | .notATable name => "Configuration section [" ++ name ++ "] must be a table"
  | .unknownOverride name => "Unknown configuration section: " ++ name
  | .invalid path _ =>
    let source : Text := (path.map Path.toText).getD "command line"
    "Invalid configuration (" ++ source ++ "):"
  | .allowsWithoutLint => "allow checking requires a target lint"

def message : ConfigFault → Text
  | .invalid path objections =>
    (ConfigFault.invalid path objections).headline ++ "\n" ++
      Objection.describeAll "Config" objections
  | fault => fault.headline

def ofLoad (path : Path) : Toml.LoadFault → ConfigFault
  | .file fault => .unreadable path fault
  | .document fault => .malformed path fault

end ConfigFault

namespace Config

def sections : List Text := ["run", "policy", "output"]

def document (t : FileTree) (path : Option Path) : Except (Failure ConfigFault) Members :=
  match path with
  | none => .ok []
  | some p => (Toml.load t p).mapError (Toml.LoadFault.toFailure (ConfigFault.ofLoad p))

def sectionTable (d : Members) (name : Text) : Except ConfigFault (Text × Members) :=
  match d.lookup name with
  | none => .ok (name, [])
  | some (.object members) => .ok (name, members)
  | some _ => .error (.notATable name)

def tables (d : Members) : Except ConfigFault (List (Text × Members)) :=
  let unknown := d.filter fun entry => !sections.contains entry.1
  if unknown.isEmpty then sections.mapM (sectionTable d)
  else .error (.unknownSections (Text.sort (unknown.map Prod.fst)))

def overlay (table values : Members) : Members :=
  values.foldl (fun merged entry => Dict.put entry.1 entry.2 merged) table

def override (merged : List (Text × Members)) (values : Text × Members) :
    Except ConfigFault (List (Text × Members)) :=
  if merged.any fun entry => entry.1 == values.1 then
    .ok (merged.map fun entry =>
      if entry.1 = values.1 then (entry.1, overlay entry.2 values.2) else entry)
  else .error (.unknownOverride values.1)

def ofTables (path : Option Path) (merged : List (Text × Members)) : Except ConfigFault Config :=
  let whole : Value := .object (merged.map fun entry => (entry.1, .object entry.2))
  match Config.check whole with
  | .valid config => .ok config
  | .invalid faults => .error (.invalid path (faults.map (Objection.about whole)))

def ofDocument (path : Option Path) (d : Members) (overrides : Overrides) :
    Except ConfigFault Config := do
  let given ← tables d
  let merged ← overrides.foldlM override given
  ofTables path merged

def load (t : FileTree) (path : Option Path) (overrides : Overrides) :
    Except (Failure ConfigFault) Config := do
  let d ← document t path
  (ofDocument path d overrides).mapError Failure.reported

end Config
end LintCorpus
