import LintCorpus.Schema.Basic

/-!
Checks that succeed. A check of several parts gives a value exactly if every part has one.
-/
namespace LintCorpus

namespace Checked

variable {α β : Type}

theorem map_eq_valid {f : α → β} {c : Checked α} {b : β} :
    f <$> c = .valid b ↔ ∃ a, c = .valid a ∧ f a = b := by
  rcases c with a | faults
  · change valid (f a) = valid b ↔ _
    simp
  · exact iff_of_false nofun nofun

theorem seq_eq_valid {f : Checked (α → β)} {c : Checked α} {b : β} :
    f <*> c = .valid b ↔ ∃ g a, f = .valid g ∧ c = .valid a ∧ g a = b := by
  rcases f with g | first <;> rcases c with a | second
  · change valid (g a) = valid b ↔ _
    simp
  · exact iff_of_false nofun nofun
  · exact iff_of_false nofun nofun
  · exact iff_of_false nofun nofun

theorem map_valid {f : α → β} {c : Checked α} {a : α} (checked : c = .valid a) :
    f <$> c = .valid (f a) :=
  map_eq_valid.mpr ⟨a, checked, rfl⟩

theorem seq_valid {f : Checked (α → β)} {c : Checked α} {g : α → β} {a : α} (before : f = .valid g)
    (checked : c = .valid a) : f <*> c = .valid (g a) :=
  seq_eq_valid.mpr ⟨g, a, before, checked, rfl⟩

@[simp] theorem inside_eq_valid {place : Place} {c : Checked α} {a : α} :
    c.inside place = .valid a ↔ c = .valid a := by
  cases c <;> simp [inside]

theorem andThen_eq_valid {f : α → Checked β} {c : Checked α} {b : β} :
    c.andThen f = .valid b ↔ ∃ a, c = .valid a ∧ f a = .valid b := by
  cases c <;> simp [andThen]

end Checked

namespace Schema

variable {α : Type} {m : Members} {name : Text} {names : List Text} {a : α}

theorem defaulted_eq_valid {default : α} {check : Check α} :
    defaulted m name default check = .valid a ↔
      (∃ v, m.lookup name = some v ∧ check v = .valid a) ∨ m.lookup name = none ∧ default = a := by
  rw [defaulted]
  cases m.lookup name <;> simp

theorem required_of_lookup {v : Value} {check : Check α} (found : m.lookup name = some v)
    (checked : check v = .valid a) : required m name check = .valid a := by
  rw [required, found]
  exact Checked.inside_eq_valid.mpr checked

theorem defaulted_of_lookup {v : Value} {check : Check α} (default : α)
    (found : m.lookup name = some v) (checked : check v = .valid a) :
    defaulted m name default check = .valid a :=
  defaulted_eq_valid.mpr (.inl ⟨v, found, checked⟩)

theorem closedRecord_eq_valid {check : Members → Checked α}
    (checked : closedRecord name names check (.object m) = .valid a) : check m = .valid a := by
  rw [closedRecord, record] at checked
  split at checked
  · cases checked
  · obtain ⟨_, _, first, -, rfl⟩ := Checked.seq_eq_valid.mp checked
    obtain ⟨b, made, rfl⟩ := Checked.map_eq_valid.mp first
    exact made

end Schema
end LintCorpus
