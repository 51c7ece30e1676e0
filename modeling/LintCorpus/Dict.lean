import LintCorpus.Text.Basic

/-!
Maps from texts that keep the order in which keys first came in. No key occurs twice; a later
value for a key takes the place of the earlier one.
-/
namespace LintCorpus

/-- Entries in order of arrival with distinct keys. -/
structure Dict (α : Type) where
  entries : List (Text × α)
  distinct : (entries.map Prod.fst).Nodup

namespace Dict

variable {α β : Type}

instance [DecidableEq α] : DecidableEq (Dict α) := fun a b =>
  decidable_of_iff (a.entries = b.entries) (by
    cases a; cases b; simp)

def empty : Dict α := ⟨[], by simp⟩

instance : Inhabited (Dict α) := ⟨empty⟩

def keys (d : Dict α) : List Text := d.entries.map Prod.fst

def values (d : Dict α) : List α := d.entries.map Prod.snd

def find? (d : Dict α) (key : Text) : Option α := d.entries.lookup key

def contains (d : Dict α) (key : Text) : Bool := d.keys.contains key

/-- Entries with the value of a present key exchanged, or a new entry at the end. -/
def put (key : Text) (value : α) : List (Text × α) → List (Text × α)
  | [] => [(key, value)]
  | (k, v) :: rest => if k = key then (k, value) :: rest else (k, v) :: put key value rest

theorem mem_keys_put (key : Text) (value : α) (entries : List (Text × α)) (k : Text) :
    k ∈ (put key value entries).map Prod.fst ↔ k = key ∨ k ∈ entries.map Prod.fst := by
  induction entries with
  | nil => simp [put]
  | cons entry rest ih =>
    obtain ⟨k', v'⟩ := entry
    by_cases same : k' = key
    · subst same
      simp [put]
    · simp only [put, same, if_false, List.map_cons, List.mem_cons, ih]
      constructor <;> rintro (h | h | h) <;> simp [h]

theorem nodup_keys_put (key : Text) (value : α) (entries : List (Text × α))
    (distinct : (entries.map Prod.fst).Nodup) :
    ((put key value entries).map Prod.fst).Nodup := by
  induction entries with
  | nil => simp [put]
  | cons entry rest ih =>
    obtain ⟨k, v⟩ := entry
    simp only [List.map_cons, List.nodup_cons] at distinct
    by_cases same : k = key
    · simp [put, same, same ▸ distinct.1, distinct.2]
    · rw [put, if_neg same, List.map_cons, List.nodup_cons, mem_keys_put]
      exact ⟨fun h => h.elim (fun eq => same eq) distinct.1, ih distinct.2⟩

def insert (d : Dict α) (key : Text) (value : α) : Dict α :=
  ⟨put key value d.entries, nodup_keys_put key value d.entries d.distinct⟩

/-- The map of a list of entries; of a repeated key the first place and the last value count. -/
def ofList (entries : List (Text × α)) : Dict α :=
  entries.foldl (fun d entry => d.insert entry.1 entry.2) empty

def mapValues (f : α → β) (d : Dict α) : Dict β :=
  ⟨d.entries.map fun entry => (entry.1, f entry.2), by
    have same : (d.entries.map fun entry => (entry.1, f entry.2)).map Prod.fst =
        d.entries.map Prod.fst := by simp
    rw [same]
    exact d.distinct⟩

def erase (d : Dict α) (key : Text) : Dict α :=
  ⟨d.entries.filter fun entry => entry.1 != key,
    d.distinct.sublist ((List.filter_sublist).map Prod.fst)⟩

end Dict
end LintCorpus
