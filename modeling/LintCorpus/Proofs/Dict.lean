import LintCorpus.Dict
import Mathlib.Data.List.Nodup
import Mathlib.Data.List.Perm.Basic

/-!
Looking up in maps and putting into them. What a map gives for a key is its one entry with that key,
and a new key goes to the end.
-/
namespace LintCorpus.Dict

variable {α β : Type}

theorem lookup_cons (entry : Text × α) (rest : List (Text × α)) (k : Text) :
    (entry :: rest).lookup k = if k = entry.1 then some entry.2 else rest.lookup k := by
  by_cases same : k = entry.1
  · rw [List.lookup_cons, beq_iff_eq.mpr same, if_pos same]
  · rw [List.lookup_cons, beq_eq_false_iff_ne.mpr same, if_neg same]

theorem lookup_put (key : Text) (value : α) (entries : List (Text × α)) (k : Text) :
    (put key value entries).lookup k = if k = key then some value else entries.lookup k := by
  induction entries with
  | nil => exact lookup_cons (key, value) [] k
  | cons entry rest ih =>
    obtain ⟨name, old⟩ := entry
    by_cases here : name = key
    · subst here
      rw [put, if_pos rfl, lookup_cons, lookup_cons]
      by_cases same : k = name <;> simp [same]
    · rw [put, if_neg here, lookup_cons, lookup_cons, ih]
      by_cases same : k = name
      · simp [same, here]
      · simp [same]

theorem put_of_notMem (key : Text) (value : α) (entries : List (Text × α))
    (new : key ∉ entries.map Prod.fst) : put key value entries = entries ++ [(key, value)] := by
  induction entries with
  | nil => rfl
  | cons entry rest ih =>
    simp only [List.map_cons, List.mem_cons, not_or] at new
    rw [put, if_neg (Ne.symm new.1), ih new.2, List.cons_append]

theorem put_of_mem (key : Text) (old new : α) (front back : List (Text × α))
    (first : key ∉ front.map Prod.fst) :
    put key new (front ++ (key, old) :: back) = front ++ (key, new) :: back := by
  induction front with
  | nil => exact if_pos rfl
  | cons entry rest ih =>
    simp only [List.map_cons, List.mem_cons, not_or] at first
    rw [List.cons_append, put, if_neg (Ne.symm first.1), ih first.2, List.cons_append]

variable (d : Dict α) (key : Text)

@[simp] theorem find?_empty : (empty : Dict α).find? key = none := rfl

@[simp] theorem keys_empty : (empty : Dict α).keys = [] := rfl

theorem find?_insert (value : α) (k : Text) :
    (d.insert key value).find? k = if k = key then some value else d.find? k :=
  lookup_put key value d.entries k

theorem mem_keys_insert (value : α) (k : Text) :
    k ∈ (d.insert key value).keys ↔ k = key ∨ k ∈ d.keys :=
  mem_keys_put key value d.entries k

theorem entries_insert (value : α) (new : key ∉ d.keys) :
    (d.insert key value).entries = d.entries ++ [(key, value)] :=
  put_of_notMem key value d.entries new

private theorem entries_foldl_insert (entries : List (Text × α)) (d : Dict α)
    (distinct : ((d.entries ++ entries).map Prod.fst).Nodup) :
    (entries.foldl (fun d entry => d.insert entry.1 entry.2) d).entries = d.entries ++ entries := by
  induction entries generalizing d with
  | nil => exact (List.append_nil d.entries).symm
  | cons entry rest ih =>
    have new : entry.1 ∉ d.keys := by
      rw [List.map_append, List.nodup_append] at distinct
      intro member
      exact distinct.2.2 entry.1 member entry.1 (by simp) rfl
    have grown := entries_insert d entry.1 entry.2 new
    have all : (d.insert entry.1 entry.2).entries ++ rest = d.entries ++ entry :: rest := by
      rw [grown, List.append_assoc]
      rfl
    rw [List.foldl_cons, ih _ (by rwa [all]), all]

/-- Entries with distinct keys make up a map as they are. -/
theorem entries_ofList (entries : List (Text × α)) (distinct : (entries.map Prod.fst).Nodup) :
    (ofList entries).entries = entries :=
  entries_foldl_insert entries empty distinct

theorem ofList_entries (d : Dict α) : ofList d.entries = d := by
  have same := entries_ofList d.entries d.distinct
  obtain ⟨entries, distinct⟩ := d
  generalize ofList _ = e at same
  obtain ⟨others, _⟩ := e
  subst same
  rfl

theorem contains_iff : d.contains key = true ↔ key ∈ d.keys := by
  simp [contains]

theorem find?_eq_some {value : α} : d.find? key = some value ↔ (key, value) ∈ d.entries := by
  rw [find?, List.lookup_eq_some_iff]
  constructor
  · rintro ⟨front, back, cut, -⟩
    rw [cut]
    exact List.mem_append_right _ List.mem_cons_self
  · intro member
    obtain ⟨front, back, cut⟩ := List.append_of_mem member
    refine ⟨front, back, cut, fun p earlier => ?_⟩
    have distinct := d.distinct
    rw [cut, List.map_append, List.map_cons] at distinct
    have apart := (List.nodup_append.mp distinct).2.2 p.1 (List.mem_map_of_mem earlier) key
      List.mem_cons_self
    exact bne_iff_ne.mpr (Ne.symm apart)

theorem find?_eq_none : d.find? key = none ↔ key ∉ d.keys := by
  rw [Option.eq_none_iff_forall_ne_some, keys, List.mem_map]
  constructor
  · rintro absent ⟨entry, present, rfl⟩
    exact absent entry.2 ((find?_eq_some d entry.1).mpr present)
  · intro absent value found
    exact absent ⟨(key, value), (find?_eq_some d key).mp found, rfl⟩

theorem find?_mapValues (f : α → β) : (d.mapValues f).find? key = (d.find? key).map f := by
  apply Option.ext
  intro value
  rw [find?_eq_some, Option.map_eq_some_iff]
  simp only [mapValues, List.mem_map, find?_eq_some]
  constructor
  · rintro ⟨entry, present, same⟩
    cases same
    exact ⟨entry.2, present, rfl⟩
  · rintro ⟨held, present, rfl⟩
    exact ⟨(key, held), present, rfl⟩

/-- Maps that give the same for every key have the same entries, in some order. -/
theorem perm_iff (d e : Dict α) :
    d.entries.Perm e.entries ↔ ∀ key, d.find? key = e.find? key := by
  rw [List.perm_ext_iff_of_nodup d.distinct.of_map e.distinct.of_map]
  constructor
  · intro same key
    apply Option.ext
    intro value
    rw [find?_eq_some, find?_eq_some]
    exact same (key, value)
  · rintro same ⟨key, value⟩
    rw [← find?_eq_some, ← find?_eq_some, same key]

end LintCorpus.Dict
