import LintCorpus.Config.Basic
import LintCorpus.Diagnostic
import LintCorpus.Proofs.Dict
import Mathlib.Data.List.Basic
import Mathlib.Data.List.Nodup

/-!
Sorted lists. The sorts keep the order of items that count as equal, so what comes out depends only
on the items of each class in their order. Texts are sorted by code points, and a sorted set of
texts is strictly ascending.
-/
namespace LintCorpus

section Stable

variable {α : Type} {le : α → α → Bool}

/-- Whether two items count as equal. -/
def tied (le : α → α → Bool) (a b : α) : Bool := le a b && le b a

private theorem head_mem_of_classes {a : α} {rest other : List α}
    (reflexive : ∀ a, le a a = true)
    (same : ∀ x, (a :: rest).filter (tied le x) = other.filter (tied le x)) : a ∈ other := by
  have here : a ∈ (a :: rest).filter (tied le a) :=
    List.mem_filter.mpr ⟨List.mem_cons_self, by simp [tied, reflexive]⟩
  rw [same a] at here
  exact (List.mem_filter.mp here).1

/-- Two sorted lists with the same items in every class are the same. -/
private theorem eq_of_classes (reflexive : ∀ a, le a a = true) {first second : List α}
    (ascends : first.Pairwise fun a b => le a b = true)
    (rises : second.Pairwise fun a b => le a b = true)
    (same : ∀ x, first.filter (tied le x) = second.filter (tied le x)) : first = second := by
  induction first generalizing second with
  | nil =>
    cases second with
    | nil => rfl
    | cons b more => cases head_mem_of_classes reflexive fun x => (same x).symm
  | cons a rest ih =>
    cases second with
    | nil => cases head_mem_of_classes reflexive same
    | cons b more =>
      have before : le a b = true := by
        rcases List.mem_cons.mp (head_mem_of_classes reflexive fun x => (same x).symm) with rfl | later
        · exact reflexive b
        · exact List.rel_of_pairwise_cons ascends later
      have behind : le b a = true := by
        rcases List.mem_cons.mp (head_mem_of_classes reflexive same) with rfl | later
        · exact reflexive a
        · exact List.rel_of_pairwise_cons rises later
      have heads := same a
      rw [List.filter_cons_of_pos (by simp [tied, reflexive]),
        List.filter_cons_of_pos (by simp [tied, before, behind])] at heads
      obtain rfl : a = b := (List.cons.inj heads).1
      rw [ih ascends.of_cons rises.of_cons]
      intro x
      have whole := same x
      by_cases among : tied le x a = true
      · rw [List.filter_cons_of_pos among, List.filter_cons_of_pos among] at whole
        exact (List.cons.inj whole).2
      · rwa [List.filter_cons_of_neg among, List.filter_cons_of_neg among] at whole

variable (transitive : ∀ a b c, le a b = true → le b c = true → le a c = true)
  (total : ∀ a b, (le a b || le b a) = true)

include transitive total

/-- Sorting keeps the items of a class in their order. -/
theorem filter_mergeSort (items : List α) (x : α) :
    (items.mergeSort le).filter (tied le x) = items.filter (tied le x) := by
  have level : (items.filter (tied le x)).Pairwise fun a b => le a b = true := by
    apply List.pairwise_of_forall_mem_list
    intro a one b two
    have left := (List.mem_filter.mp one).2
    have right := (List.mem_filter.mp two).2
    simp only [tied, Bool.and_eq_true] at left right
    exact transitive a x b left.2 right.1
  have kept := (List.sublist_mergeSort transitive total level List.filter_sublist).filter (tied le x)
  simp only [List.filter_filter, Bool.and_self] at kept
  apply (kept.eq_of_length _).symm
  exact (((List.mergeSort_perm items le).filter (tied le x)).length_eq).symm

/-- Lists with the same items in every class, in the same order, are sorted alike. -/
theorem mergeSort_congr {first second : List α}
    (same : ∀ x, first.filter (tied le x) = second.filter (tied le x)) :
    first.mergeSort le = second.mergeSort le := by
  have reflexive : ∀ a, le a a = true := fun a => by simpa using total a a
  apply eq_of_classes reflexive (List.pairwise_mergeSort transitive total first)
    (List.pairwise_mergeSort transitive total second)
  intro x
  rw [filter_mergeSort transitive total, filter_mergeSort transitive total, same x]

/-- The same items are sorted alike if no two of them count as equal. -/
theorem mergeSort_eq_of_perm {first second : List α} (same : first.Perm second)
    (apart : ∀ a ∈ first, ∀ b ∈ first, tied le a b = true → a = b) :
    first.mergeSort le = second.mergeSort le := by
  have front := List.mergeSort_perm first le
  have back := List.mergeSort_perm second le
  refine List.Perm.eq_of_pairwise ?_ (List.pairwise_mergeSort transitive total first)
    (List.pairwise_mergeSort transitive total second) (front.trans (same.trans back.symm))
  intro a b here there before behind
  refine apart a (front.subset here) b (same.symm.subset (back.subset there)) ?_
  rw [tied, before, behind]
  rfl

omit transitive total in
private theorem flatMap_append_comm {β : Type} {f : α → List β} {a : α} {items : List α}
    (commute : ∀ b ∈ items, f a ++ f b = f b ++ f a) :
    items.flatMap f ++ f a = f a ++ items.flatMap f := by
  induction items with
  | nil => simp
  | cons b rest ih =>
    obtain ⟨here, later⟩ := List.forall_mem_cons.mp commute
    rw [List.flatMap_cons, List.append_assoc, ih later, ← List.append_assoc, ← here,
      List.append_assoc]

omit transitive total in
private theorem flatMap_eq_of_sorted {β : Type} {f : α → List β} {first second : List α}
    (ascends : first.Pairwise fun a b => le a b = true)
    (rises : second.Pairwise fun a b => le a b = true) (same : first.Perm second)
    (commute : ∀ a ∈ first, ∀ b ∈ first, tied le a b = true → f a ++ f b = f b ++ f a) :
    first.flatMap f = second.flatMap f := by
  induction first generalizing second with
  | nil => rw [same.nil_eq]
  | cons a rest ih =>
    obtain ⟨front, back, rfl⟩ := List.append_of_mem (same.subset List.mem_cons_self)
    have split := List.pairwise_append.mp rises
    -- What stands before `a` in the other list counts as equal to it.
    have passes : ∀ b ∈ front, f a ++ f b = f b ++ f a := by
      intro b early
      have known := same.symm.subset (List.mem_append_left _ early)
      rcases List.mem_cons.mp known with rfl | later
      · rfl
      · refine commute a List.mem_cons_self b known ?_
        rw [tied, List.rel_of_pairwise_cons ascends later,
          split.2.2 b early a List.mem_cons_self]
        rfl
    have others : rest.Perm (front ++ back) := (same.trans List.perm_middle).cons_inv
    have below : (front ++ back).Pairwise fun a b => le a b = true :=
      rises.sublist ((List.sublist_cons_self a back).append_left front)
    have remaining := ih ascends.of_cons below others fun b here c there =>
      commute b (List.mem_cons_of_mem a here) c (List.mem_cons_of_mem a there)
    rw [List.flatMap_cons, remaining, List.flatMap_append, List.flatMap_append, List.flatMap_cons,
      ← List.append_assoc, ← List.append_assoc, flatMap_append_comm passes]

/-- The same items are shown alike in sorted order if those that count as equal can be shown in
either order. -/
theorem flatMap_mergeSort_congr {β : Type} {f : α → List β} {first second : List α}
    (same : first.Perm second)
    (commute : ∀ a ∈ first, ∀ b ∈ first, tied le a b = true → f a ++ f b = f b ++ f a) :
    (first.mergeSort le).flatMap f = (second.mergeSort le).flatMap f := by
  have front := List.mergeSort_perm first le
  have back := List.mergeSort_perm second le
  apply flatMap_eq_of_sorted (List.pairwise_mergeSort transitive total first)
    (List.pairwise_mergeSort transitive total second) (front.trans (same.trans back.symm))
  exact fun a here b there => commute a (front.subset here) b (front.subset there)

omit transitive total in
private theorem filter_append_filter {p : α → Bool} {items : List α}
    (upward : items.Pairwise fun a b => p a = true → p b = true) :
    items.filter (fun a => !p a) ++ items.filter p = items := by
  induction items with
  | nil => rfl
  | cons a rest ih =>
    rcases holds : p a with _ | _
    · rw [List.filter_cons_of_pos (by simp [holds]), List.filter_cons_of_neg (by simp [holds]),
        List.cons_append, ih upward.of_cons]
    · have all : ∀ b ∈ rest, p b = true := fun b later =>
        List.rel_of_pairwise_cons upward later holds
      rw [List.filter_cons_of_neg (by simp [holds]), List.filter_cons_of_pos holds,
        List.filter_eq_nil_iff.mpr (by simpa using all), List.filter_eq_self.mpr all,
        List.nil_append]

/-- Two items that count as equal and come first of their class stand side by side once they are
sorted, in the order they came in. -/
theorem mergeSort_pair {front back : List α} {x a b : α} (one : tied le x a = true)
    (two : tied le x b = true) (first : front.filter (tied le x) = []) :
    (front ++ a :: b :: back).mergeSort le =
      ((front ++ back).mergeSort le).filter (fun y => !le x y) ++
        a :: b :: ((front ++ back).mergeSort le).filter (le x) := by
  let others := (front ++ back).mergeSort le
  let low := others.filter fun y => !le x y
  let high := others.filter (le x)
  have sorted : others.Pairwise fun a b => le a b = true :=
    List.pairwise_mergeSort transitive total _
  have parted : low ++ high = others :=
    filter_append_filter (sorted.imp fun before above => transitive x _ _ above before)
  have below : ∀ y ∈ low, le x y = false := fun y inside => by
    simpa using (List.mem_filter.mp inside).2
  have above : ∀ y ∈ high, le x y = true := fun y inside => (List.mem_filter.mp inside).2
  have down : ∀ y ∈ low, le y x = true := fun y inside => by
    simpa [below y inside] using total x y
  rw [tied, Bool.and_eq_true] at one two
  have ascends : (low ++ a :: b :: high).Pairwise fun a b => le a b = true := by
    rw [← parted, List.pairwise_append] at sorted
    have ahead : ∀ y ∈ high, le a y = true ∧ le b y = true := fun y inside =>
      ⟨transitive a x y one.2 (above y inside), transitive b x y two.2 (above y inside)⟩
    rw [List.pairwise_append, List.pairwise_cons, List.pairwise_cons]
    refine ⟨sorted.1, ⟨?_, fun y inside => (ahead y inside).2, sorted.2.1⟩, ?_⟩
    · refine List.forall_mem_cons.mpr ⟨transitive a x b one.2 two.1, fun y inside => ?_⟩
      exact (ahead y inside).1
    · intro y inside
      refine List.forall_mem_cons.mpr ⟨transitive y x a (down y inside) one.1,
        List.forall_mem_cons.mpr ⟨transitive y x b (down y inside) two.1, fun z later => ?_⟩⟩
      exact transitive y x z (down y inside) (above z later)
  have classes : ∀ z, (front ++ a :: b :: back).filter (tied le z) =
      (low ++ a :: b :: high).filter (tied le z) := by
    intro z
    have kept := filter_mergeSort transitive total (front ++ back) z
    rw [← show low ++ high = (front ++ back).mergeSort le from parted, List.filter_append,
      List.filter_append] at kept
    by_cases level : tied le z x = true
    · have same : tied le z = tied le x := by
        funext y
        rw [tied, Bool.and_eq_true] at level
        rw [tied, tied, Bool.eq_iff_iff, Bool.and_eq_true, Bool.and_eq_true]
        exact ⟨fun ⟨l, r⟩ => ⟨transitive _ _ _ level.2 l, transitive _ _ _ r level.1⟩,
          fun ⟨l, r⟩ => ⟨transitive _ _ _ level.1 l, transitive _ _ _ r level.2⟩⟩
      have none : low.filter (tied le x) = [] := by
        rw [List.filter_eq_nil_iff]
        intro y inside
        simp [tied, below y inside]
      rw [same, first, none, List.nil_append, List.nil_append] at kept
      rw [same, List.filter_append, List.filter_append, first, none]
      simp only [List.filter_cons, kept]
    · have out : ∀ y, le x y = true → le y x = true → tied le z y = false := by
        intro y up downward
        rw [← Bool.not_eq_true]
        intro met
        rw [tied, Bool.and_eq_true] at met
        refine level ?_
        rw [tied, transitive z y x met.1 downward, transitive x y z up met.2]
        rfl
      rw [List.filter_append, List.filter_append, List.filter_cons, List.filter_cons,
        List.filter_cons, List.filter_cons, out a one.1 one.2, out b two.1 two.2]
      simpa using kept.symm
  rw [mergeSort_congr transitive total classes, List.mergeSort_of_pairwise ascends]

end Stable

section Comparison

variable {α : Type} {cmp : α → α → Ordering} [Std.OrientedCmp cmp]

theorem isLE_total (a b : α) : ((cmp a b).isLE || (cmp b a).isLE) = true := by
  rw [@Std.OrientedCmp.eq_swap _ cmp _ b a]
  cases cmp a b <;> rfl

theorem tied_isLE_iff {a b : α} :
    tied (fun a b => (cmp a b).isLE) a b = true ↔ cmp a b = .eq := by
  rw [tied, @Std.OrientedCmp.eq_swap _ cmp _ b a]
  cases cmp a b <;> decide

end Comparison

namespace Text

theorem le_iff (a b : Text) : le a b = true ↔ ¬List.Lex (· < ·) b a := by
  have lex : List.lex b a (fun x y => decide (x < y)) = true ↔ List.Lex (· < ·) b a := by
    simpa only [decide_eq_true_eq] using List.lex_eq_true_iff_lex fun x y => decide (x < y)
  rw [le, Bool.not_eq_true', ← Bool.not_eq_true, lex]

theorem le_trans (a b c : Text) (first : le a b = true) (second : le b c = true) :
    le a c = true := by
  rw [le_iff] at first second ⊢
  exact List.le_trans first second

theorem le_total (a b : Text) : (le a b || le b a) = true := by
  rw [Bool.or_eq_true, le_iff, le_iff]
  exact List.le_total a b

theorem le_antisymm {a b : Text} (first : le a b = true) (second : le b a = true) : a = b := by
  rw [le_iff] at first second
  exact List.le_antisymm first second

theorem mem_sort {ts : List Text} {t : Text} : t ∈ sort ts ↔ t ∈ ts := List.mem_mergeSort

/-- Before another text, in the order of code points. -/
def Before (a b : Text) : Prop := le a b = true ∧ a ≠ b

theorem sort_ascends {ts : List Text} (distinct : ts.Nodup) : (sort ts).Pairwise Before := by
  have ascends := List.pairwise_mergeSort le_trans le_total ts
  have apart : (sort ts).Nodup := (List.mergeSort_perm ts le).nodup_iff.mpr distinct
  exact ascends.and apart

private theorem compare_eq_lt_iff_lex {a b : Text} :
    compare a b = .lt ↔ List.Lex (· < ·) a b := by
  change List.compareLex compare a b = .lt ↔ _
  induction a generalizing b with
  | nil => cases b <;> simp [List.compareLex]
  | cons x rest ih =>
    cases b with
    | nil => simp [List.compareLex]
    | cons y others =>
      rw [List.compareLex, List.cons_lex_cons_iff, ← ih]
      cases order : compare x y with
      | lt => simp [Nat.compare_eq_lt.mp order]
      | eq => simp [Nat.compare_eq_eq.mp order]
      | gt =>
        have above := Nat.compare_eq_gt.mp order
        exact iff_of_false nofun (by omega)

theorem isLE_compare {a b : Text} : (compare a b).isLE = true ↔ le a b = true := by
  rw [le_iff, ← compare_eq_lt_iff_lex, Std.OrientedOrd.eq_swap]
  cases compare b a <;> decide

theorem compare_eq_lt {a b : Text} : compare a b = .lt ↔ Before a b := by
  rw [Before, ← isLE_compare, ← Ordering.isLT_iff_eq_lt]
  have same := Std.LawfulEqOrd.compare_eq_iff_eq (a := a) (b := b)
  rw [Ne, ← same]
  cases compare a b <;> decide
end Text

private theorem nodup_eraseDups (ts : List Text) : ts.eraseDups.Nodup := by
  match ts with
  | [] => exact List.nodup_nil
  | t :: rest =>
    have shorter := List.length_filter_le (fun u => !u == t) rest
    rw [List.eraseDups_cons, List.nodup_cons]
    exact ⟨by simp [List.mem_eraseDups], nodup_eraseDups (rest.filter fun u => !u == t)⟩
termination_by ts.length
decreasing_by simp only [List.length_cons]; omega

theorem mem_sortedSet {ts : List Text} {t : Text} : t ∈ sortedSet ts ↔ t ∈ ts := by
  rw [sortedSet, Text.mem_sort, List.mem_eraseDups]

theorem sortedSet_ascends (ts : List Text) : (sortedSet ts).Pairwise Text.Before :=
  Text.sort_ascends (nodup_eraseDups ts)

theorem sortedSet_congr {ts us : List Text} (same : ∀ t, t ∈ ts ↔ t ∈ us) :
    sortedSet ts = sortedSet us := by
  apply mergeSort_eq_of_perm Text.le_trans Text.le_total
  · rw [List.perm_ext_iff_of_nodup (nodup_eraseDups ts) (nodup_eraseDups us)]
    intro t
    rw [List.mem_eraseDups, List.mem_eraseDups]
    exact same t
  · intro a _ b _ level
    rw [tied, Bool.and_eq_true] at level
    exact Text.le_antisymm level.1 level.2

theorem Dict.sort_congr {α : Type} {d e : Dict α} (same : ∀ key, d.find? key = e.find? key) :
    (d.entries.mergeSort fun a b => Text.le a.1 b.1) =
      e.entries.mergeSort fun a b => Text.le a.1 b.1 := by
  apply mergeSort_eq_of_perm (fun a b c => Text.le_trans a.1 b.1 c.1)
    (fun a b => Text.le_total a.1 b.1) ((Dict.perm_iff d e).mpr same)
  intro a here b there level
  rw [tied, Bool.and_eq_true] at level
  exact List.inj_on_of_nodup_map d.distinct here there (Text.le_antisymm level.1 level.2)

theorem Dict.sort_mapValues {α β : Type} (f : α → β) (d : Dict α) :
    ((d.mapValues f).entries.mergeSort fun a b => Text.le a.1 b.1) =
      (d.entries.mergeSort fun a b => Text.le a.1 b.1).map fun entry => (entry.1, f entry.2) := by
  symm
  apply List.map_mergeSort
  exact fun _ _ _ _ => rfl

theorem SortKey.compare_eq_compareLex : SortKey.compare =
    compareLex (compareOn SortKey.file) (compareLex (compareOn SortKey.line)
      (compareLex (compareOn SortKey.column)
        (compareLex (compareOn SortKey.message) (compareOn SortKey.rule)))) := rfl

instance : Std.TransCmp SortKey.compare := by
  rw [SortKey.compare_eq_compareLex]
  infer_instance

theorem SortKey.compare_eq_iff {a b : SortKey} : a.compare b = .eq ↔ a = b := by
  cases a
  cases b
  simp only [compare, Ordering.then_eq_eq, Std.LawfulEqCmp.compare_eq_iff_eq, SortKey.mk.injEq]

/-- Not after another one, by file, then line, column, message and rule. -/
def SortKey.InOrder (a b : SortKey) : Prop :=
  Text.Before a.file b.file ∨ a.file = b.file ∧
    (a.line < b.line ∨ a.line = b.line ∧
      (a.column < b.column ∨ a.column = b.column ∧
        (Text.Before a.message b.message ∨ a.message = b.message ∧ Text.le a.rule b.rule = true)))

theorem SortKey.le_iff_inOrder {a b : SortKey} : a.le b = true ↔ a.InOrder b := by
  simp only [le, compare, InOrder, Ordering.isLE_then_iff_or, Text.compare_eq_lt,
    Text.isLE_compare, Int.compare_eq_lt, Std.LawfulEqOrd.compare_eq_iff_eq]

namespace Diagnostic

/-- Findings are compared by their places. -/
instance : Std.TransCmp fun a b : Diagnostic => a.sortKey.compare b.sortKey where
  eq_swap {_ _} := @Std.OrientedCmp.eq_swap _ SortKey.compare _ _ _
  isLE_trans {_ _ _} := @Std.TransCmp.isLE_trans _ SortKey.compare _ _ _ _

theorem le_trans (a b c : Diagnostic) (first : a.sortKey.le b.sortKey = true)
    (second : b.sortKey.le c.sortKey = true) : a.sortKey.le c.sortKey = true :=
  Std.TransCmp.isLE_trans first second

theorem le_total (a b : Diagnostic) :
    (a.sortKey.le b.sortKey || b.sortKey.le a.sortKey) = true :=
  @isLE_total _ (fun a b : Diagnostic => a.sortKey.compare b.sortKey) _ a b

theorem mem_sort {ds : List Diagnostic} {d : Diagnostic} : d ∈ sort ds ↔ d ∈ ds := List.mem_mergeSort

theorem tied_iff {a b : Diagnostic} :
    tied (fun a b => a.sortKey.le b.sortKey) a b = true ↔ a.sortKey = b.sortKey := by
  rw [← SortKey.compare_eq_iff]
  exact @tied_isLE_iff _ (fun a b : Diagnostic => a.sortKey.compare b.sortKey) _ a b

theorem sort_congr {first second : List Diagnostic}
    (same : ∀ rule, (first.filter fun d => d.rule == rule) =
      second.filter fun d => d.rule == rule) : sort first = sort second := by
  apply mergeSort_congr le_trans le_total
  intro x
  -- What counts as equal to a finding has its rule.
  have within : ∀ ds : List Diagnostic, ds.filter (tied (fun a b => a.sortKey.le b.sortKey) x) =
      (ds.filter fun d => d.rule == x.rule).filter
        (tied (fun a b => a.sortKey.le b.sortKey) x) := by
    intro ds
    rw [List.filter_filter]
    apply List.filter_congr
    intro d _
    cases level : tied (fun a b => a.sortKey.le b.sortKey) x d with
    | true => simp [show x.rule = d.rule from congrArg SortKey.rule (tied_iff.mp level)]
    | false => rfl
  rw [within first, within second, same x.rule]

end Diagnostic
end LintCorpus
