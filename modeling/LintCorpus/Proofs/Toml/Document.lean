import LintCorpus.Proofs.Toml.Scalars
import LintCorpus.Proofs.Text.Utf8
import LintCorpus.Toml.Load
import Mathlib.Data.List.Basic

/-!
Documents. A document that is read from characters holds characters only: whatever its keys are, no
text in it has a surrogate.
-/
namespace LintCorpus

/-- Members in whose values every text is one of characters only. -/
def Members.Valid (m : Members) : Prop := ∀ entry ∈ m, entry.2.Valid

namespace Value

theorem valid_text (t : Text) : (Value.text t).Valid ↔ t.Valid := by
  constructor
  · intro valid
    exact valid t (.text t)
  · intro valid u held
    cases held
    exact valid

theorem valid_list (items : List Value) : (Value.list items).Valid ↔ ∀ v ∈ items, v.Valid := by
  constructor
  · intro valid v member t held
    exact valid t (.item items v t member held)
  · intro valid t held
    cases held with
    | item _ v _ member inside => exact valid v member t inside

theorem valid_object (members : Members) : (Value.object members).Valid ↔ members.Valid := by
  constructor
  · intro valid entry member t held
    exact valid t (.member members entry t member held)
  · intro valid t held
    cases held with
    | member _ entry _ member inside => exact valid entry member t inside

end Value

namespace Members.Valid

variable {m : Members}

theorem put (valid : m.Valid) (name : Text) {v : Value} (given : v.Valid) :
    Members.Valid (Dict.put name v m) := by
  induction m with
  | nil => exact List.forall_mem_singleton.mpr given
  | cons entry rest ih =>
    obtain ⟨first, others⟩ := List.forall_mem_cons.mp valid
    rw [Dict.put]
    split
    · exact List.forall_mem_cons.mpr ⟨given, others⟩
    · exact List.forall_mem_cons.mpr ⟨first, ih others⟩

theorem lookup (valid : m.Valid) (name : Text) (v : Value) (found : m.lookup name = some v) :
    v.Valid := by
  obtain ⟨front, back, parted, -⟩ := List.lookup_eq_some_iff.mp found
  exact valid (name, v) (by rw [parted]; exact List.mem_append_right front List.mem_cons_self)

theorem field (valid : m.Valid) (name : Text) : (m.field name).Valid := by
  rw [Members.field]
  rcases found : m.lookup name with _ | v
  · exact nofun
  · exact valid.lookup name v found

end Members.Valid

namespace Toml

/-- A change of tables that adds characters only. -/
def Safe (change : Members → Option Members) : Prop :=
  ∀ table changed, table.Valid → change table = some changed → changed.Valid

private theorem put_made (table : Members) (valid : table.Valid) (name : Text)
    (wrap : Members → Value) (made : Option Members)
    (kept : ∀ inner, made = some inner → (wrap inner).Valid) (changed : Members)
    (done : (do let inner ← made; return Dict.put name (wrap inner) table) = some changed) :
    changed.Valid := by
  rcases made with _ | inner
  · cases done
  · cases done
    exact valid.put name (kept inner rfl)

theorem changeAt_safe (throughLists : Bool) (change : Members → Option Members)
    (safe : Safe change) (key : Key) : Safe (changeAt throughLists change key) := by
  induction key with
  | nil => exact safe
  | cons name key ih =>
    have inside : ∀ old : Members, old.Valid → ∀ inner,
        changeAt throughLists change key old = some inner → (Value.object inner).Valid :=
      fun old held inner made => (Value.valid_object inner).mpr (ih old inner held made)
    intro table changed valid done
    rw [changeAt] at done
    split at done
    · exact put_made table valid name Value.object _ (inside [] nofun) changed done
    next old found =>
      have held := (Value.valid_object old).mp (valid.lookup name _ found)
      exact put_made table valid name Value.object _ (inside old held) changed done
    next items found =>
      have held := (Value.valid_list items).mp (valid.lookup name _ found)
      split at done
      · split at done
        next old last =>
          have oldHeld := held _ (List.mem_of_getLast? last)
          refine put_made table valid name (fun inner => .list (items.dropLast ++ [.object inner]))
            _ (fun inner made => (Value.valid_list _).mpr ?_) changed done
          intro v member
          rcases List.mem_append.mp member with front | back
          · exact held v (List.dropLast_subset items front)
          · obtain rfl := List.mem_singleton.mp back
            exact inside old ((Value.valid_object old).mp oldHeld) inner made
        · cases done
      · cases done
    · cases done

private theorem some_safe : Safe some := by
  intro table changed valid same
  cases same
  exact valid

theorem addMember_safe (name : Text) (v : Value) (given : v.Valid) :
    Safe (Document.addMember name v) := by
  intro table changed valid done
  rw [Document.addMember] at done
  split at done
  · cases done
  · cases done
    exact valid.put name given

theorem appendTo_safe (name : Text) : Safe (Document.appendTo name) := by
  have fresh : (Value.object []).Valid := (Value.valid_object []).mpr nofun
  intro table changed valid done
  rw [Document.appendTo] at done
  split at done
  · cases done
    exact valid.put name ((Value.valid_list _).mpr (List.forall_mem_singleton.mpr fresh))
  next items found =>
    have held := (Value.valid_list items).mp (valid.lookup name _ found)
    cases done
    refine valid.put name ((Value.valid_list _).mpr (List.forall_mem_append.mpr ⟨held, ?_⟩))
    exact List.forall_mem_singleton.mpr fresh
  · cases done

def Document.Valid (d : Document) : Prop := d.tables.Valid

section Growth

variable {d : Document} (valid : d.Valid) (next : Text) (key : Key)

include valid

theorem declare_gives : Gives Document.Valid (raise next (d.declare key)) := by
  rw [Document.declare]
  split
  · exact .error _
  · split
    · exact .error _
    next tables made => exact .ok (changeAt_safe true some some_safe key d.tables tables valid made)

theorem append_gives : Gives Document.Valid (raise next (d.append key)) := by
  rw [Document.append]
  split
  · exact .error _
  · dsimp only
    split
    · exact .error _
    next tables made =>
      exact .ok (changeAt_safe true _ (appendTo_safe _) _ d.tables tables valid made)

theorem assign_gives (v : Value) (given : v.Valid) :
    Gives Document.Valid (raise next (d.assign key v)) := by
  rw [Document.assign]
  split
  · exact .error _
  · split
    · exact .error _
    · split
      · exact .error _
      next tables made =>
        exact .ok (changeAt_safe true _ (addMember_safe _ v given) _ d.tables tables valid made)

end Growth

theorem inline_assign_gives (t : Inline) (valid : t.table.Valid) (next : Text) (key : Key)
    (v : Value) (given : v.Valid) :
    Gives (fun t : Inline => t.table.Valid) (raise next (t.assign key v)) := by
  rw [Inline.assign]
  split
  · exact .error _
  · split
    · exact .error _
    · split
      · exact .error _
      next table made =>
        exact .ok (changeAt_safe false _ (addMember_safe _ v given) _ t.table table valid made)

section Keys

variable {rest : Text} (valid : rest.Valid)

include valid

theorem keyPart_reads (fuel : Nat) : Reads (fun _ => True) (keyPart fuel rest) := by
  rcases rest with _ | ⟨c, after⟩
  · exact .error _
  · rw [keyPart]
    split_ifs
    · exact .ok trivial (valid.dropWhile _)
    · exact (literalLine_reads valid.tail).forget
    · exact (basicLine_reads valid.tail fuel).forget
    · exact .error _

theorem keyParts_reads (fuel : Nat) (k : Key) : Reads (fun _ => True) (keyParts fuel k rest) := by
  induction fuel generalizing k rest with
  | zero => exact .ok trivial valid
  | succ fuel ih =>
    rcases rest with _ | ⟨c, after⟩
    · exact .ok trivial valid
    · rw [keyParts]
      split
      · refine (keyPart_reads (skipGap_valid valid.tail) fuel).bind fun part next _ left => ?_
        exact ih (skipGap_valid left) _
      · exact .ok trivial valid

theorem key_reads (fuel : Nat) : Reads (fun _ => True) (key fuel rest) :=
  (keyPart_reads valid fuel).bind fun _ _ _ left => keyParts_reads (skipGap_valid left) fuel _

theorem keyOfPair_reads (fuel : Nat) : Reads (fun _ => True) (keyOfPair fuel rest) := by
  refine (key_reads valid fuel).bind fun k next _ left => ?_
  rcases next with _ | ⟨c, after⟩
  · exact .error _
  · dsimp only
    split
    · exact .ok ⟨trivial, skipGap_valid left.tail⟩
    · exact .error _

theorem skipBetweenItems_gives (inComment : Bool) :
    Gives Text.Valid (skipBetweenItems inComment rest) := by
  induction rest generalizing inComment with
  | nil => exact .ok valid
  | cons c after ih =>
    rw [skipBetweenItems]
    split_ifs
    · exact .error _
    · exact ih valid.tail true
    · exact ih valid.tail false
    · exact ih valid.tail true
    · exact .ok valid

end Keys

private theorem asText_reads {result : Except Fault (Text × Text)} (reads : Reads Text.Valid result) :
    Reads Value.Valid (do let (t, next) ← result; return (.text t, next)) :=
  reads.bind fun t _ held left => .ok ⟨(Value.valid_text t).mpr held, left⟩

theorem values_read (fuel : Nat) :
    (∀ rest : Text, rest.Valid → Reads Value.Valid (value fuel rest)) ∧
    (∀ (items : List Value) (rest : Text), (∀ v ∈ items, v.Valid) → rest.Valid →
      Reads Value.Valid (arrayItems fuel items rest)) ∧
    (∀ (table : Inline) (rest : Text), table.table.Valid → rest.Valid →
      Reads Value.Valid (inlinePairs fuel table rest)) := by
  -- The three readers call each other with less fuel, so they are judged together.
  induction fuel with
  | zero => exact ⟨fun _ _ => .error _, fun _ _ _ _ => .error _, fun _ _ _ _ => .error _⟩
  | succ fuel ih =>
    obtain ⟨ofValue, ofItems, ofPairs⟩ := ih
    have empty : (Value.list []).Valid ∧ (Value.object []).Valid :=
      ⟨(Value.valid_list []).mpr nofun, (Value.valid_object []).mpr nofun⟩
    refine ⟨fun rest valid => ?_, fun items rest before valid => ?_,
      fun table rest before valid => ?_⟩
    · rcases rest with _ | ⟨c, after⟩
      · exact .error _
      rw [value]
      split
      · dsimp only
        split
        · exact asText_reads (basicBlock_reads (valid.drop 3) fuel)
        · exact asText_reads (basicLine_reads valid.tail fuel)
      split
      · dsimp only
        split
        · exact asText_reads (literalBlock_reads (valid.drop 3))
        · exact asText_reads (literalLine_reads valid.tail)
      split
      · exact .ok nofun (valid.drop 4)
      split
      · exact .ok nofun (valid.drop 5)
      split
      · refine (skipBetweenItems_gives valid.tail false).bind fun next left => ?_
        split
        · exact .ok ⟨empty.1, left.drop 1⟩
        · exact ofItems [] next nofun left
      split
      · have left := skipGap_valid valid.tail
        dsimp only
        split
        · exact .ok empty.2 (left.drop 1)
        · exact ofPairs {} _ nofun left
      · exact scalar_reads valid
    · rw [arrayItems]
      refine (ofValue rest valid).bind fun v next held left => ?_
      refine (skipBetweenItems_gives left false).bind fun later left => ?_
      have items : (Value.list (v :: items).reverse).Valid := by
        refine (Value.valid_list _).mpr fun u member => ?_
        rcases List.mem_cons.mp (List.mem_reverse.mp member) with rfl | old
        · exact held
        · exact before u old
      rcases later with _ | ⟨c, after⟩
      · exact .error _
      dsimp only
      split
      · exact .ok ⟨items, left.tail⟩
      split
      · refine (skipBetweenItems_gives left.tail false).bind fun following left => ?_
        split
        · exact .ok ⟨items, left.drop 1⟩
        · exact ofItems _ following (List.forall_mem_cons.mpr ⟨held, before⟩) left
      · exact .error _
    · rw [inlinePairs]
      refine (keyOfPair_reads valid fuel).bind fun k start _ left => ?_
      refine (ofValue start left).bind fun v next held left => ?_
      refine (inline_assign_gives table before next k v held).bind fun table grown => ?_
      have later := skipGap_valid left
      generalize skipGap next = closing at later ⊢
      rcases closing with _ | ⟨c, after⟩
      · exact .error _
      dsimp only
      split
      · exact .ok ⟨(Value.valid_object _).mpr grown, later.tail⟩
      split
      · exact ofPairs table _ grown (skipGap_valid later.tail)
      · exact .error _

section Statements

variable {d : Document} (grown : d.Valid) {rest : Text} (valid : rest.Valid) (fuel : Nat)

include grown valid

theorem pairStatement_reads : Reads Document.Valid (pairStatement fuel d rest) := by
  refine (keyOfPair_reads valid fuel).bind fun k start _ left => ?_
  refine ((values_read (2 * fuel)).1 start left).bind fun v next held left => ?_
  exact (assign_gives grown next k v held).bind fun d grown => .ok ⟨grown, left⟩

theorem headerStatement_reads : Reads Document.Valid (headerStatement fuel d rest) := by
  have settled : d.settle.Valid := grown
  rw [headerStatement]
  dsimp only
  split
  · refine (key_reads (skipGap_valid (valid.drop 2)) fuel).bind fun k next _ left => ?_
    refine (append_gives settled next k).bind fun d grown => ?_
    split
    · exact .ok ⟨grown, left.drop 2⟩
    · exact .error _
  · refine (key_reads (skipGap_valid (valid.drop 1)) fuel).bind fun k next _ left => ?_
    refine (declare_gives settled next k).bind fun d grown => ?_
    split
    · exact .ok ⟨grown, left.drop 1⟩
    · exact .error _

theorem statement_reads (c : Nat) : Reads Document.Valid (statement fuel d c rest) := by
  rw [statement]
  split_ifs
  · exact pairStatement_reads grown valid fuel
  · exact headerStatement_reads grown valid fuel
  · exact .ok grown valid
  · exact .error _

theorem statements_gives : Gives Document.Valid (statements fuel d rest) := by
  induction fuel generalizing d rest with
  | zero => exact .ok grown
  | succ fuel ih =>
    have left := skipGap_valid valid
    rw [statements]
    generalize skipGap rest = later at left ⊢
    rcases later with _ | ⟨c, after⟩
    · exact .ok grown
    dsimp only
    split
    · exact ih grown left.tail
    · refine (statement_reads grown left (fuel + 1) c).bind fun d next grown left => ?_
      refine (skipComment_gives (skipGap_valid left)).bind fun closing left => ?_
      rcases closing with _ | ⟨e, following⟩
      · exact .ok grown
      · dsimp only
        split
        · exact ih grown left.tail
        · exact .error _

end Statements

theorem joinReturns_subset (t : Text) : joinReturns t ⊆ t := by
  fun_induction joinReturns t with
  | case1 => exact List.Subset.refl _
  | case2 => exact List.Subset.refl _
  | case3 c next rest pair ih => exact List.subset_cons_of_subset c ih
  | case4 c next rest other ih => exact List.cons_subset_cons c ih

theorem read_valid (t : Text) (valid : t.Valid) (manifest : Members)
    (done : read t = .ok manifest) : manifest.Valid := by
  have held : (joinReturns t).Valid := valid.subset (joinReturns_subset t)
  have gives := statements_gives (d := {}) nofun held ((joinReturns t).length + 1)
  rw [read] at done
  split at done
  next d made =>
    cases done
    exact gives d made
  · cases done

theorem load_eq_ok (t : FileTree) (p : Path) (manifest : Members) :
    load t p = .ok manifest ↔ ∃ bytes content, t.read p = .ok bytes ∧
      Utf8.decodeStrict bytes = .ok content ∧ read content = .ok manifest := by
  rw [load]
  rcases t.read p with fault | bytes
  · simp [Except.mapError, bind, Except.bind]
  rcases decoded : Utf8.decodeStrict bytes with fault | content
  · simp [Except.mapError, bind, Except.bind, decoded]
  rcases done : read content with fault | members <;>
    simp [Except.mapError, bind, Except.bind, decoded, done]

theorem load_valid (t : FileTree) (p : Path) (manifest : Members)
    (loaded : load t p = .ok manifest) : manifest.Valid := by
  obtain ⟨bytes, content, -, decoded, done⟩ := (load_eq_ok t p manifest).mp loaded
  exact read_valid content (Utf8.decodeStrict_valid bytes content decoded) manifest done

end Toml
end LintCorpus
