import LintCorpus.Proofs.Toml.Strings
import LintCorpus.Toml.Scalar

/-!
The numbers, days and times of a document. None of them holds a text, and all their readers only
pass over a beginning of the text they read from.
-/
namespace LintCorpus

/-- The texts in a value, other than the names of members. -/
inductive Value.Holds : Value → Text → Prop
  | text (t : Text) : Holds (.text t) t
  | item (items : List Value) (v : Value) (t : Text) (member : v ∈ items) (inside : Holds v t) :
      Holds (.list items) t
  | member (members : List (Text × Value)) (entry : Text × Value) (t : Text)
      (member : entry ∈ members) (inside : Holds entry.2 t) : Holds (.object members) t

/-- A value in which every text is one of characters only. -/
def Value.Valid (v : Value) : Prop := ∀ t, v.Holds t → t.Valid

namespace Toml

/-- A reader that, if it finds anything, finds what `P` holds of and leaves a text of characters. -/
def Finds {α : Type} (P : α → Prop) (result : Option (α × Text)) : Prop :=
  ∀ a next, result = some (a, next) → P a ∧ next.Valid

namespace Finds

variable {α β : Type} {P : α → Prop} {Q : β → Prop}

theorem none : Finds P .none := nofun

theorem some {a : α} {next : Text} (held : P a) (valid : next.Valid) :
    Finds P (.some (a, next)) := by
  intro b rest same
  cases same
  exact ⟨held, valid⟩

theorem bind {result : Option (α × Text)} {then_ : α × Text → Option (β × Text)}
    (finds : Finds P result)
    (following : ∀ a next, P a → next.Valid → Finds Q (then_ (a, next))) :
    Finds Q (result >>= then_) := by
  rcases result with _ | ⟨a, next⟩
  · exact none
  · obtain ⟨held, valid⟩ := finds a next rfl
    exact following a next held valid

theorem behind {result : Option Text} {then_ : Text → Option (β × Text)}
    (leaves : ∀ next, result = .some next → next.Valid)
    (following : ∀ next, next.Valid → Finds Q (then_ next)) : Finds Q (result >>= then_) := by
  rcases result with _ | next
  · exact none
  · exact following next (leaves next rfl)

theorem or {first second : Option (α × Text)} (one : Finds P first) (two : Finds P second) :
    Finds P (first.or second) := by
  rcases first with _ | found
  · exact two
  · exact one

theorem map {result : Option (α × Text)} (f : α → β) (finds : Finds P result)
    (kept : ∀ a, P a → Q (f a)) : Finds Q (result.map fun (a, next) => (f a, next)) := by
  rcases result with _ | ⟨a, next⟩
  · exact none
  · obtain ⟨held, valid⟩ := finds a next rfl
    exact some (kept a held) valid

end Finds

variable {rest : Text} (valid : rest.Valid)

include valid

theorem digitRun_valid (value? : Nat → Option Nat) : (digitRun value? rest).2.Valid := by
  fun_induction digitRun value? rest with
  | case1 => exact valid
  | case2 => exact nofun
  | case3 => exact valid
  | case4 => exact valid
  | case5 => exact valid.tail
  | case6 c rest d value ds after run some ih =>
    have later := ih valid.tail.tail
    rwa [run] at later
  | case7 c next rest d value other ds after run ih =>
    have later := ih valid.tail
    rwa [run] at later

private theorem digits_finds {α : Type} {P : α → Prop} (value? : Nat → Option Nat)
    (made : List Nat → α) (held : ∀ digits, P (made digits)) :
    Finds P (let (digits, next) := digitRun value? rest
      if digits.isEmpty then none else some (made digits, next)) := by
  dsimp only
  split
  · exact .none
  · exact .some (held _) (digitRun_valid valid value?)

theorem basedInteger?_finds : Finds Value.Valid (basedInteger? rest) := by
  rcases rest with _ | ⟨z, _ | ⟨m, after⟩⟩
  · exact .none
  · exact .none
  have attempt : ∀ (mark : Char) (base : Nat), Finds Value.Valid
      (if z = '0'.toNat && m = mark.toNat then
        let (digits, next) := digitRun (digitBelow? base) after
        if digits.isEmpty then none else some (.int (inBase base digits), next)
      else none) := by
    intro mark base
    split
    · exact digits_finds valid.tail.tail (digitBelow? base) (fun ds => Value.int (inBase base ds))
        fun _ => nofun
    · exact .none
  exact (attempt 'x' 16).or ((attempt 'b' 2).or (attempt 'o' 8))

theorem sign_valid : (sign rest).2.Valid := by
  rcases rest with _ | ⟨c, after⟩
  · exact valid
  · rw [sign]
    split_ifs
    · exact valid.tail
    · exact valid.tail
    · exact valid

theorem fraction?_finds : Finds (fun _ => True) (fraction? rest) := by
  rcases rest with _ | ⟨c, after⟩
  · exact .none
  · rw [fraction?]
    split
    · exact digits_finds valid.tail decimalDigit? id fun _ => trivial
    · exact .none

theorem exponent?_finds : Finds (fun _ => True) (exponent? rest) := by
  rcases rest with _ | ⟨c, after⟩
  · exact .none
  · rw [exponent?]
    split
    · refine digits_finds (sign_valid valid.tail) decimalDigit? (fun ds =>
        if (sign after).1 then -(inBase 10 ds : Int) else (inBase 10 ds : Int)) ?_
      exact fun _ => trivial
    · exact .none

theorem integerPart?_finds : Finds (fun _ => True) (integerPart? rest) := by
  rcases rest with _ | ⟨c, after⟩
  · exact .none
  · rw [integerPart?]
    split
    · exact .some trivial valid.tail
    · exact digits_finds valid decimalDigit? id fun _ => trivial

theorem decimal?_finds : Finds Value.Valid (decimal? rest) := by
  refine Finds.bind (integerPart?_finds (sign_valid valid)) fun whole afterWhole _ left => ?_
  have afterPart : ((fraction? afterWhole).getD ([], afterWhole)).2.Valid := by
    rcases found : fraction? afterWhole with _ | ⟨part, next⟩
    · exact left
    · exact (fraction?_finds left part next found).2
  have afterPower : ∀ body : Text, body.Valid →
      ((exponent? body).getD (0, body)).2.Valid := by
    intro body bodyValid
    rcases found : exponent? body with _ | ⟨power, next⟩
    · exact bodyValid
    · exact (exponent?_finds bodyValid power next found).2
  dsimp only
  split
  · exact .some nofun left
  · exact .some nofun (afterPower _ afterPart)

theorem special?_finds : Finds Value.Valid (special? rest) := by
  have body := sign_valid valid
  rw [special?]
  dsimp only
  split
  · exact .some nofun (body.drop 3)
  · split
    · exact .some nofun (body.drop 3)
    · exact .none

theorem fixedDigits?_finds (count : Nat) : Finds (fun _ => True) (fixedDigits? count rest) := by
  rw [fixedDigits?]
  rcases (rest.take count).mapM decimalDigit? with _ | digits
  · exact .none
  · show Finds _ (if digits.length < count then none else _)
    split
    · exact .none
    · exact .some trivial (valid.drop count)

theorem after?_valid (c : Char) (next : Text) (found : after? c rest = some next) :
    next.Valid := by
  rcases rest with _ | ⟨d, after⟩
  · cases found
  · rw [after?] at found
    split at found
    · cases found
      exact valid.tail
    · cases found

theorem microseconds_valid : (microseconds rest).2.Valid := by
  have finds : Finds (fun _ => True) (microseconds.fractionDigits? rest) := by
    refine Finds.behind (after?_valid valid '.') fun body left => ?_
    dsimp only
    split
    · exact .none
    · exact .some trivial (left.drop _)
  rw [microseconds]
  split
  next digits next found => exact (finds digits next found).2
  · exact valid

theorem clock?_finds : Finds (fun _ => True) (clock? rest) := by
  refine Finds.bind (fixedDigits?_finds valid 2) fun hour _ _ left => ?_
  refine Finds.behind (after?_valid left ':') fun _ left => ?_
  refine Finds.bind (fixedDigits?_finds left 2) fun minute _ _ left => ?_
  refine Finds.behind (after?_valid left ':') fun _ left => ?_
  refine Finds.bind (fixedDigits?_finds left 2) fun second _ _ left => ?_
  dsimp only
  split
  · exact .none
  · exact .some trivial (microseconds_valid left)

theorem offset?_finds : Finds (fun _ => True) (offset? rest) := by
  rcases rest with _ | ⟨c, after⟩
  · exact .none
  · rw [offset?]
    split
    · exact .some trivial valid.tail
    · split
      · refine Finds.bind (fixedDigits?_finds valid.tail 2) fun hour _ _ left => ?_
        refine Finds.behind (after?_valid left ':') fun _ left => ?_
        refine Finds.bind (fixedDigits?_finds left 2) fun minute _ _ left => ?_
        dsimp only
        split
        · exact .none
        · exact .some trivial left
      · exact .none

theorem date?_finds : Finds (fun _ => True) (date? rest) := by
  refine Finds.bind (fixedDigits?_finds valid 4) fun year _ _ left => ?_
  refine Finds.behind (after?_valid left '-') fun _ left => ?_
  refine Finds.bind (fixedDigits?_finds left 2) fun month _ _ left => ?_
  refine Finds.behind (after?_valid left '-') fun _ left => ?_
  refine Finds.bind (fixedDigits?_finds left 2) fun day _ _ left => ?_
  dsimp only
  split
  · exact .none
  · exact .some trivial left

theorem clockAfterDate?_finds : Finds (fun _ => True) (clockAfterDate? rest) := by
  rcases rest with _ | ⟨c, after⟩
  · exact .none
  · rw [clockAfterDate?]
    split
    · exact clock?_finds valid.tail
    · exact .none

theorem moment?_valid (d : Date) (v : Value) (next : Text)
    (found : moment? rest = some (d, v, next)) : v.Valid ∧ next.Valid := by
  obtain ⟨⟨day, afterDate⟩, dated, found⟩ := Option.bind_eq_some_iff.mp found
  have left := (date?_finds valid day afterDate dated).2
  dsimp only at found
  split at found
  · cases found
    exact ⟨nofun, left⟩
  next c afterClock timed =>
    have left := (clockAfterDate?_finds left c afterClock timed).2
    split at found
    · cases found
      exact ⟨nofun, left⟩
    next minutes last shifted =>
      cases found
      exact ⟨nofun, (offset?_finds left minutes _ shifted).2⟩

private theorem undated_finds : Finds Value.Valid
    (((clock? rest).map fun (c, next) => (Value.clock c, next)).or
      ((number? rest).or (special? rest))) :=
  ((clock?_finds valid).map _ fun _ _ => nofun).or
    (((basedInteger?_finds valid).or (decimal?_finds valid)).or (special?_finds valid))

theorem scalar_reads : Reads Value.Valid (scalar rest) := by
  rw [scalar]
  split
  next d v next found =>
    obtain ⟨held, left⟩ := moment?_valid valid d v next found
    split
    · exact .ok held left
    · exact .error _
  · split
    next v next found =>
      obtain ⟨held, left⟩ := undated_finds valid _ _ found
      exact .ok held left
    · exact .error _

end Toml
end LintCorpus
