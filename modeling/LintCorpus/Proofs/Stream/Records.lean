import LintCorpus.Proofs.Stream.Clean

/-!
Records over several lines. While the lines of an object come in, the record that is open holds the
beginning of the object's text, and the scanner knows what the reader of that text would know. So
the record stays open before the last brace of the object and is complete there.
-/
namespace LintCorpus.StreamReader
open StreamEvent (Reads)

/-- The open record holds the beginning `front` of an object's text, after which the reader of that
text is `q`. -/
structure Holds (r : StreamReader) (front : Text) (q : Json.Reader) : Prop where
  inside : r.mode = .inRecord
  present : r.buffer ≠ []
  text : r.buffered = front
  size : r.size = front.length
  begins : front.startsWith "\x7b" = true
  taken : front.foldlM Json.Reader.step {} = .ok q
  scanner : r.scanner = q.nesting

variable {limits : StreamLimits} {r : StreamReader} {front line : Text} {q last : Json.Reader}

theorem Holds.grown (holds : Holds r front q)
    (taken : (front ++ 0x0A :: line).foldlM Json.Reader.step {} = .ok last) :
    Holds (r.grown line) (front ++ 0x0A :: line) last := by
  have scanned : r.scanner.feed line = last.nesting := by
    obtain ⟨middle, before, others⟩ := Json.Reader.foldlM_append_ok taken
    obtain rfl : q = middle := Except.ok.inj (holds.taken.symm.trans before)
    obtain ⟨next, feed, later⟩ := Json.Reader.foldlM_cons_ok others
    have nested := (Json.Reader.foldlM_brace holds.begins holds.taken).1
    rw [holds.scanner, ← Json.Reader.nesting_feed nested feed]
    exact Json.Reader.feed_nesting (Json.Reader.step_follows nested feed).nested later
  exact {
    inside := holds.inside
    present := by simp [StreamReader.grown]
    text := by rw [buffered_grown r line holds.present, holds.text]
    size := by simp [StreamReader.grown, holds.size, Nat.add_assoc]
    begins := Text.startsWith_append holds.begins _
    taken
    scanner := scanned }

/-- The record goes on with a line before the object's last brace, and is read with the last
line. -/
theorem Holds.reads {t : Text} {v : Value} (accepted : Json.load limits.toLimits t = .ok v)
    (ends : t.getLast? = some '\x7d'.toNat) (fits : (t.length : Int) ≤ limits.size) (rest : List Text)
    (more : rest ≠ []) (continues : ∀ line ∈ rest, line.startsWith "\x7b\"" = false)
    (number : Nat) (holds : Holds r front q) (whole : t = front ++ 0x0A :: Text.join [0x0A] rest) :
    (after limits r number rest).mode = .seeking ∧ Reads limits (events limits r number rest) [t] := by
  -- The induction is on the lines still to come; `Holds` carries what is known of those before.
  induction rest generalizing r front q number with
  | nil => cases more rfl
  | cons line others ih =>
    have begins : t.startsWith "\x7b" = true := whole ▸ Text.startsWith_append holds.begins _
    obtain ⟨final, members, taken, -, outline, ended, -⟩ := Json.read_object begins (Json.read_of_load accepted)
    have goes : line.startsWith "\x7b\"" = false := continues line (by simp)
    rw [after_cons, events_cons, step_continue limits r number line holds.inside goes]
    by_cases done : others = []
    · subst done
      rw [Text.join_singleton] at whole
      have holding := holds.grown (whole ▸ taken)
      have size : r.size + line.length + 1 = t.length := by
        rw [whole, ← holding.size]
        rfl
      have closed : (r.scanner.feed line).depth = 0 := by
        have scanned : r.scanner.feed line = final.nesting := holding.scanner
        rw [scanned]
        simp [Json.Reader.nesting, outline]
      rw [if_neg (by omega), if_neg (by omega), if_neg (by omega), holding.text, ← whole]
      exact ⟨rfl, decode_object begins accepted r.startLine⟩
    · have cut : t = (front ++ 0x0A :: line) ++ 0x0A :: Text.join [0x0A] others := by
        rw [whole, Text.join_cons _ _ _ done]
        simp
      obtain ⟨middle, before, later⟩ := Json.Reader.foldlM_append_ok (cut ▸ taken)
      have holding := holds.grown before
      have size : r.size + line.length + 1 ≤ t.length := by
        have grown : r.size + line.length + 1 = (front ++ 0x0A :: line).length := holding.size
        rw [grown, cut]
        exact (List.prefix_append _ _).length_le
      have brace : (0x0A :: Text.join [0x0A] others).getLast? = some '\x7d'.toNat := by
        rw [← ends, cut, List.getLast?_append_of_ne_nil _ (by simp)]
      have scanned : r.scanner.feed line = middle.nesting := holding.scanner
      have deep := Json.open_before_end holding.begins before later brace
      rw [if_neg (by omega), if_pos (by rw [scanned]; exact deep)]
      exact ih done (fun other member => continues other (by simp [member])) (number + 1) holding cut

theorem step_opens (limits : StreamLimits) (begins : line.startsWith "\x7b" = true)
    (taken : line.foldlM Json.Reader.step {} = .ok q) (deep : 0 < q.nesting.depth)
    (outside : r.mode ≠ .inRecord) (number : Nat) :
    ∃ next, step limits r number line = (next, [.started number]) ∧ Holds next line q := by
  have scanned : Scanner.feed {} line = q.nesting := (Json.Reader.foldlM_brace begins taken).2
  have started : begin limits line number =
      (⟨.inRecord, [line], line.length, number, q.nesting⟩, [.started number]) := by
    rw [begin_open limits number (by rw [scanned]; exact deep), scanned]
  refine ⟨_, by rw [step_begin limits r number line outside begins, started], ?_⟩
  exact ⟨rfl, by simp, Text.join_singleton _ _, rfl, begins, taken, rfl⟩

/-- The text of an object over one or more lines. -/
structure ObjectText (limits : StreamLimits) (t : Text) : Prop where
  accepted : ∃ v, Json.load limits.toLimits t = .ok v
  begins : t.startsWith "\x7b" = true
  ends : t.getLast? = some '\x7d'.toNat
  breaks : ∀ c ∈ t, Text.endsLine c = true → c = 0x0A
  continues : ∀ line ∈ t.lines.tail, line.startsWith "\x7b\"" = false
  fits : 0x0A ∈ t → (t.length : Int) ≤ limits.size

/-- A line that begins no record. -/
structure Chatter (line : Text) : Prop where
  plain : line.startsWith "\x7b" = false
  unbroken : ∀ c ∈ line, Text.endsLine c = false

theorem Chatter.clean (chatter : Chatter line) : Clean limits line.lines (objectTexts [line]) := by
  rw [objectTexts_of_plain chatter.plain]
  refine clean_chatter _ fun part member => ?_
  by_cases empty : line = []
  · rw [empty] at member
    cases member
  · rw [Text.lines_plain line chatter.unbroken empty, List.mem_singleton] at member
    rw [member, chatter.plain]

theorem ObjectText.clean {t : Text} (object : ObjectText limits t) :
    Clean limits t.lines (objectTexts [t]) := by
  obtain ⟨v, accepted⟩ := object.accepted
  have begins := object.begins
  have ends := object.ends
  have continues := object.continues
  have whole : Text.join [0x0A] t.lines = t := Text.join_lines t object.breaks (by simp [ends])
  rw [objectTexts_of_brace begins]
  cases cut : t.lines with
  | nil =>
    rw [cut] at whole
    rw [← whole] at begins
    cases begins
  | cons first rest =>
    rw [cut] at whole continues
    by_cases single : rest = []
    · rw [single, Text.join_singleton] at whole
      rw [single, whole]
      exact clean_line begins accepted
    · have split : t = first ++ 0x0A :: Text.join [0x0A] rest := by
        rw [← whole, Text.join_cons _ _ _ single, List.append_assoc]
        rfl
      have opens : first.startsWith "\x7b" = true :=
        Text.startsWith_of_append (split ▸ begins) (by decide)
      have brace : (0x0A :: Text.join [0x0A] rest).getLast? = some '\x7d'.toNat := by
        rw [← ends, split, List.getLast?_append_of_ne_nil _ (by simp)]
      obtain ⟨last, members, taken, -⟩ := Json.read_object begins (Json.read_of_load accepted)
      obtain ⟨middle, before, later⟩ := Json.Reader.foldlM_append_ok (split ▸ taken)
      have deep := Json.open_before_end opens before later brace
      intro r number seeking
      have outside : r.mode ≠ .inRecord := by simp [seeking]
      obtain ⟨next, opened, holds⟩ := step_opens limits opens before deep outside number
      obtain ⟨final, reads⟩ := holds.reads accepted ends (object.fits (by simp [split])) rest single
        continues (number + 1) split
      rw [after_cons, events_cons, opened]
      exact ⟨final, reads.records, reads.issues, reads.stops⟩

/-- A stream of chatter and of objects over any number of lines is read as these objects. -/
theorem items_delivered (limits : StreamLimits) (items : List Text)
    (valid : ∀ item ∈ items, ∀ c ∈ item, c.isValidChar)
    (shaped : ∀ item ∈ items, Chatter item ∨ ObjectText limits item) : Delivered limits items :=
  delivered_of_clean items valid fun item member =>
    (shaped item member).elim Chatter.clean ObjectText.clean

theorem items_delivered_pretty :
    Delivered { size := 24 } ["Compiling demo", "\x7b\n  \"a\": \x7b\"b\": 1\x7d\n\x7d", ""] := by
  refine items_delivered { size := 24 } _ (by decide) fun item member => ?_
  rcases List.mem_cons.mp member with rfl | later
  · exact .inl ⟨rfl, by decide⟩
  · rcases List.mem_cons.mp later with rfl | last
    · exact .inr ⟨⟨_, rfl⟩, rfl, rfl, by decide, by decide, by decide⟩
    · obtain rfl := List.mem_singleton.mp last
      exact .inl ⟨rfl, by decide⟩

end LintCorpus.StreamReader
