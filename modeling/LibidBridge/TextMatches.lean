import LibidBridge.DelimitedText

/-!
# Counting and replacing the matches of a pattern

The matches of a pattern in a text, taken from the left and without overlap,
as a string library counts and replaces them.  A text with one match is that
match between two texts, and replacing it changes nothing else.
-/

namespace LibidBridge

namespace Matches

variable {α : Type*} [DecidableEq α]

/-- The matches in a text, past the letters that an earlier match still
covers. -/
def countFrom (pattern : List α) : Nat → List α → Nat
  | _, [] => 0
  | covered + 1, _ :: rest => countFrom pattern covered rest
  | 0, letter :: rest =>
      if pattern.isPrefixOf (letter :: rest) then
        countFrom pattern (pattern.length - 1) rest + 1
      else countFrom pattern 0 rest

/-- How many times a nonempty pattern matches. -/
def count (pattern text : List α) : Nat :=
  countFrom pattern 0 text

def replaceFrom (pattern replacement : List α) : Nat → List α → List α
  | _, [] => []
  | covered + 1, _ :: rest => replaceFrom pattern replacement covered rest
  | 0, letter :: rest =>
      if pattern.isPrefixOf (letter :: rest) then
        replacement ++ replaceFrom pattern replacement (pattern.length - 1) rest
      else letter :: replaceFrom pattern replacement 0 rest

def replace (pattern replacement text : List α) : List α :=
  replaceFrom pattern replacement 0 text

theorem countFrom_covered (pattern : List α) (covered rest : List α) :
    countFrom pattern covered.length (covered ++ rest) = countFrom pattern 0 rest := by
  induction covered with
  | nil => rfl
  | cons letter covered ih => simpa [countFrom] using ih

theorem replaceFrom_covered (pattern replacement : List α) (covered rest : List α) :
    replaceFrom pattern replacement covered.length (covered ++ rest) =
      replaceFrom pattern replacement 0 rest := by
  induction covered with
  | nil => rfl
  | cons letter covered ih => simpa [replaceFrom] using ih

/-- A match at the head is counted, and the count goes on after it. -/
theorem count_match {pattern : List α} (nonempty : pattern ≠ []) (rest : List α) :
    count pattern (pattern ++ rest) = count pattern rest + 1 := by
  obtain ⟨letter, letters, rfl⟩ := List.exists_cons_of_ne_nil nonempty
  have covered := countFrom_covered (letter :: letters) letters rest
  simp [count, countFrom, covered]

theorem replace_match {pattern : List α} (nonempty : pattern ≠ [])
    (replacement rest : List α) :
    replace pattern replacement (pattern ++ rest) =
      replacement ++ replace pattern replacement rest := by
  obtain ⟨letter, letters, rfl⟩ := List.exists_cons_of_ne_nil nonempty
  have covered := replaceFrom_covered (letter :: letters) replacement letters rest
  simp [replace, replaceFrom, covered]

theorem count_letter {pattern rest : List α} {letter : α}
    (unmatched : ¬ pattern <+: letter :: rest) :
    count pattern (letter :: rest) = count pattern rest := by
  simp [count, countFrom, unmatched]

theorem replace_letter {pattern rest : List α} {letter : α} (replacement : List α)
    (unmatched : ¬ pattern <+: letter :: rest) :
    replace pattern replacement (letter :: rest) =
      letter :: replace pattern replacement rest := by
  simp [replace, replaceFrom, unmatched]

theorem replace_of_count_zero {pattern text : List α} (nonempty : pattern ≠ [])
    (replacement : List α) (unmatched : count pattern text = 0) :
    replace pattern replacement text = text := by
  induction text with
  | nil => rfl
  | cons letter text ih =>
      by_cases found : pattern <+: letter :: text
      · obtain ⟨rest, split⟩ := found
        rw [← split, count_match nonempty] at unmatched
        omega
      · rw [count_letter found] at unmatched
        rw [replace_letter replacement found, ih unmatched]

/-- The pattern stands at a position of the text, whatever other occurrence
covers that position. -/
def OccursAt (pattern text : List α) (position : Nat) : Prop :=
  pattern <+: text.drop position

instance (pattern text : List α) (position : Nat) :
    Decidable (OccursAt pattern text position) :=
  inferInstanceAs (Decidable (_ <+: _))

omit [DecidableEq α] in
theorem not_occursAt_nil {pattern : List α} (nonempty : pattern ≠ []) (position : Nat) :
    ¬ OccursAt pattern [] position := by
  simpa [OccursAt] using nonempty

omit [DecidableEq α] in
theorem occursAt_append (before : List α) {pattern text : List α} {position : Nat} :
    OccursAt pattern (before ++ text) (before.length + position) ↔
      OccursAt pattern text position := by
  have passed : before.drop (before.length + position) = [] :=
    List.drop_eq_nil_of_le (by omega)
  simp [OccursAt, List.drop_append, passed]

omit [DecidableEq α] in
/-- An occurrence goes on standing where the text is extended. -/
theorem OccursAt.append {pattern text : List α} {position : Nat}
    (occurs : OccursAt pattern text position) (after : List α) :
    OccursAt pattern (text ++ after) position := by
  have extended : text.drop position <+: (text ++ after).drop position := by
    rw [List.drop_append]
    exact List.prefix_append _ _
  exact occurs.trans extended

/-- Nothing matches exactly where the pattern occurs nowhere. -/
theorem count_eq_zero_iff {pattern text : List α} (nonempty : pattern ≠ []) :
    count pattern text = 0 ↔ ∀ position, ¬ OccursAt pattern text position := by
  induction text with
  | nil => simp [count, countFrom, not_occursAt_nil nonempty]
  | cons letter text ih =>
      by_cases found : pattern <+: letter :: text
      · obtain ⟨rest, split⟩ := found
        have counted := count_match nonempty rest
        rw [split] at counted
        constructor
        · intro unmatched
          omega
        · intro absent
          exact absurd ⟨rest, split⟩ (absent 0)
      · rw [count_letter found, ih]
        constructor
        · intro absent position
          cases position with
          | zero => exact found
          | succ position => exact absent position
        · intro absent position
          exact absent (position + 1)

/-- Something matches once exactly where there is a first occurrence and every
other one overlaps it. -/
theorem count_eq_one_iff {pattern text : List α} (nonempty : pattern ≠ []) :
    count pattern text = 1 ↔ ∃ first, OccursAt pattern text first ∧
      ∀ position, OccursAt pattern text position →
        first ≤ position ∧ position < first + pattern.length := by
  induction text with
  | nil => simp [count, countFrom, not_occursAt_nil nonempty]
  | cons letter text ih =>
      by_cases found : pattern <+: letter :: text
      · obtain ⟨rest, split⟩ := found
        have counted := count_match nonempty rest
        rw [split] at counted
        have once : count pattern (letter :: text) = 1 ↔ count pattern rest = 0 := by
          omega
        rw [once, count_eq_zero_iff nonempty]
        constructor
        · intro absent
          refine ⟨0, ⟨rest, split⟩, fun position occurs => ⟨by omega, ?_⟩⟩
          by_contra beyond
          apply absent (position - pattern.length)
          rw [← occursAt_append pattern, split]
          rwa [show pattern.length + (position - pattern.length) = position by omega]
        · rintro ⟨first, occurs, overlapping⟩ position later
          have atHead := overlapping 0 ⟨rest, split⟩
          rw [← occursAt_append pattern, split] at later
          have := overlapping _ later
          omega
      · rw [count_letter found, ih]
        constructor
        · rintro ⟨first, occurs, overlapping⟩
          refine ⟨first + 1, occurs, fun position later => ?_⟩
          cases position with
          | zero => exact absurd later found
          | succ position =>
              have := overlapping position later
              omega
        · rintro ⟨first, occurs, overlapping⟩
          cases first with
          | zero => exact absurd occurs found
          | succ first =>
              refine ⟨first, occurs, fun position later => ?_⟩
              have := overlapping (position + 1) later
              omega

omit [DecidableEq α] in
/-- Where a pattern occurs twice at positions that overlap, its end is also its
beginning. -/
theorem drop_prefix_of_occursAt {pattern text : List α} {first shift : Nat}
    (occurs : OccursAt pattern text first) (again : OccursAt pattern text (first + shift)) :
    pattern.drop shift <+: pattern := by
  have dropped : pattern.drop shift <+: text.drop (first + shift) := by
    rw [← List.drop_drop]
    exact List.IsPrefix.drop occurs shift
  apply List.prefix_of_prefix_length_le dropped again
  simp

omit [DecidableEq α] in
theorem not_occursAt_of_notMem {pattern text : List α} {letter : α}
    (member : letter ∈ pattern) (missing : letter ∉ text) (position : Nat) :
    ¬ OccursAt pattern text position := by
  intro occurs
  apply missing
  exact List.mem_of_mem_drop (occurs.subset member)

omit [DecidableEq α] in
/-- An occurrence does not go across a letter that the pattern does not hold. -/
theorem OccursAt.before_or_after {pattern before after : List α} {letter : α}
    {position : Nat} (occurs : OccursAt pattern (before ++ letter :: after) position)
    (foreign : letter ∉ pattern) :
    OccursAt pattern before position ∨ ∃ later, OccursAt pattern after later := by
  by_cases ends : position + pattern.length ≤ before.length
  · left
    have standing : pattern <+: before.drop position ++ (letter :: after) := by
      have inside : position - before.length = 0 := by omega
      simpa [OccursAt, List.drop_append, inside] using occurs
    apply List.prefix_of_prefix_length_le standing (List.prefix_append _ _)
    rw [List.length_drop]
    omega
  · right
    by_cases starts : before.length < position
    · refine ⟨position - (before.length + 1), ?_⟩
      rw [← occursAt_append (before ++ [letter])]
      have standing : (before ++ [letter]).length + (position - (before.length + 1)) =
          position := by
        rw [List.length_append, List.length_singleton]
        omega
      rw [standing]
      simpa using occurs
    · have inside : before.length - position < pattern.length := by omega
      have found := List.prefix_iff_getElem?.mp occurs (before.length - position) inside
      rw [List.getElem?_drop, show position + (before.length - position) = before.length
        by omega] at found
      have same : letter = pattern[before.length - position] := by simpa using found
      exact absurd (same ▸ List.getElem_mem inside) foreign

omit [DecidableEq α] in
/-- Between two letters that the pattern does not hold, a text without the
pattern joins two others without it into one without it. -/
theorem not_occursAt_fenced {pattern before inner after : List α} {opening closing : α}
    (openingForeign : opening ∉ pattern) (closingForeign : closing ∉ pattern)
    (beforeFree : ∀ position, ¬ OccursAt pattern before position)
    (innerFree : ∀ position, ¬ OccursAt pattern inner position)
    (afterFree : ∀ position, ¬ OccursAt pattern after position) (position : Nat) :
    ¬ OccursAt pattern (before ++ (opening :: inner ++ [closing]) ++ after) position := by
  intro occurs
  have fenced : before ++ (opening :: inner ++ [closing]) ++ after =
      before ++ opening :: (inner ++ closing :: after) := by simp
  rw [fenced] at occurs
  rcases occurs.before_or_after openingForeign with inBefore | ⟨later, inRest⟩
  · exact beforeFree position inBefore
  · rcases inRest.before_or_after closingForeign with inInner | ⟨last, inAfter⟩
    · exact innerFree later inInner
    · exact afterFree last inAfter

/-- A text with one match is what precedes it, the match and what follows, with
no occurrence in either part, and replacing changes the match alone. -/
theorem exists_free_split_of_count_one {pattern text : List α} (nonempty : pattern ≠ [])
    (once : count pattern text = 1) :
    ∃ before after, text = before ++ pattern ++ after ∧
      (∀ position, ¬ OccursAt pattern before position) ∧
      (∀ position, ¬ OccursAt pattern after position) ∧
      ∀ replacement,
        replace pattern replacement text = before ++ replacement ++ after := by
  induction text with
  | nil => simp [count, countFrom] at once
  | cons letter text ih =>
      by_cases found : pattern <+: letter :: text
      · obtain ⟨rest, split⟩ := found
        rw [← split, count_match nonempty] at once
        have unmatched : count pattern rest = 0 := by omega
        refine ⟨[], rest, by simp [split], not_occursAt_nil nonempty,
          (count_eq_zero_iff nonempty).mp unmatched, fun replacement => ?_⟩
        rw [← split, replace_match nonempty,
          replace_of_count_zero nonempty replacement unmatched]
        simp
      · rw [count_letter found] at once
        obtain ⟨before, after, split, beforeFree, afterFree, replaced⟩ := ih once
        refine ⟨letter :: before, after, by simp [split], ?_, afterFree,
          fun replacement => ?_⟩
        · intro position occurs
          cases position with
          | zero =>
              apply found
              have extended := occurs.append (pattern ++ after)
              simpa [OccursAt, split] using extended
          | succ position => exact beforeFree position occurs
        · rw [replace_letter replacement found, replaced]
          simp

section Encoded

variable {pattern : Text} (ascii : ∀ letter ∈ pattern, letter.toNat < 0x80)

include ascii

theorem prefix_of_bytes_prefix {text : Text} (standing : Text.bytes pattern <+: Text.bytes text) :
    pattern <+: text := by
  induction pattern generalizing text with
  | nil => exact List.nil_prefix
  | cons letter pattern ih =>
      have letterAscii := ascii letter (by simp)
      rw [Text.bytes_cons_of_ascii letterAscii] at standing
      cases text with
      | nil => simp at standing
      | cons other text =>
          rcases Text.bytes_cons_cases other text with
            ⟨small, encoded⟩ | ⟨_, lead, rest, leadHigh, encoded⟩
          · rw [encoded, List.cons_prefix_cons] at standing
            have codes := congrArg UInt8.toNat standing.1
            rw [Text.toNat_ofNat_of_ascii letterAscii, Text.toNat_ofNat_of_ascii small] at codes
            rw [Char.toNat_inj.mp codes, List.cons_prefix_cons]
            exact ⟨rfl, ih (fun next member => ascii next (by simp [member])) standing.2⟩
          · rw [encoded, List.cons_prefix_cons] at standing
            rw [← standing.1, Text.toNat_ofNat_of_ascii letterAscii] at leadHigh
            omega

/-- An ASCII pattern occurs in the bytes of a text only where it occurs in the
text: no byte of another character is an ASCII code. -/
theorem exists_occursAt_of_bytes {text : Text} (nonempty : pattern ≠ []) {position : Nat}
    (occurs : OccursAt (Text.bytes pattern) (Text.bytes text) position) :
    ∃ place, OccursAt pattern text place := by
  induction text generalizing position with
  | nil => exact absurd occurs (not_occursAt_nil (by simpa using nonempty) position)
  | cons letter text ih =>
      by_cases start : position = 0
      · subst start
        exact ⟨0, prefix_of_bytes_prefix ascii occurs⟩
      · have split : Text.bytes (letter :: text) =
            String.utf8EncodeChar letter ++ Text.bytes text := rfl
        by_cases past : (String.utf8EncodeChar letter).length ≤ position
        · rw [split, ← Nat.add_sub_of_le past, occursAt_append] at occurs
          obtain ⟨place, found⟩ := ih occurs
          exact ⟨place + 1, found⟩
        -- A position inside a character is at a byte that is no ASCII code.
        · obtain ⟨head, rest, rfl⟩ := List.exists_cons_of_ne_nil nonempty
          have headAscii := ascii head (by simp)
          have inside : position < (String.utf8EncodeChar letter).length := by omega
          rw [Text.bytes_cons_of_ascii headAscii, split, OccursAt,
            List.drop_append_of_le_length inside.le, List.drop_eq_getElem_cons inside,
            List.cons_append, List.cons_prefix_cons] at occurs
          rcases Text.utf8EncodeChar_cases letter with ⟨_, encoded⟩ | ⟨_, _, high⟩
          · rw [encoded, List.length_singleton] at inside
            omega
          · have byteHigh := high _ (List.getElem_mem inside)
            rw [← occurs.1, Text.toNat_ofNat_of_ascii headAscii] at byteHigh
            omega

end Encoded

end Matches

end LibidBridge
