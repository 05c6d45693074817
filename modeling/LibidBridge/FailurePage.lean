import LibidBridge.Routes

/-!
# What a failure says

The text of a failure and the page that shows it.  The text keeps the message
of every layer of the error it was made from, and the page is the same markup
whatever that text holds.
-/

namespace LibidBridge

/-- One more layer of a failure: its message is appended where it is not
already contained. -/
def withLayer (why text : Text) : Text :=
  if text <:+: why then why else why ++ ": ".toList ++ text

theorem prefix_withLayer (why text : Text) : why <+: withLayer why text := by
  unfold withLayer
  split_ifs
  · exact List.prefix_rfl
  · rw [List.append_assoc]
    exact List.prefix_append _ _

theorem infix_withLayer (why text : Text) : text <:+: withLayer why text := by
  unfold withLayer
  split_ifs with contained
  · exact contained
  · exact (List.suffix_append _ _).isInfix

/-- What is written goes on standing under every later layer, and each layer is
contained from where it is visited on. -/
theorem layers_foldl (why : Text) (sources : List Text) :
    why <+: sources.foldl withLayer why ∧
      ∀ text ∈ sources, text <:+: sources.foldl withLayer why := by
  induction sources generalizing why with
  | nil => exact ⟨List.prefix_rfl, by simp⟩
  | cons source sources ih =>
      obtain ⟨stands, contained⟩ := ih (withLayer why source)
      rw [List.foldl_cons]
      constructor
      · exact (prefix_withLayer why source).trans stands
      · rw [List.forall_mem_cons]
        exact ⟨(infix_withLayer why source).trans stands.isInfix, contained⟩

/-- No layer of an error is lost: its failure begins with the outermost message
and contains the message of every layer. -/
theorem fromSource_keeps_layers (error : Text) (sources : List Text) :
    ∃ why, FetchError.fromSource error sources = .unreachable why ∧ error <+: why ∧
      ∀ text ∈ error :: sources, text <:+: why := by
  obtain ⟨stands, contained⟩ := layers_foldl error sources
  refine ⟨sources.foldl withLayer error, rfl, stands, ?_⟩
  rw [List.forall_mem_cons]
  exact ⟨stands.isInfix, contained⟩

/-- What each of the three markup characters is written as. -/
def ENTITIES : List (Char × Text) :=
  [('&', "&amp;".toList), ('<', "&lt;".toList), ('>', "&gt;".toList)]

/-- How one character of a failure is written. -/
def entity (letter : Char) : Text :=
  (ENTITIES.lookup letter).getD [letter]

/-- A text with its entities read back, in one pass from the left. -/
def decoded : Text → Text
  | '&' :: 'a' :: 'm' :: 'p' :: ';' :: rest => '&' :: decoded rest
  | '&' :: 'l' :: 't' :: ';' :: rest => '<' :: decoded rest
  | '&' :: 'g' :: 't' :: ';' :: rest => '>' :: decoded rest
  | letter :: rest => letter :: decoded rest
  | [] => []

theorem entity_cases (letter : Char) :
    (∃ written, (letter, written) ∈ ENTITIES ∧ entity letter = written) ∨
      (letter ≠ '&' ∧ letter ≠ '<' ∧ letter ≠ '>' ∧ entity letter = [letter]) := by
  by_cases ampersand : letter = '&'
  · subst ampersand
    exact Or.inl ⟨_, by decide, rfl⟩
  by_cases less : letter = '<'
  · subst less
    exact Or.inl ⟨_, by decide, rfl⟩
  by_cases greater : letter = '>'
  · subst greater
    exact Or.inl ⟨_, by decide, rfl⟩
  · have plain : ∀ other : Char, letter ≠ other → (letter == other) = false := by
      intro other distinct
      simpa using distinct
    right
    simp [entity, ENTITIES, List.lookup_cons, plain, ampersand, less, greater]

/-- Writing the ampersands first and the other two after them writes every
character once: neither later pass meets what an earlier one wrote. -/
theorem escaped_eq_flatMap (text : Text) : escaped text = text.flatMap entity := by
  unfold escaped replaceLetter
  rw [List.flatMap_assoc, List.flatMap_assoc]
  congr 1
  funext letter
  rcases entity_cases letter with ⟨written, member, same⟩ | ⟨ampersand, less, greater, same⟩
  · rw [same]
    revert member
    simp only [ENTITIES, List.mem_cons, Prod.mk.injEq, List.not_mem_nil, or_false]
    rintro (⟨rfl, rfl⟩ | ⟨rfl, rfl⟩ | ⟨rfl, rfl⟩) <;> decide
  · rw [same]
    simp [ampersand, less, greater]

theorem angle_notMem_entity {angle : Char} (markup : angle = '<' ∨ angle = '>')
    (letter : Char) : angle ∉ entity letter := by
  rcases entity_cases letter with ⟨written, member, same⟩ | ⟨_, less, greater, same⟩
  · have free : ∀ entry ∈ ENTITIES, '<' ∉ entry.2 ∧ '>' ∉ entry.2 := by decide
    rw [same]
    rcases markup with rfl | rfl
    · exact (free _ member).1
    · exact (free _ member).2
  · rw [same, List.mem_singleton]
    rcases markup with rfl | rfl
    · exact fun equal => less equal.symm
    · exact fun equal => greater equal.symm

theorem angle_notMem_escaped {angle : Char} (markup : angle = '<' ∨ angle = '>')
    (text : Text) : angle ∉ escaped text := by
  rw [escaped_eq_flatMap, List.mem_flatMap]
  intro ⟨letter, _, inside⟩
  exact angle_notMem_entity markup letter inside

/-- An entity holds one ampersand, its first letter. -/
theorem ampersand_starts_entity {letter : Char} {start rest : Text}
    (inside : entity letter = start ++ '&' :: rest) :
    ∃ entry ∈ ENTITIES, entry.2 = '&' :: rest := by
  rcases entity_cases letter with ⟨written, member, same⟩ | ⟨ampersand, _, _, same⟩
  · have first : ∀ entry ∈ ENTITIES, entry.2.head? = some '&' ∧ '&' ∉ entry.2.tail := by
      decide
    obtain ⟨head, tail⟩ := first _ member
    rw [same] at inside
    subst inside
    cases start with
    | nil => exact ⟨_, member, rfl⟩
    | cons before start => simp at tail
  · rw [same] at inside
    cases start with
    | nil => exact absurd (List.cons.inj inside).1 ampersand
    | cons before start => simp at inside

theorem ampersand_starts_escaped {text before after : Text}
    (split : escaped text = before ++ '&' :: after) :
    ∃ entry ∈ ENTITIES, entry.2 <+: '&' :: after := by
  rw [escaped_eq_flatMap] at split
  obtain ⟨letter, _, start, rest, more, inside, same⟩ := flatMap_eq_append_cons split
  obtain ⟨entry, member, starts⟩ := ampersand_starts_entity inside
  refine ⟨entry, member, more, ?_⟩
  rw [starts, same, List.cons_append]

theorem decoded_ampersand (rest : Text) :
    decoded ("&amp;".toList ++ rest) = '&' :: decoded rest := by
  have letters : "&amp;".toList = ['&', 'a', 'm', 'p', ';'] := by decide
  rw [letters, List.cons_append, List.cons_append, List.cons_append, List.cons_append,
    List.cons_append, List.nil_append, decoded]

theorem decoded_less (rest : Text) :
    decoded ("&lt;".toList ++ rest) = '<' :: decoded rest := by
  have letters : "&lt;".toList = ['&', 'l', 't', ';'] := by decide
  rw [letters, List.cons_append, List.cons_append, List.cons_append, List.cons_append,
    List.nil_append, decoded]

theorem decoded_greater (rest : Text) :
    decoded ("&gt;".toList ++ rest) = '>' :: decoded rest := by
  have letters : "&gt;".toList = ['&', 'g', 't', ';'] := by decide
  rw [letters, List.cons_append, List.cons_append, List.cons_append, List.cons_append,
    List.nil_append, decoded]

theorem decoded_cons {letter : Char} (plain : letter ≠ '&') (rest : Text) :
    decoded (letter :: rest) = letter :: decoded rest := by
  rw [decoded]
  all_goals simp [plain]

theorem decoded_entity (letter : Char) (rest : Text) :
    decoded (entity letter ++ rest) = letter :: decoded rest := by
  rcases entity_cases letter with ⟨written, member, same⟩ | ⟨ampersand, _, _, same⟩
  · rw [same]
    revert member
    simp only [ENTITIES, List.mem_cons, Prod.mk.injEq, List.not_mem_nil, or_false]
    rintro (⟨rfl, rfl⟩ | ⟨rfl, rfl⟩ | ⟨rfl, rfl⟩)
    · exact decoded_ampersand rest
    · exact decoded_less rest
    · exact decoded_greater rest
  · rw [same]
    exact decoded_cons ampersand rest

theorem decoded_escaped (text : Text) : decoded (escaped text) = text := by
  rw [escaped_eq_flatMap]
  induction text with
  | nil => rfl
  | cons letter text ih => rw [List.flatMap_cons, decoded_entity, ih]

/-- Whether a letter opens or closes a tag. -/
def isAngle (letter : Char) : Bool :=
  letter = '<' || letter = '>'

/-- The page is one frame around its detail. -/
theorem noDocument_framed : ∃ before after, ∀ why, noDocument why =
    before ++ (why.map escaped).getD
      "The ceremony documents have not been retrieved yet.".toList ++ after :=
  ⟨_, _, fun _ => rfl⟩

theorem noDocument_inj {why other : Option Text} :
    noDocument why = noDocument other ↔
      (why.map escaped).getD "The ceremony documents have not been retrieved yet.".toList =
        (other.map escaped).getD
          "The ceremony documents have not been retrieved yet.".toList := by
  obtain ⟨before, after, framed⟩ := noDocument_framed
  rw [framed, framed, List.append_left_inj, List.append_right_inj]

theorem filter_isAngle_noDocument (why : Text) :
    (noDocument (some why)).filter isAngle = (noDocument none).filter isAngle := by
  have silent : (escaped why).filter isAngle = [] := by
    rw [List.filter_eq_nil_iff]
    intro letter member angle
    rw [isAngle, Bool.or_eq_true, decide_eq_true_eq, decide_eq_true_eq] at angle
    exact angle_notMem_escaped angle why member
  have unnamed : "The ceremony documents have not been retrieved yet.".toList.filter isAngle =
      [] := by decide +kernel
  obtain ⟨before, after, framed⟩ := noDocument_framed
  rw [framed, framed, Option.map_some, Option.getD_some, Option.map_none, Option.getD_none,
    List.filter_append, List.filter_append, List.filter_append, List.filter_append, silent,
    unnamed]

/-- The page is inert whatever the failure says: the failure is written
without an angle bracket, every ampersand begins one of the three entities,
reading those back gives the failure itself, and the markup is that of the page
that names no failure. -/
theorem page_inert (text : Text) :
    '<' ∉ escaped text ∧ '>' ∉ escaped text ∧
      (∀ before after, escaped text = before ++ '&' :: after →
        ∃ entry ∈ ENTITIES, entry.2 <+: '&' :: after) ∧
      decoded (escaped text) = text ∧
      (noDocument (some text)).filter isAngle = (noDocument none).filter isAngle := by
  refine ⟨angle_notMem_escaped (Or.inl rfl) text, angle_notMem_escaped (Or.inr rfl) text, ?_,
    decoded_escaped text, filter_isAngle_noDocument text⟩
  intro before after split
  exact ampersand_starts_escaped split

end LibidBridge
