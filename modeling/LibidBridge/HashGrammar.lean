import LibidBridge.Revalidation

/-!
# The grammar of hash sources

`is_hash` against the `hash-source` grammar of Content-Security-Policy.  The
two differ in one way: the grammar pads a digest at its end and at most twice,
and `is_hash` takes a padding sign like any other letter of a digest.
-/

namespace LibidBridge

variable {crates : Crates}

/-- The `hash-source` of the policy grammar. -/
def IsHashSource (source : Text) : Prop :=
  ∃ algorithm digits padding, IsDigestAlgorithm algorithm ∧ digits ≠ [] ∧
    (∀ letter ∈ digits, isBase64Letter letter = true) ∧ padding ≤ 2 ∧
      source = quotedDigest algorithm (digits ++ List.replicate padding '=')

/-- A digest of base64 letters and padding signs whose padding begins it, is
followed by another letter, or ends it more than twice. -/
def IsMispadded (source : Text) : Prop :=
  ∃ algorithm digest, IsDigestAlgorithm algorithm ∧ digest ≠ [] ∧
    (∀ letter ∈ digest, isBase64Letter letter = true ∨ letter = '=') ∧
      source = quotedDigest algorithm digest ∧
        (digest.head? = some '=' ∨
          (∃ before letter after, letter ≠ '=' ∧
            digest = before ++ '=' :: letter :: after) ∨
          List.replicate 3 '=' <:+ digest)

theorem eq_of_quotedDigest_eq {algorithm other first second : Text}
    (known : IsDigestAlgorithm algorithm) (otherKnown : IsDigestAlgorithm other)
    (same : quotedDigest algorithm first = quotedDigest other second) : first = second := by
  have inner : algorithm ++ '-' :: first = other ++ '-' :: second :=
    List.append_cancel_right (List.cons.inj same).2
  have firstSplit := Text.splitOnce_append (hyphen_notMem_of_isDigestAlgorithm known) first
  have secondSplit := Text.splitOnce_append
    (hyphen_notMem_of_isDigestAlgorithm otherKnown) second
  rw [inner, secondSplit, Option.some.injEq, Prod.mk.injEq] at firstSplit
  exact firstSplit.2.symm

/-- A nonempty digest is padded as the grammar pads it, or out of place. -/
theorem padded_iff {digest : Text} (nonempty : digest ≠ [])
    (letters : ∀ letter ∈ digest, isBase64Letter letter = true ∨ letter = '=') :
    (∃ digits padding, digits ≠ [] ∧ (∀ letter ∈ digits, isBase64Letter letter = true) ∧
      padding ≤ 2 ∧ digest = digits ++ List.replicate padding '=') ↔
    ¬ (digest.head? = some '=' ∨
      (∃ before letter after, letter ≠ '=' ∧ digest = before ++ '=' :: letter :: after) ∨
      List.replicate 3 '=' <:+ digest) := by
  have padFree : isBase64Letter '=' = false := by decide
  have digitsFree : ∀ digits padding, digest = digits ++ List.replicate padding '=' →
      ('=' ∉ digits ↔ ∀ letter ∈ digits, isBase64Letter letter = true) := by
    intro digits padding split
    constructor
    · intro free letter member
      refine (letters letter (by simp [split, member])).resolve_right ?_
      rintro rfl
      exact free member
    · intro base member
      simp [base '=' member] at padFree
  have kept : (∀ before letter after, digest = before ++ '=' :: letter :: after → letter = '=') ↔
      ¬ ∃ before letter after, letter ≠ '=' ∧ digest = before ++ '=' :: letter :: after := by
    constructor
    · rintro all ⟨before, letter, after, distinct, split⟩
      exact distinct (all before letter after split)
    · intro none before letter after split
      by_contra distinct
      exact none ⟨before, letter, after, distinct, split⟩
  rw [not_or, not_or, ← kept, ← ne_eq, ← @exists_padded_iff _ '=' _ digest 2 nonempty]
  constructor
  · rintro ⟨digits, padding, digitsNonempty, base, bounded, split⟩
    exact ⟨digits, padding, digitsNonempty, (digitsFree digits padding split).mpr base,
      bounded, split⟩
  · rintro ⟨digits, padding, digitsNonempty, free, bounded, split⟩
    exact ⟨digits, padding, digitsNonempty, (digitsFree digits padding split).mp free,
      bounded, split⟩

theorem isHash_iff_or {source : Text} :
    isHash source = true ↔ IsHashSource source ∨ IsMispadded source := by
  rw [isHash_iff]
  constructor
  · rintro ⟨algorithm, digest, known, nonempty, letters, rfl⟩
    by_cases fault : digest.head? = some '=' ∨
        (∃ before letter after, letter ≠ '=' ∧ digest = before ++ '=' :: letter :: after) ∨
        List.replicate 3 '=' <:+ digest
    · exact Or.inr ⟨algorithm, digest, known, nonempty, letters, rfl, fault⟩
    · obtain ⟨digits, padding, digitsNonempty, base, bounded, rfl⟩ :=
        (padded_iff nonempty letters).mpr fault
      exact Or.inl ⟨algorithm, digits, padding, known, digitsNonempty, base, bounded, rfl⟩
  · rintro (⟨algorithm, digits, padding, known, nonempty, base, _, rfl⟩ |
      ⟨algorithm, digest, known, nonempty, letters, rfl, _⟩)
    · refine ⟨algorithm, _, known, by simp [nonempty], fun letter member => ?_, rfl⟩
      rcases List.mem_append.mp member with inDigits | inPadding
      · exact Or.inl (base letter inDigits)
      · exact Or.inr (List.eq_of_mem_replicate inPadding)
    · exact ⟨algorithm, digest, known, nonempty, letters, rfl⟩

theorem not_isMispadded_of_isHashSource {source : Text} (wellFormed : IsHashSource source) :
    ¬ IsMispadded source := by
  rintro ⟨algorithm, digest, known, nonempty, letters, rfl, fault⟩
  obtain ⟨other, digits, padding, otherKnown, digitsNonempty, base, bounded, same⟩ := wellFormed
  exact (padded_iff nonempty letters).mp ⟨digits, padding, digitsNonempty, base, bounded,
    eq_of_quotedDigest_eq known otherKnown same⟩ fault

/-- A policy is let through with a well-formed hash exactly where its script
sources are not all hashes whose padding is out of place. -/
theorem exists_isHashSource_iff {hashes : List Text}
    (valid : ∀ source ∈ hashes, isHash source = true) :
    (∃ hash ∈ hashes, IsHashSource hash) ↔ ¬ ∀ hash ∈ hashes, IsMispadded hash := by
  constructor
  · rintro ⟨hash, member, wellFormed⟩ all
    exact not_isMispadded_of_isHashSource wellFormed (all hash member)
  · intro some
    simp only [not_forall] at some
    obtain ⟨hash, member, padded⟩ := some
    exact ⟨hash, member, (isHash_iff_or.mp (valid hash member)).resolve_right padded⟩

/-- `is_hash` is the `hash-source` grammar except for digests whose padding is
out of place, `script_hashes` lets a policy through with a well-formed source
except where all of its sources are such, and so does a revalidation that
replaces what is served. -/
theorem isHash_iff_grammar_iff (laws : HeaderLaws crates) (source text : Text) :
    ((isHash source = true ↔ IsHashSource source) ↔ ¬ IsMispadded source) ∧
    ((∀ hashes, scriptHashes text = .ok hashes → ∃ hash ∈ hashes, IsHashSource hash) ↔
      ¬ ∃ sources, scriptSources text = some sources ∧ sources ≠ [] ∧
        ∀ hash ∈ sources, IsMispadded hash) ∧
    ∀ (refresher : Refresher) state next answer now,
      refresher.revalidate crates state answer now = some (next, .ok true) →
        ∃ arrival sources, answer = some (.response arrival) ∧
          scriptSources ((Fetched.header crates arrival.headers
            CONTENT_SECURITY_POLICY).getD []) = some sources ∧
          next.callback.map (·.document.csp) = some (Text.bytes (policy sources)) ∧
          ((∃ hash ∈ sources, IsHashSource hash) ↔ ¬ ∀ hash ∈ sources, IsMispadded hash) := by
  refine ⟨?_, ?_, ?_⟩
  · have exclusive := @not_isMispadded_of_isHashSource source
    rw [isHash_iff_or]
    tauto
  · constructor
    · rintro accepted ⟨sources, named, nonempty, mispadded⟩
      have valid : ∀ hash ∈ sources, isHash hash = true :=
        fun hash member => isHash_iff_or.mpr (Or.inr (mispadded hash member))
      have wellFormed := accepted sources (scriptHashes_eq_ok_iff.mpr ⟨named, nonempty, valid⟩)
      exact (exists_isHashSource_iff valid).mp wellFormed mispadded
    · intro notAll hashes read
      obtain ⟨named, nonempty, valid⟩ := scriptHashes_eq_ok_iff.mp read
      rw [exists_isHashSource_iff valid]
      exact fun mispadded => notAll ⟨hashes, named, nonempty, mispadded⟩
  · intro refresher state next answer now replaced
    obtain ⟨offer, found, callback⟩ := Refresher.exists_offer_of_replaced laws replaced
    obtain ⟨arrival, rfl, offers⟩ := offered_eq_some_iff.mp found
    obtain ⟨named, _, valid⟩ := scriptHashes_eq_ok_iff.mp offers.hashes
    refine ⟨arrival, offer.hashes, rfl, named, ?_, exists_isHashSource_iff valid⟩
    rw [callback]
    rfl

theorem isHash_iff_grammar_iff_padded :
    (isHash "'sha256-AA=='".toList = true ↔ IsHashSource "'sha256-AA=='".toList) ↔
      ¬ IsMispadded "'sha256-AA=='".toList :=
  (isHash_iff_grammar_iff Reference.headerLaws "'sha256-AA=='".toList []).1

/-- A padding sign inside a digest makes a source that no browser reads as a
hash, and a policy of that source alone is let through. -/
theorem padding_inside_digest_passes :
    ¬ (isHash "'sha256-A=B'".toList = true ↔ IsHashSource "'sha256-A=B'".toList) ∧
      ¬ ∀ hashes, scriptHashes "script-src 'sha256-A=B'".toList = .ok hashes →
        ∃ hash ∈ hashes, IsHashSource hash := by
  have mispadded : IsMispadded "'sha256-A=B'".toList := by
    refine ⟨"sha256".toList, "A=B".toList, ?_, by decide, by decide, rfl, ?_⟩
    · exact ⟨"sha256".toList, by simp, by decide +kernel⟩
    · exact Or.inr (Or.inl ⟨['A'], 'B', [], by decide, rfl⟩)
  have malformed : ¬ IsHashSource "'sha256-A=B'".toList :=
    fun wellFormed => not_isMispadded_of_isHashSource wellFormed mispadded
  constructor
  · intro agrees
    exact malformed (agrees.mp (by decide +kernel))
  · intro wellFormed
    obtain ⟨hash, member, source⟩ := wellFormed ["'sha256-A=B'".toList] (by decide +kernel)
    rw [List.mem_singleton.mp member] at source
    exact malformed source

end LibidBridge
