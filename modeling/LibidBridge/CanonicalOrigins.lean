import LibidBridge.Origin
import LibidBridge.ReferenceCrates
import Mathlib

/-!
# Canonical origins are fixpoints

An origin is folded once: the spelling `parse` arrives at is the one `listed`
takes as written, whichever text it was folded from.  This is what lets the
admission rule compare origins by their bytes.
-/

namespace LibidBridge

/-- The port as a serialized origin carries it. -/
def portSuffix : Option UInt16 → Text
  | none => []
  | some port => ':' :: Nat.toDigits 10 port.toNat

/-- An `http` or `https` origin the `url` crate wrote parses to the scheme, the
host and the port it was written from, the path `/` and nothing else. -/
structure ReparseLaws (crates : Crates) : Prop where
  serialization : ∀ {spelling : Text} {url : Url} {host : Text},
    crates.urlParse spelling = .ok url → IsWebScheme url.scheme →
      url.hostStr = some host →
        crates.asciiSerialization url =
          url.scheme ++ "://".toList ++ host ++ portSuffix url.port
  reparse : ∀ {spelling : Text} {url : Url} {host : Text},
    crates.urlParse spelling = .ok url → IsWebScheme url.scheme →
      url.hostStr = some host →
        crates.urlParse (crates.asciiSerialization url) =
          .ok
            { scheme := url.scheme
              username := []
              password := none
              hostStr := some host
              port := url.port
              path := "/".toList
              query := none
              fragment := none }

/-- What the spelling of a canonical origin names: `https`, or `http` on
exactly `localhost` or `127.0.0.1`, with nothing beyond the host and port. -/
structure IsBareOrigin (url : Url) (host : Text) : Prop where
  hostStr : url.hostStr = some host
  secure : url.scheme = "https".toList ∨
    url.scheme = "http".toList ∧ (host = "localhost".toList ∨ host = "127.0.0.1".toList)
  username : url.username = []
  password : url.password = none
  path : url.path = "/".toList
  query : url.query = none
  fragment : url.fragment = none

namespace Origin

variable {crates : Crates}

theorem isPlaintextLoopback_iff {url : Url} {host : Text} (hostStr : url.hostStr = some host) :
    isPlaintextLoopback url = true ↔
      url.scheme = "http".toList ∧ (host = "localhost".toList ∨ host = "127.0.0.1".toList) := by
  simp only [isPlaintextLoopback, hostStr, Bool.and_eq_true, Bool.or_eq_true, beq_iff_eq,
    Option.some.injEq]

/-- What a parsed origin was folded from, and what its spelling parses to. -/
theorem exists_reparsed_of_parse (laws : ReparseLaws crates) {field spelling : Text}
    {origin : Origin} (accepted : parse crates field spelling = .ok origin) :
    ∃ url host again, crates.urlParse spelling = .ok url ∧ IsBare url host ∧
      crates.urlParse origin.asStr = .ok again ∧ IsBareOrigin again host ∧
      again.scheme = url.scheme ∧
      origin.asStr = again.scheme ++ "://".toList ++ host ++ portSuffix again.port := by
  obtain ⟨url, host, parsed, bare, rfl⟩ := (parse_eq_ok_iff crates).mp accepted
  refine ⟨url, host, _, parsed, bare, laws.reparse parsed bare.webScheme bare.hostStr, ?_,
    rfl, laws.serialization parsed bare.webScheme bare.hostStr⟩
  refine ⟨rfl, ?_, rfl, rfl, rfl, rfl, rfl⟩
  rcases bare.webScheme with plaintext | secure
  · exact Or.inr ((isPlaintextLoopback_iff bare.hostStr).mp (bare.loopback plaintext))
  · exact Or.inl secure

/-- The spelling of a parsed origin passes every check a second time, and folds
to itself. -/
theorem parse_asStr (laws : ReparseLaws crates) {field spelling : Text} {origin : Origin}
    (accepted : parse crates field spelling = .ok origin) (other : Text) :
    parse crates other origin.asStr = .ok origin := by
  obtain ⟨url, host, again, parsed, bare, reparsed, bareAgain, sameScheme, spelled⟩ :=
    exists_reparsed_of_parse laws accepted
  have webScheme : IsWebScheme again.scheme := sameScheme ▸ bare.webScheme
  have sameLoopback : isPlaintextLoopback again = isPlaintextLoopback url := by
    rw [isPlaintextLoopback, isPlaintextLoopback, sameScheme, bareAgain.hostStr, bare.hostStr]
  rw [parse_eq_ok_iff]
  refine ⟨again, host, reparsed, ?_, ?_⟩
  · exact
      { webScheme := webScheme
        hostStr := bareAgain.hostStr
        path := Or.inr bareAgain.path
        query := bareAgain.query
        fragment := bareAgain.fragment
        username := bareAgain.username
        password := bareAgain.password
        loopback := fun plaintext =>
          sameLoopback.trans (bare.loopback (sameScheme.symm.trans plaintext))
        starless := bare.starless }
  · apply asStr_inj.mp
    rw [asStr, laws.serialization reparsed webScheme bareAgain.hostStr]
    exact spelled

theorem listed_asStr (laws : ReparseLaws crates) {field spelling : Text} {origin : Origin}
    (accepted : parse crates field spelling = .ok origin) (other : Text) :
    listed crates other origin.asStr = .ok origin :=
  (listed_eq_ok_iff crates).mpr ⟨parse_asStr laws accepted other, rfl⟩

end Origin

theorem Observed.isSome_stamped_iff {crates : Crates} {spelling : Text} :
    (Observed.stamped crates spelling).isSome = true ↔
      ∃ origin, Origin.listed crates "Origin".toList spelling = .ok origin := by
  unfold Observed.stamped
  split
  · next origin listed => exact iff_of_true rfl ⟨origin, listed⟩
  · next refusal listed =>
      rw [listed]
      simp

/-- A parsed origin is its own canonical form: its spelling parses to it, is
listed as it, and is one a browser stamps.  A text is listed exactly where it is
the spelling of what it parses to. -/
theorem canonical_origin_fixpoint {crates : Crates} (laws : ReparseLaws crates) (spelling : Text) :
    (∀ field origin, Origin.parse crates field spelling = .ok origin →
      (∀ other, Origin.parse crates other origin.asStr = .ok origin ∧
        Origin.listed crates other origin.asStr = .ok origin) ∧
      (Observed.stamped crates origin.asStr).isSome = true ∧
      ∃ url host, crates.urlParse origin.asStr = .ok url ∧ IsBareOrigin url host ∧
        origin.asStr = url.scheme ++ "://".toList ++ host ++ portSuffix url.port) ∧
    ∀ field origin, Origin.listed crates field spelling = .ok origin ↔
      Origin.parse crates field spelling = .ok origin ∧ origin.asStr = spelling := by
  constructor
  · intro field origin accepted
    refine ⟨fun other => ⟨?_, ?_⟩, ?_, ?_⟩
    · exact Origin.parse_asStr laws accepted other
    · exact Origin.listed_asStr laws accepted other
    · rw [Observed.isSome_stamped_iff]
      exact ⟨origin, Origin.listed_asStr laws accepted _⟩
    · obtain ⟨_, host, again, _, _, reparsed, bare, _, spelled⟩ :=
        Origin.exists_reparsed_of_parse laws accepted
      exact ⟨again, host, reparsed, bare, spelled⟩
  · intro field origin
    exact Origin.listed_eq_ok_iff crates

namespace Reference

/-- The reference parser reads no port, so what it parses is one bare `https`
URL for each spelling, which is how it writes it. -/
theorem urlParse_eq_ok {spelling : Text} {url : Url} (parsed : urlParse spelling = .ok url) :
    spelling = asciiSerialization url ∧
      url = ⟨"https".toList, [], none, url.hostStr, none, "/".toList, none, none⟩ := by
  unfold urlParse at parsed
  split at parsed
  · next host found =>
      split_ifs at parsed
      cases parsed
      exact ⟨(List.append_eq_of_isPrefixOf?_eq_some found).symm, rfl⟩
  · cases parsed

/-- The reference functions with a parser that reads capitals as small
letters. -/
def foldingCrates : Crates :=
  { crates with urlParse := fun spelling => urlParse (spelling.map Char.toLower) }

theorem reparseLaws : ReparseLaws foldingCrates where
  serialization := by
    intro spelling url host parsed _ hostEq
    obtain ⟨_, shape⟩ := urlParse_eq_ok parsed
    rw [shape]
    simp [foldingCrates, crates, asciiSerialization, hostEq, portSuffix]
  reparse := by
    intro spelling url host parsed _ hostEq
    have folded : urlParse (spelling.map Char.toLower) = .ok url := parsed
    obtain ⟨spelled, shape⟩ := urlParse_eq_ok folded
    have twice : (spelling.map Char.toLower).map Char.toLower = spelling.map Char.toLower := by
      simp only [List.map_map, Function.comp_def, Char.toLower_toLower_eq_toLower]
    change urlParse ((asciiSerialization url).map Char.toLower) = _
    rw [← spelled, twice, ← hostEq, folded]
    refine congrArg Except.ok ?_
    rw [shape]

end Reference

/-- A spelling in capitals is folded, and what it is folded to is listed. -/
theorem canonical_origin_fixpoint_id :
    Origin.parse Reference.foldingCrates "ccdpOrigin".toList "https://ID.Example.com".toList =
        .ok ⟨"https://id.example.com".toList⟩ ∧
      Origin.listed Reference.foldingCrates "ccdpOrigin".toList
          "https://id.example.com".toList =
        .ok ⟨"https://id.example.com".toList⟩ := by
  have folded : Origin.parse Reference.foldingCrates "ccdpOrigin".toList
      "https://ID.Example.com".toList = .ok ⟨"https://id.example.com".toList⟩ := by
    decide +kernel
  exact ⟨folded, (((canonical_origin_fixpoint Reference.reparseLaws _).1 _ _ folded).1 _).2⟩

end LibidBridge
