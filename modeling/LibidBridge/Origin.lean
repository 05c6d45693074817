import LibidBridge.Crates

/-!
# Origins and allowlist members

A configured origin in its canonical form, the three kinds of member an
application allowlist is written in, and the origin a request arrived under.
-/

namespace LibidBridge

/-- A canonical origin: `https`, or `http` on exactly `localhost` or
`127.0.0.1`; a host and nothing after it. -/
structure Origin where
  text : Text
  deriving DecidableEq

def isPlaintextLoopback (url : Url) : Bool :=
  url.scheme == "http".toList &&
    (url.hostStr == some "localhost".toList || url.hostStr == some "127.0.0.1".toList)

namespace Origin

def asStr (origin : Origin) : Text :=
  origin.text

theorem asStr_inj {first second : Origin} : first.asStr = second.asStr ↔ first = second := by
  cases first
  cases second
  simp [asStr]

variable (crates : Crates)

/-- `spelling` folded to its canonical form.  A refusal names `field`. -/
def parse (field spelling : Text) : Except Error Origin :=
  match crates.urlParse spelling with
  | .error detail =>
      .error (.config (field ++ " ".toList ++ spelling ++ ": ".toList ++ detail))
  | .ok url =>
      let refuse (why : Text) : Except Error Origin :=
        .error (.config (field ++ " ".toList ++ spelling ++ " ".toList ++ why ++
          "; it must be a bare origin, as in https://id.example.com".toList))
      if ¬ (url.scheme = "http".toList ∨ url.scheme = "https".toList) then
        refuse "is not http or https".toList
      else if url.hostStr.isNone then refuse "names no host".toList
      else if ¬ (url.path = [] ∨ url.path = "/".toList) then
        refuse "carries a path".toList
      else if url.query.isSome ∨ url.fragment.isSome then
        refuse "carries a query or fragment".toList
      else if url.username ≠ [] ∨ url.password.isSome then
        refuse "carries credentials".toList
      else if url.scheme = "http".toList ∧ isPlaintextLoopback url = false then
        refuse "is plaintext http on a host that is not localhost or 127.0.0.1".toList
      -- A member's own spelling is kept from being an origin here.
      else if url.hostStr.any (·.contains '*') then
        refuse "names a host holding `*`".toList
      else .ok ⟨crates.asciiSerialization url⟩

/-- `spelling` as written: refused unless it is already canonical. -/
def listed (field spelling : Text) : Except Error Origin :=
  match parse crates field spelling with
  | .error refusal => .error refusal
  | .ok origin =>
      if origin.asStr ≠ spelling then
        .error (.config (field ++ " ".toList ++ spelling ++
          " is not canonical; write it as ".toList ++ origin.asStr))
      else .ok origin

/-- Everything `parse` checks of a URL before it takes its origin. -/
structure IsBare (url : Url) (host : Text) : Prop where
  webScheme : IsWebScheme url.scheme
  hostStr : url.hostStr = some host
  path : url.path = [] ∨ url.path = "/".toList
  query : url.query = none
  fragment : url.fragment = none
  username : url.username = []
  password : url.password = none
  loopback : url.scheme = "http".toList → isPlaintextLoopback url = true
  starless : '*' ∉ host

theorem parse_eq_ok_iff {field spelling : Text} {origin : Origin} :
    parse crates field spelling = .ok origin ↔
      ∃ url host, crates.urlParse spelling = .ok url ∧ IsBare url host ∧
        origin = ⟨crates.asciiSerialization url⟩ := by
  unfold parse
  cases parsed : crates.urlParse spelling with
  | error detail => simp
  | ok url =>
      constructor
      · intro accepted
        dsimp only at accepted
        split_ifs at accepted with scheme host path extra credentials loopback star
        obtain ⟨name, hostEq⟩ := Option.ne_none_iff_exists'.mp
          (by simpa using host : url.hostStr ≠ none)
        refine ⟨url, name, rfl, ?_, (Except.ok.inj accepted).symm⟩
        simp only [not_or, Option.not_isSome_iff_eq_none] at extra credentials
        exact
          { webScheme := scheme
            hostStr := hostEq
            path := path
            query := extra.1
            fragment := extra.2
            username := not_not.mp credentials.1
            password := credentials.2
            loopback := fun plaintext => by simpa [plaintext] using loopback
            starless := by simpa [hostEq] using star }
      · rintro ⟨other, host, sameUrl, bare, rfl⟩
        cases sameUrl
        have scheme := bare.webScheme
        have loopback : ¬ (url.scheme = "http".toList ∧ isPlaintextLoopback url = false) := by
          rintro ⟨plaintext, refused⟩
          simp [bare.loopback plaintext] at refused
        simp only [IsWebScheme] at scheme
        dsimp only
        rw [if_neg (not_not.mpr scheme), if_neg (by simp [bare.hostStr]),
          if_neg (not_not.mpr bare.path), if_neg (by simp [bare.query, bare.fragment]),
          if_neg (by simp [bare.username, bare.password]), if_neg loopback,
          if_neg (by simp [bare.hostStr, bare.starless])]

theorem listed_eq_ok_iff {field spelling : Text} {origin : Origin} :
    listed crates field spelling = .ok origin ↔
      parse crates field spelling = .ok origin ∧ origin.asStr = spelling := by
  unfold listed
  cases parsed : parse crates field spelling with
  | error refusal => simp
  | ok folded =>
      by_cases canonical : folded.asStr = spelling
      · simp only [canonical, ne_eq, not_true_eq_false, if_false, Except.ok.injEq]
        exact ⟨fun same => ⟨same, same ▸ canonical⟩, fun both => both.1⟩
      · simp only [ne_eq, canonical, not_false_eq_true, if_true, reduceCtorEq,
          Except.ok.injEq, false_iff, not_and]
        rintro rfl
        exact canonical

/-- The field a refusal would name does not decide whether there is one. -/
theorem listed_field {field other spelling : Text} {origin : Origin}
    (accepted : listed crates field spelling = .ok origin) :
    listed crates other spelling = .ok origin := by
  rw [listed_eq_ok_iff, parse_eq_ok_iff] at accepted ⊢
  exact accepted

variable {crates}

theorem asStr_of_listed {field spelling : Text} {origin : Origin}
    (accepted : listed crates field spelling = .ok origin) : origin.asStr = spelling :=
  ((listed_eq_ok_iff crates).mp accepted).2

/-- A listed origin is the serialization of a bare URL. -/
theorem exists_url_of_listed (laws : UrlLaws crates) {field spelling : Text}
    {origin : Origin} (accepted : listed crates field spelling = .ok origin) :
    ∃ url host port, crates.urlParse spelling = .ok url ∧ IsBare url host ∧
      IsPortSuffix port ∧ spelling = url.scheme ++ "://".toList ++ host ++ port := by
  obtain ⟨parsed, rfl⟩ := (listed_eq_ok_iff crates).mp accepted
  obtain ⟨url, host, urlParsed, bare, rfl⟩ := (parse_eq_ok_iff crates).mp parsed
  obtain ⟨port, portSuffix, serialized⟩ :=
    laws.serialization urlParsed bare.webScheme bare.hostStr
  exact ⟨url, host, port, urlParsed, bare, portSuffix, serialized⟩

/-- A listed origin is spelled as its scheme, a host without `*`, and its
port. -/
theorem exists_spelling_of_listed (laws : UrlLaws crates) {field spelling : Text}
    {origin : Origin} (accepted : listed crates field spelling = .ok origin) :
    ∃ scheme host port, IsWebScheme scheme ∧ '*' ∉ host ∧ IsPortSuffix port ∧
      spelling = scheme ++ "://".toList ++ host ++ port := by
  obtain ⟨url, host, port, _, bare, portSuffix, spelled⟩ := exists_url_of_listed laws accepted
  exact ⟨url.scheme, host, port, bare.webScheme, bare.starless, portSuffix, spelled⟩

theorem star_notMem_of_isPortSuffix {port : Text} (suffix : IsPortSuffix port) :
    '*' ∉ port := by
  rcases suffix with rfl | ⟨digits, _, allDigits, rfl⟩
  · simp
  · intro member
    rcases List.mem_cons.mp member with equal | inDigits
    · exact absurd equal (by decide)
    · exact absurd (allDigits '*' inDigits) (by decide)

theorem star_notMem_of_listed (laws : UrlLaws crates) {field spelling : Text}
    {origin : Origin} (accepted : listed crates field spelling = .ok origin) :
    '*' ∉ spelling := by
  obtain ⟨scheme, host, port, webScheme, starless, portSuffix, rfl⟩ :=
    exists_spelling_of_listed laws accepted
  have schemeStarless : '*' ∉ scheme := by
    rcases webScheme with rfl | rfl <;> decide
  have separatorStarless : '*' ∉ "://".toList := by decide
  simp only [List.mem_append, not_or]
  exact ⟨⟨⟨schemeStarless, separatorStarless⟩, starless⟩,
    star_notMem_of_isPortSuffix portSuffix⟩

theorem ne_nil_of_listed (laws : UrlLaws crates) {field spelling : Text}
    {origin : Origin} (accepted : listed crates field spelling = .ok origin) :
    spelling ≠ [] := by
  obtain ⟨scheme, host, port, webScheme, _, _, rfl⟩ :=
    exists_spelling_of_listed laws accepted
  rcases webScheme with rfl | rfl <;> simp

end Origin

/-- An origin pattern: `*.` and then the host suffix whose subdomains it
admits. -/
structure Pattern where
  text : Text
  deriving DecidableEq

def isAsciiLowercase (byte : UInt8) : Bool :=
  0x61 ≤ byte && byte ≤ 0x7A

def isAsciiDigit (byte : UInt8) : Bool :=
  0x30 ≤ byte && byte ≤ 0x39

/-- Why `label` is not a label of a pattern suffix, or `none` where it is. -/
def labelFault (label : Text) (last : Bool) : Option Text :=
  let bytes := Text.bytes label
  match bytes.head?, bytes.getLast? with
  | some first, some final =>
      if bytes.all (fun b => isAsciiLowercase b || isAsciiDigit b || b == 0x2D) = false then
        some "names a suffix carrying a label outside the lowercase DNS alphabet".toList
      else if first = 0x2D ∨ final = 0x2D then
        some "names a suffix carrying a label that begins or ends with a hyphen".toList
      else if last ∧ isAsciiLowercase first = false then
        some ("ends in a label that does not begin with a letter, so it names an ".toList ++
          "address rather than a host".toList)
      else none
  | _, _ => some "names a suffix carrying an empty label".toList

namespace Pattern

def PREFIX : Text :=
  "*.".toList

/-- The first fault of a suffix, label by label; the last one is held to more. -/
def labelsFault : List Text → Option Text
  | [] => none
  | label :: labels =>
      match labelFault label labels.isEmpty with
      | some fault => some fault
      | none => labelsFault labels

def listed (field spelling : Text) : Except Error Pattern :=
  let refuse (why : Text) : Except Error Pattern :=
    .error (.config (field ++ " ".toList ++ spelling ++ " ".toList ++ why ++
      ("; an origin pattern is *. followed by the host suffix whose subdomains ".toList ++
        "it admits, as in *.handles.link".toList)))
  match PREFIX.isPrefixOf? spelling with
  | none => refuse "is not an origin pattern".toList
  | some suffix =>
      match labelsFault (suffix.splitOn '.') with
      | some fault => refuse fault
      | none => .ok ⟨spelling⟩

def asStr (pattern : Pattern) : Text :=
  pattern.text

def anchoredSuffix (pattern : Pattern) : Text :=
  pattern.text.drop "*".toList.length

/-- Whether this pattern admits `origin`, the spelling of an observed one. -/
def admits (pattern : Pattern) (origin : Text) : Bool :=
  match "https://".toList.isPrefixOf? origin with
  | none => false
  | some host => pattern.anchoredSuffix.isSuffixOf host

theorem asStr_of_listed {field spelling : Text} {pattern : Pattern}
    (accepted : listed field spelling = .ok pattern) : pattern.asStr = spelling := by
  unfold listed at accepted
  dsimp only at accepted
  split at accepted
  · simp at accepted
  · split at accepted
    · simp at accepted
    · cases accepted
      rfl

theorem listed_field {field other spelling : Text} {pattern : Pattern}
    (accepted : listed field spelling = .ok pattern) :
    listed other spelling = .ok pattern := by
  unfold listed at accepted ⊢
  dsimp only at accepted ⊢
  split at accepted
  · simp at accepted
  · next suffix _ =>
      cases fault : labelsFault (suffix.splitOn '.') with
      | none => simpa [fault] using accepted
      | some text => simp [fault] at accepted

end Pattern

/-- An origin as a browser stamped it: the value of one `Origin` header, with
the proof that it is canonical. -/
structure Observed (crates : Crates) where
  text : Text
  canonical : ∃ origin, Origin.listed crates "Origin".toList text = .ok origin

namespace Observed

/-- `spelling` where it is already in the form a browser stamps. -/
def stamped (crates : Crates) (spelling : Text) : Option (Observed crates) :=
  match listed : Origin.listed crates "Origin".toList spelling with
  | .ok origin => some ⟨spelling, origin, listed⟩
  | .error _ => none

variable {crates : Crates}

def asStr (observed : Observed crates) : Text :=
  observed.text

theorem asStr_of_stamped {spelling : Text} {observed : Observed crates}
    (seen : stamped crates spelling = some observed) : observed.asStr = spelling := by
  unfold stamped at seen
  split at seen
  · cases seen
    rfl
  · simp at seen

end Observed

/-- One member of an application allowlist. -/
inductive Admitted
  | exact (origin : Origin)
  | pattern (pattern : Pattern)
  | every
  deriving DecidableEq

namespace Admitted

def asStr : Admitted → Text
  | .exact origin => origin.asStr
  | .pattern suffixed => suffixed.asStr
  | .every => "*".toList

variable (crates : Crates)

/-- `spelling` as written, read as a member of one of the three kinds. -/
def listed (field spelling : Text) : Except Error Admitted :=
  if spelling = "*".toList then .ok .every
  else if Pattern.PREFIX.isPrefixOf spelling then
    (Pattern.listed field spelling).map .pattern
  -- A `*` outside the pattern prefix is a mistyped pattern.
  else if spelling.contains '*' then
    .error (.config (field ++ " ".toList ++ spelling ++
      (" carries a * and is not an origin pattern, which is *. followed by the ".toList ++
        "host suffix whose subdomains it admits, as in *.handles.link".toList)))
  else (Origin.listed crates field spelling).map .exact

variable {crates}

def admits (member : Admitted) (observed : Observed crates) : Bool :=
  match member with
  | .exact origin => origin.asStr == observed.asStr
  | .pattern suffixed => suffixed.admits observed.asStr
  | .every => true

theorem asStr_of_listed {field spelling : Text} {member : Admitted}
    (accepted : listed crates field spelling = .ok member) : member.asStr = spelling := by
  unfold listed at accepted
  split_ifs at accepted with isEvery isPattern hasStar
  · cases accepted
    exact isEvery.symm
  · cases read : Pattern.listed field spelling with
    | error refusal => simp [read, Except.map] at accepted
    | ok found =>
        rw [read] at accepted
        cases accepted
        exact Pattern.asStr_of_listed read
  · cases read : Origin.listed crates field spelling with
    | error refusal => simp [read, Except.map] at accepted
    | ok found =>
        rw [read] at accepted
        cases accepted
        exact Origin.asStr_of_listed read

theorem listed_field {field other spelling : Text} {member : Admitted}
    (accepted : listed crates field spelling = .ok member) :
    listed crates other spelling = .ok member := by
  unfold listed at accepted ⊢
  split_ifs at accepted ⊢ with isEvery isPattern hasStar
  · exact accepted
  · cases read : Pattern.listed field spelling with
    | error refusal => simp [read, Except.map] at accepted
    | ok found => rwa [Pattern.listed_field read, ← read]
  · cases read : Origin.listed crates field spelling with
    | error refusal => simp [read, Except.map] at accepted
    | ok found => rwa [Origin.listed_field crates read, ← read]

/-- A listed origin read as a member is that origin. -/
theorem listed_exact_of_origin (laws : UrlLaws crates) {field spelling : Text}
    {origin : Origin} (accepted : Origin.listed crates field spelling = .ok origin) :
    listed crates field spelling = .ok (.exact origin) := by
  have starless := Origin.star_notMem_of_listed laws accepted
  have notEvery : spelling ≠ "*".toList := by
    rintro rfl
    exact starless (by decide)
  have notPattern : Pattern.PREFIX.isPrefixOf spelling = false := by
    cases spelling with
    | nil => rfl
    | cons letter spelling =>
        have : ('*' == letter) = false := by
          simp only [beq_eq_false_iff_ne]
          rintro rfl
          exact starless (by simp)
        simp [Pattern.PREFIX, List.isPrefixOf, this]
  unfold listed
  rw [if_neg notEvery, if_neg (by simp [notPattern]), if_neg (by simpa using starless),
    accepted]
  rfl

end Admitted

end LibidBridge
