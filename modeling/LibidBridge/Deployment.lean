import LibidBridge.Origin
import LibidBridge.SortedMembers

/-!
# What a deployment is

The settings a file states, the rules a deployment must satisfy before it
serves a request, and the public ceremony configuration composed from one that
does.
-/

namespace LibidBridge

def MAX_CLIENT_ID_BYTES : Nat := 512

def MAX_GOOGLE_CLIENT_ID_BYTES : Nat := 128

def MAX_CLIENT_CREDENTIAL_BYTES : Nat := 512

inductive PlatformId
  | google
  | x
  | github
  deriving DecidableEq

namespace PlatformId

def toText : PlatformId → Text
  | .google => "google".toList
  | .x => "x".toList
  | .github => "github".toList

def sendsACredential : PlatformId → Bool
  | .github => true
  | .google | .x => false

/-- The longest audience this platform's proof binds, where its client id is
that audience. -/
def audienceBytes : PlatformId → Option Nat
  | .google => some MAX_GOOGLE_CLIENT_ID_BYTES
  | .x | .github => none

def maxClientIdBytes (id : PlatformId) : Nat :=
  id.audienceBytes.getD MAX_CLIENT_ID_BYTES

end PlatformId

/-- One enabled platform, as one `[[platforms]]` table. -/
structure PlatformProfile where
  id : PlatformId
  clientId : Text
  clientCredential : Option Text
  deriving DecidableEq

structure Settings where
  allowedAppOrigins : List Text
  ccdpOrigin : Text
  platforms : List PlatformProfile
  deriving DecidableEq

/-- Whether every byte of `value` is printable ASCII carrying no whitespace. -/
def printableWithoutWhitespace (value : Text) : Bool :=
  (Text.bytes value).all fun byte => 0x21 ≤ byte && byte ≤ 0x7E

def PlatformProfile.checked (profile : PlatformProfile) : Except Error PlatformProfile :=
  let id := profile.id.toText
  let refuse (detail : Text) : Except Error PlatformProfile :=
    .error (.config ("platforms: ".toList ++ detail))
  if profile.clientId.isEmpty then refuse (id ++ " carries an empty client_id".toList)
  else if printableWithoutWhitespace profile.clientId = false then
    refuse (id ++ "'s client_id is not printable ASCII without whitespace".toList)
  else if profile.id.maxClientIdBytes < (Text.bytes profile.clientId).length then
    refuse (id ++ "'s client_id is longer than ".toList ++
      Nat.toDigits 10 profile.id.maxClientIdBytes ++ " bytes".toList)
  else if profile.id.audienceBytes.isSome ∧ '"' ∈ profile.clientId then
    refuse (id ++ "'s client_id carries a quote, which its proof's audience cannot".toList)
  else
    -- A credential belongs to exactly the ceremonies that send one.
    match profile.id.sendsACredential, profile.clientCredential with
    | false, some _ =>
        refuse (id ++ " carries a client_credential, and its ceremony sends none".toList)
    | true, none =>
        refuse (id ++ " carries no client_credential, and its ceremony sends one".toList)
    | _, some credential =>
        if credential = [] then refuse (id ++ " carries an empty client_credential".toList)
        else if printableWithoutWhitespace credential = false then
          refuse (id ++
            "'s client_credential is not printable ASCII without whitespace".toList)
        else if MAX_CLIENT_CREDENTIAL_BYTES < (Text.bytes credential).length then
          refuse (id ++ "'s client_credential is longer than ".toList ++
            Nat.toDigits 10 MAX_CLIENT_CREDENTIAL_BYTES ++ " bytes".toList)
        else .ok profile
    | _, none => .ok profile

/-- Check the enabled set: nonempty, each platform once, and each as
`PlatformProfile.checked` has it. -/
def platforms (profiles : List PlatformProfile) : Except Error (List PlatformProfile) :=
  if profiles.isEmpty then
    .error (.config ("platforms: no platform is enabled; add a [[platforms]] table to ".toList ++
      "the configuration file".toList))
  else
    match profiles.find? fun profile =>
      (profiles.filter fun other => other.id = profile.id)[1]?.isSome with
    | some profile =>
        .error (.config ("platforms: ".toList ++ profile.id.toText ++
          " appears more than once".toList))
    | none => profiles.mapM PlatformProfile.checked

variable (crates : Crates)

/-- The rest of an allowlist, after the members already read. -/
def allowedAppOriginsFrom (index : Nat) (out : List Admitted) :
    List Text → Except Error (List Admitted)
  | [] =>
      if out.isEmpty then
        .error (.config ("ALLOWED_APP_ORIGINS is empty, so no application could read ".toList ++
          "the ceremony configuration".toList))
      else .ok out
  | spelling :: list =>
      let field := "ALLOWED_APP_ORIGINS[".toList ++ Nat.toDigits 10 index ++ "]".toList
      if spelling.isEmpty then .error (.config (field ++ " is blank".toList))
      else
        match Admitted.listed crates field spelling with
        | .error refusal => .error refusal
        | .ok member =>
            -- A duplicate is refused, not folded.
            if member ∈ out then
              .error (.config ("ALLOWED_APP_ORIGINS names ".toList ++ member.asStr ++
                " more than once".toList))
            else allowedAppOriginsFrom (index + 1) (out ++ [member]) list

/-- The application allowlist admitted to read the configuration, each member
as written. -/
def allowedAppOrigins (list : List Text) : Except Error (List Admitted) :=
  allowedAppOriginsFrom crates 0 [] list

structure Deployment where
  ccdpOrigin : Origin
  allowedOrigins : List Admitted
  platforms : List PlatformProfile
  deriving DecidableEq

/-- The effective admission set: the CCDP origin joins once, by its literal
spelling. -/
def withCcdpOrigin (set : List Admitted) (ccdpOrigin : Origin) : List Admitted :=
  if set.any fun member => member.asStr = ccdpOrigin.asStr then set
  else set ++ [.exact ccdpOrigin]

/-- Every rule a deployment must satisfy, applied to the settings; the first
rule broken is the error. -/
def Deployment.checked (settings : Settings) : Except Error Deployment := do
  let ccdpOrigin ← Origin.listed crates "CCDP_ORIGIN".toList settings.ccdpOrigin
  let set ← LibidBridge.allowedAppOrigins crates settings.allowedAppOrigins
  let platforms ← LibidBridge.platforms settings.platforms
  return ⟨ccdpOrigin, withCcdpOrigin set ccdpOrigin, platforms⟩

/-- One platform's entry: its client, and its credential where it has one. -/
def PlatformProfile.entry (profile : PlatformProfile) : Json :=
  let entry := SortedMembers.insert "clientId".toList (Json.str profile.clientId) []
  match profile.clientCredential with
  | some credential =>
      .obj (SortedMembers.insert "clientCredential".toList (Json.str credential) entry)
  | none => .obj entry

structure CeremonyConfig where
  ccdpOrigin : Origin
  platforms : List PlatformProfile

namespace CeremonyConfig

def byId (config : CeremonyConfig) : List (Text × Json) :=
  config.platforms.foldl
    (fun map profile => SortedMembers.insert profile.id.toText profile.entry map) []

/-- The record: `ccdpOrigin`, and under `platforms` each entry by its id. -/
def record (config : CeremonyConfig) : Json :=
  .obj (SortedMembers.ofEntries
    [("ccdpOrigin".toList, .str config.ccdpOrigin.asStr),
      ("platforms".toList, .obj config.byId)])

def serialized (config : CeremonyConfig) : Bytes :=
  crates.jsonToVec config.record

end CeremonyConfig

/-- The public ceremony configuration, as the bytes every admitted caller
receives. -/
def Deployment.ceremonyConfig (deployment : Deployment) : Bytes :=
  CeremonyConfig.serialized crates ⟨deployment.ccdpOrigin, deployment.platforms⟩

end LibidBridge
