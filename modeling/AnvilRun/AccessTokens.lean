import AnvilRun.Base64Url
import AnvilRun.JsonObjects
import AnvilRun.RefreshSessions
import AnvilRun.Utf8
import AnvilRun.ValidationPrimitives

namespace AnvilRun.AccessTokens

open AnvilRun.Fallible
open AnvilRun.Json
open AnvilRun.RefreshSessions
open AnvilRun.ValidationPrimitives
open JsString

/-- The values of the configuration that access tokens depend on. -/
structure AuthConfigValues where
  accessTokenSecret : JsString
  accessTokenTtlSeconds : Nat
  tokenIssuer : JsString
  tokenAudience : JsString

/-- The claims of an access token, whose `typ` is always `access`. -/
structure AccessTokenClaims where
  sub : JsString
  role : UserRole
  tokenVersion : Int
  jti : JsString
  iat : Int
  exp : Int
  iss : JsString
  aud : JsString
  deriving DecidableEq

/-- HMAC-SHA-256 of a text under a secret. -/
abbrev Hmac : Type :=
  JsString → List UInt8 → List UInt8

/-! `TokenService` -/

def base64UrlEncode (text : List Char) : List Char :=
  Base64Url.encode (Utf8.encode text)

def base64UrlDecode (text : List Char) : List Char :=
  Utf8.decodeLossy (Base64Url.decode text)

def sign (hmac : Hmac) (input : List Char) (secret : JsString) : List Char :=
  Base64Url.encode (hmac secret (Utf8.encode input))

def roleName : UserRole → JsString
  | .admin => ofString "ADMIN"
  | .user => ofString "USER"

structure AccessTokenInput where
  userId : JsString
  role : UserRole
  tokenVersion : Nat
  deriving DecidableEq

/-- The claims of a token that is issued at `now`. -/
def claimsOf (config : AuthConfigValues) (now : Nat) (jti : JsString) (input : AccessTokenInput) :
    AccessTokenClaims where
  sub := input.userId
  role := input.role
  tokenVersion := input.tokenVersion
  jti := jti
  iat := now
  exp := now + config.accessTokenTtlSeconds
  iss := config.tokenIssuer
  aud := config.tokenAudience

/-- `JSON.stringify(header)`. -/
def headerText : List Char :=
  objectText [(ofString "alg", quote (ofString "HS256")), (ofString "typ", quote (ofString "JWT"))]

/-- `JSON.stringify(payload)`. -/
def payloadText (config : AuthConfigValues) (now : Nat) (jti : JsString)
    (input : AccessTokenInput) : List Char :=
  objectText
    [(ofString "sub", quote input.userId),
      (ofString "role", quote (roleName input.role)),
      (ofString "tokenVersion", natText input.tokenVersion),
      (ofString "jti", quote jti),
      (ofString "typ", quote (ofString "access")),
      (ofString "iat", natText now),
      (ofString "exp", natText (now + config.accessTokenTtlSeconds)),
      (ofString "iss", quote config.tokenIssuer),
      (ofString "aud", quote config.tokenAudience)]

def signingInput (head body : List Char) : List Char :=
  head ++ '.' :: body

def issueAccessToken (hmac : Hmac) (config : AuthConfigValues) (now : Nat) (jti : JsString)
    (input : AccessTokenInput) : List Char :=
  let input := signingInput (base64UrlEncode headerText)
    (base64UrlEncode (payloadText config now jti input))
  input ++ '.' :: sign hmac input config.accessTokenSecret

def asText : Option Json → Option JsString
  | some (.string s) => some s
  | _ => none

def asUserRole (value : Option Json) : Option UserRole :=
  (asText value).bind fun s =>
    if s = roleName .admin then some .admin else if s = roleName .user then some .user else none

/-- `Number.isInteger`. -/
def asInteger : Option Json → Option Int
  | some (.number (.finite q)) => if q.den = 1 then some q.num else none
  | _ => none

/-- `Number.isSafeInteger`. -/
def asSafeInteger (value : Option Json) : Option Int :=
  (asInteger value).filter fun n => n.natAbs ≤ JsNumber.maxSafeInteger

/-- `isClaims`, and the claims. -/
def asClaims (value : Json) : Option AccessTokenClaims := do
  let member := fun name : String => value.member? (ofString name)
  let sub ← asText (member "sub")
  let role ← asUserRole (member "role")
  let tokenVersion ← asInteger (member "tokenVersion")
  let jti ← (asText (member "jti")).filter fun jti => !jti.isEmpty
  let _ ← (asText (member "typ")).filter fun typ => typ = ofString "access"
  let iat ← asSafeInteger (member "iat")
  let exp ← asSafeInteger (member "exp")
  let iss ← asText (member "iss")
  let aud ← asText (member "aud")
  return ⟨sub, role, tokenVersion, jti, iat, exp, iss, aud⟩

def isHeader (header : Json) : Bool :=
  decide (asText (header.member? (ofString "alg")) = some (ofString "HS256")) &&
    decide (asText (header.member? (ofString "typ")) = some (ofString "JWT"))

/-- The part of `verifyAccessToken` behind the signature. -/
def checkClaims (config : AuthConfigValues) (now : Int) (payload : Json) :
    Except ApiException AccessTokenClaims := do
  let claims ← require (asClaims payload) .authTokenExpired
  ensure (now < claims.exp) .authTokenExpired
  ensure (claims.iss = config.tokenIssuer ∧ claims.aud = config.tokenAudience ∧
    claims.iat ≤ now + 60) .authTokenExpired
  return claims

def verifyAccessToken (hmac : Hmac) (config : AuthConfigValues) (now : Int) (token : List Char) :
    Except ApiException AccessTokenClaims :=
  match token.splitOn '.' with
  | [head, body, signature] => do
      let header ← require (Json.parse (base64UrlDecode head)) .authTokenExpired
      let payload ← require (Json.parse (base64UrlDecode body)) .authTokenExpired
      ensure (isHeader header = true) .authTokenExpired
      -- `timingSafeEqual` of the bytes
      ensure (Utf8.encode signature =
        Utf8.encode (sign hmac (signingInput head body) config.accessTokenSecret)) .authTokenExpired
      checkClaims config now payload
  | _ => .error .authTokenExpired

/-! `AccessTokenGuard` -/

structure AuthenticatedRequestUser where
  id : JsString
  role : UserRole
  status : UserStatus
  tokenVersion : Nat
  jti : JsString
  deriving DecidableEq

def isTrimmedChar (c : Char) : Bool :=
  decide (c.toNat < 0x10000) && isTrimmed (UInt16.ofNat c.toNat)

/-- `String.prototype.trim`. -/
def trimChars (s : List Char) : List Char :=
  ((s.dropWhile isTrimmedChar).reverse.dropWhile isTrimmedChar).reverse

def bearer : List Char := "Bearer ".toList

/-- The token in the header of a request. -/
def bearerToken (authorization : Option (List Char)) : Option (List Char) :=
  (authorization.filter fun header => bearer.isPrefixOf header).map fun header =>
    trimChars (header.drop bearer.length)

def canActivate (hmac : Hmac) (config : AuthConfigValues) (now : Int) (users : Table JsString User)
    (authorization : Option (List Char)) : Except ApiException AuthenticatedRequestUser := do
  let token ← require (bearerToken authorization) .authTokenExpired
  let claims ← verifyAccessToken hmac config now token
  let user ← require (users.row claims.sub) .authTokenExpired
  ensure ((user.tokenVersion : Int) = claims.tokenVersion) .authTokenExpired
  ensure (user.status ≠ .disabled) .authAccountDisabled
  return ⟨claims.sub, user.role, user.status, user.tokenVersion, claims.jti⟩

variable {hmac : Hmac} {config : AuthConfigValues} {now : Nat} {later : Int} {jti : JsString}
  {input : AccessTokenInput} {token : List Char} {claims : AccessTokenClaims}

/-! Reading what was issued -/

theorem base64UrlDecode_encode (text : List Char) :
    base64UrlDecode (base64UrlEncode text) = text := by
  rw [base64UrlDecode, base64UrlEncode, Base64Url.decode_encode, Utf8.decodeLossy_encode]

theorem utf8_inj {s t : List Char} : Utf8.encode s = Utf8.encode t ↔ s = t := by
  constructor
  · intro h
    rw [← Utf8.decodeLossy_encode s, h, Utf8.decodeLossy_encode]
  · exact congrArg Utf8.encode

/-- A token is taken apart where it was put together. -/
theorem splitOn_token {head body signature : List Char} (hhead : '.' ∉ head) (hbody : '.' ∉ body)
    (hsignature : '.' ∉ signature) :
    (signingInput head body ++ '.' :: signature).splitOn '.' = [head, body, signature] := by
  rw [signingInput, List.append_assoc, List.cons_append, List.splitOn_append_cons_self,
    List.splitOn_append_cons_self, List.splitOn_eq_singleton hhead, List.splitOn_eq_singleton hbody,
    List.splitOn_eq_singleton hsignature]
  rfl

/-- The payload, as `JSON.parse` returns it. -/
def payloadOf (config : AuthConfigValues) (now : Nat) (jti : JsString) (input : AccessTokenInput) :
    Json :=
  .object
    [(ofString "sub", .string input.userId),
      (ofString "role", .string (roleName input.role)),
      (ofString "tokenVersion", .number (JsNumber.ofNat input.tokenVersion)),
      (ofString "jti", .string jti),
      (ofString "typ", .string (ofString "access")),
      (ofString "iat", .number (JsNumber.ofNat now)),
      (ofString "exp", .number (JsNumber.ofNat (now + config.accessTokenTtlSeconds))),
      (ofString "iss", .string config.tokenIssuer),
      (ofString "aud", .string config.tokenAudience)]

theorem parse_payloadText (hversion : input.tokenVersion < 2 ^ 53)
    (hexp : now + config.accessTokenTtlSeconds < 2 ^ 53) :
    Json.parse (payloadText config now jti input) = some (payloadOf config now jti input) := by
  refine parse_objectText (List.cons_ne_nil _ _) ?_
  exact .cons ⟨rfl, reads_quote _⟩ <| .cons ⟨rfl, reads_quote _⟩ <|
    .cons ⟨rfl, reads_natText hversion⟩ <| .cons ⟨rfl, reads_quote _⟩ <|
    .cons ⟨rfl, reads_quote _⟩ <| .cons ⟨rfl, reads_natText (by omega)⟩ <|
    .cons ⟨rfl, reads_natText hexp⟩ <| .cons ⟨rfl, reads_quote _⟩ <|
    .cons ⟨rfl, reads_quote _⟩ .nil

theorem asInteger_ofNat (n : Nat) :
    asInteger (some (.number (JsNumber.ofNat n))) = some (n : Int) := by
  simp [asInteger, JsNumber.ofNat]

theorem asSafeInteger_ofNat {n : Nat} (h : n < 2 ^ 53) :
    asSafeInteger (some (.number (JsNumber.ofNat n))) = some (n : Int) := by
  rw [asSafeInteger, asInteger_ofNat, Option.filter_some, if_pos]
  rw [decide_eq_true_eq, Int.natAbs_natCast, JsNumber.maxSafeInteger]
  omega

theorem asUserRole_roleName (role : UserRole) :
    asUserRole (some (.string (roleName role))) = some role := by
  cases role with
  | admin => decide
  | user => decide

theorem asClaims_payloadOf (hexp : now + config.accessTokenTtlSeconds < 2 ^ 53) (hjti : jti ≠ []) :
    asClaims (payloadOf config now jti input) = some (claimsOf config now jti input) := by
  have hsub : (payloadOf config now jti input).member? (ofString "sub") =
      some (.string input.userId) := rfl
  have hrole : (payloadOf config now jti input).member? (ofString "role") =
      some (.string (roleName input.role)) := rfl
  have hversion : (payloadOf config now jti input).member? (ofString "tokenVersion") =
      some (.number (JsNumber.ofNat input.tokenVersion)) := rfl
  have hid : (payloadOf config now jti input).member? (ofString "jti") = some (.string jti) := rfl
  have htyp : (payloadOf config now jti input).member? (ofString "typ") =
      some (.string (ofString "access")) := rfl
  have hiat : (payloadOf config now jti input).member? (ofString "iat") =
      some (.number (JsNumber.ofNat now)) := rfl
  have hexpires : (payloadOf config now jti input).member? (ofString "exp") =
      some (.number (JsNumber.ofNat (now + config.accessTokenTtlSeconds))) := rfl
  have hiss : (payloadOf config now jti input).member? (ofString "iss") =
      some (.string config.tokenIssuer) := rfl
  have haud : (payloadOf config now jti input).member? (ofString "aud") =
      some (.string config.tokenAudience) := rfl
  simp only [asClaims, hsub, hrole, hversion, hid, htyp, hiat, hexpires, hiss, haud, asText,
    asUserRole_roleName, asInteger_ofNat, asSafeInteger_ofNat hexp,
    asSafeInteger_ofNat (show now < 2 ^ 53 by omega)]
  rw [Option.filter_some, if_pos (by simpa using hjti), Option.filter_some,
    if_pos (decide_eq_true rfl)]
  rfl

theorem isHeader_headerText :
    ∃ header, Json.parse headerText = some header ∧ isHeader header = true := by
  refine ⟨.object [(ofString "alg", .string (ofString "HS256")),
    (ofString "typ", .string (ofString "JWT"))], ?_, by decide +kernel⟩
  refine parse_objectText (List.cons_ne_nil _ _) ?_
  exact .cons ⟨rfl, reads_quote _⟩ (.cons ⟨rfl, reads_quote _⟩ .nil)

theorem checkClaims_payloadOf (hexp : now + config.accessTokenTtlSeconds < 2 ^ 53)
    (hjti : jti ≠ []) :
    checkClaims config later (payloadOf config now jti input) =
      if later < now + config.accessTokenTtlSeconds ∧ now ≤ later + 60 then
        .ok (claimsOf config now jti input)
      else .error .authTokenExpired := by
  rw [checkClaims, asClaims_payloadOf hexp hjti]
  by_cases hexpires : later < now + config.accessTokenTtlSeconds
  · by_cases hiat : (now : Int) ≤ later + 60
    · rw [if_pos ⟨hexpires, hiat⟩]
      simp [require, ensure, claimsOf, hexpires, hiat, bind, Except.bind, pure, Except.pure]
    · rw [if_neg fun h => hiat h.2]
      simp [require, ensure, claimsOf, hexpires, hiat, bind, Except.bind]
  · rw [if_neg fun h => hexpires h.1]
    simp [require, ensure, claimsOf, hexpires, bind, Except.bind]

/-- What is verified is what was issued, as long as it has not expired. -/
theorem verifyAccessToken_issueAccessToken (hversion : input.tokenVersion < 2 ^ 53)
    (hexp : now + config.accessTokenTtlSeconds < 2 ^ 53) (hjti : jti ≠ []) :
    verifyAccessToken hmac config later (issueAccessToken hmac config now jti input) =
      if later < now + config.accessTokenTtlSeconds ∧ now ≤ later + 60 then
        .ok (claimsOf config now jti input)
      else .error .authTokenExpired := by
  obtain ⟨header, hheader, hfits⟩ := isHeader_headerText
  have hhead : '.' ∉ base64UrlEncode headerText := Base64Url.dot_not_mem_encode _
  have hbody : '.' ∉ base64UrlEncode (payloadText config now jti input) :=
    Base64Url.dot_not_mem_encode _
  have hsignature : ∀ input, '.' ∉ sign hmac input config.accessTokenSecret :=
    fun _ => Base64Url.dot_not_mem_encode _
  rw [verifyAccessToken, issueAccessToken, splitOn_token hhead hbody (hsignature _)]
  dsimp only
  rw [base64UrlDecode_encode, base64UrlDecode_encode, hheader, parse_payloadText hversion hexp]
  simp only [require, ensure, hfits, if_true, bind, Except.bind]
  exact checkClaims_payloadOf hexp hjti

/-! What is accepted -/

theorem eq_of_checkClaims {payload : Json} (h : checkClaims config later payload = .ok claims) :
    asClaims payload = some claims ∧ later < claims.exp ∧ claims.iss = config.tokenIssuer ∧
      claims.aud = config.tokenAudience ∧ claims.iat ≤ later + 60 := by
  simp only [checkClaims, bind_eq_ok, require_eq_ok, ensure_eq_ok, pure_eq_ok] at h
  obtain ⟨_, hclaims, -, hexp, -, hrest, rfl⟩ := h
  exact ⟨hclaims, hexp, hrest⟩

/-- What a token that is accepted looks like. -/
theorem signed_of_verifyAccessToken (h : verifyAccessToken hmac config later token = .ok claims) :
    ∃ head body payload, token = signingInput head body ++
        '.' :: sign hmac (signingInput head body) config.accessTokenSecret ∧
      Json.parse (base64UrlDecode body) = some payload ∧ asClaims payload = some claims ∧
      later < claims.exp ∧ claims.iss = config.tokenIssuer ∧ claims.aud = config.tokenAudience ∧
      claims.iat ≤ later + 60 := by
  rw [verifyAccessToken] at h
  split at h
  · rename_i head body signature hsplit
    simp only [bind_eq_ok, require_eq_ok, ensure_eq_ok] at h
    obtain ⟨header, -, payload, hpayload, -, -, -, hsignature, h⟩ := h
    refine ⟨head, body, payload, ?_, hpayload, eq_of_checkClaims h⟩
    have hjoin : ['.'].intercalate (token.splitOn '.') = token := List.intercalate_splitOn '.'
    rw [← utf8_inj.mp hsignature, ← hjoin, hsplit]
    simp [signingInput, List.intercalate]
  · cases h

/-- A token is accepted, as what it was issued for, from a minute before it was issued until it
expires, and nothing is accepted that is not signed, for this server and in its time. -/
theorem accessToken_accepted_iff (hmac : Hmac) (config : AuthConfigValues) (now : Nat)
    (jti : JsString) (input : AccessTokenInput) (later : Int)
    (hversion : input.tokenVersion < 2 ^ 53)
    (hexp : now + config.accessTokenTtlSeconds < 2 ^ 53) (hjti : jti ≠ []) :
    (verifyAccessToken hmac config later (issueAccessToken hmac config now jti input) =
        .ok (claimsOf config now jti input) ↔
      later < now + config.accessTokenTtlSeconds ∧ now ≤ later + 60) ∧
    ∀ token claims, verifyAccessToken hmac config later token = .ok claims →
      (∃ head body, token = signingInput head body ++
        '.' :: sign hmac (signingInput head body) config.accessTokenSecret) ∧
      claims.iss = config.tokenIssuer ∧ claims.aud = config.tokenAudience ∧
      later < claims.exp ∧ claims.iat ≤ later + 60 := by
  constructor
  · rw [verifyAccessToken_issueAccessToken hversion hexp hjti]
    split
    · rename_i hwindow
      exact iff_of_true rfl hwindow
    · rename_i hwindow
      exact iff_of_false (fun h => by cases h) hwindow
  · intro token claims h
    obtain ⟨head, body, _, htoken, -, -, hlater, hiss, haud, hiat⟩ := signed_of_verifyAccessToken h
    exact ⟨⟨head, body, htoken⟩, hiss, haud, hlater, hiat⟩

/-! A token of an administrator -/

def demoUserId : JsString := ofString "00000000-0000-4000-8000-00000000000a"

def demoConfig : AuthConfigValues :=
  ⟨ofString "secret", 900, ofString "server", ofString "web"⟩

def demoHmac : Hmac := fun secret input => (secret.map UInt16.toUInt8 ++ input.reverse).take 32

def demoJti : JsString := ofString "jti"

/-- It is accepted for a quarter of an hour. -/
theorem accepted_demoToken :
    verifyAccessToken demoHmac demoConfig 1899
        (issueAccessToken demoHmac demoConfig 1000 demoJti ⟨demoUserId, .admin, 1⟩) =
      .ok (claimsOf demoConfig 1000 demoJti ⟨demoUserId, .admin, 1⟩) :=
  (accessToken_accepted_iff demoHmac demoConfig 1000 demoJti ⟨demoUserId, .admin, 1⟩ 1899
    (by decide) (by decide) (by decide)).1.mpr ⟨by decide, by decide⟩

end AnvilRun.AccessTokens
