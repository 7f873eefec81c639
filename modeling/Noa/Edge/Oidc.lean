import Noa.Framework.Form
import Noa.Framework.Http
import Noa.Framework.JsonWrite

namespace Noa.Edge
open Noa.Framework

/-! The login of the authorization-code flow, step by step over a client that follows no redirect. -/

/-- A response with the two headers the flow reads, if they are there as text, and the body unless
reading it fails. -/
structure HttpResponse where
  status : Nat
  location : Option Text
  totpRequired : Option Text
  body : Except Text Text

inductive OidcError where
  | http (status : Nat) (step message : Text)
  | response (detail : Text)
  | totpProviderRequired
  | totpProvider (detail : Text)
  | totpCodeRejected
  | totpEnrollmentRequired
  | totpEnrollmentCodeRejected
  deriving DecidableEq

inductive OidcGrant where
  | cert
  | password (username password : Text)
  | extJwt (jwt : Text)

structure Pkce where
  verifier : Text
  challenge : Text

structure TokenResponse where
  accessToken : Text
  refreshToken : Option Text
  expiresIn : UInt64
  idToken : Option Text

structure IdTokenClaims where
  name : Option Text
  nonce : Option Text

structure OidcTokens where
  access : Text
  refresh : Option Text
  expiresIn : UInt64
  identityName : Option Text
  deriving DecidableEq

structure AuthQuery where
  typeId : Text
  isTotpEnrolled : Bool

/-- What the flow takes from libraries: the query of a URL, the text of bytes with what is no UTF-8
replaced, base64 and the JSON of the responses. -/
structure OidcLibs where
  urlQuery : Text → Except Text Text
  lossy : List UInt8 → Text
  base64Url : Text → Except Text (List UInt8)
  tokenResponse : Text → Except Text TokenResponse
  idTokenClaims : List UInt8 → Except Text IdTokenClaims
  authQueries : Text → Option (List AuthQuery)
  provisioningUrl : Text → Option Text

/-- The flow asks the controller, or the caller for a code. -/
inductive OidcCmd : Type → Type
  | send (req : HttpRequest) : OidcCmd (Except Text HttpResponse)
  | totpCode : OidcCmd (Except Text Text)
  | enrollTotp (provisioningUrl : Text) : OidcCmd (Except Text Text)

def OidcGrant.loginSegment : OidcGrant → Text
  | .cert => "cert".toList
  | .password _ _ => "password".toList
  | .extJwt _ => "ext-jwt".toList

def OidcGrant.credentials : OidcGrant → Text × Text
  | .cert | .extJwt _ => ([], [])
  | .password user pass => (user, pass)

def OidcGrant.authorization : OidcGrant → List (Text × Text)
  | .extJwt jwt => [("Authorization".toList, "Bearer ".toList ++ jwt)]
  | .cert | .password _ _ => []

namespace Oidc

def defaultRedirectUri : Text := "http://localhost:8080/auth/callback".toList

def contentType : Text := "Content-Type".toList
def formType : Text := "application/x-www-form-urlencoded".toList
def jsonType : Text := "application/json".toList

/-- What follows the first occurrence of a text. -/
def afterFirst (pat : Text) : Text → Option Text
  | [] => if pat = [] then some [] else none
  | c :: s => if pat.isPrefixOf (c :: s) then some ((c :: s).drop pat.length) else afterFirst pat s

def urlEncoded (pairs : List (Text × Text)) : Text :=
  Form.serialize (pairs.map fun p => (utf8 p.1, utf8 p.2))

def authorizePairs (pkce : Pkce) (state nonce : Text) : List (Text × Text) :=
  [("client_id".toList, "native".toList), ("response_type".toList, "code".toList),
    ("scope".toList, "openid offline_access".toList), ("state".toList, state),
    ("code_challenge".toList, pkce.challenge), ("code_challenge_method".toList, "S256".toList),
    ("redirect_uri".toList, defaultRedirectUri), ("nonce".toList, nonce)]

def authorizeUrl (base : Text) (pkce : Pkce) (state nonce : Text) : Text :=
  base ++ "/oidc/authorize?".toList ++ urlEncoded (authorizePairs pkce state nonce)

def extractAuthRequestId (location : Text) : Option Text :=
  ((afterFirst "authRequestID=".toList location).map (·.takeWhile fun c => c ≠ '&' && c ≠ '#')).filter
    (· ≠ [])

/-- The last value of a name. -/
def lastValue (L : OidcLibs) (name : Text) (pairs : List (List UInt8 × List UInt8)) : Option Text :=
  pairs.foldl (fun found p => if L.lossy p.1 = name then some (L.lossy p.2) else found) none

def extractCode (L : OidcLibs) (location expectedState : Text) : Except OidcError Text :=
  match L.urlQuery location with
  | .error e => .error (.response ("callback location not a url: ".toList ++ e))
  | .ok query =>
    if lastValue L "state".toList (Form.parse query) = some expectedState then
      match (lastValue L "code".toList (Form.parse query)).filter (· ≠ []) with
      | some code => .ok code
      | none => .error (.response "no code in callback".toList)
    else .error (.response "state mismatch in callback".toList)

def absolutize (base location : Text) : Text :=
  if "http://".toList.isPrefixOf location || "https://".toList.isPrefixOf location then location
  else base ++ location

def locationOf (resp : HttpResponse) (step : Text) : Except OidcError Text :=
  match resp.location with
  | some location => .ok location
  | none => .error (.response (step ++ ": no Location header".toList))

def bodyOrEmpty (resp : HttpResponse) : Text :=
  match resp.body with
  | .ok body => body
  | .error _ => []

def oidcHttpErr (step : Text) (resp : HttpResponse) : OidcError :=
  .http resp.status step ((bodyOrEmpty resp).take 200)

/-- The claims of an identity token, whose signature is not looked at. -/
def decodeIdTokenClaims (L : OidcLibs) (jwt : Text) : Except OidcError IdTokenClaims :=
  match (jwt.splitOn '.')[1]? with
  | none => .error (.response "id_token is not a JWT".toList)
  | some payload =>
    match L.base64Url payload with
    | .error e => .error (.response ("id_token base64: ".toList ++ e))
    | .ok bytes =>
      match L.idTokenClaims bytes with
      | .error e => .error (.response ("id_token json: ".toList ++ e))
      | .ok claims => .ok claims

def parseTokenResponse (L : OidcLibs) (body expectedNonce : Text) : Except OidcError OidcTokens :=
  match L.tokenResponse body with
  | .error e => .error (.response ("token response json: ".toList ++ e))
  | .ok tr =>
    match tr.idToken with
    | none => .error (.response "nonce mismatch in id_token".toList)
    | some idt =>
      match decodeIdTokenClaims L idt with
      | .error e => .error e
      | .ok claims =>
        if claims.nonce = some expectedNonce then
          .ok ⟨tr.accessToken, tr.refreshToken.filter (· ≠ []), tr.expiresIn, claims.name⟩
        else .error (.response "nonce mismatch in id_token".toList)

def totpCodePayload (code authRequestId : Text) : Text :=
  Json.writeObject [("code".toList, code), ("id".toList, authRequestId)]

def authRequestIdPayload (authRequestId : Text) : Text :=
  Json.writeObject [("id".toList, authRequestId)]

def parseProvisioningUrl (L : OidcLibs) (body : Text) : Text := (L.provisioningUrl body).getD []

/-- A body that tells nothing of TOTP counts as enrolled. -/
def isTotpEnrolled (L : OidcLibs) (body : Text) : Bool :=
  match L.authQueries body with
  | some queries =>
    match queries.find? fun q => q.typeId = "TOTP".toList with
    | some q => q.isTotpEnrolled
    | none => true
  | none => true

abbrev Flow (α : Type) := Program OidcCmd (Except OidcError α)

/-- A request, whose failure names the step. -/
def send (step : Text) (req : HttpRequest) : Flow HttpResponse :=
  .call (.send req) fun
    | .ok resp => .ret (.ok resp)
    | .error e => .ret (.error (.response (step ++ ": ".toList ++ e)))

def orError {α : Type} : Except OidcError α → Flow α := .ret

/-- A code from the caller. -/
def askCode (c : OidcCmd (Except Text Text)) : Flow Text :=
  .call c fun
    | .ok code => .ret (.ok code)
    | .error e => .ret (.error (.totpProvider e))

def postJson (url body : Text) : HttpRequest := ⟨.post, url, [(contentType, jsonType)], body⟩

def postForm (url : Text) (headers : List (Text × Text)) (pairs : List (Text × Text)) : HttpRequest :=
  ⟨.post, url, (contentType, formType) :: headers, urlEncoded pairs⟩

/-- What the responses to a code have in common: the redirect, a code that is rejected, and one more
factor that is not supported. -/
def codeResponse (base step : Text) (rejected : OidcError) (more : Text) (resp : HttpResponse) :
    Except OidcError Text :=
  if resp.status = 302 then (locationOf resp step).map (absolutize base)
  else if resp.status = 400 then .error rejected
  else if resp.status = 200 then .error (.response more)
  else .error (oidcHttpErr step resp)

def handleTotpEnrollment (L : OidcLibs) (base authRequestId : Text) (enrollHandler : Bool) : Flow Text :=
  if enrollHandler then
    (send "totp enroll start".toList
      (postJson (base ++ "/oidc/login/totp/enroll".toList) (authRequestIdPayload authRequestId))).andThen
    fun resp =>
      if resp.status ≠ 201 then .ret (.error (oidcHttpErr "totp enroll start".toList resp))
      else match resp.body with
        | .error e => .ret (.error (.response ("totp enroll start body: ".toList ++ e)))
        | .ok detail =>
          if parseProvisioningUrl L detail = [] then
            .ret (.error (.response
              "totp enrollment response did not contain a provisioning URL".toList))
          else
            (askCode (.enrollTotp (parseProvisioningUrl L detail))).andThen fun code =>
            (send "totp enroll verify".toList
              (postJson (base ++ "/oidc/login/totp/enroll/verify".toList)
                (totpCodePayload code authRequestId))).andThen fun resp =>
            .ret (codeResponse base "totp enroll verify".toList .totpEnrollmentCodeRejected
              ("totp enrollment verified, but additional authentication is required that is not " ++
                "supported or not configured, cannot authenticate").toList resp)
  else .ret (.error .totpEnrollmentRequired)

def handleTotpSecondaryAuth (L : OidcLibs) (base : Text) (resp : HttpResponse) (authRequestId : Text)
    (totpProvider enrollHandler : Bool) : Flow Text :=
  if resp.totpRequired.any (· ≠ []) then
    if isTotpEnrolled L (bodyOrEmpty resp) then
      if totpProvider then
        (askCode .totpCode).andThen fun code =>
        (send "totp submit".toList
          (postJson (base ++ "/oidc/login/totp".toList) (totpCodePayload code authRequestId))).andThen
        fun resp =>
          .ret (codeResponse base "totp".toList .totpCodeRejected
            ("totp code verified, but additional authentication is required that is not " ++
              "supported").toList resp)
      else .ret (.error .totpProviderRequired)
    else handleTotpEnrollment L base authRequestId enrollHandler
  else .ret (.error (.response
    ("login returned 200 without the totp-required header: an unknown additional " ++
      "authentication step is required but unsupported").toList))

/-- The first request, and the identifier the controller gives the login. -/
def authorize (base : Text) (pkce : Pkce) (state nonce : Text) : Flow Text :=
  (send "authorize".toList ⟨.get, authorizeUrl base pkce state nonce, [], []⟩).andThen fun resp =>
    if resp.status ≠ 302 then .ret (.error (oidcHttpErr "authorize".toList resp))
    else (orError (locationOf resp "authorize".toList)).andThen fun location =>
      match extractAuthRequestId location with
      | some id => .ret (.ok id)
      | none => .ret (.error (.response "no authRequestID in authorize redirect".toList))

def loginPairs (grant : OidcGrant) (authRequestId : Text) : List (Text × Text) :=
  [("id".toList, authRequestId), ("username".toList, grant.credentials.1),
    ("password".toList, grant.credentials.2)]

/-- The credentials, and a second factor if the controller asks for it. -/
def login (L : OidcLibs) (base : Text) (grant : OidcGrant) (authRequestId : Text)
    (totpProvider enrollHandler : Bool) : Flow Text :=
  (send "login".toList (postForm (base ++ "/oidc/login/".toList ++ grant.loginSegment)
    grant.authorization (loginPairs grant authRequestId))).andThen fun resp =>
    if resp.status = 302 then .ret ((locationOf resp "login".toList).map (absolutize base))
    else if resp.status = 200 then
      handleTotpSecondaryAuth L base resp authRequestId totpProvider enrollHandler
    else .ret (.error (oidcHttpErr "login".toList resp))

/-- The redirect to the callback, with the code. -/
def callback (L : OidcLibs) (callbackLoc state : Text) : Flow Text :=
  (send "callback".toList ⟨.get, callbackLoc, [], []⟩).andThen fun resp =>
    if resp.status ≠ 302 then .ret (.error (oidcHttpErr "callback".toList resp))
    else (orError (locationOf resp "callback".toList)).andThen fun location =>
      .ret (extractCode L location state)

def tokenPairs (pkce : Pkce) (code : Text) : List (Text × Text) :=
  [("grant_type".toList, "authorization_code".toList), ("client_id".toList, "native".toList),
    ("code_verifier".toList, pkce.verifier), ("code".toList, code),
    ("redirect_uri".toList, defaultRedirectUri)]

/-- The code against the tokens. -/
def tokenExchange (L : OidcLibs) (base : Text) (pkce : Pkce) (nonce code : Text) : Flow OidcTokens :=
  (send "token exchange".toList
    (postForm (base ++ "/oidc/oauth/token".toList) [] (tokenPairs pkce code))).andThen fun resp =>
    if resp.status ≠ 200 then .ret (.error (oidcHttpErr "token exchange".toList resp))
    else match resp.body with
      | .error e => .ret (.error (.response ("token exchange body: ".toList ++ e)))
      | .ok body => .ret (parseTokenResponse L body nonce)

/-- The whole flow, with the numbers it has drawn. -/
def oidcAuthenticate (L : OidcLibs) (base : Text) (grant : OidcGrant) (pkce : Pkce) (state nonce : Text)
    (totpProvider enrollHandler : Bool) : Flow OidcTokens :=
  (authorize base pkce state nonce).andThen fun authRequestId =>
  (login L base grant authRequestId totpProvider enrollHandler).andThen fun callbackLoc =>
  (callback L callbackLoc state).andThen fun code =>
  tokenExchange L base pkce nonce code

/-! What the flow is for: the credentials reach the controller only, and the tokens are those of this
login. -/

/-- What was asked, with the reply. -/
inductive OidcEvent where
  | sent (req : HttpRequest) (reply : Except Text HttpResponse)
  | asked (answer : Except Text Text)

/-- The pairs the receiver of a form reads. -/
def formOf (req : HttpRequest) : List (List UInt8 × List UInt8) :=
  if (contentType, formType) ∈ req.headers then Form.parse req.body else []

def bytesOf (pairs : List (Text × Text)) : List (List UInt8 × List UInt8) :=
  pairs.map fun p => (utf8 p.1, utf8 p.2)

/-- The controller has sent us to the location. -/
def Redirected (h : List OidcEvent) (location : Text) : Prop :=
  ∃ req resp, .sent req (.ok resp) ∈ h ∧ resp.status = 302 ∧ resp.location = some location

/-- The request is a form that has the field. -/
def HasField (name : Text) (req : HttpRequest) : Prop := ∃ value, (utf8 name, value) ∈ formOf req

/-- No request so far had the field. -/
def Unsent (name : Text) (h : List OidcEvent) : Prop :=
  ∀ req reply, .sent req reply ∈ h → ¬ HasField name req

/-- The location gives the login an identifier, which the next parameter or the fragment ends. -/
def LoginId (location id : Text) : Prop :=
  ∃ front rest, location = front ++ "authRequestID=".toList ++ id ++ rest ∧ id ≠ [] ∧
    '&' ∉ id ∧ '#' ∉ id ∧ ∀ c ∈ rest.head?, c = '&' ∨ c = '#'

section Protocol

variable (L : OidcLibs) (base : Text) (grant : OidcGrant) (pkce : Pkce) (state nonce : Text)

/-- The last pair of that name in the query of a location has the value. -/
def Carries (location name value : Text) : Prop :=
  ∃ query front p rest, L.urlQuery location = .ok query ∧ Form.parse query = front ++ p :: rest ∧
    L.lossy p.1 = name ∧ L.lossy p.2 = value ∧ ∀ q ∈ rest, L.lossy q.1 ≠ name

/-- The address is one of the controller's own. -/
def Ours (url : Text) : Prop := base ++ "/oidc/".toList <+: url

/-- The requests that the login may make, after what has been asked and replied so far. -/
inductive Safe (h : List OidcEvent) : HttpRequest → Prop
  | opens {query : Text} (hnil : h = [])
      (hquery : Form.parse query = bytesOf
        [("client_id".toList, "native".toList), ("response_type".toList, "code".toList),
          ("scope".toList, "openid offline_access".toList), ("state".toList, state),
          ("code_challenge".toList, pkce.challenge), ("code_challenge_method".toList, "S256".toList),
          ("redirect_uri".toList, defaultRedirectUri), ("nonce".toList, nonce)]) :
    Safe h ⟨.get, base ++ "/oidc/authorize?".toList ++ query, [], []⟩
  /-- Redirects are followed as they are. -/
  | follows {location : Text} (hredirected : Redirected h location) :
    Safe h ⟨.get, absolutize base location, [], []⟩
  | credentials {url location id body : Text} (hurl : Ours base url)
      (hredirected : Redirected h location) (hid : LoginId location id)
      (hbody : Form.parse body = bytesOf [("id".toList, id), ("username".toList, grant.credentials.1),
        ("password".toList, grant.credentials.2)]) :
    Safe h ⟨.post, url, (contentType, formType) :: grant.authorization, body⟩
  | enrolls {url location id body : Text} (hurl : Ours base url) (hredirected : Redirected h location)
      (hid : LoginId location id) (hbody : Json.IsText body (.ofStrings [("id".toList, id)])) :
    Safe h ⟨.post, url, [(contentType, jsonType)], body⟩
  /-- The code is one that the caller gave. -/
  | factor {url location id code body : Text} (hurl : Ours base url)
      (hredirected : Redirected h location) (hid : LoginId location id) (hasked : .asked (.ok code) ∈ h)
      (hbody : Json.IsText body (.ofStrings [("code".toList, code), ("id".toList, id)])) :
    Safe h ⟨.post, url, [(contentType, jsonType)], body⟩
  | verifier {url location code body : Text} (hurl : Ours base url)
      (hunsent : Unsent "code_verifier".toList h) (hredirected : Redirected h location)
      (hstate : Carries L location "state".toList state)
      (hcode : Carries L location "code".toList code) (hne : code ≠ [])
      (hbody : Form.parse body = bytesOf [("grant_type".toList, "authorization_code".toList),
        ("client_id".toList, "native".toList), ("code_verifier".toList, pkce.verifier),
        ("code".toList, code), ("redirect_uri".toList, defaultRedirectUri)]) :
    Safe h ⟨.post, url, [(contentType, formType)], body⟩

/-- The tokens are those of the reply to the verifier, in which the nonce is that of this login. -/
def Granted (tokens : OidcTokens) (h : List OidcEvent) : Prop :=
  ∃ req resp body tr jwt payload bytes claims, .sent req (.ok resp) ∈ h ∧
    HasField "code_verifier".toList req ∧ resp.status = 200 ∧ resp.body = .ok body ∧
    L.tokenResponse body = .ok tr ∧ tr.idToken = some jwt ∧ (jwt.splitOn '.')[1]? = some payload ∧
    L.base64Url payload = .ok bytes ∧ L.idTokenClaims bytes = .ok claims ∧ claims.nonce = some nonce ∧
    tokens = ⟨tr.accessToken, tr.refreshToken.filter (· ≠ []), tr.expiresIn, claims.name⟩

/-- The history of the requests, all of which are safe. -/
def protocol : Discipline OidcCmd (List OidcEvent) where
  may := fun h c => match c with
    | .send req => Safe L base grant pkce state nonce h req
    | .totpCode | .enrollTotp _ => True
  next := fun h c b => match c with
    | .send req => h ++ [.sent req b]
    | .totpCode | .enrollTotp _ => h ++ [.asked b]

end Protocol

section Parts

variable {L : OidcLibs} {base : Text} {grant : OidcGrant} {pkce : Pkce} {state nonce : Text}

theorem formOf_postForm (url : Text) (headers pairs : List (Text × Text)) :
    formOf (postForm url headers pairs) = bytesOf pairs :=
  (if_pos List.mem_cons_self).trans (Form.parse_serialize _)

theorem formOf_postJson (url body : Text) : formOf (postJson url body) = [] := by
  refine if_neg fun hmem => ?_
  exact absurd (List.mem_singleton.mp hmem) (by decide)

theorem not_hasField_of_nil {req : HttpRequest} (hform : formOf req = []) (name : Text) :
    ¬ HasField name req := by
  rintro ⟨value, hmem⟩
  rw [hform] at hmem
  cases hmem

/-- A form has the fields it was written with, whatever their values are. -/
theorem hasField_iff {req : HttpRequest} {pairs : List (Text × Text)} (hform : formOf req = bytesOf pairs)
    (name : Text) : HasField name req ↔ name ∈ pairs.map Prod.fst := by
  rw [HasField, hform, List.mem_map]
  constructor
  · rintro ⟨value, hmem⟩
    obtain ⟨p, hp, heq⟩ := List.mem_map.mp hmem
    exact ⟨p, hp, utf8_inj.mp (Prod.mk.inj heq).1⟩
  · rintro ⟨p, hp, rfl⟩
    exact ⟨utf8 p.2, List.mem_map.mpr ⟨p, hp, rfl⟩⟩

/-- The login gives the verifier away in no field, whatever the identifier and the credentials are. -/
theorem login_unsent (url : Text) (headers : List (Text × Text)) (id : Text) :
    ¬ HasField "code_verifier".toList (postForm url headers (loginPairs grant id)) := by
  intro hfield
  have hmem : "code_verifier".toList ∈ ["id".toList, "username".toList, "password".toList] :=
    (hasField_iff (formOf_postForm _ _ _) _).mp hfield
  exact absurd hmem (by decide)

theorem ours_append {path : Text} (hpath : "/oidc/".toList <+: path) : Ours base (base ++ path) :=
  (List.prefix_append_right_inj base).mpr hpath

theorem afterFirst_eq_some {pat s rest : Text} (h : afterFirst pat s = some rest) :
    ∃ front, s = front ++ pat ++ rest := by
  induction s with
  | nil =>
    simp only [afterFirst] at h
    split_ifs at h with hpat
    cases h
    exact ⟨[], by simp [hpat]⟩
  | cons c s ih =>
    simp only [afterFirst] at h
    split_ifs at h with hpat
    · cases h
      obtain ⟨rest, hrest⟩ := List.isPrefixOf_iff_prefix.mp hpat
      exact ⟨[], by simp [← hrest]⟩
    · obtain ⟨front, rfl⟩ := ih h
      exact ⟨c :: front, rfl⟩

theorem loginId_of_extract {location id : Text} (h : extractAuthRequestId location = some id) :
    LoginId location id := by
  unfold extractAuthRequestId at h
  obtain ⟨h, hne⟩ := Option.filter_eq_some_iff.mp h
  obtain ⟨tail, htail, rfl⟩ := Option.map_eq_some_iff.mp h
  obtain ⟨front, hfront⟩ := afterFirst_eq_some htail
  have hid (c : Char) (hc : c ∈ tail.takeWhile fun c => c ≠ '&' && c ≠ '#') : c ≠ '&' ∧ c ≠ '#' := by
    simpa using List.mem_takeWhile_imp hc
  refine ⟨front, tail.dropWhile fun c => c ≠ '&' && c ≠ '#', ?_, of_decide_eq_true hne,
    fun hc => (hid _ hc).1 rfl, fun hc => (hid _ hc).2 rfl, fun c hc => ?_⟩
  · rw [hfront, List.append_assoc (_ ++ _), List.takeWhile_append_dropWhile]
  · have hstop := List.head?_dropWhile_not (fun c => c ≠ '&' && c ≠ '#') tail
    rw [hc] at hstop
    simpa [or_iff_not_imp_left] using hstop

theorem carries_of_lastValue {location query name value : Text}
    (hquery : L.urlQuery location = .ok query)
    (hlast : lastValue L name (Form.parse query) = some value) : Carries L location name value := by
  suffices hsplit : ∃ front p rest, Form.parse query = front ++ p :: rest ∧ L.lossy p.1 = name ∧
      L.lossy p.2 = value ∧ ∀ q ∈ rest, L.lossy q.1 ≠ name by
    obtain ⟨front, p, rest, h⟩ := hsplit
    exact ⟨query, front, p, rest, hquery, h⟩
  generalize Form.parse query = pairs at hlast
  induction pairs using List.reverseRecOn with
  | nil => cases hlast
  | append_singleton ps p ih =>
    rw [lastValue, List.foldl_concat] at hlast
    split_ifs at hlast with hname
    · exact ⟨ps, p, [], rfl, hname, Option.some.inj hlast, List.forall_mem_nil _⟩
    · obtain ⟨front, q, rest, rfl, hq, hvalue, hrest⟩ := ih hlast
      refine ⟨front, q, rest ++ [p], by simp, hq, hvalue, ?_⟩
      exact List.forall_mem_append.mpr ⟨hrest, List.forall_mem_singleton.mpr hname⟩

theorem carries_of_extractCode {location code : Text} (h : extractCode L location state = .ok code) :
    Carries L location "state".toList state ∧ Carries L location "code".toList code ∧ code ≠ [] := by
  unfold extractCode at h
  split at h
  next => cases h
  next query hquery =>
    split_ifs at h with hstate
    split at h
    next code' hcode =>
      cases h
      obtain ⟨hcode, hne⟩ := Option.filter_eq_some_iff.mp hcode
      exact ⟨carries_of_lastValue hquery hstate, carries_of_lastValue hquery hcode,
        of_decide_eq_true hne⟩
    next => cases h

theorem locationOf_eq_ok {resp : HttpResponse} {step location : Text}
    (hloc : locationOf resp step = .ok location) : resp.location = some location := by
  unfold locationOf at hloc
  split at hloc
  next location' heq =>
    cases hloc
    exact heq
  next => cases hloc

theorem map_locationOf_eq_ok {resp : HttpResponse} {step url : Text}
    (hurl : (locationOf resp step).map (absolutize base) = .ok url) :
    ∃ location, resp.location = some location ∧ url = absolutize base location := by
  cases hloc : locationOf resp step with
  | error e =>
    rw [hloc] at hurl
    cases hurl
  | ok location =>
    rw [hloc] at hurl
    cases hurl
    exact ⟨location, locationOf_eq_ok hloc, rfl⟩

theorem codeResponse_eq_ok {step more url : Text} {rejected : OidcError} {resp : HttpResponse}
    (hurl : codeResponse base step rejected more resp = .ok url) :
    resp.status = 302 ∧ ∃ location, resp.location = some location ∧ url = absolutize base location := by
  unfold codeResponse at hurl
  split_ifs at hurl with hstatus
  exact ⟨hstatus, map_locationOf_eq_ok hurl⟩

theorem parseTokenResponse_eq_ok {body : Text} {tokens : OidcTokens}
    (htokens : parseTokenResponse L body nonce = .ok tokens) :
    ∃ tr jwt payload bytes claims, L.tokenResponse body = .ok tr ∧ tr.idToken = some jwt ∧
      (jwt.splitOn '.')[1]? = some payload ∧ L.base64Url payload = .ok bytes ∧
      L.idTokenClaims bytes = .ok claims ∧ claims.nonce = some nonce ∧
      tokens = ⟨tr.accessToken, tr.refreshToken.filter (· ≠ []), tr.expiresIn, claims.name⟩ := by
  unfold parseTokenResponse at htokens
  split at htokens
  next => cases htokens
  next tr htr =>
    split at htokens
    next => cases htokens
    next jwt hjwt =>
      split at htokens
      next => cases htokens
      next claims hclaims =>
        split_ifs at htokens with hnonce
        cases htokens
        unfold decodeIdTokenClaims at hclaims
        split at hclaims
        next => cases hclaims
        next payload hpayload =>
          split at hclaims
          next => cases hclaims
          next bytes hbytes =>
            split at hclaims
            next => cases hclaims
            next heq =>
              cases hclaims
              exact ⟨tr, jwt, payload, bytes, claims, htr, hjwt, hpayload, hbytes, heq, hnonce, rfl⟩

end Parts

section Flow

variable {L : OidcLibs} {base : Text} {grant : OidcGrant} {pkce : Pkce} {state nonce : Text}
  {h : List OidcEvent} {id : Text} {α : Type}

/-- What holds of the history when a part of the flow does not fail. -/
abbrev Yields (L : OidcLibs) (base : Text) (grant : OidcGrant) (pkce : Pkce) (state nonce : Text)
    (Q : α → List OidcEvent → Prop) (h : List OidcEvent) (p : Flow α) : Prop :=
  p.Ensures (protocol L base grant pkce state nonce) (fun r h' => ∀ a, r = .ok a → Q a h') h

/-- The login has its identifier, and has not given the verifier away. -/
structure Underway (id : Text) (h : List OidcEvent) : Prop where
  named : ∃ location, Redirected h location ∧ LoginId location id
  unsent : Unsent "code_verifier".toList h

theorem Redirected.append {location : Text} (hr : Redirected h location) (e : OidcEvent) :
    Redirected (h ++ [e]) location := by
  obtain ⟨req, resp, hmem, hresp⟩ := hr
  exact ⟨req, resp, List.mem_append_left _ hmem, hresp⟩

theorem Unsent.append {name : Text} (hu : Unsent name h) {e : OidcEvent}
    (he : ∀ req reply, e = .sent req reply → ¬ HasField name req) : Unsent name (h ++ [e]) := by
  intro req reply hmem
  rcases List.mem_append.mp hmem with hold | hnew
  · exact hu req reply hold
  · exact he req reply (List.mem_singleton.mp hnew).symm

theorem Underway.append (hu : Underway id h) {e : OidcEvent}
    (he : ∀ req reply, e = .sent req reply → ¬ HasField "code_verifier".toList req) :
    Underway id (h ++ [e]) := by
  obtain ⟨location, hr, hid⟩ := hu.named
  exact ⟨⟨location, hr.append e, hid⟩, hu.unsent.append he⟩

theorem yields_request {step : Text} {req : HttpRequest}
    (hsafe : Safe L base grant pkce state nonce h req) :
    Yields L base grant pkce state nonce (fun resp h' => h' = h ++ [.sent req (.ok resp)]) h
      (send step req) := by
  refine ⟨hsafe, fun reply => ?_⟩
  cases reply with
  | error e => rintro _ ⟨⟩
  | ok resp =>
    rintro _ ⟨⟩
    rfl

theorem yields_send (hu : Underway id h) {step : Text} {req : HttpRequest}
    (hsafe : Safe L base grant pkce state nonce h req) (hreq : ¬ HasField "code_verifier".toList req) :
    Yields L base grant pkce state nonce
      (fun resp h' => Underway id h' ∧ .sent req (.ok resp) ∈ h') h (send step req) := by
  refine (yields_request hsafe).mono fun r h' hr resp hresp => ?_
  rw [hr resp hresp]
  refine ⟨hu.append ?_, List.mem_append_right _ List.mem_cons_self⟩
  rintro _ _ ⟨⟩
  exact hreq

theorem yields_askCode (hu : Underway id h) {c : OidcCmd (Except Text Text)}
    (hc : c = .totpCode ∨ ∃ url, c = .enrollTotp url) :
    Yields L base grant pkce state nonce (fun code h' => Underway id h' ∧ .asked (.ok code) ∈ h') h
      (askCode c) := by
  rcases hc with rfl | ⟨url, rfl⟩
  all_goals
    refine ⟨trivial, fun answer => ?_⟩
    cases answer with
    | error e => rintro _ ⟨⟩
    | ok code =>
      rintro _ ⟨⟩
      exact ⟨hu.append (by rintro _ _ ⟨⟩), List.mem_append_right _ List.mem_cons_self⟩

theorem yields_location {resp : HttpResponse} {step : Text} :
    Yields L base grant pkce state nonce (fun location h' => h' = h ∧ resp.location = some location) h
      (orError (locationOf resp step)) :=
  fun _ hlocation => ⟨rfl, locationOf_eq_ok hlocation⟩

/-- A redirect has sent a login that is under way to the address. -/
def SentTo (base id url : Text) (h : List OidcEvent) : Prop :=
  Underway id h ∧ ∃ location, Redirected h location ∧ url = absolutize base location

theorem yields_code (hu : Underway id h) {code path step step' more : Text} {rejected : OidcError}
    (hasked : .asked (.ok code) ∈ h) (hpath : "/oidc/".toList <+: path) :
    Yields L base grant pkce state nonce (SentTo base id) h
      ((send step (postJson (base ++ path) (totpCodePayload code id))).andThen fun resp =>
        .ret (codeResponse base step' rejected more resp)) := by
  obtain ⟨location, hr, hid⟩ := hu.named
  refine (yields_send hu (.factor (ours_append hpath) hr hid hasked (Json.isText_writeObject _))
    (not_hasField_of_nil (formOf_postJson _ _) _)).andThen ?_
  rintro resp h' ⟨hu, hmem⟩ url hurl
  obtain ⟨hstatus, location, hloc, rfl⟩ := codeResponse_eq_ok hurl
  exact ⟨hu, location, ⟨_, resp, hmem, hstatus, hloc⟩, rfl⟩

theorem yields_authorize :
    Yields L base grant pkce state nonce Underway [] (authorize base pkce state nonce) := by
  refine (yields_request (.opens rfl (Form.parse_serialize _))).andThen ?_
  rintro resp _ rfl
  split_ifs with hstatus
  · rintro _ ⟨⟩
  refine yields_location.andThen ?_
  rintro location _ ⟨rfl, hlocation⟩
  cases hid : extractAuthRequestId location with
  | none => rintro _ ⟨⟩
  | some id =>
    rintro _ ⟨⟩
    refine ⟨⟨location, ⟨_, resp, List.mem_cons_self, not_not.mp hstatus, hlocation⟩,
      loginId_of_extract hid⟩, fun req reply hmem => ?_⟩
    cases List.mem_singleton.mp hmem
    exact not_hasField_of_nil rfl _

theorem yields_totpEnrollment (hu : Underway id h) (enrollHandler : Bool) :
    Yields L base grant pkce state nonce (SentTo base id) h
      (handleTotpEnrollment L base id enrollHandler) := by
  unfold handleTotpEnrollment
  obtain ⟨location, hr, hid⟩ := hu.named
  split_ifs
  · refine (yields_send hu (.enrolls (ours_append (by decide)) hr hid (Json.isText_writeObject _))
      (not_hasField_of_nil (formOf_postJson _ _) _)).andThen ?_
    rintro resp h' ⟨hu, -⟩
    split_ifs with hstatus
    · rintro _ ⟨⟩
    cases resp.body with
    | error e => rintro _ ⟨⟩
    | ok detail =>
      dsimp only
      split_ifs
      · rintro _ ⟨⟩
      refine (yields_askCode hu (.inr ⟨_, rfl⟩)).andThen ?_
      rintro code h' ⟨hu, hasked⟩
      exact yields_code hu hasked (by decide)
  · rintro _ ⟨⟩

theorem yields_totpSecondaryAuth (hu : Underway id h) (resp : HttpResponse)
    (totpProvider enrollHandler : Bool) :
    Yields L base grant pkce state nonce (SentTo base id) h
      (handleTotpSecondaryAuth L base resp id totpProvider enrollHandler) := by
  unfold handleTotpSecondaryAuth
  split_ifs
  · refine (yields_askCode hu (.inl rfl)).andThen ?_
    rintro code h' ⟨hu, hasked⟩
    exact yields_code hu hasked (by decide)
  · rintro _ ⟨⟩
  · exact yields_totpEnrollment hu enrollHandler
  · rintro _ ⟨⟩

theorem yields_login (hu : Underway id h) (totpProvider enrollHandler : Bool) :
    Yields L base grant pkce state nonce (SentTo base id) h
      (login L base grant id totpProvider enrollHandler) := by
  obtain ⟨location, hr, hid⟩ := hu.named
  have hours : Ours base (base ++ "/oidc/login/".toList ++ grant.loginSegment) :=
    (ours_append (by decide)).trans (List.prefix_append _ _)
  refine (yields_send hu (.credentials hours hr hid (Form.parse_serialize _))
    (login_unsent _ _ _)).andThen ?_
  rintro resp h' ⟨hu, hmem⟩
  split_ifs with hstatus
  · intro url hurl
    obtain ⟨location, hloc, rfl⟩ := map_locationOf_eq_ok hurl
    exact ⟨hu, location, ⟨_, resp, hmem, hstatus, hloc⟩, rfl⟩
  · exact yields_totpSecondaryAuth hu resp totpProvider enrollHandler
  · rintro _ ⟨⟩

theorem yields_callback (hu : Underway id h) {location : Text} (hr : Redirected h location) :
    Yields L base grant pkce state nonce
      (fun code h' => Underway id h' ∧ ∃ location, Redirected h' location ∧
        extractCode L location state = .ok code) h (callback L (absolutize base location) state) := by
  refine (yields_send hu (.follows hr) (not_hasField_of_nil rfl _)).andThen ?_
  rintro resp h' ⟨hu, hmem⟩
  split_ifs with hstatus
  · rintro _ ⟨⟩
  refine yields_location.andThen ?_
  rintro location _ ⟨rfl, hlocation⟩
  exact fun code hcode => ⟨hu, location, ⟨_, resp, hmem, not_not.mp hstatus, hlocation⟩, hcode⟩

theorem yields_tokenExchange (hu : Underway id h) {location code : Text}
    (hr : Redirected h location) (hcode : extractCode L location state = .ok code) :
    Yields L base grant pkce state nonce (Granted L nonce) h (tokenExchange L base pkce nonce code) := by
  have hfield : HasField "code_verifier".toList
      (postForm (base ++ "/oidc/oauth/token".toList) [] (tokenPairs pkce code)) :=
    (hasField_iff (formOf_postForm _ _ _) _).mpr (by simp [tokenPairs])
  obtain ⟨hstate, hcode, hne⟩ := carries_of_extractCode hcode
  refine (yields_request (.verifier (ours_append (by decide)) hu.unsent hr hstate hcode hne
    (Form.parse_serialize _))).andThen ?_
  rintro resp h' rfl
  split_ifs with hstatus
  · rintro _ ⟨⟩
  cases hbody : resp.body with
  | error e => rintro _ ⟨⟩
  | ok body =>
    intro tokens htokens
    obtain ⟨tr, jwt, payload, bytes, claims, hclaims⟩ := parseTokenResponse_eq_ok htokens
    exact ⟨_, resp, body, tr, jwt, payload, bytes, claims, List.mem_append_right _ List.mem_cons_self,
      hfield, not_not.mp hstatus, hbody, hclaims⟩

end Flow

/-- Whatever the controller answers, every request of a login is safe, and the tokens it yields are those
of the reply to the one request with the verifier, with the nonce of the login. -/
theorem login_bound (L : OidcLibs) (base : Text) (grant : OidcGrant) (pkce : Pkce) (state nonce : Text)
    (totpProvider enrollHandler : Bool) :
    (oidcAuthenticate L base grant pkce state nonce totpProvider enrollHandler).Ensures
      (protocol L base grant pkce state nonce)
      (fun r h => ∀ tokens, r = .ok tokens → Granted L nonce tokens h) [] := by
  refine yields_authorize.andThen fun id h hu => ?_
  refine (yields_login hu totpProvider enrollHandler).andThen ?_
  rintro callbackLoc h ⟨hu, location, hr, rfl⟩
  refine (yields_callback hu hr).andThen ?_
  rintro code h ⟨hu, location, hr, hcode⟩
  exact yields_tokenExchange hu hr hcode

/-- The result of a flow whose commands a function answers. -/
def result {α : Type} (answer : (β : Type) → OidcCmd β → β) : Program OidcCmd α → α
  | .ret a => a
  | .call c k => result answer (k (answer _ c))

/-- A login that goes well, with the responses by the path of the request. -/
def honest (β : Type) : OidcCmd β → β
  | .send req =>
    if "c/oidc/authorize".toList.isPrefixOf req.url then
      .ok ⟨302, some "/login?authRequestID=7&x".toList, none, .ok []⟩
    else if "c/oidc/login/cert".toList = req.url then .ok ⟨302, some "/cb".toList, none, .ok []⟩
    else if "c/cb".toList = req.url then .ok ⟨302, some "state=s&code=k%20".toList, none, .ok []⟩
    else .ok ⟨200, none, none, .ok []⟩
  | .totpCode => .error []
  | .enrollTotp _ => .error []

/-- Texts of ASCII, with the nonce `n` in every token. -/
def plainLibs : OidcLibs where
  urlQuery := .ok
  lossy bs := bs.map fun b => Char.ofNat b.toNat
  base64Url s := .ok (utf8 s)
  tokenResponse _ := .ok ⟨['a'], some [], 60, some "h.p.s".toList⟩
  idTokenClaims _ := .ok ⟨none, some ['n']⟩
  authQueries _ := none
  provisioningUrl _ := none

example : (result honest (oidcAuthenticate plainLibs ['c'] .cert ⟨['v'], ['w']⟩ ['s'] ['n'] false
    false)).toOption = some ⟨['a'], none, 60, none⟩ := by
  decide +kernel

end Oidc

end Noa.Edge
