import Noa.Framework.Http
import Noa.Framework.JsonWrite

namespace Noa.Enroll
open Noa.Framework

/-! Enrollment: how a client that has a token and no certificates comes to trust its controller. -/

abbrev Der := List UInt8

structure EnrollmentClaims where
  iss : Text
  sub : Text
  jti : Text
  method : Text
  exp : Option Int

inductive EnrollError where
  | invalidToken (detail : Text)
  | jwtSignature (detail : Text)
  | bootstrapTls (detail : Text)
  | caFetch (detail : Text)
  | pkcs7Parse (detail : Text)
  | emptyCaPool
  | keyGen (detail : Text)
  | csrBuild (detail : Text)
  | enrollHttp (status : Nat) (code message : Text)
  | enrollResponse (detail : Text)
  | unsupportedMethod (method : Text)
  | updbRequiresCredentials
  | missingClientIdentity
  | alreadyEnrolled
  deriving DecidableEq

inductive KeyKind where
  | ec
  | rsa

inductive JwtAlg where
  | hs256
  | hs384
  | hs512
  | es256
  | es384
  | rs256
  | rs384
  | rs512
  | ps256
  | ps384
  | ps512
  | edDsa

/-- Who can check such a signature can make it. -/
def JwtAlg.symmetric : JwtAlg → Bool
  | .hs256 | .hs384 | .hs512 => true
  | _ => false

inductive KeyAlg where
  | ecP384
  | rsa4096

structure KeyAndCsr where
  keyPem : Text
  csrPem : Text

/-- What a server shows of itself: its certificate, those it sends along, and whether it signs the
handshake with the key of its certificate. -/
structure Handshake where
  leaf : Der
  intermediates : List Der
  signed : Bool

structure Response where
  status : Nat
  contentType : Option Text
  body : Except Text (List UInt8)

structure ProvidedIdentity where
  certPem : Text
  keyPem : Text

structure EnrollOptions where
  keyAlg : KeyAlg
  clientIdentity : Option ProvidedIdentity
  additionalCas : Option Text

structure Id where
  key : Text
  cert : Text
  ca : Text
  deriving DecidableEq

structure Config where
  ztApi : Text
  id : Id
  deriving DecidableEq

structure UpdbConfig where
  ztApi : Text
  ca : Text
  username : Text
  password : Text

/-- What enrollment takes from libraries: texts and their encodings, the parts of a certificate, the
check of a signed token, the check of a chain up to some roots for the host of a URL, and new keys. -/
structure EnrollLibs where
  trim : Text → Text
  text : List UInt8 → Text
  base64Url : Text → Except Text (List UInt8)
  base64 : List UInt8 → Except Text (List UInt8)
  base64Encode : List UInt8 → Text
  statusText : Nat → Text
  claims : List UInt8 → Except Text EnrollmentClaims
  urlHost : Text → Except Text (Option Text)
  certSpki : Der → Except Text (Text × Text)
  decodingKey : KeyKind → Text → Except Text Unit
  decodeJwt : Text → KeyKind → Text → List JwtAlg → Except Text EnrollmentClaims
  certificates : List UInt8 → Except Text (List Der)
  caPems : Text → List Der
  addRoot : Der → Except Text Unit
  clientPems : Text → Text → Except Text Unit
  clientAuth : Text → Text → Except Text Unit
  chains : List Der → Text → Handshake → Bool
  generateCsr : Text → KeyAlg → Except EnrollError KeyAndCsr
  dataCert : Text → Except Text (Option Text)
  dataUsername : Text → Option Text
  errorEnvelope : Text → Option (Text × Text)

def edgeClientBase : Text := "/edge/client/v1".toList

namespace EnrollmentClaims

def issuerBase (c : EnrollmentClaims) : Except EnrollError Text :=
  let trimmed := c.iss.rdropWhile (· = '/')
  if trimmed = [] then .error (.invalidToken "empty issuer".toList) else .ok trimmed

def ztApi (c : EnrollmentClaims) : Except EnrollError Text := do
  return (← c.issuerBase) ++ edgeClientBase

def enrollUrl (c : EnrollmentClaims) : Except EnrollError Text := do
  let base := (← c.issuerBase) ++ edgeClientBase ++ "/enroll?method=".toList ++ c.method
  return if c.method = "ca".toList then base else base ++ "&token=".toList ++ c.jti

def cacertsUrl (c : EnrollmentClaims) : Except EnrollError Text := do
  return (← c.issuerBase) ++ edgeClientBase ++ "/.well-known/est/cacerts".toList

end EnrollmentClaims

/-- The claims of a token, before its signature is looked at. -/
def parseToken (E : EnrollLibs) (jwt : Text) : Except EnrollError EnrollmentClaims :=
  match ((E.trim jwt).splitOn '.')[1]? with
  | none => .error (.invalidToken "not a JWT (missing payload)".toList)
  | some payload =>
    match E.base64Url payload with
    | .error e => .error (.invalidToken ("payload base64: ".toList ++ e))
    | .ok bytes =>
      match E.claims bytes with
      | .error e => .error (.invalidToken ("payload json: ".toList ++ e))
      | .ok claims =>
        if E.trim claims.iss = [] then .error (.invalidToken "missing iss".toList)
        else match E.urlHost (E.trim claims.iss) with
          | .error e => .error (.invalidToken ("issuer is not a valid URL: ".toList ++ e))
          | .ok none => .error (.invalidToken ("issuer URL has no host: ".toList ++ claims.iss))
          | .ok (some _) => .ok claims

def spkiPemFromCertDer (E : EnrollLibs) (der : Der) : Except EnrollError (Text × KeyKind) :=
  match E.certSpki der with
  | .error e => .error (.jwtSignature e)
  | .ok (pem, oid) =>
    if oid = "1.2.840.10045.2.1".toList then .ok (pem, .ec)
    else if oid = "1.2.840.113549.1.1.1".toList then .ok (pem, .rsa)
    else .error (.jwtSignature ("unsupported key OID ".toList ++ oid))

/-- The algorithms a key can have signed with, none of which is symmetric. -/
def KeyKind.algorithms : KeyKind → List JwtAlg
  | .ec => [.es256, .es384]
  | .rsa => [.rs256, .rs384, .rs512, .ps256, .ps384, .ps512]

def verifyToken (E : EnrollLibs) (jwt leafSpkiPem : Text) (kind : KeyKind) :
    Except EnrollError EnrollmentClaims :=
  match E.decodingKey kind leafSpkiPem with
  | .error e => .error (.jwtSignature ("decoding key: ".toList ++ e))
  | .ok () =>
    match E.decodeJwt (E.trim jwt) kind leafSpkiPem kind.algorithms with
    | .error e => .error (.jwtSignature e)
    | .ok claims => .ok claims

def isAsciiWhitespace (b : UInt8) : Bool :=
  b = 0x20 || b = 0x09 || b = 0x0a || b = 0x0c || b = 0x0d

def parseCacertsB64 (E : EnrollLibs) (body : List UInt8) : Except EnrollError (List Der) :=
  match E.base64 (body.filter (!isAsciiWhitespace ·)) with
  | .error e => .error (.pkcs7Parse ("base64: ".toList ++ e))
  | .ok der =>
    match E.certificates der with
    | .error e => .error (.pkcs7Parse e)
    | .ok [] => .error .emptyCaPool
    | .ok certs => .ok certs

def prependAdditionalCas (E : EnrollLibs) (additional : Option Text) (controllerDers : List Der) :
    List Der :=
  let ders := match additional with
    | some pem => if E.trim pem = [] then [] else E.caPems pem
    | none => []
  ders ++ controllerDers

def dersToPem (E : EnrollLibs) (ders : List Der) : Text :=
  ders.flatMap fun der =>
    "-----BEGIN CERTIFICATE-----\n".toList ++
      ((E.base64Encode der).toChunks 64).flatMap (· ++ ['\n']) ++
      "-----END CERTIFICATE-----\n".toList

def Config.fromEnrolment (ztApi keyPem certPem caPem : Text) : Config :=
  ⟨ztApi, ⟨"pem:".toList ++ keyPem, "pem:".toList ++ certPem,
    if caPem = [] then [] else "pem:".toList ++ caPem⟩⟩

/-! The three verifiers of a server's certificate. -/

/-- Any certificate will do, and the signature is not looked at. -/
def capturingVerifier (_ : Text) (_ : Handshake) : Bool := true

def pinnedLeafVerifier (pinned : Der) (_ : Text) (h : Handshake) : Bool :=
  h.leaf = pinned && h.signed

def rootsVerifier (E : EnrollLibs) (cas : List Der) (url : Text) (h : Handshake) : Bool :=
  E.chains cas url h && h.signed

/-- The connections of one request: the first and those of ten redirects. -/
def maxConnections : Nat := 11

abbrev Enrolling (α : Type) := Program (HttpCmd Handshake Response) (Except EnrollError α)

def orError {α : Type} : Except EnrollError α → Enrolling α := .ret

/-- A request, whose failure is told as a failure of the step. -/
def send (accepts : Text → Handshake → Bool) (failed : Text → EnrollError) (req : HttpRequest) :
    Enrolling (Response × Option Handshake) :=
  Program.bind (fetch accepts maxConnections req none) fun out => .ret <|
    match out.1 with
    | .ok resp => .ok (resp, out.2)
    | .error e => .error (failed e)

def bodyOf (failed : Text → EnrollError) (resp : Response) : Except EnrollError (List UInt8) :=
  match resp.body with
  | .ok body => .ok body
  | .error e => .error (failed e)

def isSuccess (status : Nat) : Bool := 200 ≤ status && status < 300

def fetchCacerts (E : EnrollLibs) (leaf : Der) (url : Text) : Enrolling (List UInt8) :=
  (send (pinnedLeafVerifier leaf) .caFetch
    ⟨.get, url, [("Accept".toList, "application/pkcs7-mime".toList)], []⟩).andThen fun out =>
  if isSuccess out.1.status then orError (bodyOf .caFetch out.1)
  else .ret (.error (.caFetch ("status ".toList ++ E.statusText out.1.status)))

/-- The claims and the roots: the certificate of the issuer is taken as it comes, then the token has to
be signed with its key, and the roots come from a server that has the same certificate. -/
def resolveTrust (E : EnrollLibs) (jwt : Text) (additionalCas : Option Text) :
    Enrolling (EnrollmentClaims × List Der) :=
  (orError (do (← parseToken E jwt).ztApi)).andThen fun api =>
  (send capturingVerifier .bootstrapTls ⟨.get, api, [], []⟩).andThen fun out =>
  match out.2 with
  | none => .ret (.error (.bootstrapTls "no server cert captured".toList))
  | some h =>
    (orError (do
      let (spkiPem, kind) ← spkiPemFromCertDer E h.leaf
      let claims ← verifyToken E jwt spkiPem kind
      return (claims, ← claims.cacertsUrl))).andThen fun verified =>
    (fetchCacerts E h.leaf verified.2).andThen fun p7 =>
    orError (do
      return (verified.1, prependAdditionalCas E additionalCas (← parseCacertsB64 E p7)))

def parseErrorEnvelope (E : EnrollLibs) (body : Text) : Text × Text :=
  (E.errorEnvelope body).getD ("UNKNOWN".toList, body.take 200)

def textOf (E : EnrollLibs) (resp : Response) : Except EnrollError Text :=
  (bodyOf .enrollResponse resp).map E.text

/-- A client with the roots, if all of them can be roots. -/
def verifiedRoots (E : EnrollLibs) (cas : List Der) : Except EnrollError Unit :=
  cas.forM fun der =>
    match E.addRoot der with
    | .ok () => .ok ()
    | .error e => .error (.caFetch ("add root: ".toList ++ e))

/-- The contents of a text. -/
def hasText (sub s : Text) : Bool := s.tails.any sub.isPrefixOf

def requestCert (E : EnrollLibs) (cas : List Der) (url csrPem : Text) : Enrolling Text :=
  (send (rootsVerifier E cas) .enrollResponse
    ⟨.post, url, [("Content-Type".toList, "application/x-pem-file".toList)], csrPem⟩).andThen fun out =>
  orError (do
    let body ← textOf E out.1
    if !isSuccess out.1.status then
      let (code, message) := parseErrorEnvelope E body
      .error (.enrollHttp out.1.status code message)
    else if hasText "application/json".toList (out.1.contentType.getD []) then
      match E.dataCert body with
      | .error e => .error (.enrollResponse ("json: ".toList ++ e))
      | .ok none => .error (.enrollResponse "missing data.cert".toList)
      | .ok (some cert) => .ok cert
    else .ok body)

def enrollOtt (E : EnrollLibs) (jwt : Text) (opts : EnrollOptions) : Enrolling Config :=
  (resolveTrust E jwt opts.additionalCas).andThen fun trust =>
  (orError (do
    let kc ← E.generateCsr trust.1.sub opts.keyAlg
    verifiedRoots E trust.2
    return (kc, ← trust.1.enrollUrl))).andThen fun ready =>
  (requestCert E trust.2 ready.2 ready.1.csrPem).andThen fun certPem =>
  orError (do
    return Config.fromEnrolment (← trust.1.ztApi) ready.1.keyPem certPem (dersToPem E trust.2))

def requestOttca (E : EnrollLibs) (cas : List Der) (url : Text) : Enrolling Unit :=
  (send (rootsVerifier E cas) .enrollResponse
    ⟨.post, url, [("Content-Type".toList, "text/plain".toList)], []⟩).andThen fun out =>
  .ret <|
    if out.1.status = 200 then .ok ()
    else if out.1.status = 409 then .error .alreadyEnrolled
    else .error (.enrollHttp out.1.status [] (E.statusText out.1.status))

/-- The certificate and the key of the client, which have to be read and to match. -/
def clientIdentity : Except Text Unit → Except EnrollError Unit
  | .ok () => .ok ()
  | .error e => .error (.enrollResponse e)

def enrollOttca (E : EnrollLibs) (jwt : Text) (opts : EnrollOptions) : Enrolling Config :=
  match opts.clientIdentity with
  | none => .ret (.error .missingClientIdentity)
  | some provided =>
    (resolveTrust E jwt opts.additionalCas).andThen fun trust =>
    (orError (do
      clientIdentity (E.clientPems provided.certPem provided.keyPem)
      verifiedRoots E trust.2
      clientIdentity (E.clientAuth provided.certPem provided.keyPem)
      trust.1.enrollUrl)).andThen fun url =>
    (requestOttca E trust.2 url).andThen fun _ =>
    orError (do
      return Config.fromEnrolment (← trust.1.ztApi) provided.keyPem provided.certPem
        (dersToPem E trust.2))

def enroll (E : EnrollLibs) (jwt : Text) (opts : EnrollOptions) : Enrolling Config :=
  (orError (parseToken E jwt)).andThen fun claims =>
  if claims.method = "ott".toList then enrollOtt E jwt opts
  else if claims.method = "ottca".toList then enrollOttca E jwt opts
  else if claims.method = "updb".toList then .ret (.error .updbRequiresCredentials)
  else .ret (.error (.unsupportedMethod claims.method))

def requestUpdb (E : EnrollLibs) (cas : List Der) (url username password : Text) : Enrolling Text :=
  let members := if username = [] then [("password".toList, password)]
    else [("password".toList, password), ("username".toList, username)]
  (send (rootsVerifier E cas) .enrollResponse
    ⟨.post, url, [("Content-Type".toList, "application/json".toList)], Json.writeObject members⟩).andThen
  fun out =>
  orError (do
    let body ← textOf E out.1
    if out.1.status = 200 then return ((E.dataUsername body).filter (· ≠ [])).getD username
    else
      let (code, message) := parseErrorEnvelope E body
      .error (.enrollHttp out.1.status code message))

def enrollUpdb (E : EnrollLibs) (jwt username password : Text) (opts : EnrollOptions) :
    Enrolling UpdbConfig :=
  (resolveTrust E jwt opts.additionalCas).andThen fun trust =>
  (orError (do
    verifiedRoots E trust.2
    trust.1.enrollUrl)).andThen fun url =>
  (requestUpdb E trust.2 url username password).andThen fun confirmed =>
  orError (do return ⟨← trust.1.ztApi, dersToPem E trust.2, confirmed, password⟩)

abbrev History := List (HttpEvent Handshake Response)

/-- Something went over a connection that was not encrypted. -/
def InTheClear (h : History) : Prop := ∃ url, .connected url none ∈ h

section Spec

variable (E : EnrollLibs) (jwt : Text) (additionalCas : Option Text)

/-- The key of the certificate checks the signature of the token, by an algorithm for which that takes
no secret, and the claims are what was signed. -/
def SignedWith (leaf : Der) (claims : EnrollmentClaims) : Prop :=
  ∃ pem oid kind algs, E.certSpki leaf = .ok (pem, oid) ∧
    (kind = .ec ∧ oid = "1.2.840.10045.2.1".toList ∨
      kind = .rsa ∧ oid = "1.2.840.113549.1.1.1".toList) ∧
    E.decodingKey kind pem = .ok () ∧ (∀ alg ∈ algs, alg.symmetric = false) ∧
    E.decodeJwt (E.trim jwt) kind pem algs = .ok claims

/-- The certificates in a body: base64 with whitespace, of a list that is not empty. -/
def CertsIn (body : List UInt8) (certs : List Der) : Prop :=
  certs ≠ [] ∧ ∃ der, E.base64 (body.filter (· ∉ [0x20, 0x09, 0x0a, 0x0c, 0x0d])) = .ok der ∧
    E.certificates der = .ok certs

/-- But for those that the caller has added, the roots came from a server that has the key the token is
signed with. -/
def Anchored (claims : EnrollmentClaims) (cas : List Der) (h : History) : Prop :=
  ∃ past url shown req resp body certs added future,
    h = past ++ [.connected url (some shown), .exchanged req (.ok (.response resp))] ++ future ∧
    SignedWith E jwt shown.leaf claims ∧ shown.signed = true ∧ resp.body = .ok body ∧
    CertsIn E body certs ∧ cas = added ++ certs ∧ ∀ ca ∈ added, ∃ pem ∈ additionalCas, ca ∈ E.caPems pem

/-- The requests that enroll, which have the secret of the token or of the client, go to a server that
such roots vouch for. -/
def MayExchange (h : History) (req : HttpRequest) : Prop :=
  ¬ InTheClear h → req.method = .post → ∃ claims cas past shown,
    h = past ++ [.connected req.url (some shown)] ∧ Anchored E jwt additionalCas claims cas past ∧
    E.chains cas req.url shown = true ∧ shown.signed = true

/-- What holds when a part of enrollment does not fail. -/
abbrev Yields {α : Type} (Q : α → History → Prop) (h : History) (p : Enrolling α) : Prop :=
  p.Ensures (httpHistory (MayExchange E jwt additionalCas)) (fun r h' => ∀ a, r = .ok a → Q a h') h

end Spec

section Steps

variable {E : EnrollLibs} {jwt : Text} {additionalCas : Option Text} {h : History}
  {claims : EnrollmentClaims} {cas : List Der}

theorem signedWith_of_verifyToken {leaf : Der} {pem : Text} {kind : KeyKind}
    (hspki : spkiPemFromCertDer E leaf = .ok (pem, kind)) (hjwt : verifyToken E jwt pem kind = .ok claims) :
    SignedWith E jwt leaf claims := by
  have halgs : ∀ alg ∈ kind.algorithms, alg.symmetric = false := by cases kind <;> decide
  have hkey : E.decodingKey kind pem = .ok () ∧
      E.decodeJwt (E.trim jwt) kind pem kind.algorithms = .ok claims := by
    unfold verifyToken at hjwt
    split at hjwt
    next => cases hjwt
    next hkey =>
      split at hjwt
      next => cases hjwt
      next hdecoded =>
        cases hjwt
        exact ⟨hkey, hdecoded⟩
  unfold spkiPemFromCertDer at hspki
  split at hspki
  next => cases hspki
  next oid hcert =>
    split_ifs at hspki with hec hrsa <;> cases hspki
    · exact ⟨_, oid, _, _, hcert, .inl ⟨rfl, hec⟩, hkey.1, halgs, hkey.2⟩
    · exact ⟨_, oid, _, _, hcert, .inr ⟨rfl, hrsa⟩, hkey.1, halgs, hkey.2⟩

theorem certsIn_of_parseCacertsB64 {body : List UInt8} {certs : List Der}
    (hcerts : parseCacertsB64 E body = .ok certs) : CertsIn E body certs := by
  have hspace (b : UInt8) : (!isAsciiWhitespace b) = decide (b ∉ [0x20, 0x09, 0x0a, 0x0c, 0x0d]) := by
    simp [isAsciiWhitespace, ← Bool.decide_or, or_assoc]
  unfold parseCacertsB64 at hcerts
  split at hcerts
  next => cases hcerts
  next der hder =>
    split at hcerts
    next => cases hcerts
    next => cases hcerts
    next hne hlist =>
      cases hcerts
      simp only [hspace] at hder
      exact ⟨hne, der, hder, hlist⟩

theorem added_prependAdditionalCas (E : EnrollLibs) (additional : Option Text) (certs : List Der) :
    ∃ added, prependAdditionalCas E additional certs = added ++ certs ∧
      ∀ ca ∈ added, ∃ pem ∈ additional, ca ∈ E.caPems pem := by
  refine ⟨_, rfl, fun ca hca => ?_⟩
  cases additional with
  | none => cases hca
  | some pem =>
    dsimp only at hca
    split_ifs at hca
    · cases hca
    · exact ⟨pem, rfl, hca⟩

theorem InTheClear.append (hclear : InTheClear h) (e : HttpEvent Handshake Response) :
    InTheClear (h ++ [e]) := by
  obtain ⟨url, hmem⟩ := hclear
  exact ⟨url, List.mem_append_left _ hmem⟩

theorem Anchored.append (ha : Anchored E jwt additionalCas claims cas h)
    (e : HttpEvent Handshake Response) : Anchored E jwt additionalCas claims cas (h ++ [e]) := by
  obtain ⟨past, url, shown, req, resp, body, certs, added, future, rfl, hrest⟩ := ha
  exact ⟨past, url, shown, req, resp, body, certs, added, future ++ [e], List.append_assoc _ _ _, hrest⟩

theorem yields_orError {α : Type} (x : Except EnrollError α) :
    Yields E jwt additionalCas (fun a h' => h' = h ∧ x = .ok a) h (orError x) :=
  fun _ hx => ⟨rfl, hx⟩

theorem Yields.ofFetch {accepts : Text → Handshake → Bool} {failed : Text → EnrollError}
    {req : HttpRequest} {K : History → Prop}
    (hfetch : (fetch accepts maxConnections req none).Ensures
      (httpHistory (MayExchange E jwt additionalCas))
      (fun out h' => K h' ∧ ∀ r, out.1 = .ok r → Served accepts h' r) h) :
    Yields E jwt additionalCas (fun out h' => K h' ∧ Served accepts h' out.1) h
      (send accepts failed req) := by
  refine hfetch.bind fun out h' hout => ?_
  rcases out with ⟨reply, seen⟩
  cases reply with
  | error e => rintro _ ⟨⟩
  | ok resp =>
    rintro _ ⟨⟩
    exact ⟨hout.1, hout.2 resp rfl⟩

theorem yields_get {accepts : Text → Handshake → Bool} {failed : Text → EnrollError}
    {req : HttpRequest} (hget : req.method = .get) :
    Yields E jwt additionalCas (fun out h' => Served accepts h' out.1) h (send accepts failed req) := by
  refine (Yields.ofFetch (K := fun _ => True) ?_).mono fun r h' hr a ha => (hr a ha).2
  refine ensures_fetch (C := fun req => req.method = .get) ?_ (fun _ _ _ => trivial) ?_ _ hget none trivial
  · intro req url keep hreq
    unfold HttpRequest.redirected
    split_ifs
    · exact hreq
    · rfl
  · intro h req shown _ hreq _ _ hpost
    cases hreq.symm.trans hpost

theorem yields_post {failed : Text → EnrollError} {req : HttpRequest}
    (hanchored : InTheClear h ∨ Anchored E jwt additionalCas claims cas h) :
    Yields E jwt additionalCas (fun _ h' => InTheClear h' ∨ Anchored E jwt additionalCas claims cas h') h
      (send (rootsVerifier E cas) failed req) := by
  refine (Yields.ofFetch
    (K := fun h => InTheClear h ∨ Anchored E jwt additionalCas claims cas h) ?_).mono
    fun r h' hr a ha => (hr a ha).1
  refine ensures_fetch (C := fun _ => True) (fun _ _ _ _ => trivial) ?_ ?_ _ trivial none hanchored
  · intro h e hh
    exact hh.imp (·.append e) (·.append e)
  · intro h req shown hh _ hshown hclear _
    cases shown with
    | none => exact absurd ⟨req.url, List.mem_append_right _ List.mem_cons_self⟩ hclear
    | some shown =>
      rcases hh with hh | hh
      · exact absurd (hh.append _) hclear
      · exact ⟨claims, cas, h, shown, rfl, hh, by simpa [rootsVerifier] using hshown⟩

theorem yields_fetchCacerts (leaf : Der) (url : Text) :
    Yields E jwt additionalCas (fun p7 h' => ∃ resp, Served (pinnedLeafVerifier leaf) h' resp ∧
      resp.body = .ok p7) h (fetchCacerts E leaf url) := by
  refine (yields_get rfl).andThen fun out h' hserved => ?_
  split_ifs
  · intro p7 hp7
    refine ⟨out.1, hserved, ?_⟩
    unfold bodyOf at hp7
    split at hp7
    next body hbody =>
      cases hp7
      exact hbody
    next => cases hp7
  · rintro _ ⟨⟩

theorem anchored_of_served {leaf : Der} {resp : Response} {p7 : List UInt8} {ders : List Der}
    (hserved : Served (pinnedLeafVerifier leaf) h resp) (hsigned : SignedWith E jwt leaf claims)
    (hbody : resp.body = .ok p7) (hders : parseCacertsB64 E p7 = .ok ders) :
    InTheClear h ∨
      Anchored E jwt additionalCas claims (prependAdditionalCas E additionalCas ders) h := by
  obtain ⟨past, url, shown, req, rfl, hshown⟩ := hserved
  cases shown with
  | none => exact .inl ⟨url, List.mem_append_right _ List.mem_cons_self⟩
  | some shown =>
    have hpinned : shown.leaf = leaf ∧ shown.signed = true := by
      simpa [pinnedLeafVerifier] using hshown
    obtain ⟨added, hcas, hadded⟩ := added_prependAdditionalCas E additionalCas ders
    refine .inr ⟨past, url, shown, req, resp, p7, ders, added, [], (List.append_nil _).symm,
      hpinned.1 ▸ hsigned, hpinned.2, hbody, certsIn_of_parseCacertsB64 hders, hcas, hadded⟩

theorem yields_resolveTrust :
    Yields E jwt additionalCas (fun trust h' => InTheClear h' ∨
      Anchored E jwt additionalCas trust.1 trust.2 h') h (resolveTrust E jwt additionalCas) := by
  refine (yields_orError _).andThen ?_
  rintro api _ ⟨rfl, -⟩
  refine (yields_get rfl).andThen fun out h' _ => ?_
  cases out.2 with
  | none => rintro _ ⟨⟩
  | some shown =>
    refine (yields_orError _).andThen ?_
    rintro verified _ ⟨rfl, hverified⟩
    obtain ⟨⟨pem, kind⟩, hspki, hverified⟩ := except_bind_eq_ok.mp hverified
    obtain ⟨claims, hclaims, hverified⟩ := except_bind_eq_ok.mp hverified
    obtain ⟨url, -, hverified⟩ := except_bind_eq_ok.mp hverified
    cases hverified
    refine (yields_fetchCacerts shown.leaf url).andThen ?_
    rintro p7 h'' ⟨resp, hserved, hbody⟩ trust htrust
    obtain ⟨ders, hders, htrust⟩ := except_bind_eq_ok.mp htrust
    cases htrust
    exact anchored_of_served hserved (signedWith_of_verifyToken hspki hclaims) hbody hders

/-- A part of enrollment that only asks servers that the roots vouch for. -/
abbrev KeepsTrust (E : EnrollLibs) (jwt : Text) (additionalCas : Option Text) {α : Type}
    (claims : EnrollmentClaims) (cas : List Der) (h : History) (p : Enrolling α) : Prop :=
  Yields E jwt additionalCas (fun _ h' => InTheClear h' ∨ Anchored E jwt additionalCas claims cas h') h p

theorem keepsTrust_requestCert (hh : InTheClear h ∨ Anchored E jwt additionalCas claims cas h)
    (url csrPem : Text) :
    KeepsTrust E jwt additionalCas claims cas h (requestCert E cas url csrPem) :=
  (yields_post hh).andThen fun _ _ hh _ _ => hh

theorem keepsTrust_requestOttca (hh : InTheClear h ∨ Anchored E jwt additionalCas claims cas h)
    (url : Text) : KeepsTrust E jwt additionalCas claims cas h (requestOttca E cas url) :=
  (yields_post hh).andThen fun _ _ hh _ _ => hh

theorem keepsTrust_requestUpdb (hh : InTheClear h ∨ Anchored E jwt additionalCas claims cas h)
    (url username password : Text) :
    KeepsTrust E jwt additionalCas claims cas h (requestUpdb E cas url username password) :=
  (yields_post hh).andThen fun _ _ hh _ _ => hh

end Steps

/-- The text is that of the certificates in PEM, whatever the length of its lines. -/
def PemOf (E : EnrollLibs) (cas : List Der) (pem : Text) : Prop :=
  pem.filter (· ≠ '\n') = (cas.flatMap fun der => "-----BEGIN CERTIFICATE-----".toList ++
    E.base64Encode der ++ "-----END CERTIFICATE-----".toList).filter (· ≠ '\n')

theorem flatten_toChunks_go {α : Type} (n : Nat) (xs : List α) (acc₁ : Array α)
    (acc₂ : Array (List α)) : (List.toChunks.go n xs acc₁ acc₂).flatten =
      acc₂.toList.flatten ++ acc₁.toList ++ xs := by
  induction xs generalizing acc₁ acc₂ with
  | nil => simp [List.toChunks.go]
  | cons x xs ih =>
    rw [List.toChunks.go]
    split_ifs <;> simp [ih]

theorem flatten_toChunks {α : Type} (n : Nat) (xs : List α) : (xs.toChunks n).flatten = xs := by
  unfold List.toChunks
  split
  · rfl
  · simp
  · simp [flatten_toChunks_go]

theorem pemOf_dersToPem (E : EnrollLibs) (cas : List Der) : PemOf E cas (dersToPem E cas) := by
  have hlines (ls : List Text) : (ls.flatMap (· ++ ['\n'])).filter (· ≠ '\n') =
      ls.flatten.filter (· ≠ '\n') := by
    induction ls with
    | nil => rfl
    | cons l ls ih => simpa using ih
  unfold PemOf dersToPem
  induction cas with
  | nil => simp
  | cons der cas ih =>
    have hbegin : "-----BEGIN CERTIFICATE-----\n".toList.filter (· ≠ '\n') =
        "-----BEGIN CERTIFICATE-----".toList.filter (· ≠ '\n') := by decide
    have hend : "-----END CERTIFICATE-----\n".toList.filter (· ≠ '\n') =
        "-----END CERTIFICATE-----".toList.filter (· ≠ '\n') := by decide
    simp only [List.flatMap_cons, List.filter_append, ih, hlines, flatten_toChunks, hbegin, hend]

theorem dersToPem_ne_nil (E : EnrollLibs) {cas : List Der} (hcas : cas ≠ []) :
    dersToPem E cas ≠ [] := by
  obtain ⟨der, cas, rfl⟩ := List.exists_cons_of_ne_nil hcas
  simp [dersToPem]

/-- The controller that a configuration points to, and the roots it trusts, are those of the token. -/
def Trustworthy (E : EnrollLibs) (jwt : Text) (additionalCas : Option Text) (ztApi ca : Text)
    (h : History) : Prop :=
  ∃ claims cas, Anchored E jwt additionalCas claims cas h ∧
    ztApi = claims.iss.rdropWhile (· = '/') ++ "/edge/client/v1".toList ∧ ca ≠ [] ∧ PemOf E cas ca

theorem Anchored.trustworthy {E : EnrollLibs} {jwt : Text} {additionalCas : Option Text}
    {claims : EnrollmentClaims} {cas : List Der} {h : History} {api : Text}
    (ha : Anchored E jwt additionalCas claims cas h) (hapi : claims.ztApi = .ok api) :
    Trustworthy E jwt additionalCas api (dersToPem E cas) h := by
  refine ⟨claims, cas, ha, ?_, dersToPem_ne_nil E ?_, pemOf_dersToPem E cas⟩
  · unfold EnrollmentClaims.ztApi EnrollmentClaims.issuerBase at hapi
    dsimp only at hapi
    split_ifs at hapi <;> cases hapi
    rfl
  · obtain ⟨_, _, _, _, _, _, certs, added, _, -, -, -, -, hcerts, rfl, -⟩ := ha
    exact List.append_ne_nil_of_right_ne_nil added hcerts.1

section Flows

variable {E : EnrollLibs} {jwt : Text} {opts : EnrollOptions}

theorem trusted_fromEnrolment {h : History} {api keyPem certPem ca : Text}
    (htrust : Trustworthy E jwt opts.additionalCas api ca h) :
    ∃ ca', (Config.fromEnrolment api keyPem certPem ca).id.ca = "pem:".toList ++ ca' ∧
      Trustworthy E jwt opts.additionalCas api ca' h := by
  obtain ⟨-, -, -, -, hne, -⟩ := id htrust
  exact ⟨ca, if_neg hne, htrust⟩

theorem yields_enrollOtt (h : History) :
    Yields E jwt opts.additionalCas (fun cfg h' => InTheClear h' ∨ ∃ ca,
      cfg.id.ca = "pem:".toList ++ ca ∧ Trustworthy E jwt opts.additionalCas cfg.ztApi ca h') h
      (enrollOtt E jwt opts) := by
  refine yields_resolveTrust.andThen fun trust h' hh => ?_
  refine (yields_orError _).andThen ?_
  rintro ready _ ⟨rfl, -⟩
  refine (keepsTrust_requestCert hh _ _).andThen fun certPem h' hh cfg hcfg => ?_
  obtain ⟨api, hapi, hcfg⟩ := except_bind_eq_ok.mp hcfg
  cases hcfg
  exact hh.imp_right fun ha => trusted_fromEnrolment (ha.trustworthy hapi)

theorem yields_enrollOttca (h : History) :
    Yields E jwt opts.additionalCas (fun cfg h' => InTheClear h' ∨ ∃ ca,
      cfg.id.ca = "pem:".toList ++ ca ∧ Trustworthy E jwt opts.additionalCas cfg.ztApi ca h') h
      (enrollOttca E jwt opts) := by
  unfold enrollOttca
  cases opts.clientIdentity with
  | none => rintro _ ⟨⟩
  | some provided =>
    refine yields_resolveTrust.andThen fun trust h' hh => ?_
    refine (yields_orError _).andThen ?_
    rintro url _ ⟨rfl, -⟩
    refine (keepsTrust_requestOttca hh _).andThen fun _ h' hh cfg hcfg => ?_
    obtain ⟨api, hapi, hcfg⟩ := except_bind_eq_ok.mp hcfg
    cases hcfg
    exact hh.imp_right fun ha => trusted_fromEnrolment (ha.trustworthy hapi)

theorem yields_enroll :
    Yields E jwt opts.additionalCas (fun cfg h' => InTheClear h' ∨ ∃ ca,
      cfg.id.ca = "pem:".toList ++ ca ∧ Trustworthy E jwt opts.additionalCas cfg.ztApi ca h') []
      (enroll E jwt opts) := by
  refine (yields_orError _).andThen ?_
  rintro claims _ ⟨rfl, -⟩
  split_ifs
  · exact yields_enrollOtt []
  · exact yields_enrollOttca []
  · rintro _ ⟨⟩
  · rintro _ ⟨⟩

theorem yields_enrollUpdb (username password : Text) :
    Yields E jwt opts.additionalCas (fun cfg h' =>
      InTheClear h' ∨ Trustworthy E jwt opts.additionalCas cfg.ztApi cfg.ca h') []
      (enrollUpdb E jwt username password opts) := by
  refine yields_resolveTrust.andThen fun trust h' hh => ?_
  refine (yields_orError _).andThen ?_
  rintro url _ ⟨rfl, -⟩
  refine (keepsTrust_requestUpdb hh _ _ _).andThen fun confirmed h' hh cfg hcfg => ?_
  obtain ⟨api, hapi, hcfg⟩ := except_bind_eq_ok.mp hcfg
  cases hcfg
  exact hh.imp_right fun ha => ha.trustworthy hapi

end Flows

/-- Whoever answers, and whatever: unless a connection is in the clear, what enrolls is only sent to a
server that roots vouch for which, but for those that the caller added, a server has given that has the
key the token is signed with; and the roots of the result are such roots, for the controller of the
token. -/
theorem enrollment_anchored (E : EnrollLibs) (jwt : Text) (opts : EnrollOptions)
    (username password : Text) :
    (enroll E jwt opts).Ensures (httpHistory (MayExchange E jwt opts.additionalCas))
      (fun r h => ∀ cfg, r = .ok cfg → ¬ InTheClear h → ∃ ca, cfg.id.ca = "pem:".toList ++ ca ∧
        Trustworthy E jwt opts.additionalCas cfg.ztApi ca h) [] ∧
    (enrollUpdb E jwt username password opts).Ensures
      (httpHistory (MayExchange E jwt opts.additionalCas))
      (fun r h => ∀ cfg, r = .ok cfg → ¬ InTheClear h →
        Trustworthy E jwt opts.additionalCas cfg.ztApi cfg.ca h) [] :=
  ⟨yields_enroll.mono fun _ _ hr cfg hcfg => (hr cfg hcfg).resolve_left,
    (yields_enrollUpdb username password).mono fun _ _ hr cfg hcfg => (hr cfg hcfg).resolve_left⟩

end Noa.Enroll
