import Noa.Framework.Program
import Noa.Framework.Text

namespace Noa.Framework

inductive HttpMethod where
  | get
  | post
  deriving DecidableEq

structure HttpRequest where
  method : HttpMethod
  url : Text
  headers : List (Text × Text)
  body : Text
  deriving DecidableEq

/-! A client that follows redirects. What a server shows of itself when it is connected to is of a type
`H`, and what it answers of a type `R`. -/

/-- A redirect repeats the request as it is, or as one without a body. -/
inductive HttpAnswer (R : Type) where
  | response (r : R)
  | redirect (url : Text) (keep : Bool)

/-- A connection in the clear shows nothing. -/
inductive HttpCmd (H R : Type) : Type → Type
  | connect (url : Text) : HttpCmd H R (Except Text (Option H))
  | exchange (req : HttpRequest) : HttpCmd H R (Except Text (HttpAnswer R))

def HttpRequest.redirected (req : HttpRequest) (url : Text) (keep : Bool) : HttpRequest :=
  if keep then { req with url } else ⟨.get, url, req.headers, []⟩

variable {H R : Type}

/-- A request in at most `n` connections, all of which a verifier accepts unless they are in the clear;
with what the last server showed that showed something. -/
def fetch (accepts : Text → H → Bool) :
    Nat → HttpRequest → Option H → Program (HttpCmd H R) (Except Text R × Option H)
  | 0, _, seen => .ret (.error "too many redirects".toList, seen)
  | n + 1, req, seen =>
    .call (.connect req.url) fun
      | .error e => .ret (.error e, seen)
      | .ok shown =>
        if shown.all (accepts req.url) then
          .call (.exchange req) fun
            | .error e => .ret (.error e, shown.or seen)
            | .ok (.response r) => .ret (.ok r, shown.or seen)
            | .ok (.redirect url keep) =>
              fetch accepts n (req.redirected url keep) (shown.or seen)
        else .ret (.error "invalid peer certificate".toList, shown.or seen)

inductive HttpEvent (H R : Type) where
  | connected (url : Text) (shown : Option H)
  | exchanged (req : HttpRequest) (answer : Except Text (HttpAnswer R))

/-- The history of the connections that were made and of what was exchanged over them, where what is
sent depends on what came before. -/
def httpHistory (may : List (HttpEvent H R) → HttpRequest → Prop) :
    Discipline (HttpCmd H R) (List (HttpEvent H R)) where
  may := fun h c => match c with
    | .connect _ => True
    | .exchange req => may h req
  next := fun h c b => match c with
    | .connect url => match b with
      | .error _ => h
      | .ok shown => h ++ [.connected url shown]
    | .exchange req => h ++ [.exchanged req b]

/-- The response came last, over a connection that the verifier accepted unless it was in the clear. -/
def Served (accepts : Text → H → Bool) (h : List (HttpEvent H R)) (r : R) : Prop :=
  ∃ past url shown req, h = past ++ [.connected url shown, .exchanged req (.ok (.response r))] ∧
    shown.all (accepts url) = true

/-- The requests of a fetch are those that redirects make of the first, each over a connection that was
accepted; what no event undoes goes on to hold. -/
theorem ensures_fetch {may : List (HttpEvent H R) → HttpRequest → Prop} {accepts : Text → H → Bool}
    {C : HttpRequest → Prop} {K : List (HttpEvent H R) → Prop}
    (hC : ∀ req url keep, C req → C (req.redirected url keep)) (hK : ∀ h e, K h → K (h ++ [e]))
    (hmay : ∀ h req shown, K h → C req → shown.all (accepts req.url) = true →
      may (h ++ [.connected req.url shown]) req)
    (n : Nat) {req : HttpRequest} (hreq : C req) (seen : Option H) {h : List (HttpEvent H R)}
    (hh : K h) :
    (fetch accepts n req seen).Ensures (httpHistory may)
      (fun out h' => K h' ∧ ∀ r, out.1 = .ok r → Served accepts h' r) h := by
  induction n generalizing req seen h with
  | zero => exact ⟨hh, by rintro _ ⟨⟩⟩
  | succ n ih =>
    refine ⟨trivial, fun reply => ?_⟩
    cases reply with
    | error e => exact ⟨hh, by rintro _ ⟨⟩⟩
    | ok shown =>
      have hshown := hK h (.connected req.url shown) hh
      by_cases haccepts : shown.all (accepts req.url) = true
      · dsimp only
        rw [if_pos haccepts]
        refine ⟨hmay h req shown hh hreq haccepts, fun answer => ?_⟩
        have hanswer := hK _ (.exchanged req answer) hshown
        cases answer with
        | error e => exact ⟨hanswer, by rintro _ ⟨⟩⟩
        | ok answer =>
          cases answer with
          | response r =>
            refine ⟨hanswer, ?_⟩
            rintro _ ⟨⟩
            refine ⟨h, req.url, shown, req, ?_, haccepts⟩
            exact List.append_assoc h _ _
          | redirect url keep => exact ih (hC req url keep hreq) _ hanswer
      · dsimp only
        rw [if_neg haccepts]
        exact ⟨hshown, by rintro _ ⟨⟩⟩

end Noa.Framework
