import EdgeRouting.Http.Script
import EdgeRouting.Http.Store
import EdgeRouting.Proofs.Remote.Requests
import EdgeRouting.Proofs.Rollout.Transcript
import EdgeRouting.Proofs.Settings.Secret

/-!
# The secret stays in its header

The client puts its secret into one header of its requests. A server that does not look at this
header answers two clients alike that differ in the secret only, provided that both secrets can be
sent; so over such a server the two are the same platform (`platform_withKey`), and everything that
is done with a platform comes out the same. To say it of what passes on the way as well, the server
is observed: a server that is observed is again one that does not look at the secret, since the
secret is struck out of the record (`IgnoresKey.observed`).

The statement about settings as a whole puts this together with what is said of the loading in
`Proofs.Settings.Secret`.
-/

namespace EdgeRouting

/-! ## Requests without the secret -/

namespace Http

variable {σ : Type}

/-- The request without the header that carries the secret. -/
def Request.withoutKey (r : Request) : Request :=
  { r with headers := r.headers.filter fun h => h.1 ≠ "Fastly-Key" }

theorem Request.withoutKey_withoutKey (r : Request) : r.withoutKey.withoutKey = r.withoutKey := by
  simp only [withoutKey, List.filter_filter, Bool.and_self]

namespace Transport

/-- The secret makes no difference to the answers. -/
def IgnoresKey (t : Transport σ) : Prop := ∀ r s, t.send r.withoutKey s = t.send r s

/-- The transport that also keeps a record of what passes, latest last, with the secret struck
out. -/
def observed (t : Transport σ) : Transport (σ × List Passage) where
  send r s :=
    let (reply, next) := t.send r s.1
    (reply, (next, s.2 ++ [.sent r.withoutKey, .received reply]))

theorem IgnoresKey.observed {t : Transport σ} (h : t.IgnoresKey) : t.observed.IgnoresKey := by
  intro r s
  simp only [Transport.observed, h r, r.withoutKey_withoutKey]

theorem IgnoresKey.send_eq {t : Transport σ} (h : t.IgnoresKey) {r r' : Request}
    (heq : r'.withoutKey = r.withoutKey) (s : σ) : t.send r' s = t.send r s := by
  rw [← h r', heq, h r]

end Transport

theorem ignoresKey_scripted : scripted.IgnoresKey := fun _ _ => rfl

theorem Store.ignoresKey_transport (root : List String) : (transport root).IgnoresKey :=
  fun _ _ => rfl

end Http

/-- The answers to calls that are made one after the other, and the state after them. -/
def Platform.answers {σ : Type} (p : Platform σ) : List Call → σ → List Exchange × σ
  | [], s => ([], s)
  | c :: r, s =>
    let (result, s) := p.answer c s
    let (rest, s) := p.answers r s
    (⟨c, result⟩ :: rest, s)

/-! ## Clients -/

namespace Remote.Client

open Http

variable {σ : Type} {c : Client} {k : String} {t : Transport σ}

def withKey (c : Client) (k : String) : Client := { c with key := k }

theorem describe_withKey (c : Client) (k : String) : (c.withKey k).describe = c.describe := rfl

theorem withoutKey_request_withKey (c : Client) (k : String) (method : Method) (url : Url)
    (form : Option Fields) :
    ((c.withKey k).request method url form).withoutKey
      = (c.request method url form).withoutKey := by
  cases form <;> simp [request, commonHeaders, Request.withoutKey, withKey]

theorem isSendable_request_withKey (hkey : Request.isHeaderValue c.key = true)
    (hk : Request.isHeaderValue k = true) (method : Method) (url : Url) (form : Option Fields) :
    ((c.withKey k).request method url form).isSendable
      = (c.request method url form).isSendable := by
  simp only [isSendable_request, commonHeaders, withKey, List.all_cons, hkey, hk]

theorem deliver_withKey (ht : t.IgnoresKey) (hkey : Request.isHeaderValue c.key = true)
    (hk : Request.isHeaderValue k = true) (method : Method) (url : Url) (form : Option Fields)
    (s : σ) :
    t.deliver ((c.withKey k).request method url form) s
      = t.deliver (c.request method url form) s := by
  rw [Transport.deliver, Transport.deliver, isSendable_request_withKey hkey hk,
    ht.send_eq (c.withoutKey_request_withKey k method url form)]

theorem exchange_withKey {α : Type} (ht : t.IgnoresKey)
    (hkey : Request.isHeaderValue c.key = true) (hk : Request.isHeaderValue k = true)
    (resource : String) (method : Method) (segments : List String) (form : Option Fields)
    (decode : String → Option α) (s : σ) :
    (c.withKey k).exchange t resource method segments form decode s
      = c.exchange t resource method segments form decode s := by
  have hendpoint : (c.withKey k).endpoint? segments = c.endpoint? segments := rfl
  simp only [exchange, hendpoint, deliver_withKey ht hkey hk]
  rfl

/-- Clients that differ in the secret only are the same platform over a server that does not look at
it. -/
theorem platform_withKey (ht : t.IgnoresKey) (hkey : Request.isHeaderValue c.key = true)
    (hk : Request.isHeaderValue k = true) : (c.withKey k).platform t = c.platform t := by
  have hanswer : (c.withKey k).answer t = c.answer t := by
    funext call s
    cases call with
    | openVersion =>
        simp only [answer, openVersion, exchange_withKey ht hkey hk]
        rfl
    | write version r =>
        simp only [answer, write, exchange_withKey ht hkey hk]
        rfl
    | create version b => exact exchange_withKey ht hkey hk ..
    | update version b => exact exchange_withKey ht hkey hk ..
    | activate version => exact exchange_withKey ht hkey hk ..
  rw [platform, platform, hanswer]

theorem ofAccess_withAuth (x : Access) (a apiUrl : String) :
    ofAccess (x.withAuth a) apiUrl = (ofAccess x apiUrl).map (·.withKey a) := by
  unfold ofAccess
  cases Url.parse apiUrl <;> rfl

variable {s : ServiceSettings} {a a' : String}

theorem ofSettings_withAuth (hset : s.auth = some a) (hsecret : IsSecret a)
    (hsecret' : IsSecret a') :
    ofSettings (s.withAuth a') = (ofSettings s).map (·.map (·.withKey a')) := by
  rw [ofSettings, ofSettings, ServiceSettings.access?_withAuth hset hsecret hsecret']
  cases s.access? with
  | none => rfl
  | some x =>
      rw [Option.map_some]
      dsimp only [ServiceSettings.withAuth]
      rw [ofAccess_withAuth]
      cases ofAccess x s.apiUrl <;> rfl

/-- The key of a client is the secret of the settings that it is made from. -/
theorem key_of_ofSettings (hset : s.auth = some a) (hsecret : IsSecret a)
    (hc : ofSettings s = .ok (some c)) : c.key = a := by
  have hsame : s.withAuth a = s := by
    rw [ServiceSettings.withAuth, ← hset]
  have hmap := ofSettings_withAuth hset hsecret hsecret
  rw [hsame, hc] at hmap
  exact congrArg Client.key (Option.some.inj (Except.ok.inj hmap))

end Remote.Client

/-! ## Settings as a whole -/

open Http Remote

/-- What two settings have in common that differ in the secret only: all that is shown of them, and
all that their clients do over a server that does not look at the secret. -/
structure Settings.LookAlike (s s' : Settings) : Prop where
  json : s'.toJson = s.toJson
  service : s'.service.describe = s.service.describe
  access : s'.service.access?.map Access.describe = s.service.access?.map Access.describe
  client : (Client.ofSettings s'.service).map (·.map Client.describe)
    = (Client.ofSettings s.service).map (·.map Client.describe)
  calls : ∀ {c c' : Client}, Client.ofSettings s.service = .ok (some c) →
    Client.ofSettings s'.service = .ok (some c') →
    ∀ {σ : Type} {t : Transport σ}, t.IgnoresKey → ∀ (calls : List Call) (state : σ),
      (c'.platform t.observed).answers calls (state, [])
        = (c.platform t.observed).answers calls (state, [])

theorem Settings.lookAlike_withAuth {s : Settings} {a a' : String} (hset : s.service.auth = some a)
    (hsecret : IsSecret a) (hsecret' : IsSecret a') : s.LookAlike (s.withAuth a') := by
  have haccess := ServiceSettings.access?_withAuth hset hsecret hsecret'
  have hclient := Client.ofSettings_withAuth hset hsecret hsecret'
  refine ⟨s.toJson_withAuth a', ServiceSettings.describe_withAuth hset, ?access, ?client, ?calls⟩
  case access =>
    rw [withAuth, haccess, Option.map_map]
    exact Option.map_congr fun x _ => x.describe_withAuth a'
  case client =>
    rw [withAuth, hclient]
    cases Client.ofSettings s.service with
    | error e => rfl
    | ok client? =>
        have hdescribe : (client?.map (·.withKey a')).map Client.describe
            = client?.map Client.describe := by
          rw [Option.map_map]
          exact Option.map_congr fun c _ => c.describe_withKey a'
        exact congrArg Except.ok hdescribe
  case calls =>
    intro c c' hc hc' σ t ht calls state
    rw [withAuth, hclient, hc] at hc'
    obtain rfl : c.withKey a' = c' := Option.some.inj (Except.ok.inj hc')
    have hkey := Client.key_of_ofSettings hset hsecret hc
    rw [Client.platform_withKey ht.observed (hkey ▸ hsecret.isHeaderValue) hsecret'.isHeaderValue]

/-- Loading under two secrets fails in the same way, or gives settings that look alike. -/
theorem Settings.load_lookAlike {env env' : Environment} {a a' : String}
    (h : DifferInSecret env env' a a') (text : String) :
    (∃ f, load env text = .error f ∧ load env' text = .error f)
      ∨ ∃ s s', load env text = .ok s ∧ load env' text = .ok s' ∧ s.LookAlike s' := by
  have hmap := load_of_differInSecret h text
  cases hload : load env text with
  | error f =>
      rw [hload] at hmap
      exact .inl ⟨f, rfl, hmap⟩
  | ok s =>
      rw [hload] at hmap
      have hset := auth_of_load h.set hload
      exact .inr ⟨s, _, rfl, hmap, lookAlike_withAuth hset h.isSecret h.isSecret'⟩

/-! ### A secret that is replaced -/

namespace Settings

def shopToml : String :=
  "[[deployers]]\nname = \"blue\"\nhost = \"blue.example\"\nurl_template = \"/\"\n"

def shopRead : Settings :=
  ⟨.default, [⟨"blue", "blue.example", "", "/", none⟩], .empty, .default⟩

def shopSettings (a : String) : Settings :=
  { shopRead with service := { ServiceSettings.default with
      service := some "shop", auth := some a, checkPath := some "/up" } }

/-- The environment in which the service has this secret. -/
def shopEnvironment (a : String) : Environment := fun name =>
  if name = serviceVariable then some "shop"
  else if name = authVariable then some a
  else if name = checkPathVariable then some "/up"
  else none

theorem load_shopToml (a : String) :
    load (shopEnvironment a) shopToml = .ok (shopSettings a) := by
  have hread : ofToml? shopToml = some shopRead := by decide +kernel
  have hset : shopRead.overridden (shopEnvironment a) = shopSettings a := rfl
  have hfaults : shopRead.faults = [] := by decide +kernel
  have hvalid : (shopSettings a).faults = [] := hfaults
  rw [load, hread]
  dsimp only
  rw [hset, validate, hvalid]
  rfl

def shopClient (a : String) : Client :=
  ⟨⟨"https", some ⟨"", none, .domain "api.fastly.com", none⟩, .segments [""], none, none⟩, "shop", a⟩

/-- The answers to an activation, the state of the server, and what has passed. -/
def shopRun (a : String) : List Exchange × List Cue × List Passage :=
  ((shopClient a).platform scripted.observed).answers [.activate 7] ([], [])

theorem lookAlike_shop :
    load (shopEnvironment "first") shopToml = .ok (shopSettings "first")
      ∧ load (shopEnvironment "second") shopToml = .ok (shopSettings "second")
      ∧ (shopSettings "first").LookAlike (shopSettings "second")
      ∧ shopRun "second" = shopRun "first"
      ∧ (shopRun "first").2.2.filterMap (·.request?.map Request.line)
        = ["PUT /service/shop/version/7/activate"] := by
  have hfirst := load_shopToml "first"
  have hsecond := load_shopToml "second"
  have hdiffer : DifferInSecret (shopEnvironment "first") (shopEnvironment "second") "first"
      "second" :=
    { set := rfl
      set' := rfl
      agree := fun name hname => by simp only [shopEnvironment, if_neg hname]
      isSecret := ⟨by decide, by decide⟩
      isSecret' := ⟨by decide, by decide⟩ }
  have hlook : (shopSettings "first").LookAlike (shopSettings "second") := by
    rcases load_lookAlike hdiffer shopToml with ⟨f, hf, -⟩ | ⟨s, s', hs, hs', hlook⟩
    · rw [hfirst] at hf
      cases hf
    · rw [hfirst] at hs
      rw [hsecond] at hs'
      obtain rfl := Except.ok.inj hs
      obtain rfl := Except.ok.inj hs'
      exact hlook
  have hclient : ∀ a ∈ ["first", "second"],
      Client.ofSettings (shopSettings a).service = .ok (some (shopClient a)) := by
    decide +kernel
  exact ⟨hfirst, hsecond, hlook,
    hlook.calls (hclient _ (by decide)) (hclient _ (by decide)) ignoresKey_scripted _ _,
    by decide +kernel⟩

end Settings

end EdgeRouting
