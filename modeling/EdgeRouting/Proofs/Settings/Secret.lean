import EdgeRouting.Http.Basic
import EdgeRouting.Settings.Json
import EdgeRouting.Settings.Loading

/-!
# Settings with another secret

What loading makes of the secret. The environment puts it in place after the text has been read, and
no check of the settings looks at it; so with another secret in the environment the same settings are
loaded, but for the secret (`load_of_differInSecret`). All that is shown of settings is the same
under every secret, and whether they are ready too, as long as neither secret is blank.
-/

namespace EdgeRouting

/-- A text that can be the secret of a service: there is something in it, and it can be the value of
a header. -/
structure IsSecret (a : String) : Prop where
  notBlank : Text.isBlankText a = false
  isHeaderValue : Http.Request.isHeaderValue a = true

theorem IsSecret.present {a : String} (h : IsSecret a) : present (some a) = some a := by
  rw [EdgeRouting.present, Option.filter_some, h.notBlank]
  rfl

/-- Two environments that set a secret each, and agree on all other variables. -/
structure DifferInSecret (env env' : Environment) (a a' : String) : Prop where
  set : env Settings.authVariable = some a
  set' : env' Settings.authVariable = some a'
  agree : ∀ name, name ≠ Settings.authVariable → env' name = env name
  isSecret : IsSecret a
  isSecret' : IsSecret a'

/-! ## Records -/

def ServiceSettings.withAuth (s : ServiceSettings) (a : String) : ServiceSettings :=
  { s with auth := some a }

def Settings.withAuth (s : Settings) (a : String) : Settings :=
  { s with service := s.service.withAuth a }

def Access.withAuth (x : Access) (a : String) : Access := { x with auth := a }

theorem Settings.validate_withAuth (s : Settings) (a : String) :
    (s.withAuth a).validate = s.validate := rfl

theorem Settings.toJson_withAuth (s : Settings) (a : String) :
    (s.withAuth a).toJson = s.toJson := rfl

theorem Access.describe_withAuth (x : Access) (a : String) :
    (x.withAuth a).describe = x.describe := rfl

namespace ServiceSettings

variable {s : ServiceSettings} {a a' : String}

theorem describe_withAuth (hset : s.auth = some a) : (s.withAuth a').describe = s.describe := by
  unfold describe withAuth
  rw [hset]
  rfl

theorem access?_withAuth (hset : s.auth = some a) (hsecret : IsSecret a) (hsecret' : IsSecret a') :
    (s.withAuth a').access? = s.access?.map (·.withAuth a') := by
  unfold access? withAuth
  rw [hset, hsecret.present, hsecret'.present]
  cases present s.service with
  | none => rfl
  | some service => cases present s.checkPath <;> rfl

end ServiceSettings

/-! ## Loading -/

namespace Settings

variable {env env' : Environment} {a a' : String}

theorem overridden_of_differInSecret (h : DifferInSecret env env' a a') (s : Settings) :
    s.overridden env' = (s.overridden env).withAuth a' := by
  have hservice : env' serviceVariable = env serviceVariable := h.agree _ (by decide)
  have hcheckPath : env' checkPathVariable = env checkPathVariable := h.agree _ (by decide)
  rw [overridden, hservice, hcheckPath, h.set']
  rfl

/-- What the environment sets is the secret that is loaded. -/
theorem auth_of_load {s : Settings} {text : String} (hset : env authVariable = some a)
    (hload : load env text = .ok s) : s.service.auth = some a := by
  unfold load at hload
  split at hload
  · cases hload
  · dsimp only at hload
    split at hload
    · cases hload
    · obtain rfl := Except.ok.inj hload
      rw [overridden, hset]
      rfl

theorem load_of_differInSecret (h : DifferInSecret env env' a a') (text : String) :
    load env' text = (load env text).map (·.withAuth a') := by
  unfold load
  cases ofToml? text with
  | none => rfl
  | some s =>
      dsimp only
      rw [overridden_of_differInSecret h, validate_withAuth]
      cases (s.overridden env).validate <;> rfl

end Settings

end EdgeRouting
