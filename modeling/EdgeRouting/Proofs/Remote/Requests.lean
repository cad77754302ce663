import EdgeRouting.Proofs.Remote.Conversations
import EdgeRouting.Proofs.Rollout.Calls

/-!
# Requests of a rollout

Read off the shapes of the calls: what a request is sent to, how many there are, and what a failure
is the failure of.

- A write sends requests to its own resource only, in the version it is given (`IsWrite`): it puts
  to the resource or posts to the resources of its kind.
- The opening lists the versions and clones one of those listed (`Opening`).
- A failure names what its call was about. Where requests can be made at all (`Reaches`) it is that
  of the last request of the call. This is not a question of the single request: the API URL and the
  token decide it for all of them, so a client that has opened a version can make every later one.
-/

namespace EdgeRouting.Remote.Client

open Http Rollout

variable {c : Client} {α : Type} {resource : String} {method : Method} {segments : List String}
  {form : Option Fields} {decode : String → Option α} {l : List Passage} {v : Nat}

/-! ## Requests and failures -/

/-- Every request of the client can be made. -/
def Reaches (c : Client) : Prop :=
  ∀ method segments form, ∃ url, c.endpoint? segments = some url
    ∧ (c.request method url form).isSendable = true

theorem isSendable_request (method : Method) (url : Url) (form : Option Fields) :
    (c.request method url form).isSendable = ((url.scheme = "http" || url.scheme = "https")
      && url.authority.isSome && c.commonHeaders.all fun h => Request.isHeaderValue h.2) := by
  have htype : Request.isHeaderValue formType = true := by decide
  cases form with
  | none => rfl
  | some fields =>
      simp only [request, Request.isSendable, List.all_append, List.all_cons, List.all_nil, htype,
        Bool.and_true]
      rfl

/-- What keeps a request from being made is the same for all of them. -/
theorem reaches_of_isSendable {url : Url} (hurl : c.endpoint? segments = some url)
    (hsendable : (c.request method url form).isSendable = true) : c.Reaches := by
  intro method' segments' form'
  rw [isSendable_request] at hsendable
  unfold endpoint? Url.append? at hurl ⊢
  cases hpath : c.api.path with
  | verbatim text =>
      rw [hpath] at hurl
      cases hurl
  | segments path =>
      rw [hpath] at hurl
      obtain rfl := Option.some.inj hurl
      exact ⟨_, rfl, by rw [isSendable_request]; exact hsendable⟩

namespace Exchanges

variable {result : Except CallFailure α}

theorem eq_of_ok {a : α} (h : c.Exchanges resource method segments form decode l (.ok a)) :
    ∃ url reply, c.endpoint? segments = some url
      ∧ (c.request method url form).isSendable = true ∧ usable? decode reply = some a
      ∧ l = [.sent (c.request method url form), .received reply] := by
  cases h with
  | answered hurl hsendable husable => exact ⟨_, _, hurl, hsendable, husable, rfl⟩

theorem resource_of_error {e : CallFailure}
    (h : c.Exchanges resource method segments form decode l (.error e)) :
    e.resource = resource := by
  cases h with
  | silent _ hresource => exact hresource
  | failed _ _ _ hresource => exact hresource

/-- Where requests can be made, a failure is that of a request. -/
theorem eq_of_error {e : CallFailure} (hreaches : c.Reaches)
    (h : c.Exchanges resource method segments form decode l (.error e)) :
    ∃ r reply, l = [.sent r, .received reply] ∧ usable? decode reply = none := by
  cases h with
  | silent hsilent _ =>
      obtain ⟨url, hurl, hsendable⟩ := hreaches method segments form
      rw [hsilent url hurl] at hsendable
      cases hsendable
  | failed _ _ hnone _ => exact ⟨_, _, rfl, hnone⟩

theorem prefix_of_sent (h : c.Exchanges resource method segments form decode l result)
    (hservice : Url.Undotted c.service) (hnames : ∀ s ∈ segments, IsName s) :
    ∃ reply, l <+: [.sent (c.request method (c.urlOf segments) form), .received reply] := by
  cases h with
  | silent _ _ => exact ⟨none, List.nil_prefix⟩
  | answered hurl _ _ =>
      obtain rfl := eq_urlOf hservice hnames hurl
      exact ⟨_, List.prefix_rfl⟩
  | failed hurl _ _ _ =>
      obtain rfl := eq_urlOf hservice hnames hurl
      exact ⟨_, List.prefix_rfl⟩

theorem method_url_of_sent (h : c.Exchanges resource method segments form decode l result)
    (hservice : Url.Undotted c.service) (hnames : ∀ s ∈ segments, IsName s) {r : Request}
    (hr : .sent r ∈ l) : r.method = method ∧ r.url = c.urlOf segments := by
  obtain ⟨reply, hpart⟩ := h.prefix_of_sent hservice hnames
  have hmem := hpart.subset hr
  simp only [List.mem_cons, Passage.sent.injEq, reduceCtorEq, List.not_mem_nil, or_false] at hmem
  subst hmem
  cases form <;> exact ⟨rfl, rfl⟩

theorem countP_le_one (h : c.Exchanges resource method segments form decode l result) :
    l.countP (·.request?.isSome) ≤ 1 := by
  cases h with
  | silent _ _ => exact Nat.zero_le _
  | answered _ _ _ => exact Nat.le_refl _
  | failed _ _ _ _ => exact Nat.le_refl _

end Exchanges

/-- Whether a request belongs to the write of a resource into a version: it changes the resource
there, or creates one of its kind. -/
def Addresses (c : Client) (v : Nat) (k : ResourceKey) (r : Request) : Prop :=
  r.method = .put ∧ r.url = c.urlOf (versioned v [k.kind.word, k.name])
    ∨ r.method = .post ∧ r.url = c.urlOf (versioned v [k.kind.word])

/-- How many requests a call makes at most. -/
def requestLimit : Call → Nat
  | .write _ _ => 2
  | _ => 1

/-- What passes in the write of a resource: requests about the resource, only few of them, and a
failure only as that of a request. -/
structure IsWrite (c : Client) (v : Nat) (k : ResourceKey) (limit : Nat) (l : List Passage)
    (result : Except CallFailure α) : Prop where
  addresses : ∀ r, .sent r ∈ l → c.Addresses v k r
  few : l.countP (·.request?.isSome) ≤ limit
  failed : ∀ e, result = .error e → e.resource = k.text ∧ (c.Reaches → ∃ before r reply,
    l = before ++ [.sent r, .received reply] ∧ usable? readAnything reply = none)

variable {k : ResourceKey}

theorem isName_word (kind : ResourceKind) : IsName kind.word := by
  apply isName_of_all
  cases kind <;> decide

namespace Exchanges

variable {result : Except CallFailure Unit}

theorem isWrite (h : c.Exchanges k.text method (versioned v segments) form readAnything l result)
    (hservice : Url.Undotted c.service) (hnames : ∀ s ∈ segments, IsName s)
    (haddresses : ∀ r : Request, r.method = method → r.url = c.urlOf (versioned v segments) →
      c.Addresses v k r) : c.IsWrite v k 1 l result where
  addresses := by
    intro r hr
    obtain ⟨hmethod, hurl⟩ := h.method_url_of_sent hservice (IsName.versioned hnames) hr
    exact haddresses r hmethod hurl
  few := h.countP_le_one
  failed := by
    rintro e rfl
    refine ⟨h.resource_of_error, fun hreaches => ?_⟩
    obtain ⟨r, reply, hl, hnone⟩ := h.eq_of_error hreaches
    exact ⟨[], r, reply, hl, hnone⟩

theorem isWrite_put (hservice : Url.Undotted c.service) (hname : IsName k.name)
    (h : c.Exchanges k.text .put (versioned v [k.kind.word, k.name]) form readAnything l result) :
    c.IsWrite v k 1 l result :=
  h.isWrite hservice
    (List.forall_mem_cons.2 ⟨isName_word k.kind, List.forall_mem_singleton.2 hname⟩)
    fun _ hmethod hurl => .inl ⟨hmethod, hurl⟩

theorem isWrite_post (hservice : Url.Undotted c.service)
    (h : c.Exchanges k.text .post (versioned v [k.kind.word]) form readAnything l result) :
    c.IsWrite v k 1 l result :=
  h.isWrite hservice (List.forall_mem_singleton.2 (isName_word k.kind))
    fun _ hmethod hurl => .inr ⟨hmethod, hurl⟩

end Exchanges

theorem Writes.isWrite {r : Resource} {result : Except CallFailure Unit}
    (h : c.Writes v r l result) (hservice : Url.Undotted c.service) (hname : IsName r.key.name) :
    c.IsWrite v r.key 2 l result := by
  cases h with
  | changed hput _ =>
      have hwrite := hput.isWrite_put hservice hname
      exact ⟨hwrite.addresses, Nat.le_succ_of_le hwrite.few, hwrite.failed⟩
  | created hput _ hpost =>
      have hfirst := hput.isWrite_put hservice hname
      have hsecond := hpost.isWrite_post hservice
      refine ⟨?_, ?_, ?_⟩
      · intro r hr
        exact (List.mem_append.1 hr).elim (hfirst.addresses r) (hsecond.addresses r)
      · rw [List.countP_append]
        exact Nat.add_le_add hfirst.few hsecond.few
      · intro e he
        obtain ⟨hresource, hlast⟩ := hsecond.failed e he
        refine ⟨hresource, fun hreaches => ?_⟩
        obtain ⟨before, r, reply, rfl, hnone⟩ := hlast hreaches
        exact ⟨_, r, reply, (List.append_assoc _ _ _).symm, hnone⟩

/-- What passes in any of the calls with which a resource is written. -/
theorem isWrite_of_converses {r : Resource} {call : Call} {result : Except CallFailure call.Answer}
    (hservice : Url.Undotted c.service) (hname : IsName r.key.name) (hcall : call ∈ callsOf v r)
    (h : c.Converses call l result) : c.IsWrite v r.key (requestLimit call) l result := by
  cases r with
  | backend b =>
      rcases List.mem_cons.1 hcall with rfl | hcall
      · exact Exchanges.isWrite_post hservice (exchanges_of_create h)
      · obtain rfl := List.mem_singleton.1 hcall
        exact Exchanges.isWrite_put hservice hname (exchanges_of_update h)
  | _ =>
      obtain rfl := List.mem_singleton.1 hcall
      exact (writes_of_converses h).isWrite hservice hname

/-! ## The opening of a version -/

def listing (c : Client) : Request := c.request .get (c.urlOf ["version"]) none

def cloning (c : Client) (n : Nat) : Request :=
  c.request .put (c.urlOf (versioned n ["clone"])) none

/-- What can have passed of the opening of a version: the versions are listed, then one of those
listed is cloned. The number of the clone is known when all has passed. -/
inductive Opening (c : Client) : List Passage → Option Nat → Prop where
  | listing {l : List Passage} {reply : Option Reply} :
    l <+: [.sent c.listing, .received reply] → Opening c l none
  | cloning {l : List Passage} {reply reply' : Option Reply} {versions : List ServiceVersion}
    {base : ServiceVersion} : usable? readVersions reply = some versions → base ∈ versions →
      l <+: [.sent c.listing, .received reply, .sent (c.cloning base.number), .received reply'] →
      Opening c l none
  | cloned {reply reply' : Option Reply} {versions : List ServiceVersion}
    {base made : ServiceVersion} : usable? readVersions reply = some versions → base ∈ versions →
      usable? readVersion reply' = some made →
      Opening c [.sent c.listing, .received reply, .sent (c.cloning base.number), .received reply']
        (some made.number)

theorem isName_version : ∀ s ∈ ["version"], IsName s :=
  List.forall_mem_singleton.2 (isName_of_all (by decide))

theorem isName_clone {n : Nat} : ∀ s ∈ versioned n ["clone"], IsName s :=
  IsName.versioned (List.forall_mem_singleton.2 (isName_of_all (by decide)))

theorem Opens.resource_of_error {e : CallFailure} (h : c.Opens l (.error e)) :
    e.resource = "version" := by
  cases h with
  | unlisted hlisting => exact hlisting.resource_of_error
  | baseless _ _ hresource => exact hresource
  | uncloned _ _ hcloning => exact hcloning.resource_of_error

theorem Opens.reaches (h : c.Opens l (.ok v)) : c.Reaches := by
  cases h with
  | cloned hlisting _ _ =>
      obtain ⟨url, _, hurl, hsendable, -⟩ := hlisting.eq_of_ok
      exact reaches_of_isSendable hurl hsendable

/-- The listing of the versions when it came through. -/
theorem Exchanges.listed {versions : List ServiceVersion} (hservice : Url.Undotted c.service)
    (h : c.Exchanges "version" .get ["version"] none readVersions l (.ok versions)) :
    ∃ reply, l = [.sent c.listing, .received reply]
      ∧ usable? readVersions reply = some versions := by
  obtain ⟨url, reply, hurl, -, husable, rfl⟩ := h.eq_of_ok
  obtain rfl := eq_urlOf hservice isName_version hurl
  exact ⟨reply, rfl, husable⟩

theorem Opens.opened (h : c.Opens l (.ok v)) (hservice : Url.Undotted c.service) :
    c.Opening l (some v) := by
  cases h with
  | cloned hlisting hbase hcloning =>
      obtain ⟨reply, rfl, husable⟩ := hlisting.listed hservice
      obtain ⟨url, reply', hurl, -, husable', rfl⟩ := hcloning.eq_of_ok
      obtain rfl := eq_urlOf hservice isName_clone hurl
      exact .cloned husable (mem_of_base? hbase) husable'

theorem Opens.opening {result : Except CallFailure Nat} {l' : List Passage}
    (h : c.Opens l result) (hservice : Url.Undotted c.service) (hpart : l' <+: l) :
    c.Opening l' none := by
  have hcloning : ∀ {l₁ l₂ versions base} {cloned : Except CallFailure ServiceVersion},
      c.Exchanges "version" .get ["version"] none readVersions l₁ (.ok versions) →
      ServiceVersion.base? versions = some base →
      c.Exchanges "version" .put (versioned base.number ["clone"]) none readVersion l₂ cloned →
      l' <+: l₁ ++ l₂ → c.Opening l' none := by
    intro l₁ l₂ versions base cloned hlisting hbase hcloned hpart
    obtain ⟨reply, rfl, husable⟩ := hlisting.listed hservice
    obtain ⟨reply', hsent⟩ := hcloned.prefix_of_sent hservice isName_clone
    exact .cloning husable (mem_of_base? hbase)
      (hpart.trans (List.prefix_append_right_inj _ |>.2 hsent))
  cases h with
  | unlisted hlisting =>
      obtain ⟨reply, hsent⟩ := hlisting.prefix_of_sent hservice isName_version
      exact .listing (hpart.trans hsent)
  | baseless hlisting _ _ =>
      obtain ⟨reply, hsent⟩ := hlisting.prefix_of_sent hservice isName_version
      exact .listing (hpart.trans hsent)
  | uncloned hlisting hbase hcloned => exact hcloning hlisting hbase hcloned hpart
  | cloned hlisting hbase hcloned => exact hcloning hlisting hbase hcloned hpart

end EdgeRouting.Remote.Client
