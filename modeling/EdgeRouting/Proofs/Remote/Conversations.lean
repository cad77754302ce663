import EdgeRouting.Proofs.Url.Segments
import EdgeRouting.Remote.Interleaving

/-!
# What passes in a call

One exchange with a server is the request and what comes back for it, or nothing at all if the
request cannot be made (`Exchanges`). A call is one exchange or two, and a second one only for a
reason that the first one gave: the opening of a version goes on when versions were listed, the
write of a resource when it was not found. The equations of the client are read backwards once, for
an arbitrary server; all that is known of its requests and errors follows from the shapes alone.

Every request is sent to a URL on the service's own path (`urlOf`), since nothing that is put on the
path can leave it.
-/

namespace EdgeRouting.Remote.Client

open Http

variable {c : Client} {α : Type} {resource : String} {method : Method} {segments : List String}
  {form : Option Fields} {decode : String → Option α} {l : List Passage} {v : Nat}

/-! ## Addresses -/

/-- The path of the service. -/
def root (c : Client) : List String :=
  (match c.api.path with
    | .segments path => Url.base path
    | .verbatim _ => [])
    ++ ["service", Url.segmentText (Url.isSpecialScheme c.api.scheme) c.service]

/-- The URL of something about the service. -/
def urlOf (c : Client) (segments : List String) : Url :=
  { c.api with path := .segments (c.root ++ segments) }

/-- A segment that is its own encoding. -/
def IsName (segment : String) : Prop := ∀ ch ∈ segment.toList, isNameChar ch = true

theorem isName_of_all {segment : String} (h : segment.toList.all isNameChar = true) :
    IsName segment :=
  List.all_eq_true.1 h

theorem isName_toString (n : Nat) : IsName (toString n) :=
  fun _ => Url.isNameChar_of_mem_toString

theorem IsName.versioned (h : ∀ s ∈ segments, IsName s) : ∀ s ∈ versioned v segments, IsName s := by
  intro s hs
  rcases List.mem_cons.1 hs with rfl | hs
  · exact isName_of_all (by decide)
  · rcases List.mem_cons.1 hs with rfl | hs
    · exact isName_toString v
    · exact h s hs

/-- The service and what is about it are put behind the first segment, one by one. -/
theorem endpoint?_eq {path : List String} (hpath : c.api.path = .segments path)
    (segments : List String) : c.endpoint? segments = some { c.api with
      path := .segments ((c.service :: segments).foldl (Url.pushSegment c.api.scheme)
        (Url.base path ++ ["service"])) } := by
  have hword : IsName "service" := isName_of_all (by decide)
  rw [endpoint?, Url.append?_cons hpath (Url.undotted_of_name hword)
    (by rw [Url.encodeSegment_of_name hword]; decide), Url.segmentText_of_name hword]

/-- Segments that stay segments of their own are put on the service's own path. -/
theorem endpoint?_of_undotted {path : List String} (hpath : c.api.path = .segments path)
    (h : ∀ s ∈ c.service :: segments, Url.Undotted s) : c.endpoint? segments
      = some (c.urlOf (segments.map (Url.segmentText (Url.isSpecialScheme c.api.scheme)))) := by
  have hslash : Url.base path ++ ["service"] ≠ [""] := Url.concat_ne_slash (.inr (by decide))
  rw [endpoint?_eq hpath, Url.foldl_pushSegment h (by simp) hslash, urlOf, root, hpath]
  simp only [List.map_cons, List.append_assoc, List.cons_append, List.nil_append]

/-- A request about names goes to the service's own path. -/
theorem eq_urlOf {url : Url} (hservice : Url.Undotted c.service) (hnames : ∀ s ∈ segments, IsName s)
    (hurl : c.endpoint? segments = some url) : url = c.urlOf segments := by
  cases hpath : c.api.path with
  | verbatim text =>
      rw [endpoint?, Url.append?, hpath] at hurl
      cases hurl
  | segments path =>
      have htext : segments.map (Url.segmentText (Url.isSpecialScheme c.api.scheme)) = segments :=
        (List.map_congr_left fun s hs => Url.segmentText_of_name (hnames s hs)).trans
          (List.map_id _)
      rw [endpoint?_of_undotted hpath (List.forall_mem_cons.2
        ⟨hservice, fun s hs => Url.undotted_of_name (hnames s hs)⟩), htext] at hurl
      exact (Option.some.inj hurl).symm

/-! ## One exchange -/

/-- What can be used of what comes back. -/
def usable? (decode : String → Option α) (reply : Option Reply) : Option α :=
  reply.bind fun r => if r.isSuccess then decode r.body else none

/-- What passes in one exchange about a resource, with its result. -/
inductive Exchanges (c : Client) (resource : String) (method : Method) (segments : List String)
    (form : Option Fields) (decode : String → Option α) :
    List Passage → Except CallFailure α → Prop where
  /-- There is no such URL, or the request cannot be sent. -/
  | silent {e : CallFailure} :
      (∀ url, c.endpoint? segments = some url →
        (c.request method url form).isSendable = false) → e.resource = resource →
      Exchanges c resource method segments form decode [] (.error e)
  | answered {url : Url} {reply : Option Reply} {a : α} : c.endpoint? segments = some url →
      (c.request method url form).isSendable = true → usable? decode reply = some a →
      Exchanges c resource method segments form decode
        [.sent (c.request method url form), .received reply] (.ok a)
  | failed {url : Url} {reply : Option Reply} {e : CallFailure} :
      c.endpoint? segments = some url → (c.request method url form).isSendable = true →
      usable? decode reply = none → e.resource = resource →
      Exchanges c resource method segments form decode
        [.sent (c.request method url form), .received reply] (.error e)

theorem exchange_transcribed {σ : Type} (c : Client) (t : Transport σ) (resource : String)
    (method : Method) (segments : List String) (form : Option Fields) (decode : String → Option α)
    (s : σ) (log : List Passage) :
    ∃ s' l result, c.exchange t.transcribed resource method segments form decode (s, log)
        = (result, (s', log ++ l))
      ∧ c.Exchanges resource method segments form decode l result := by
  unfold exchange
  cases hurl : c.endpoint? segments with
  | none => exact ⟨s, [], _, by rw [List.append_nil], .silent (by simp [hurl]) rfl⟩
  | some url =>
      simp only [Transport.deliver]
      cases hsendable : (c.request method url form).isSendable with
      | false =>
          exact ⟨s, [], _, by rw [List.append_nil]; rfl, .silent (by simpa [hurl]) rfl⟩
      | true =>
          obtain ⟨⟨reply, s'⟩, hsend⟩ : ∃ a, t.send (c.request method url form) s = a := ⟨_, rfl⟩
          simp only [if_true, Transport.transcribed, hsend]
          cases reply with
          | none => exact ⟨s', _, _, rfl, .failed hurl hsendable rfl rfl⟩
          | some reply =>
              simp only
              cases hsuccess : reply.isSuccess with
              | false =>
                  simp only [Bool.false_eq_true, if_false]
                  have hnone : usable? decode (some reply) = none := by simp [usable?, hsuccess]
                  exact ⟨s', _, _, rfl, .failed hurl hsendable hnone rfl⟩
              | true =>
                  simp only [if_true]
                  have husable : usable? decode (some reply) = decode reply.body := by
                    simp [usable?, hsuccess]
                  cases hdecode : decode reply.body with
                  | none =>
                      exact ⟨s', _, _, rfl, .failed hurl hsendable (husable.trans hdecode) rfl⟩
                  | some a =>
                      exact ⟨s', _, _, rfl, .answered hurl hsendable (husable.trans hdecode)⟩

theorem exchanges_of_exchange {σ : Type} {t : Transport σ} {s s' : σ}
    {result : Except CallFailure α}
    (h : c.exchange t.transcribed resource method segments form decode (s, [])
      = (result, (s', l))) :
    c.Exchanges resource method segments form decode l result := by
  obtain ⟨s₁, l₁, result₁, hexchange, hshape⟩ := exchange_transcribed c t resource method segments
    form decode s []
  obtain ⟨rfl, hl⟩ := Prod.mk.inj (hexchange.symm.trans h)
  obtain ⟨-, rfl⟩ := Prod.mk.inj hl
  exact hshape

/-! ## Calls -/

theorem mem_of_greatest? {versions : List ServiceVersion} {base : ServiceVersion}
    (h : ServiceVersion.greatest? versions = some base) : base ∈ versions := by
  cases versions with
  | nil => cases h
  | cons v r =>
      rw [← Option.some.inj h]
      clear h
      induction r generalizing v with
      | nil => exact List.mem_cons_self
      | cons w r ih =>
          rw [List.foldl_cons]
          split
          · exact List.mem_cons_of_mem _ (ih w)
          · rcases List.mem_cons.1 (ih v) with heq | hmem
            · rw [heq]
              exact List.mem_cons_self
            · exact List.mem_cons_of_mem _ (List.mem_cons_of_mem _ hmem)

theorem mem_of_base? {versions : List ServiceVersion} {base : ServiceVersion}
    (h : ServiceVersion.base? versions = some base) : base ∈ versions := by
  rw [ServiceVersion.base?, Option.or_eq_some_iff] at h
  rcases h with hactive | ⟨-, hgreatest⟩
  · exact List.mem_of_find?_eq_some hactive
  · exact mem_of_greatest? hgreatest

/-- What passes when a version is opened. -/
inductive Opens (c : Client) : List Passage → Except CallFailure Nat → Prop where
  | unlisted {l : List Passage} {e : CallFailure} :
    c.Exchanges "version" .get ["version"] none readVersions l (.error e) → Opens c l (.error e)
  | baseless {l : List Passage} {versions : List ServiceVersion} {e : CallFailure} :
    c.Exchanges "version" .get ["version"] none readVersions l (.ok versions) →
      ServiceVersion.base? versions = none → e.resource = "version" → Opens c l (.error e)
  | uncloned {l l' : List Passage} {versions : List ServiceVersion} {base : ServiceVersion}
    {e : CallFailure} :
    c.Exchanges "version" .get ["version"] none readVersions l (.ok versions) →
      ServiceVersion.base? versions = some base →
      c.Exchanges "version" .put (versioned base.number ["clone"]) none readVersion l' (.error e) →
      Opens c (l ++ l') (.error e)
  | cloned {l l' : List Passage} {versions : List ServiceVersion} {base made : ServiceVersion} :
    c.Exchanges "version" .get ["version"] none readVersions l (.ok versions) →
      ServiceVersion.base? versions = some base →
      c.Exchanges "version" .put (versioned base.number ["clone"]) none readVersion l' (.ok made) →
      Opens c (l ++ l') (.ok made.number)

/-- What passes when a resource is written into a version. -/
inductive Writes (c : Client) (v : Nat) (r : Resource) :
    List Passage → Except CallFailure Unit → Prop where
  | changed {l : List Passage} {result : Except CallFailure Unit} :
    c.Exchanges r.key.text .put (versioned v [r.key.kind.word, r.key.name]) (some r.fields)
      readAnything l result → (∀ e, result = .error e → e.isNotFound = false) →
      Writes c v r l result
  | created {l l' : List Passage} {e : CallFailure} {result : Except CallFailure Unit} :
    c.Exchanges r.key.text .put (versioned v [r.key.kind.word, r.key.name]) (some r.fields)
      readAnything l (.error e) → e.isNotFound = true →
      c.Exchanges r.key.text .post (versioned v [r.key.kind.word]) (some r.fields) readAnything l'
        result → Writes c v r (l ++ l') result

theorem opens_of_converses {result : Except CallFailure Nat}
    (h : c.Converses .openVersion l result) : c.Opens l result := by
  obtain ⟨σ, t, s, s', hanswer⟩ := h
  change c.openVersion t.transcribed (s, []) = (result, (s', l)) at hanswer
  obtain ⟨s₁, l₁, listed, hlisted, hlisting⟩ := exchange_transcribed c t "version" .get ["version"]
    none readVersions s []
  rw [openVersion, hlisted, List.nil_append] at hanswer
  cases listed with
  | error e =>
      cases hanswer
      exact .unlisted hlisting
  | ok versions =>
      simp only at hanswer
      cases hbase : ServiceVersion.base? versions with
      | none =>
          rw [hbase] at hanswer
          cases hanswer
          exact .baseless hlisting hbase rfl
      | some base =>
          obtain ⟨s₂, l₂, cloned, hcloned, hcloning⟩ := exchange_transcribed c t "version" .put
            (versioned base.number ["clone"]) none readVersion s₁ l₁
          rw [hbase] at hanswer
          simp only [hcloned] at hanswer
          cases cloned with
          | error e =>
              cases hanswer
              exact .uncloned hlisting hbase hcloning
          | ok made =>
              cases hanswer
              exact .cloned hlisting hbase hcloning

theorem writes_of_converses {r : Resource} {result : Except CallFailure Unit}
    (h : c.Converses (.write v r) l result) : c.Writes v r l result := by
  obtain ⟨σ, t, s, s', hanswer⟩ := h
  change c.write t.transcribed v r (s, []) = (result, (s', l)) at hanswer
  obtain ⟨s₁, l₁, changed, hchanged, hchanging⟩ := exchange_transcribed c t r.key.text .put
    (versioned v [r.key.kind.word, r.key.name]) (some r.fields) readAnything s []
  rw [write] at hanswer
  simp only [hchanged, List.nil_append] at hanswer
  cases changed with
  | ok u =>
      cases hanswer
      exact .changed hchanging (by simp)
  | error e =>
      simp only at hanswer
      cases hmissing : e.isNotFound with
      | false =>
          rw [hmissing] at hanswer
          cases hanswer
          refine .changed hchanging fun e' he => ?_
          rwa [← Except.error.inj he]
      | true =>
          obtain ⟨s₂, l₂, created, hcreated, hcreating⟩ := exchange_transcribed c t r.key.text .post
            (versioned v [r.key.kind.word]) (some r.fields) readAnything s₁ l₁
          rw [hmissing, if_pos rfl, hcreated] at hanswer
          cases hanswer
          exact .created hchanging hmissing hcreating

theorem exchanges_of_create {b : Backend} {result : Except CallFailure Unit}
    (h : c.Converses (.create v b) l result) :
    c.Exchanges (Resource.backend b).key.text .post (versioned v ["backend"]) (some b.fields)
      readAnything l result := by
  obtain ⟨_, _, _, _, hanswer⟩ := h
  exact exchanges_of_exchange hanswer

theorem exchanges_of_update {b : Backend} {result : Except CallFailure Unit}
    (h : c.Converses (.update v b) l result) :
    c.Exchanges (Resource.backend b).key.text .put (versioned v ["backend", b.name])
      (some b.fields) readAnything l result := by
  obtain ⟨_, _, _, _, hanswer⟩ := h
  exact exchanges_of_exchange hanswer

end EdgeRouting.Remote.Client
