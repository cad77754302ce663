import Mathlib.Data.List.Induction
import EdgeRouting.Proofs.Http.Form
import EdgeRouting.Proofs.Http.Store
import EdgeRouting.Proofs.Remote.Addresses
import EdgeRouting.Proofs.Remote.Requests

/-!
# Writes to a server that keeps resources

A write asks a server to change a resource and has it created if it is not there. Over any server
that is one request, or a second one because of a 404 to the first, and the result is what is made
of the last reply (`write_transcribed`).

Of a server that keeps resources it is asked how it answers about single ones (`KeepsStore`). A
write to it is then an assignment: the body stands under the name afterwards and all else is as it
was (`write_keeps`). So writes one behind the other leave of each name what was written last
(`view_writeAll`, `foldl_assign_apply`). The names have to be whole: it is the form that says what
is created, but the path that says what is changed.
-/

namespace EdgeRouting

open Http

namespace Remote.Client

variable {σ α : Type} {c : Client} {t : Transport σ} {resource : String} {method : Method}
  {segments : List String} {form : Option Fields} {decode : String → Option α} {v : Nat}
  {r : Resource} {url : Url} {s : σ}

/-! ## One write over any server -/

/-- What is made of the reply to a request about a resource. -/
def outcome (resource : String) (decode : String → Option α) :
    Option Reply → Except CallFailure α
  | none => .error (.unreachable resource)
  | some reply =>
    if reply.isSuccess then
      match decode reply.body with
      | some a => .ok a
      | none => .error (.unusable resource "undecodable response body")
    else .error (.refused resource reply.status (refusalText reply.body))

theorem exchange_of_isSendable (hurl : c.endpoint? segments = some url)
    (hsendable : (c.request method url form).isSendable = true) :
    c.exchange t resource method segments form decode s
      = (outcome resource decode (t.send (c.request method url form) s).1,
        (t.send (c.request method url form) s).2) := by
  rw [exchange, hurl]
  simp only [Transport.deliver, hsendable, if_true]
  rcases t.send (c.request method url form) s with ⟨_ | reply, s'⟩
  · rfl
  · simp only [outcome]
    split
    · cases decode reply.body <;> rfl
    · rfl

theorem exchange_transcribed_of_isSendable (hurl : c.endpoint? segments = some url)
    (hsendable : (c.request method url form).isSendable = true) (log : List Passage) :
    c.exchange t.transcribed resource method segments form decode (s, log)
      = (outcome resource decode (t.send (c.request method url form) s).1,
        ((t.send (c.request method url form) s).2, log ++ [.sent (c.request method url form),
          .received (t.send (c.request method url form) s).1])) :=
  exchange_of_isSendable hurl hsendable

theorem exchange_of_not_isSendable (t : Transport σ) (resource : String)
    (decode : String → Option α) (s : σ) (h : ∀ url, c.endpoint? segments = some url →
      (c.request method url form).isSendable = false) :
    ∃ e, c.exchange t resource method segments form decode s = (.error e, s)
      ∧ e.isNotFound = false := by
  unfold exchange
  cases hurl : c.endpoint? segments with
  | none => exact ⟨_, rfl, rfl⟩
  | some url =>
      simp only [Transport.deliver, h url hurl, Bool.false_eq_true, if_false]
      exact ⟨_, rfl, rfl⟩

/-- What passes in the write of a resource, with the result: nothing if no request can be made, or
the request to change it, or after a 404 to that one also the request to create it. -/
inductive Upserts (c : Client) (v : Nat) (r : Resource) :
    List Passage → Except CallFailure Unit → Prop where
  | unsent {e : CallFailure} : (∀ url, c.endpoint? (versioned v [r.key.kind.word, r.key.name])
        = some url → (c.request .put url (some r.fields)).isSendable = false) →
      Upserts c v r [] (.error e)
  | changed {url : Url} {reply : Option Reply} :
      c.endpoint? (versioned v [r.key.kind.word, r.key.name]) = some url →
      reply.map Reply.status ≠ some 404 →
      Upserts c v r [.sent (c.request .put url (some r.fields)), .received reply]
        (outcome r.key.text readAnything reply)
  | created {url url' : Url} {body : String} {reply : Option Reply} :
      c.endpoint? (versioned v [r.key.kind.word, r.key.name]) = some url →
      c.endpoint? (versioned v [r.key.kind.word]) = some url' →
      Upserts c v r [.sent (c.request .put url (some r.fields)), .received (some ⟨404, body⟩),
          .sent (c.request .post url' (some r.fields)), .received reply]
        (outcome r.key.text readAnything reply)

theorem outcome_notFound (resource : String) (decode : String → Option α) (body : String) :
    outcome resource decode (some ⟨404, body⟩)
      = .error (.refused resource 404 (refusalText body)) := rfl

theorem isNotFound_refused (resource message : String) :
    (CallFailure.refused resource 404 message).isNotFound = true := rfl

/-- Nothing but a 404 is taken for a resource that is not there. -/
theorem isNotFound_of_outcome {reply : Option Reply} {e : CallFailure}
    (h : outcome resource decode reply = .error e) :
    e.isNotFound = true ↔ reply.map Reply.status = some 404 := by
  cases reply with
  | none =>
      rw [← Except.error.inj h]
      simp [CallFailure.isNotFound, CallFailure.status?]
  | some reply =>
      rw [outcome] at h
      split at h
      · next hsuccess =>
        have hstatus : reply.status ≠ 404 := by
          intro hstatus
          rw [Reply.isSuccess, hstatus] at hsuccess
          cases hsuccess
        split at h
        · cases h
        · rw [← Except.error.inj h]
          simp [CallFailure.isNotFound, CallFailure.status?, hstatus]
      · rw [← Except.error.inj h]
        simp [CallFailure.isNotFound, CallFailure.status?]

theorem write_transcribed (c : Client) (t : Transport σ) (v : Nat) (r : Resource) (s : σ) :
    ∃ s' l result, c.write t.transcribed v r (s, []) = (result, (s', l))
      ∧ c.Upserts v r l result := by
  by_cases hreaches : ∃ url, c.endpoint? (versioned v [r.key.kind.word, r.key.name]) = some url
      ∧ (c.request .put url (some r.fields)).isSendable = true
  · obtain ⟨url, hurl, hsendable⟩ := hreaches
    obtain ⟨⟨reply, s'⟩, hsend⟩ : ∃ a, t.send (c.request .put url (some r.fields)) s = a := ⟨_, rfl⟩
    simp only [write, exchange_transcribed_of_isSendable hurl hsendable, hsend, List.nil_append]
    by_cases hmissing : reply.map Reply.status = some 404
    · obtain ⟨⟨status, body⟩, rfl, hstatus⟩ := Option.map_eq_some_iff.1 hmissing
      obtain rfl : status = 404 := hstatus
      obtain ⟨url', hurl', hsendable'⟩ := reaches_of_isSendable hurl hsendable .post
        (versioned v [r.key.kind.word]) (some r.fields)
      rw [outcome_notFound]
      simp only [isNotFound_refused, if_true, exchange_transcribed_of_isSendable hurl' hsendable']
      exact ⟨_, _, _, rfl, .created hurl hurl'⟩
    · have hresult : ∀ e, outcome r.key.text readAnything reply = .error e →
          e.isNotFound = false := by
        intro e he
        rw [← Bool.not_eq_true, isNotFound_of_outcome he]
        exact hmissing
      refine ⟨s', _, _, ?_, .changed hurl hmissing⟩
      cases he : outcome r.key.text readAnything reply with
      | ok a => rfl
      | error e => simp only [hresult e he, Bool.false_eq_true, if_false]
  · have hunsent : ∀ url, c.endpoint? (versioned v [r.key.kind.word, r.key.name]) = some url →
        (c.request .put url (some r.fields)).isSendable = false := by
      intro url hurl
      rw [← Bool.not_eq_true]
      exact fun hsendable => hreaches ⟨url, hurl, hsendable⟩
    obtain ⟨e, hput, hfound⟩ := exchange_of_not_isSendable t.transcribed r.key.text readAnything
      (s, []) hunsent
    simp only [write, hput, hfound, Bool.false_eq_true, if_false]
    exact ⟨_, _, _, rfl, .unsent hunsent⟩

/-! ## One write to a server that keeps resources -/

/-- Where a resource is kept that is written into a version. -/
def slotOf (w : Nat × Resource) : Slot := ⟨toString w.1, w.2.key.kind.word, w.2.key.name⟩

/-- The body that is kept of a resource. -/
def bodyOf (w : Nat × Resource) : String := formBody w.2.fields.toForm

/-- What is kept after a write. -/
def assign (store : Store) (w : Nat × Resource) : Store := store.put (slotOf w) (bodyOf w)

theorem name_of_form (w : Nat × Resource) :
    (formFields? (bodyOf w)).bind (·.lookup "name") = some w.2.key.name := by
  rw [bodyOf, formFields?_formBody]
  obtain ⟨v, r⟩ := w
  cases r <;> rfl

/-- Behind the path of the service, what a request is about is read as it is. -/
theorem read_behind_root (hservice : Url.Undotted c.service)
    (h : ∀ s ∈ segments, Url.IsWhole s) (hurl : c.endpoint? segments = some url) :
    Store.segmentsBehind? c.root url = some segments := by
  cases hpath : c.api.path with
  | verbatim text =>
      rw [endpoint?, Url.append?, hpath] at hurl
      cases hurl
  | segments path =>
      rw [endpoint?_of_undotted hpath
        (List.forall_mem_cons.2 ⟨hservice, fun s hs => (h s hs).undotted⟩)] at hurl
      rw [← Option.some.inj hurl]
      exact Url.segmentsBehind?_eq_some_iff.2
        ⟨_, rfl, Url.mapM_segment?_of_whole h (Url.isSpecialScheme c.api.scheme)⟩

theorem outcome_of_isDone {reply : Option Reply} (h : IsDone reply) (resource : String) :
    outcome resource readAnything reply = .ok () := by
  obtain ⟨body, rfl, hbody⟩ := h
  simp [outcome, Reply.isSuccess, hbody]

/-- How many requests a write makes, by whether the resource is there. -/
def requestsOf (store : Store) (w : Nat × Resource) : Nat :=
  if (store (slotOf w)).isSome then 1 else 2

/-- A write to a server that keeps resources is an assignment. -/
theorem write_keeps {view : σ → Store} (hserver : KeepsStore t c.root view) (hreaches : c.Reaches)
    (hservice : Url.Undotted c.service) (v : Nat) (r : Resource) (hname : Url.IsWhole r.key.name)
    (s : σ) : ∃ s' l, c.write t.transcribed v r (s, []) = (.ok (), (s', l))
      ∧ view s' = assign (view s) (v, r)
      ∧ l.countP (·.request?.isSome) = requestsOf (view s) (v, r) := by
  have hread : ∀ {tail url}, (∀ p ∈ tail, Url.IsWhole p) →
      c.endpoint? (versioned v tail) = some url →
      Store.segmentsBehind? c.root url = some (versioned v tail) :=
    fun htail hurl => read_behind_root hservice (isWhole_versioned htail) hurl
  have hword : Url.IsWhole r.key.kind.word := Url.isWhole_of_name (isName_word r.key.kind)
  obtain ⟨url, hurl, hsendable⟩ := hreaches .put (versioned v [r.key.kind.word, r.key.name])
    (some r.fields)
  have hput := hread (List.forall_mem_cons.2 ⟨hword, List.forall_mem_singleton.2 hname⟩) hurl
  simp only [write, exchange_transcribed_of_isSendable hurl hsendable]
  cases hkept : view s (slotOf (v, r)) with
  | some old =>
      obtain ⟨hdone, hview⟩ := hserver.changed (r := c.request .put url (some r.fields)) rfl hput
        (Option.isSome_of_eq_some hkept)
      rw [outcome_of_isDone hdone]
      exact ⟨_, _, rfl, hview, by rw [requestsOf, hkept]; rfl⟩
  | none =>
      obtain ⟨⟨body, hreply⟩, hview⟩ := hserver.missing (r := c.request .put url (some r.fields))
        rfl hput hkept
      obtain ⟨url', hurl', hsendable'⟩ := hreaches .post (versioned v [r.key.kind.word])
        (some r.fields)
      have hpost := hread (List.forall_mem_singleton.2 hword) hurl'
      obtain ⟨hdone, hview'⟩ := hserver.created (r := c.request .post url' (some r.fields)) rfl
        hpost (name_of_form (v, r)) (by rw [hview]; exact hkept)
      rw [hreply, outcome_notFound]
      simp only [isNotFound_refused, if_true, exchange_transcribed_of_isSendable hurl' hsendable']
      rw [outcome_of_isDone hdone]
      exact ⟨_, _, rfl, by rw [hview', hview]; rfl, by rw [requestsOf, hkept]; rfl⟩

/-! ## Writes one behind the other -/

/-- Writes one behind the other: of each what passes, with its result. -/
def writeAll (c : Client) (t : Transport σ) :
    List (Nat × Resource) → σ → List (Except CallFailure Unit × List Passage) × σ
  | [], s => ([], s)
  | w :: r, s =>
    let (result, (s, l)) := c.write t.transcribed w.1 w.2 (s, [])
    let (results, s) := c.writeAll t r s
    ((result, l) :: results, s)

/-- The body that was written last to a slot, if any was. -/
def lastBody? (slot : Slot) (writes : List (Nat × Resource)) : Option String :=
  (writes.filter (slotOf · = slot)).getLast?.map bodyOf

theorem writeAll_cons (w : Nat × Resource) (r : List (Nat × Resource)) {s' : σ}
    {l : List Passage} {result : Except CallFailure Unit}
    (h : c.write t.transcribed w.1 w.2 (s, []) = (result, (s', l))) :
    c.writeAll t (w :: r) s
      = ((result, l) :: (c.writeAll t r s').1, (c.writeAll t r s').2) := by
  rw [writeAll, h]

theorem writeAll_append (before after : List (Nat × Resource)) (s : σ) :
    c.writeAll t (before ++ after) s
      = ((c.writeAll t before s).1 ++ (c.writeAll t after (c.writeAll t before s).2).1,
        (c.writeAll t after (c.writeAll t before s).2).2) := by
  induction before generalizing s with
  | nil => rfl
  | cons w r ih =>
      rw [List.cons_append, writeAll_cons w (r ++ after) rfl, writeAll_cons w r rfl, ih]
      rfl

theorem length_writeAll (writes : List (Nat × Resource)) (s : σ) :
    (c.writeAll t writes s).1.length = writes.length := by
  induction writes generalizing s with
  | nil => rfl
  | cons w r ih => rw [writeAll_cons w r rfl, List.length_cons, ih, List.length_cons]

/-- What is kept after writes one behind the other. -/
theorem view_writeAll {view : σ → Store} (hserver : KeepsStore t c.root view)
    (hreaches : c.Reaches) (hservice : Url.Undotted c.service) {writes : List (Nat × Resource)}
    (hnames : ∀ w ∈ writes, Url.IsWhole w.2.key.name) (s : σ) :
    view (c.writeAll t writes s).2 = writes.foldl assign (view s) := by
  induction writes generalizing s with
  | nil => rfl
  | cons w r ih =>
      obtain ⟨hname, hr⟩ := List.forall_mem_cons.1 hnames
      obtain ⟨s', l, hwrite, hview, -⟩ :=
        write_keeps hserver hreaches hservice w.1 w.2 hname s
      rw [writeAll_cons w r hwrite, ih hr, hview, List.foldl_cons]

theorem assign_apply (store : Store) (w : Nat × Resource) (slot : Slot) :
    assign store w slot = if slotOf w = slot then some (bodyOf w) else store slot := by
  rw [assign, Store.put]
  simp only [eq_comm]

/-- Assignments leave what was written last of a slot, and the rest as it was. -/
theorem foldl_assign_apply (writes : List (Nat × Resource)) (store : Store) (slot : Slot) :
    writes.foldl assign store slot = (lastBody? slot writes).or (store slot) := by
  induction writes using List.reverseRecOn with
  | nil => rfl
  | append_singleton r w ih =>
      rw [List.foldl_concat, assign_apply, ih, lastBody?, lastBody?, List.filter_append]
      by_cases hslot : slotOf w = slot
      · simp [hslot]
      · simp [hslot]

/-- Writes one behind the other as assignments to what a server keeps. -/
structure Assigns (c : Client) (t : Transport σ) (view : σ → Store)
    (writes : List (Nat × Resource)) (s : σ) : Prop where
  /-- What was written last is kept under every name, and all else is as it was. -/
  kept : ∀ slot, view (c.writeAll t writes s).2 slot = (lastBody? slot writes).or (view s slot)
  /-- Every write succeeds, with one request if the resource was there by then, or else two. -/
  granted : ∀ before w after, writes = before ++ w :: after →
    ∃ l, (c.writeAll t writes s).1[before.length]? = some (.ok (), l)
      ∧ l.countP (·.request?.isSome) = requestsOf (view (c.writeAll t before s).2) w

/-- Writes to a server that keeps resources under whole names are assignments. Over any server at
all, a resource is created only after a 404, and any other reply decides about the write. -/
theorem writeAll_assigns (c : Client) :
    (∀ {σ : Type} (t : Transport σ) (view : σ → Store), KeepsStore t c.root view → c.Reaches →
        Url.Undotted c.service → ∀ writes : List (Nat × Resource),
        (∀ w ∈ writes, Url.IsWhole w.2.key.name) → ∀ s, c.Assigns t view writes s)
    ∧ ∀ {σ : Type} (t : Transport σ) (v : Nat) (r : Resource) (s : σ),
        ∃ s' l result, c.write t.transcribed v r (s, []) = (result, (s', l))
          ∧ c.Upserts v r l result := by
  constructor
  · intro σ t view hserver hreaches hservice writes hnames s
    refine ⟨fun slot => ?_, ?_⟩
    · rw [view_writeAll hserver hreaches hservice hnames, foldl_assign_apply]
    · rintro before w after rfl
      obtain ⟨s', l, hwrite, -, hrequests⟩ := write_keeps hserver hreaches hservice w.1 w.2
        (hnames w (by simp)) (c.writeAll t before s).2
      refine ⟨l, ?_, hrequests⟩
      have hlength : (c.writeAll t before s).1.length = before.length := length_writeAll before s
      rw [writeAll_append, List.getElem?_append_right (Nat.le_of_eq hlength), hlength,
        Nat.sub_self, writeAll_cons w after hwrite]
      rfl
  · intro σ t v r s
    exact write_transcribed c t v r s

/-! ### A snippet and a dictionary of one name, and a name with a tab -/

def slashSnippet (content : String) : Resource := .snippet (.generated "a/b" .recv content)

/-- A store that keeps a snippet and a dictionary under the same name. -/
def slashStore : Store := fun slot =>
  if slot = ⟨"3", "snippet", "a/b"⟩ then some "old"
  else if slot = ⟨"3", "dictionary", "a/b"⟩ then some "kept" else none

theorem mockClient_reaches : (mockClient "svc").Reaches := by
  have hsendable : ((mockClient "svc").request .get ((mockClient "svc").urlOf []) none).isSendable
      = true := by decide
  exact reaches_of_isSendable (show (mockClient "svc").endpoint? [] = some _ from rfl) hsendable

theorem writeAll_assigns_slash :
    let c := mockClient "svc"
    let t := Store.transport c.root
    let writes := [(3, slashSnippet "x"), (3, .condition .never), (3, slashSnippet "y")]
    let kept := (c.writeAll t writes slashStore).2
    KeepsStore t c.root id ∧ c.Reaches ∧ (∀ w ∈ writes, Url.IsWhole w.2.key.name)
      ∧ kept ⟨"3", "snippet", "a/b"⟩ = some (bodyOf (3, slashSnippet "y"))
      ∧ kept ⟨"3", "dictionary", "a/b"⟩ = some "kept"
      ∧ ∃ l, (c.writeAll t writes slashStore).1[1]? = some (.ok (), l)
        ∧ l.countP (·.request?.isSome) = 2 := by
  intro c t writes kept
  have hassigns : ∀ writes, (∀ w ∈ writes, Url.IsWhole w.2.key.name) →
      c.Assigns t id writes slashStore := fun writes hnames =>
    (writeAll_assigns c).1 t id (keepsStore_transport c.root) mockClient_reaches
      (Url.undotted_of_name (isName_of_all (by decide))) writes hnames slashStore
  have hnames : ∀ w ∈ writes, Url.IsWhole w.2.key.name := by decide
  have hall := hassigns writes hnames
  obtain ⟨l, hl, hcount⟩ := hall.granted [(3, slashSnippet "x")] (3, .condition .never)
    [(3, slashSnippet "y")] rfl
  have hbefore : id (c.writeAll t [(3, slashSnippet "x")] slashStore).2
      (slotOf (3, .condition .never)) = none :=
    (hassigns [(3, slashSnippet "x")] (by decide)).kept _
  refine ⟨keepsStore_transport c.root, mockClient_reaches, hnames,
    hall.kept ⟨"3", "snippet", "a/b"⟩, hall.kept ⟨"3", "dictionary", "a/b"⟩, l, hl, ?_⟩
  rw [hcount, requestsOf, hbefore]
  rfl

def tabSnippet : Resource := .snippet (.generated "a\tb" .recv "")

/-- A snippet with a tab in its name is not found where it is kept, but another snippet is. -/
theorem writeAll_tab :
    let c := mockClient "svc"
    let t := Store.transport c.root
    (c.writeAll t [(1, tabSnippet), (1, tabSnippet)] fun _ => none).1.map Prod.fst
        = [.ok (), .error (.refused "snippet/a\tb" 409 "Duplicate record")]
      ∧ let kept := (c.writeAll t [(1, tabSnippet)] fun slot =>
          if slot = ⟨"1", "snippet", "ab"⟩ then some "old" else none).2
        kept ⟨"1", "snippet", "ab"⟩ = some (bodyOf (1, tabSnippet))
          ∧ kept ⟨"1", "snippet", "a\tb"⟩ = none := by
  refine ⟨?_, ?_, ?_⟩
  · with_unfolding_all rfl
  · with_unfolding_all rfl
  · with_unfolding_all rfl

end Remote.Client

end EdgeRouting
