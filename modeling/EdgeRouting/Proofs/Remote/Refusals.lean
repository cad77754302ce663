import EdgeRouting.Proofs.Lists
import EdgeRouting.Proofs.Remote.OwnVersion
import EdgeRouting.Proofs.Rollout.Refusals
import EdgeRouting.Proofs.Text.Occurrence

/-!
# Backends that exist already

Whether a refused backend exists already is decided by the wording of the refusal, which is put
together from a message and details. Neither is lost, and the colon between them is in none of the
phrases that are looked for, so the wording says what one of the two says (`says_text?_iff`).

Of an object with members whose names are texts the message and the details are the texts under
their two names (`ofJson?_ofMembers`). That takes care of every refusal whose body is such an object
(`refused_create`). Where a name is no text, or details are no text, the object cannot be read and
the whole body is the wording (`refused_create_unreadable`).
-/

namespace EdgeRouting.Remote

open Http Rollout Text

/-! ## Objects -/

/-- The values of an object under a name. -/
def valuesOf (name : String) (members : List (String × Json)) : List Json :=
  (members.filter fun m => m.1 = name).map (·.2)

/-- What an object holds under a name: a text, or nothing, which may be written as null. -/
inductive HoldsText (members : List (String × Json)) (name : String) : Option String → Prop where
  | absent : valuesOf name members = [] → HoldsText members name none
  | null : valuesOf name members = [.null] → HoldsText members name none
  | text {s : String} : valuesOf name members = [.text s] → HoldsText members name (some s)

variable {members : List (String × Json)} {names : List String} {name : String}

theorem HoldsText.length_le {value : Option String} (h : HoldsText members name value) :
    (valuesOf name members).length ≤ 1 := by
  cases h with
  | absent h => simp [h]
  | null h => simp [h]
  | text h => simp [h]

theorem HoldsText.optionalText? {value : Option String} (h : HoldsText members name value) :
    optionalText? (valuesOf name members).head? = some value := by
  cases h with
  | absent h => rw [h]; rfl
  | null h => rw [h]; rfl
  | text h => rw [h]; rfl

theorem lookup_known (hname : name ∈ names) (members : List (String × Json)) :
    (members.filter fun m => m.1 ∈ names).lookup name = (valuesOf name members).head? := by
  induction members with
  | nil => rfl
  | cons m r ih =>
      obtain ⟨key, j⟩ := m
      by_cases hkey : key = name
      · subst hkey
        simp [valuesOf, hname]
      · have hvalues : valuesOf name ((key, j) :: r) = valuesOf name r := by simp [valuesOf, hkey]
        have hother : (name == key) = false := beq_eq_false_iff_ne.2 (Ne.symm hkey)
        rw [hvalues, ← ih]
        by_cases hknown : key ∈ names
        · simp [hknown, List.lookup_cons, hother]
        · simp [hknown]

/-- The known names of an object are different if none of them stands twice. -/
theorem nodup_known (h : ∀ name ∈ names, (valuesOf name members).length ≤ 1) :
    ((members.filter fun m => m.1 ∈ names).map (·.1)).Nodup := by
  refine List.nodup_iff_count_le_one.2 fun name => ?_
  by_cases hname : name ∈ names
  · refine Nat.le_trans ?_ (h name hname)
    rw [valuesOf, List.length_map, ← List.countP_eq_length_filter, List.count, List.countP_map,
      List.countP_filter]
    refine List.countP_mono_left fun m _ hm => ?_
    simpa using (Bool.and_eq_true_iff.1 hm).1
  · have hnot : name ∉ (members.filter fun m => m.1 ∈ names).map (·.1) := by
      intro hmem
      obtain ⟨m, hm, rfl⟩ := List.mem_map.1 hmem
      exact hname (by simpa using (List.mem_filter.1 hm).2)
    rw [List.count_eq_zero_of_not_mem hnot]
    exact Nat.zero_le 1

theorem recordMembers?_ofMembers (h : ∀ name ∈ names, (valuesOf name members).length ≤ 1) :
    recordMembers? names (.ofMembers members)
      = some (members.filter fun m => m.1 ∈ names) := by
  have hnamed : (members.map fun m => (some m.1, m.2)).mapM
      (fun m : Option String × Json => m.1.map fun name => (name, m.2)) = some members := by
    rw [mapM_eq_some_iff, List.forall₂_map_left_iff, List.forall₂_same]
    exact fun _ _ => rfl
  simp only [recordMembers?, Json.ofMembers, hnamed, bind, Option.bind]
  rw [if_pos (nodup_known h)]

variable {msg detail : Option String}

theorem ofJson?_ofMembers (hmsg : HoldsText members "msg" msg)
    (hdetail : HoldsText members "detail" detail) :
    Refusal.ofJson? (.ofMembers members) = some ⟨msg, detail⟩ := by
  have honce : ∀ name ∈ ["msg", "detail"], (valuesOf name members).length ≤ 1 := by
    simpa using ⟨hmsg.length_le, hdetail.length_le⟩
  have hlookup : ∀ name ∈ ["msg", "detail"],
      (members.filter fun m => m.1 ∈ ["msg", "detail"]).lookup name
        = (valuesOf name members).head? := fun _ hname => lookup_known hname members
  simp only [Refusal.ofJson?, recordMembers?_ofMembers honce, hlookup "msg" (by simp),
    hlookup "detail" (by simp), hmsg.optionalText?, hdetail.optionalText?, bind, Option.bind]

/-! ## What a wording says -/

/-- A text says that something exists already. -/
def SaysExisting (s : String) : Prop :=
  OccursInAnyCase "duplicate" s ∨ OccursInAnyCase "already exists" s

theorem saysDuplicate_iff {s : String} : CallFailure.saysDuplicate s = true ↔ SaysExisting s := by
  have hduplicate : IsPlainPattern "duplicate".toList :=
    isPlainPattern_of_all (by decide) (by decide)
  have hexists : IsPlainPattern "already exists".toList :=
    isPlainPattern_of_all (by decide) (by decide)
  rw [CallFailure.saysDuplicate, Bool.or_eq_true, SaysExisting,
    occurs_lower_iff hduplicate (by decide) (by decide),
    occurs_lower_iff hexists (by decide) (by decide)]

theorem saysExisting_joined {m d : String} :
    SaysExisting (m ++ ": " ++ d) ↔ SaysExisting m ∨ SaysExisting d := by
  unfold SaysExisting
  rw [occursInAnyCase_joined (by decide) (by decide),
    occursInAnyCase_joined (by decide) (by decide)]
  exact or_or_or_comm

theorem not_saysExisting_empty : ¬ SaysExisting "" := by
  rw [← saysDuplicate_iff]
  decide

/-- The wording of a refusal says what the message or the details say. -/
theorem says_text?_iff {r : Refusal} {wording : String} (h : r.text? = some wording) :
    SaysExisting wording
      ↔ ∃ s, (r.msg = some s ∨ r.detail = some s) ∧ SaysExisting s := by
  obtain ⟨msg, detail⟩ := r
  cases msg with
  | none =>
      cases detail with
      | none => cases h
      | some d =>
          obtain rfl := Option.some.inj h
          simp
  | some m =>
      cases detail with
      | none =>
          obtain rfl := Option.some.inj h
          simp
      | some d =>
          obtain rfl := Option.some.inj h
          have heither : (∃ s, (some m = some s ∨ some d = some s) ∧ SaysExisting s)
              ↔ SaysExisting m ∨ SaysExisting d := by
            simp [or_and_right, exists_or]
          rw [heither]
          split
          · next hempty =>
            rw [String.isEmpty_iff.1 hempty]
            exact (or_iff_left not_saysExisting_empty).symm
          · exact saysExisting_joined

/-- The platform reports that something exists already: by the status alone, or by one that has to
be explained, with a message or details that say so. -/
def ReportsExisting (status : Nat) (msg detail : Option String) : Prop :=
  status = 409 ∨ (status = 400 ∨ status = 422)
    ∧ ∃ s, (msg = some s ∨ detail = some s) ∧ SaysExisting s

theorem isConflict_iff {resource wording : String} {status : Nat}
    (h : Refusal.text? ⟨msg, detail⟩ = some wording) :
    (CallFailure.refused resource status wording).isConflict = true
      ↔ ReportsExisting status msg detail := by
  simp only [CallFailure.isConflict, Bool.or_eq_true, Bool.and_eq_true, beq_iff_eq,
    saysDuplicate_iff, says_text?_iff h, ReportsExisting]

/-! ## Refused backends -/

/-- What a rollout makes of a backend that could not be created. It changes the backend in the same
version, or it has failed. -/
structure GoesOnIf (existing : Prop) (v : Nat) (b : Backend) (e : CallFailure) : Prop where
  isConflict : e.isConflict = true ↔ existing
  changed : existing → ∀ {σ : Type} (p : Platform σ) (blueprint : Blueprint) (s : σ) before after,
    transcript p blueprint s = before ++ ⟨.create v b, .error e⟩ :: after →
      ∃ result rest, after = ⟨.update v b, result⟩ :: rest
  failed : ¬ existing → ∀ {σ : Type} (p : Platform σ) (blueprint : Blueprint) (s : σ) before after,
    transcript p blueprint s = before ++ ⟨.create v b, .error e⟩ :: after →
      after = [] ∧ ∃ stage, (run p blueprint s).1 = .error (.call stage (some v) e)
  changedAtOnce : existing → ∀ (i : Blueprint.Item) state, i.resource = .backend b →
    TaskStep v i (.asking (.create v b)) (.refused (.create v b) e) state →
      ∀ event next, TaskStep v i state event next ↔
        event = .asked (.update v b) ∧ next = .asking (.update v b)
  failedAtOnce : ¬ existing → ∀ (i : Blueprint.Item) state,
    TaskStep v i (.asking (.create v b)) (.refused (.create v b) e) state → state = .failed

theorem goesOnIf_of_isConflict_iff {existing : Prop} {v : Nat} {b : Backend} {e : CallFailure}
    (h : e.isConflict = true ↔ existing) : GoesOnIf existing v b e where
  isConflict := h
  changed := by
    intro hexisting σ p blueprint s before after ht
    rcases transcript_behind_refused ht with ⟨-, hnext⟩ | ⟨hfatal, -⟩
    · exact hnext
    · rw [h.2 hexisting] at hfatal
      cases hfatal
  failed := by
    intro hnew σ p blueprint s before after ht
    rcases transcript_behind_refused ht with ⟨hconflict, -⟩ | ⟨-, hfailed⟩
    · exact absurd (h.1 hconflict) hnew
    · exact hfailed
  changedAtOnce := by
    intro hexisting i state hi hstep event next
    rw [TaskStep.refused_iff, h.2 hexisting, if_pos rfl] at hstep
    rw [hstep]
    exact TaskStep.conflicting_iff hi
  failedAtOnce := by
    intro hnew i state hstep
    rw [TaskStep.refused_iff, if_neg (mt h.1 hnew)] at hstep
    exact hstep

variable {reply : Reply} {v : Nat} {b : Backend}

theorem refusalText_of_members {body : String} {wording : String}
    (hbody : Json.read (withoutMark body) = some (.ofMembers members))
    (hmsg : HoldsText members "msg" msg) (hdetail : HoldsText members "detail" detail)
    (h : Refusal.text? ⟨msg, detail⟩ = some wording) : refusalText body = wording := by
  simp only [refusalText, hbody, Option.bind_some, ofJson?_ofMembers hmsg hdetail, h,
    Option.getD_some]

theorem exists_text? (h : msg ≠ none ∨ detail ≠ none) :
    ∃ wording, Refusal.text? ⟨msg, detail⟩ = some wording := by
  cases msg with
  | none =>
      cases detail with
      | none => simp at h
      | some d => exact ⟨d, rfl⟩
  | some m => cases detail <;> exact ⟨_, rfl⟩

/-- The failure of a create that a reply refuses. -/
theorem answer_create_of_refused {c : Client} {σ : Type} {t : Transport σ} {s s' : σ} {url : Url}
    (hrefused : reply.isSuccess = false)
    (hurl : c.endpoint? (Client.versioned v ["backend"]) = some url)
    (hreply : t.deliver (c.request .post url (some b.fields)) s = (some reply, s')) :
    c.answer t (.create v b) s
      = (.error (.refused (Resource.backend b).key.text reply.status (refusalText reply.body)),
        s') := by
  simp only [Client.answer, Client.exchange, hurl, hreply, hrefused, Bool.false_eq_true, if_false]

/-- A refusal of a backend whose body is an object with a message, details or both, each a text that
stands once, decides by what they say whether the rollout goes on and changes the backend. -/
theorem refused_create (c : Client) (reply : Reply) (v : Nat) (b : Backend)
    (hrefused : reply.isSuccess = false)
    (hbody : Json.read (withoutMark reply.body) = some (.ofMembers members))
    (hmsg : HoldsText members "msg" msg) (hdetail : HoldsText members "detail" detail)
    (hsome : msg ≠ none ∨ detail ≠ none) :
    ∃ e, (∀ {σ : Type} (t : Transport σ) (s s' : σ) url,
        c.endpoint? (Client.versioned v ["backend"]) = some url →
        t.deliver (c.request .post url (some b.fields)) s = (some reply, s') →
        c.answer t (.create v b) s = (.error e, s'))
      ∧ GoesOnIf (ReportsExisting reply.status msg detail) v b e := by
  obtain ⟨wording, hwording⟩ := exists_text? hsome
  have htext : refusalText reply.body = wording :=
    refusalText_of_members hbody hmsg hdetail hwording
  refine ⟨.refused (Resource.backend b).key.text reply.status wording, ?_,
    goesOnIf_of_isConflict_iff (isConflict_iff hwording)⟩
  intro σ t s s' url hurl hreply
  rw [← htext]
  exact answer_create_of_refused hrefused hurl hreply

/-! ### Details in capitals, and refusals that cannot be read

The first server refuses a backend whose name is taken, and says so in the details. Of the other two
bodies one has a name that is no text, and the other has details that are a list. -/

def takenBody : String :=
  "\x7b\"code\":3,\"msg\":\"Bad request\",\"detail\":\"Name ALREADY Exists\"\x7d"

def takenMembers : List (String × Json) :=
  [("code", .ofNat 3), ("msg", .text "Bad request"), ("detail", .text "Name ALREADY Exists")]

/-- Version one is cloned to version two, in which no backend can be created. -/
def refusing (status : Nat) (body : String) : List Cue :=
  [⟨some "GET /api/service/svc/version", none, .reply ⟨200, "[[1,true]]"⟩⟩,
    ⟨some "PUT /api/service/svc/version/1/clone", none, .reply ⟨200, "[2]"⟩⟩,
    ⟨some "POST /api/service/svc/version/2/backend", none, .reply ⟨status, body⟩⟩]

def activateBackend : Backend := .ofTarget Client.activateTarget

theorem refused_create_taken :
    Json.read (withoutMark takenBody) = some (.ofMembers takenMembers)
      ∧ ReportsExisting 422 (some "Bad request") (some "Name ALREADY Exists")
      ∧ ∃ e, Client.edgeClient.answer scripted (.create 2 activateBackend) (refusing 422 takenBody)
          = (.error e, refusing 422 takenBody)
        ∧ GoesOnIf (ReportsExisting 422 (some "Bad request") (some "Name ALREADY Exists"))
          2 activateBackend e := by
  have hbody : Json.read (withoutMark takenBody) = some (.ofMembers takenMembers) := by
    with_unfolding_all rfl
  have hmsg : HoldsText takenMembers "msg" (some "Bad request") := .text rfl
  have hdetail : HoldsText takenMembers "detail" (some "Name ALREADY Exists") := .text rfl
  obtain ⟨e, hanswer, hgoes⟩ := refused_create Client.edgeClient ⟨422, takenBody⟩ 2 activateBackend
    (by decide) hbody hmsg hdetail (.inl (by simp))
  refine ⟨hbody, .inr ⟨.inr rfl, "Name ALREADY Exists", .inr rfl, ?_⟩, e,
    hanswer scripted _ _ (Client.edgeClient.urlOf ["version", "2", "backend"]) ?_ ?_, hgoes⟩
  · rw [← saysDuplicate_iff]
    decide
  · with_unfolding_all rfl
  · with_unfolding_all rfl

/-- The deployment of one target to such a server. -/
def deployedTo (status : Nat) (body : String) : Except RolloutFailure Report :=
  (Client.edgeRollout.deploy (Client.edgeClient.platform scripted) [Client.activateTarget] .empty
    (refusing status body)).1

/-- The message says that the backend exists, but the whole body does not. -/
def brokenNameBody : String := "\x7b\"msg\":\"d\\u0075plicate\",\"\\ud800\":0\x7d"

/-- The whole body says that the backend exists, but the message does not. -/
def listedDetailBody : String := "\x7b\"msg\":\"Bad request\",\"detail\":[\"duplicate\"]\x7d"

theorem refused_create_unreadable :
    (Json.read brokenNameBody = some (.object [(some "msg", .text "duplicate"), (none, .ofNat 0)])
      ∧ SaysExisting "duplicate"
      ∧ deployedTo 400 brokenNameBody
        = .error (.call .provisioning (some 2)
          (.refused "backend/activate" 400 brokenNameBody)))
    ∧ Json.read listedDetailBody
        = some (.ofMembers [("msg", .text "Bad request"), ("detail", .array [.text "duplicate"])])
      ∧ ¬ SaysExisting "Bad request"
      ∧ ∃ r, deployedTo 400 listedDetailBody = .ok r ∧ r.updated = [⟨.backend, "activate"⟩] := by
  refine ⟨⟨?_, ?_, ?_⟩, ?_, ?_, ?_⟩
  · with_unfolding_all rfl
  · rw [← saysDuplicate_iff]
    decide
  · with_unfolding_all rfl
  · with_unfolding_all rfl
  · rw [← saysDuplicate_iff]
    decide
  · exact ⟨_, by with_unfolding_all rfl, rfl⟩

end EdgeRouting.Remote
