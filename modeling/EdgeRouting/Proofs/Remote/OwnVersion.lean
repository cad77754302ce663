import EdgeRouting.Http.Script
import EdgeRouting.Proofs.Names
import EdgeRouting.Proofs.Remote.Requests
import EdgeRouting.Proofs.Remote.Sequential
import EdgeRouting.Proofs.Rollout.Preparation

/-!
# A deployment keeps to its own version

A deployment opens a version and then only writes what it has planned, each resource with two
requests at most, into the version that it has opened (`KeepsTo`). The server is an arbitrary one
and the requests of a layer mix in any order, so nothing is known of a moment in the middle but how
far each conversation has come. What is counted and where a request belongs is therefore settled
call by call, from what passes in one conversation, and put together over the calls of the plan
(`Continues`): no call is made twice, and no two resources share one.

The number of the version is the one that the answer to the opening gives. Every later path is built
with it, since the calls of a rollout are those of `callsOf` for that number.

A path is told from that of an activation by its segments, not by its end: the backend of a target
has the target's name in its path, and a target may well be named `activate`.
-/

namespace EdgeRouting

open Rollout Blueprint

/-! ## What is planned -/

namespace RolloutSettings

variable {settings : RolloutSettings} {targets : List Target} {table : WeightTable}

/-- The keys of the resources that a deployment writes. -/
def planned (settings : RolloutSettings) (targets : List Target) (table : WeightTable) :
    List ResourceKey :=
  match settings.prepare targets table with
  | .error _ => []
  | .ok (_, b) => b.items.map Item.key

/-- What the name of a planned resource can be. -/
inductive IsPlannedName (targets : List Target) : ResourceKey → Prop where
  | fixed {k : ResourceKey} : k.name ∈ falseCondition :: Selector.priorityTableName
    :: EdgeLogic.fragmentNames → IsPlannedName targets k
  | check {t : Target} : t ∈ targets →
    IsPlannedName targets ⟨.healthCheck, t.healthCheckName⟩
  | backend {t : Target} : t ∈ targets → IsPlannedName targets ⟨.backend, t.name⟩

theorem isPlannedName_of_mem {k : ResourceKey} (h : k ∈ settings.planned targets table) :
    IsPlannedName targets k := by
  unfold planned at h
  cases hprepared : settings.prepare targets table with
  | error f =>
      rw [hprepared] at h
      cases h
  | ok prepared =>
      obtain ⟨hlogic, hb⟩ := prepare_eq_ok_iff.1 hprepared
      rw [hprepared] at h
      simp only [hb, ofTargets_items, List.map_append, keys_standing, keys_backends,
        keys_fragments] at h
      rcases List.mem_append.1 h with hstanding | hlater
      · rcases List.mem_cons.1 hstanding with rfl | hstanding
        · exact .fixed (by decide)
        · rcases List.mem_cons.1 hstanding with rfl | hcheck
          · exact .fixed (by decide)
          · obtain ⟨t, ht, rfl⟩ := List.mem_map.1 hcheck
            exact .check ht
      · rcases List.mem_append.1 hlater with hbackend | hfragment
        · obtain ⟨t, ht, rfl⟩ := List.mem_map.1 hbackend
          exact .backend ht
        · obtain ⟨f, hf, rfl⟩ := List.mem_map.1 hfragment
          refine .fixed (List.mem_cons_of_mem _ (List.mem_cons_of_mem _ ?_))
          rw [← EdgeLogic.map_name_fragments hlogic]
          exact List.mem_map_of_mem hf

theorem wellNamed_of_prepare {prepared : EdgeLogic × Blueprint}
    (h : settings.prepare targets table = .ok prepared) : WellNamed targets := by
  obtain ⟨-, hnames⟩ := EdgeLogic.exists_ofTargets_iff.1 ⟨_, (prepare_eq_ok_iff.1 h).1⟩
  exact verifyNames_eq_ok_iff.1 hnames

/-- No call is made in a preparation, so none can fail. -/
theorem prepare_ne_call {stage : Stage} {draft : Option Nat} {e : CallFailure} :
    settings.prepare targets table ≠ .error (.call stage draft e) := by
  unfold prepare
  split
  · simp
  · simp only
    split <;> simp

end RolloutSettings

namespace Remote.Client

open Http

variable {c : Client} {call : Call} {t : List Happening} {l : List Passage} {v : Nat}

theorem isName_of_isTargetName {name : String} (h : isTargetName name = true) : IsName name :=
  fun _ => isNameChar_of_mem h

theorem IsName.append {a b : String} (ha : IsName a) (hb : IsName b) : IsName (a ++ b) := by
  intro ch hch
  rw [String.toList_append, List.mem_append] at hch
  exact hch.elim (ha ch) (hb ch)

theorem isName_of_isPlannedName {targets : List Target} {k : ResourceKey}
    (hnames : WellNamed targets) (h : RolloutSettings.IsPlannedName targets k) : IsName k.name := by
  cases h with
  | fixed hmem =>
      have hall : ∀ name ∈ falseCondition :: Selector.priorityTableName :: EdgeLogic.fragmentNames,
          name.toList.all isNameChar = true := by decide
      exact isName_of_all (hall _ hmem)
  | check ht => exact (isName_of_isTargetName (hnames.1 _ ht)).append (isName_of_all (by decide))
  | backend ht => exact isName_of_isTargetName (hnames.1 _ ht)

/-! ## Conversations within a deployment -/

/-- What happens for the sake of a call happens behind its being made. -/
theorem Carries.asked (h : c.Carries t) {x : Happening} (hx : x ∈ t) :
    .event (.asked x.call) ∈ t := by
  obtain ⟨l, result, -, hpart⟩ := h x.call
  have hmem : x ∈ t.filter (·.call = x.call) := List.mem_filter.2 ⟨hx, by simp⟩
  cases hfilter : t.filter (·.call = x.call) with
  | nil =>
      rw [hfilter] at hmem
      cases hmem
  | cons first r =>
      rw [hfilter, conversation, List.cons_append, List.cons_prefix_cons] at hpart
      have hfirst : first ∈ t.filter (·.call = x.call) := by
        rw [hfilter]
        exact List.mem_cons_self
      rw [← hpart.1]
      exact (List.mem_filter.1 hfirst).1

theorem mem_of_mem_conversation {p : Passage} {result : Except CallFailure call.Answer}
    (h : .passage call p ∈ conversation call l result) : p ∈ l := by
  simpa [conversation] using h

theorem countP_conversation (result : Except CallFailure call.Answer) :
    (conversation call l result).countP (·.request?.isSome) = l.countP (·.request?.isSome) := by
  rw [conversation, List.cons_append, List.countP_cons, List.countP_append, List.countP_map]
  rfl

/-- A call that was refused has come to its end. -/
theorem Carries.refused (h : c.Carries t) {e : CallFailure} (hmem : .event (.refused call e) ∈ t) :
    ∃ l, c.Converses call l (.error e)
      ∧ t.filter (·.call = call) = conversation call l (.error e) := by
  obtain ⟨l, result, hconverses, hpart⟩ := h call
  have hfilter : .event (.refused call e) ∈ t.filter (·.call = call) :=
    List.mem_filter.2 ⟨hmem, by simp [Happening.call, Event.call]⟩
  rcases List.prefix_concat_iff.1 hpart with hwhole | hpart
  · rw [hwhole] at hfilter
    cases result with
    | ok a => simp [Event.answered] at hfilter
    | error e' =>
        obtain rfl : e = e' := by simpa [Event.answered] using hfilter
        exact ⟨l, hconverses, hwhole⟩
  · have hnot := hpart.subset hfilter
    simp at hnot

/-! ## Behind the opening of a version -/

/-- What is one of two things is counted with either of them. -/
theorem countP_le_add {α : Type} {first second both : α → Bool} {l : List α}
    (h : ∀ x ∈ l, both x = true → first x = true ∨ second x = true) :
    l.countP both ≤ l.countP first + l.countP second := by
  induction l with
  | nil => exact Nat.zero_le _
  | cons x r ih =>
      obtain ⟨hx, hr⟩ := List.forall_mem_cons.1 h
      have hrest := ih hr
      simp only [List.countP_cons]
      by_cases hboth : both x = true
      · rcases hx hboth with hfirst | hsecond
        · rw [if_pos hboth, if_pos hfirst]
          omega
        · rw [if_pos hboth, if_pos hsecond]
          omega
      · rw [if_neg hboth]
        omega

namespace Continues

variable {layers : List (List Item)} {p : Progress} {k : ResourceKey} {x : Happening}

/-- Whatever happens is for the sake of a call that writes a resource of the layers. -/
theorem exists_item (h : c.Continues layers v p t) (hkeys : (layers.flatten.map Item.key).Nodup)
    (hx : x ∈ t) : ∃ i ∈ layers.flatten, x.call ∈ callsOf v i.resource := by
  have hasked : .asked x.call ∈ t.filterMap Happening.event? :=
    List.mem_filterMap.2 ⟨_, h.carries.asked hx, rfl⟩
  have hhistory : .asked x.call ∈ p.history := by
    rw [h.history]
    exact List.mem_append_right _ hasked
  rcases h.steps.mem_callsOf hhistory with hopen | hitem
  · -- The opening has been asked for already, and nothing is asked for twice.
    have hnodup := h.steps.nodup_asked hkeys
    rw [h.history, List.filterMap_append] at hnodup
    have hapart := (List.nodup_append.1 hnodup).2.2
    refine absurd rfl (hapart .openVersion (by simp [Event.asked?]) .openVersion ?_)
    exact List.mem_filterMap.2 ⟨_, hopen ▸ hasked, rfl⟩
  · exact hitem

/-- The calls about a resource are those that write it. -/
theorem mem_callsOf (h : c.Continues layers v p t) (hkeys : (layers.flatten.map Item.key).Nodup)
    {i : Item} (hi : i ∈ layers.flatten) (hx : x ∈ t) (hkey : x.call.key? = some i.key) :
    x.call ∈ callsOf v i.resource := by
  obtain ⟨j, hj, hcall⟩ := h.exists_item hkeys hx
  have hsame : j.key = i.key := Option.some.inj ((key?_of_mem_callsOf hcall).symm.trans hkey)
  rwa [List.inj_on_of_nodup_map hkeys hj hi hsame] at hcall

theorem countP_call_le (h : c.Continues layers v p t) (hservice : Url.Undotted c.service) {i : Item}
    (hname : IsName i.key.name) (hcall : call ∈ callsOf v i.resource) :
    t.countP (fun x => x.request?.isSome && x.call = call) ≤ requestLimit call := by
  obtain ⟨l, result, hconverses, hpart⟩ := h.carries call
  rw [← List.countP_filter]
  calc (t.filter (·.call = call)).countP (·.request?.isSome)
      ≤ (conversation call l result).countP (·.request?.isSome) := hpart.countP_le
    _ = l.countP (·.request?.isSome) := countP_conversation result
    _ ≤ requestLimit call := (isWrite_of_converses hservice hname hcall hconverses).few

/-- No resource takes more than two requests. -/
theorem countP_key_le (h : c.Continues layers v p t) (hkeys : (layers.flatten.map Item.key).Nodup)
    (hservice : Url.Undotted c.service) (hnames : ∀ i ∈ layers.flatten, IsName i.key.name)
    (k : ResourceKey) :
    t.countP (fun x => x.request?.isSome && x.call.key? = some k) ≤ 2 := by
  by_cases hk : ∃ i ∈ layers.flatten, i.key = k
  · obtain ⟨i, hi, rfl⟩ := hk
    have hcall : ∀ x ∈ t, (x.request?.isSome && x.call.key? = some i.key) = true →
        ∃ call ∈ callsOf v i.resource, (x.request?.isSome && x.call = call) = true := by
      intro x hx hrequest
      obtain ⟨hsome, hkey⟩ := Bool.and_eq_true_iff.1 hrequest
      refine ⟨x.call, h.mem_callsOf hkeys hi hx (of_decide_eq_true hkey), ?_⟩
      rw [hsome]
      exact decide_eq_true rfl
    have hlimit : ∀ call ∈ callsOf v i.resource,
        t.countP (fun x => x.request?.isSome && x.call = call) ≤ requestLimit call :=
      fun call hcall => h.countP_call_le hservice (hnames i hi) hcall
    revert hcall hlimit
    cases i.resource with
    | backend b =>
        intro hcall hlimit
        have hcreate := hlimit (.create v b) List.mem_cons_self
        have hupdate := hlimit (.update v b) (List.mem_cons_of_mem _ List.mem_cons_self)
        refine Nat.le_trans (countP_le_add fun x hx hrequest => ?_) (Nat.add_le_add hcreate hupdate)
        simpa [callsOf] using hcall x hx hrequest
    | _ =>
        intro hcall hlimit
        refine Nat.le_trans (List.countP_mono_left fun x hx hrequest => ?_)
          (hlimit _ List.mem_cons_self)
        simpa [callsOf] using hcall x hx hrequest
  · have hnone : t.countP (fun x => x.request?.isSome && x.call.key? = some k) = 0 := by
      refine List.countP_eq_zero.2 fun x hx hrequest => hk ?_
      obtain ⟨i, hi, hcall⟩ := h.exists_item hkeys hx
      refine ⟨i, hi, ?_⟩
      exact Option.some.inj ((key?_of_mem_callsOf hcall).symm.trans
        (of_decide_eq_true (Bool.and_eq_true_iff.1 hrequest).2))
    omega

/-- Every request belongs to the write of a resource of the layers. -/
theorem addresses (h : c.Continues layers v p t) (hkeys : (layers.flatten.map Item.key).Nodup)
    (hservice : Url.Undotted c.service) (hnames : ∀ i ∈ layers.flatten, IsName i.key.name)
    {r : Request} (hx : x ∈ t) (hr : x.request? = some r) :
    ∃ i ∈ layers.flatten, x.call.key? = some i.key ∧ c.Addresses v i.key r := by
  obtain ⟨i, hi, hcall⟩ := h.exists_item hkeys hx
  obtain ⟨l, result, hconverses, hpart⟩ := h.carries x.call
  refine ⟨i, hi, key?_of_mem_callsOf hcall, ?_⟩
  have hmem : x ∈ conversation x.call l result :=
    hpart.subset (List.mem_filter.2 ⟨hx, by simp⟩)
  refine (isWrite_of_converses hservice (hnames i hi) hcall hconverses).addresses r ?_
  cases x with
  | event e => cases hr
  | passage call passage =>
      cases passage with
      | received reply => cases hr
      | sent r' =>
          obtain rfl := Option.some.inj hr
          exact mem_of_mem_conversation hmem

/-- A write that has failed has failed with the last request that was made for it. -/
theorem failed (h : c.Continues layers v p t) (hkeys : (layers.flatten.map Item.key).Nodup)
    (hservice : Url.Undotted c.service) (hreaches : c.Reaches)
    (hnames : ∀ i ∈ layers.flatten, IsName i.key.name) {e : CallFailure}
    (hrefused : .refused call e ∈ p.history) :
    ∃ i ∈ layers.flatten, call.key? = some i.key ∧ e.resource = i.key.text
      ∧ ∃ r reply, usable? readAnything reply = none
        ∧ [.passage call (.sent r), .passage call (.received reply), .event (.refused call e)]
          <:+ t.filter (·.call = call) := by
  have hmem : .event (.refused call e) ∈ t := by
    rw [h.history] at hrefused
    rcases List.mem_append.1 hrefused with hopening | hbehind
    · simp at hopening
    · obtain ⟨x, hx, hevent⟩ := List.mem_filterMap.1 hbehind
      cases x with
      | event e' =>
          obtain rfl := Option.some.inj hevent
          exact hx
      | passage _ _ => cases hevent
  obtain ⟨l, hconverses, hfilter⟩ := h.carries.refused hmem
  obtain ⟨i, hi, hcall⟩ := h.exists_item hkeys hmem
  obtain ⟨hresource, hlast⟩ :=
    (isWrite_of_converses hservice (hnames i hi) hcall hconverses).failed e rfl
  obtain ⟨before, r, reply, rfl, hnone⟩ := hlast hreaches
  refine ⟨i, hi, key?_of_mem_callsOf hcall, hresource, r, reply, hnone, ?_⟩
  rw [hfilter]
  refine ⟨.event (.asked call) :: before.map (.passage call), ?_⟩
  simp [conversation, Event.answered]

end Continues

/-! ## Requests that end in a word -/

/-- The path of a request ends in a word. -/
def EndsIn (word : String) (r : Request) : Prop :=
  word.toList <:+ (Url.pathText r.url.path).toList

variable {word : String} {r : Request} {segments : List String}

theorem urlOf_inj {segments' : List String} (h : c.urlOf segments = c.urlOf segments') :
    segments = segments' := by
  have hpath := congrArg Url.path h
  exact List.append_cancel_left (UrlPath.segments.inj hpath)

/-- A word without a slash can only be the end of the last segment. -/
theorem suffix_of_endsIn (segments : List String) (last : String)
    (hurl : r.url = c.urlOf (segments ++ [last])) (hslash : '/' ∉ word.toList)
    (h : EndsIn word r) : word.toList <:+ last.toList := by
  have hpath : (Url.pathText r.url.path).toList
      = (Url.pathText (.segments (c.root ++ segments))).toList ++ '/' :: last.toList := by
    rw [hurl, urlOf]
    simp [Url.pathText, String.join_append, String.join_cons, List.append_assoc]
  rw [EndsIn, hpath] at h
  have hlast : '/' :: last.toList <:+ (Url.pathText (.segments (c.root ++ segments))).toList
      ++ '/' :: last.toList := List.suffix_append _ _
  rcases List.suffix_or_suffix_of_suffix h hlast with hword | hword
  · rcases List.suffix_cons_iff.1 hword with heq | hword
    · rw [heq] at hslash
      exact absurd List.mem_cons_self hslash
    · exact hword
  · exact absurd (hword.subset List.mem_cons_self) hslash

theorem Opening.request {version? : Option Nat} (h : c.Opening l version?) (hr : .sent r ∈ l) :
    r = c.listing ∨ ∃ n, r = c.cloning n := by
  cases h with
  | listing hpart => exact .inl (by simpa using hpart.subset hr)
  | cloning _ _ hpart =>
      have hmem := hpart.subset hr
      simp only [List.mem_cons, Passage.sent.injEq, reduceCtorEq, false_or, List.not_mem_nil,
        or_false] at hmem
      exact hmem.imp_right fun hr => ⟨_, hr⟩
  | cloned _ _ _ =>
      simp only [List.mem_cons, Passage.sent.injEq, reduceCtorEq, false_or, List.not_mem_nil,
        or_false] at hr
      exact hr.imp_right fun hr => ⟨_, hr⟩

/-- The opening of a version activates none, and does not look like it. -/
theorem Opening.not_activate {version? : Option Nat} (h : c.Opening l version?)
    (hr : .sent r ∈ l) :
    (∀ v, r.url ≠ c.urlOf (versioned v ["activate"])) ∧ ¬EndsIn "activate" r := by
  rcases h.request hr with rfl | ⟨n, rfl⟩
  · refine ⟨fun v hurl => ?_, fun hends => ?_⟩
    · cases urlOf_inj hurl
    · have hsuffix := suffix_of_endsIn [] "version" rfl (by decide) hends
      revert hsuffix
      decide
  · refine ⟨fun v hurl => ?_, fun hends => ?_⟩
    · have hsegments := urlOf_inj hurl
      simp [versioned] at hsegments
    · have hsuffix := suffix_of_endsIn ["version", toString n] "clone" rfl
        (by decide) hends
      revert hsuffix
      decide

/-- The write of a planned resource activates nothing. It looks like it only if it changes the
backend of a target whose name does. -/
theorem Addresses.not_activate {targets : List Target} {k : ResourceKey}
    (hk : RolloutSettings.IsPlannedName targets k) (h : c.Addresses v k r) :
    (∀ w, r.url ≠ c.urlOf (versioned w ["activate"]))
      ∧ (EndsIn "activate" r → r.method = .put ∧ ∃ target ∈ targets, k = ⟨.backend, target.name⟩
        ∧ "activate".toList <:+ target.name.toList) := by
  rcases h with ⟨hmethod, hurl⟩ | ⟨-, hurl⟩
  · refine ⟨fun w hactivate => ?_, fun hends => ⟨hmethod, ?_⟩⟩
    · have hsegments := urlOf_inj (hurl.symm.trans hactivate)
      simp [versioned] at hsegments
    · have hsuffix :=
        suffix_of_endsIn ["version", toString v, k.kind.word] k.name hurl (by decide) hends
      cases hk with
      | fixed hmem =>
          have hnone : ∀ name ∈ falseCondition :: Selector.priorityTableName
              :: EdgeLogic.fragmentNames, ¬"activate".toList <:+ name.toList := by decide
          exact absurd hsuffix (hnone _ hmem)
      | @check target _ =>
          have hcheck : "Check".toList <:+ target.healthCheckName.toList := by
            rw [Target.healthCheckName, String.toList_append]
            exact List.suffix_append _ _
          have hneither : ¬"activate".toList <:+ "Check".toList
              ∧ ¬"Check".toList <:+ "activate".toList := by decide
          exact absurd (List.suffix_or_suffix_of_suffix hsuffix hcheck) (not_or.2 hneither)
      | backend ht => exact ⟨_, ht, rfl, hsuffix⟩
  · refine ⟨fun w hactivate => ?_, fun hends => ?_⟩
    · have hsegments := urlOf_inj (hurl.symm.trans hactivate)
      have hword : k.kind.word = "activate" := by
        simp only [versioned, List.cons.injEq] at hsegments
        exact hsegments.2.2.1
      have hnone : ∀ kind : ResourceKind, kind.word ≠ "activate" := by
        rintro (_ | _ | _ | _ | _) <;> decide
      exact hnone k.kind hword
    · have hsuffix := suffix_of_endsIn ["version", toString v] k.kind.word hurl (by decide) hends
      have hnone : ∀ kind : ResourceKind, ¬"activate".toList <:+ kind.word.toList := by
        rintro (_ | _ | _ | _ | _) <;> decide
      exact absurd hsuffix (hnone k.kind)

/-! ## Whole deployments -/

variable {settings : RolloutSettings} {targets : List Target} {table : WeightTable}
  {failure : Option RolloutFailure}

/-- What a deployment does is the opening of a version, and behind it the writes of what is planned
into the version that was opened. -/
structure KeepsTo (c : Client) (targets : List Target) (planned : List ResourceKey)
    (opening behind : List Happening) (version? : Option Nat) (failure : Option RolloutFailure) :
    Prop where
  opens : c.Opening (opening.filterMap Happening.passage?) version?
  /-- Behind the opening there are only requests that write a planned resource into the version. -/
  own : ∀ x ∈ behind, ∀ r, x.request? = some r → ∃ v, version? = some v
    ∧ ∃ k ∈ planned, x.call.key? = some k ∧ c.Addresses v k r
  few : ∀ k, behind.countP (fun x => x.request?.isSome && x.call.key? = some k) ≤ 2
  /-- Nothing is activated. Only the change of the backend of a target whose name ends so is
  sent to a path that ends in the same word. -/
  inactive : ∀ x ∈ opening ++ behind, ∀ r, x.request? = some r →
    (∀ v, r.url ≠ c.urlOf (versioned v ["activate"]))
      ∧ (EndsIn "activate" r → r.method = .put ∧ ∃ target ∈ targets,
        x.call.key? = some ⟨.backend, target.name⟩ ∧ "activate".toList <:+ target.name.toList)
  /-- A call that failed is the opening of the version, or a write with the version open; it has
  failed with the last request that was made for it. -/
  failed : ∀ stage draft e, failure = some (.call stage draft e) → draft = version?
    ∧ (version? = none → e.resource = "version")
    ∧ ∀ v, version? = some v → ∃ k ∈ planned, e.resource = k.text ∧ ∃ call r reply,
      call.key? = some k ∧ usable? readAnything reply = none
        ∧ [.passage call (.sent r), .passage call (.received reply), .event (.refused call e)]
          <:+ behind.filter (·.call = call)

theorem mem_passages {x : Happening} (hx : x ∈ t) (hr : x.request? = some r) :
    .sent r ∈ t.filterMap Happening.passage? := by
  refine List.mem_filterMap.2 ⟨x, hx, ?_⟩
  cases x with
  | event e => cases hr
  | passage call p =>
      cases p with
      | received reply => cases hr
      | sent r' =>
          obtain rfl := Option.some.inj hr
          rfl

/-- What has passed of an opening is not taken for an activation. -/
theorem Opening.inactive {version? : Option Nat}
    (h : c.Opening (t.filterMap Happening.passage?) version?) {x : Happening} (hx : x ∈ t)
    (hr : x.request? = some r) : (∀ v, r.url ≠ c.urlOf (versioned v ["activate"]))
      ∧ ¬EndsIn "activate" r :=
  h.not_activate (mem_passages hx hr)

theorem keepsTo_of_opening {planned : List ResourceKey}
    (h : c.Opening (t.filterMap Happening.passage?) none)
    (hfailed : ∀ stage draft e, failure = some (.call stage draft e) →
      draft = none ∧ e.resource = "version") :
    c.KeepsTo targets planned t [] none failure where
  opens := h
  own := by simp
  few := by simp
  inactive := by
    intro x hx r hr
    rw [List.append_nil] at hx
    obtain ⟨hnot, hends⟩ := h.inactive hx hr
    exact ⟨hnot, fun hend => absurd hend hends⟩
  failed := by
    intro stage draft e he
    obtain ⟨hdraft, hresource⟩ := hfailed stage draft e he
    exact ⟨hdraft, fun _ => hresource, fun v hv => by cases hv⟩

theorem keepsTo_of_continues {planned : List ResourceKey} {layers : List (List Item)} {p : Progress}
    (hservice : Url.Undotted c.service) (hkeys : (layers.flatten.map Item.key).Nodup)
    (hplanned : ∀ i ∈ layers.flatten, i.key ∈ planned)
    (hnames : ∀ k ∈ planned, IsName k.name ∧ RolloutSettings.IsPlannedName targets k)
    (hopens : c.Opens l (.ok v)) (h : c.Continues layers v p t)
    (hfailed : ∀ stage draft e, failure = some (.call stage draft e) →
      draft = some v ∧ ∃ call, .refused call e ∈ p.history) :
    c.KeepsTo targets planned (conversation .openVersion l (.ok v)) t (some v) failure := by
  have hnames' : ∀ i ∈ layers.flatten, IsName i.key.name :=
    fun i hi => (hnames _ (hplanned i hi)).1
  have hopening : c.Opening ((conversation .openVersion l (.ok v)).filterMap Happening.passage?)
      (some v) := by
    rw [passages_conversation]
    exact hopens.opened hservice
  refine ⟨hopening, ?_, h.countP_key_le hkeys hservice hnames', ?_, ?_⟩
  · intro x hx r hr
    obtain ⟨i, hi, hkey, haddresses⟩ := h.addresses hkeys hservice hnames' hx hr
    exact ⟨v, rfl, i.key, hplanned i hi, hkey, haddresses⟩
  · intro x hx r hr
    rcases List.mem_append.1 hx with hx | hx
    · obtain ⟨hnot, hends⟩ := hopening.inactive hx hr
      exact ⟨hnot, fun hend => absurd hend hends⟩
    · obtain ⟨i, hi, hkey, haddresses⟩ := h.addresses hkeys hservice hnames' hx hr
      obtain ⟨hnot, hends⟩ := haddresses.not_activate (hnames _ (hplanned i hi)).2
      refine ⟨hnot, fun hend => ?_⟩
      obtain ⟨hmethod, target, htarget, hk, hsuffix⟩ := hends hend
      exact ⟨hmethod, target, htarget, by rw [hkey, hk], hsuffix⟩
  · intro stage draft e he
    obtain ⟨hdraft, call, hrefused⟩ := hfailed stage draft e he
    obtain ⟨i, hi, hkey, hresource, r, reply, hnone, hlast⟩ :=
      h.failed hkeys hservice hopens.reaches hnames' hrefused
    refine ⟨hdraft, by simp, ?_⟩
    rintro w -
    exact ⟨i.key, hplanned i hi, hresource, call, r, reply, hkey, hnone, hlast⟩

theorem undotted_of_plain {service : String} (hsingle : service ≠ ".") (hdouble : service ≠ "..")
    (hcontrol : service.toList.any Url.isControl = false) : Url.Undotted service := by
  have hkept : service.toList.filter (!Url.isIgnored ·) = service.toList := by
    refine List.filter_eq_self.2 fun ch hch => ?_
    have hplain := List.any_eq_false.1 hcontrol ch hch
    cases hignored : Url.isIgnored ch with
    | false => rfl
    | true =>
        simp only [Url.isIgnored, Bool.or_eq_true, decide_eq_true_eq] at hignored
        rcases hignored with (rfl | rfl) | rfl <;> exact absurd rfl hplain
  refine ⟨?_, ?_⟩ <;> rw [hkept]
  · exact fun heq => hsingle (String.toList_inj.1 heq)
  · exact fun heq => hdouble (String.toList_inj.1 heq)

/-- What can happen in a rollout splits into the opening of a version and writes into it. -/
theorem exists_keepsTo_of_happens {planned : List ResourceKey} {layers : List (List Item)}
    (hservice : Url.Undotted c.service) (hkeys : (layers.flatten.map Item.key).Nodup)
    (hplanned : ∀ i ∈ layers.flatten, i.key ∈ planned)
    (hnames : ∀ k ∈ planned, IsName k.name ∧ RolloutSettings.IsPlannedName targets k)
    (h : c.Happens layers t failure) : ∃ opening behind version?,
      t = opening ++ behind ∧ c.KeepsTo targets planned opening behind version? failure := by
  cases h with
  | @opening _ l result hconverses hpart =>
      have hwhole : (conversation .openVersion l result).filterMap Happening.passage? = l :=
        passages_conversation .openVersion l result
      have hpassages := hpart.filterMap Happening.passage?
      rw [hwhole] at hpassages
      have hopening := (opens_of_converses hconverses).opening hservice hpassages
      exact ⟨t, [], none, (List.append_nil t).symm,
        keepsTo_of_opening hopening fun _ _ _ he => by cases he⟩
  | @notOpened l e hconverses =>
      have hopens := opens_of_converses hconverses
      have hopening : c.Opening ((conversation .openVersion l (.error e)).filterMap
          Happening.passage?) none := by
        rw [passages_conversation]
        exact hopens.opening hservice List.prefix_rfl
      refine ⟨_, [], none, (List.append_nil _).symm, keepsTo_of_opening hopening ?_⟩
      rintro stage draft e' he
      obtain ⟨-, rfl, rfl⟩ := RolloutFailure.call.inj (Option.some.inj he)
      exact ⟨rfl, hopens.resource_of_error⟩
  | writing hconverses hcontinues =>
      exact ⟨_, _, _, rfl, keepsTo_of_continues hservice hkeys hplanned hnames
        (opens_of_converses hconverses) hcontinues fun _ _ _ he => by cases he⟩
  | @failed l version p u call e hconverses hcontinues hrefused _ =>
      refine ⟨_, _, _, rfl, keepsTo_of_continues hservice hkeys hplanned hnames
        (opens_of_converses hconverses) hcontinues ?_⟩
      rintro stage draft e' he
      obtain ⟨-, rfl, rfl⟩ := RolloutFailure.call.inj (Option.some.inj he)
      exact ⟨rfl, call, hrefused⟩

theorem exists_keepsTo (hservice : Url.Undotted c.service)
    (h : c.MayDeploy settings targets table t failure) : ∃ opening behind version?,
      t = opening ++ behind
        ∧ c.KeepsTo targets (settings.planned targets table) opening behind version? failure := by
  unfold MayDeploy at h
  cases hprepared : settings.prepare targets table with
  | error f =>
      rw [hprepared] at h
      obtain ⟨rfl, rfl⟩ := h
      have hnothing : c.Opening (([] : List Happening).filterMap Happening.passage?) none :=
        @Opening.listing c [] none List.nil_prefix
      refine ⟨[], [], none, rfl, keepsTo_of_opening hnothing ?_⟩
      intro stage draft e he
      rw [Option.some.inj he] at hprepared
      exact absurd hprepared RolloutSettings.prepare_ne_call
  | ok prepared =>
      rw [hprepared] at h
      obtain ⟨layers, hlayers, hhappens⟩ := h
      have hlayering := layering_of_layers hlayers
      have hplanned : ∀ i ∈ layers.flatten, i.key ∈ settings.planned targets table := by
        intro i hi
        rw [RolloutSettings.planned, hprepared]
        exact List.mem_map_of_mem (hlayering.perm.subset hi)
      refine exists_keepsTo_of_happens hservice hlayering.nodup hplanned ?_ hhappens
      intro k hk
      have hname := RolloutSettings.isPlannedName_of_mem hk
      have hnamed := RolloutSettings.wellNamed_of_prepare hprepared
      exact ⟨isName_of_isPlannedName hnamed hname, hname⟩

/-- A deployment touches nothing but the version that it opens. Whatever a server answers, and in
whatever order the requests of a layer are made, it opens a version and then only writes what is
planned into that version. A deployment that makes one call at a time is one of those that can
happen. -/
theorem mayDeploy_keepsTo {c : Client} (hsingle : c.service ≠ ".") (hdouble : c.service ≠ "..")
    (hcontrol : c.service.toList.any Url.isControl = false) (settings : RolloutSettings)
    (targets : List Target) (table : WeightTable) :
    (∀ t failure, c.MayDeploy settings targets table t failure → ∃ opening behind version?,
      t = opening ++ behind
        ∧ c.KeepsTo targets (settings.planned targets table) opening behind version? failure)
      ∧ ∀ {σ : Type} (transport : Transport σ) (s : σ),
        let deployed := settings.deploy (c.platform transport.transcribed) targets table (s, [])
        ∃ t, c.MayDeploy settings targets table t (failureOf deployed.1)
          ∧ t.filterMap Happening.passage? = deployed.2.2 := by
  refine ⟨fun t failure h => exists_keepsTo (undotted_of_plain hsingle hdouble hcontrol) h, ?_⟩
  intro σ transport s deployed
  simp only [MayDeploy, deployed, RolloutSettings.deploy]
  cases hprepared : settings.prepare targets table with
  | error f => exact ⟨[], ⟨rfl, rfl⟩, rfl⟩
  | ok prepared =>
      obtain ⟨hlogic, hb⟩ := RolloutSettings.prepare_eq_ok_iff.1 hprepared
      have hlayers := RolloutSettings.layers_prepared hlogic settings.checkPath
      rw [← hb] at hlayers
      obtain ⟨t, hhappens, hpassages⟩ := happens_run c transport hlayers s
      exact ⟨t, ⟨_, hlayers, hhappens⟩, hpassages⟩

/-! ### A target with the name of the activation

The backend of such a target is changed under a path that ends like that of an activation. It is
asked for only if the backend cannot be created. -/

def edgeService : ServiceSettings :=
  { ServiceSettings.default with
    service := some "svc"
    auth := some "token"
    checkPath := some "/up"
    apiUrl := "http://10.0.0.1:8080/api/" }

def edgeClient : Client :=
  ⟨⟨"http", some ⟨"", none, .ipv4 0x0A000001, some 8080⟩, .segments ["api", ""], none, none⟩, "svc",
    "token"⟩

def edgeRollout : RolloutSettings := ⟨"/up", "X-OW-Version-Lock"⟩

def activateTarget : Target := ⟨"activate", "10.0.0.2", "/api", ⟨"/api", [.literal "/api"]⟩, ""⟩

/-- Version one is cloned to version two, in which every backend is in conflict. -/
def conflictingBackends : List Cue :=
  [⟨some "GET /api/service/svc/version", none, .reply ⟨200, "[[1,true]]"⟩⟩,
    ⟨some "PUT /api/service/svc/version/1/clone", none, .reply ⟨200, "[2]"⟩⟩,
    ⟨some "POST /api/service/svc/version/2/backend", none, .reply ⟨409, "taken"⟩⟩]

/-- The update of the backend fails as well. -/
def missingBackend : Cue :=
  ⟨some "PUT /api/service/svc/version/2/backend/activate", none, .reply ⟨404, "gone"⟩⟩

theorem endsIn_activate :
    Client.ofSettings edgeService = .ok (some edgeClient)
      ∧ edgeClient.service ≠ "." ∧ edgeClient.service ≠ ".."
      ∧ edgeClient.service.toList.any Url.isControl = false
      ∧ ∃ r, .sent r ∈ (edgeRollout.deploy (edgeClient.platform scripted.transcribed)
          [activateTarget] .empty (conflictingBackends, [])).2.2
        ∧ r.line = "PUT /api/service/svc/version/2/backend/activate" ∧ EndsIn "activate" r := by
  have hsent : (edgeRollout.deploy (edgeClient.platform scripted.transcribed) [activateTarget]
      .empty (conflictingBackends, [])).2.2[12]? = some (.sent (edgeClient.request .put
        (edgeClient.urlOf ["version", "2", "backend", "activate"])
        (some (Backend.ofTarget activateTarget).fields))) := by with_unfolding_all rfl
  refine ⟨by with_unfolding_all rfl, by decide, by decide, by decide, _,
    List.mem_of_getElem? hsent, ?_, ?_⟩
  · with_unfolding_all rfl
  · unfold EndsIn
    decide

theorem keepsTo_missingBackend :
    let deployed := edgeRollout.deploy (edgeClient.platform scripted.transcribed) [activateTarget]
      .empty (missingBackend :: conflictingBackends, [])
    failureOf deployed.1
        = some (.call .provisioning (some 2) (.refused "backend/activate" 404 "gone"))
      ∧ ∃ opening behind version?,
        (opening ++ behind).filterMap Happening.passage? = deployed.2.2
          ∧ edgeClient.KeepsTo [activateTarget] (edgeRollout.planned [activateTarget] .empty)
            opening behind version? (failureOf deployed.1) := by
  intro deployed
  obtain ⟨hkeeps, hdeploy⟩ := mayDeploy_keepsTo (c := edgeClient) (by decide) (by decide)
    (by decide) edgeRollout [activateTarget] .empty
  obtain ⟨t, hmay, hpassages⟩ := hdeploy scripted (missingBackend :: conflictingBackends)
  obtain ⟨opening, behind, version?, rfl, hkept⟩ := hkeeps t _ hmay
  exact ⟨by with_unfolding_all rfl, opening, behind, version?, hpassages, hkept⟩

end Remote.Client

end EdgeRouting
