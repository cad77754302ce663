import EdgeRouting.Proofs.Remote.OwnVersion
import EdgeRouting.Proofs.Remote.Upserts

/-!
# The version that is cloned

A version is opened as a clone of one of those that the server lists. Which one that is can be said
without a word about the order of the list (`ServiceVersion.IsBase`): the active one, or one with the
greatest number when none is active. With at most one active version this leaves one number
(`IsBase.number_eq`), although the search for it stops at the first active version and keeps the last
of several greatest ones.

All that is sent behind the list is determined by that number, so two servers that list the same
versions in different orders and go on alike are sent the same requests, with the same result
(`openVersion_of_perm`).
-/

namespace EdgeRouting.Remote

open Http

namespace ServiceVersion

variable {versions versions' : List ServiceVersion} {base base' : ServiceVersion}

/-- A version is listed, and it is active, or no version is and none has a greater number. -/
structure IsBase (versions : List ServiceVersion) (base : ServiceVersion) : Prop where
  mem : base ∈ versions
  active_or_greatest : base.active = true
    ∨ (∀ v ∈ versions, v.active = false) ∧ ∀ v ∈ versions, v.number ≤ base.number

/-! ## What the search finds -/

theorem le_of_greatest? (h : greatest? versions = some base) :
    ∀ v ∈ versions, v.number ≤ base.number := by
  cases versions with
  | nil => cases h
  | cons v r =>
      obtain rfl := Option.some.inj h
      clear h
      induction r generalizing v with
      | nil => simp
      | cons w r ih =>
          rw [List.foldl_cons]
          split
          · next hle =>
            have hbest := ih w
            rw [List.forall_mem_cons] at hbest ⊢
            exact ⟨Nat.le_trans hle hbest.1, List.forall_mem_cons.2 hbest⟩
          · next hlt =>
            have hbest := ih v
            rw [List.forall_mem_cons] at hbest
            refine List.forall_mem_cons.2 ⟨hbest.1, List.forall_mem_cons.2 ⟨?_, hbest.2⟩⟩
            exact Nat.le_trans (Nat.le_of_lt (Nat.not_le.1 hlt)) hbest.1

theorem isBase_of_base? (h : base? versions = some base) : IsBase versions base := by
  refine ⟨Client.mem_of_base? h, ?_⟩
  rw [base?, Option.or_eq_some_iff] at h
  rcases h with hactive | ⟨hnone, hgreatest⟩
  · exact .inl (List.find?_some hactive)
  · exact .inr ⟨fun v hv => Bool.eq_false_iff.2 (List.find?_eq_none.1 hnone v hv),
      le_of_greatest? hgreatest⟩

theorem base?_eq_none_iff : base? versions = none ↔ versions = [] := by
  cases versions with
  | nil => exact iff_of_true rfl rfl
  | cons v r => simp [base?, greatest?]

/-! ## No word about the order -/

theorem IsBase.perm (h : IsBase versions base) (hperm : versions.Perm versions') :
    IsBase versions' base := by
  refine ⟨hperm.mem_iff.1 h.mem, h.active_or_greatest.imp_right ?_⟩
  rintro ⟨hinactive, hgreatest⟩
  exact ⟨fun v hv => hinactive v (hperm.mem_iff.2 hv), fun v hv => hgreatest v (hperm.mem_iff.2 hv)⟩

/-- Two active versions are the same one if there is at most one. -/
theorem eq_of_active (hone : versions.countP (·.active) ≤ 1) (h : base ∈ versions)
    (h' : base' ∈ versions) (hactive : base.active = true) (hactive' : base'.active = true) :
    base = base' := by
  rw [List.countP_eq_length_filter] at hone
  have hmem : base ∈ versions.filter (·.active) := List.mem_filter.2 ⟨h, hactive⟩
  have hmem' : base' ∈ versions.filter (·.active) := List.mem_filter.2 ⟨h', hactive'⟩
  cases hfilter : versions.filter (·.active) with
  | nil => simp [hfilter] at hmem
  | cons v r =>
      rw [hfilter] at hone hmem hmem'
      obtain rfl : r = [] := List.length_eq_zero_iff.1 (Nat.le_zero.1 (Nat.le_of_succ_le_succ hone))
      rw [List.mem_singleton.1 hmem, List.mem_singleton.1 hmem']

/-- At most one version being active, all bases of a list have the same number. -/
theorem IsBase.number_eq (hone : versions.countP (·.active) ≤ 1) (h : IsBase versions base)
    (h' : IsBase versions base') : base.number = base'.number := by
  rcases h.active_or_greatest with hactive | ⟨hnone, hgreatest⟩
  · rcases h'.active_or_greatest with hactive' | ⟨hnone', -⟩
    · rw [eq_of_active hone h.mem h'.mem hactive hactive']
    · rw [hnone' base h.mem] at hactive
      cases hactive
  · rcases h'.active_or_greatest with hactive' | ⟨-, hgreatest'⟩
    · rw [hnone base' h'.mem] at hactive'
      cases hactive'
    · exact Nat.le_antisymm (hgreatest' base h.mem) (hgreatest base' h'.mem)

end ServiceVersion

namespace Client

variable {c : Client} {σ τ : Type} {t : Transport σ} {u : Transport τ} {s s' : σ} {r r' : τ}
  {versions versions' : List ServiceVersion}

/-- The server lists these versions when it is asked for them, and is in the state `s'` then. -/
def Lists (c : Client) (t : Transport σ) (s : σ) (versions : List ServiceVersion) (s' : σ) : Prop :=
  c.exchange t "version" .get ["version"] none readVersions s = (.ok versions, s')

/-- What opening a version makes of a list of versions: the result, the state, and the requests with
what comes back for them. -/
inductive Clones (c : Client) (t : Transport σ) (s : σ) (versions : List ServiceVersion)
    (listing : List Passage) : Except CallFailure Nat → σ → List Passage → Prop where
  | baseless : versions = [] →
      Clones c t s versions listing (.error (.unusable "version" "service has no versions")) s
        listing
  | cloned {base : ServiceVersion} {url : Url} : ServiceVersion.base? versions = some base →
      c.endpoint? (versioned base.number ["clone"]) = some url →
      Clones c t s versions listing
        ((outcome "version" readVersion (t.send (c.request .put url none) s).1).map (·.number))
        (t.send (c.request .put url none) s).2
        (listing ++ [.sent (c.request .put url none),
          .received (t.send (c.request .put url none) s).1])

/-- Where versions are listed, requests can be made. -/
theorem Lists.reaches (h : c.Lists t s versions s') : ∃ url, c.endpoint? ["version"] = some url
    ∧ (c.request .get url none).isSendable = true := by
  by_contra hsilent
  have hunsent : ∀ url, c.endpoint? ["version"] = some url →
      (c.request .get url none).isSendable = false :=
    fun url hurl => Bool.eq_false_iff.2 fun hsendable => hsilent ⟨url, hurl, hsendable⟩
  obtain ⟨e, hexchange, -⟩ := exchange_of_not_isSendable t "version" readVersions s hunsent
  cases h.symm.trans hexchange

theorem openVersion_of_lists (h : c.Lists t s versions s') : ∃ url reply result s'' l,
    c.endpoint? ["version"] = some url
      ∧ c.openVersion t.transcribed (s, []) = (result, (s'', l))
      ∧ c.Clones t s' versions [.sent (c.request .get url none), .received reply] result s'' l := by
  obtain ⟨url, hurl, hsendable⟩ := h.reaches
  obtain ⟨⟨reply, s₁⟩, hsend⟩ : ∃ a, t.send (c.request .get url none) s = a := ⟨_, rfl⟩
  have hlisted := h.symm.trans (exchange_of_isSendable hurl hsendable)
  have hlisting : c.exchange t.transcribed "version" .get ["version"] none readVersions (s, [])
      = _ := exchange_transcribed_of_isSendable hurl hsendable []
  rw [hsend] at hlisted hlisting
  obtain ⟨hversions, rfl⟩ := Prod.mk.inj hlisted
  rw [← hversions, List.nil_append] at hlisting
  rw [openVersion, hlisting]
  simp only
  cases hbase : ServiceVersion.base? versions with
  | none =>
      have hnone := ServiceVersion.base?_eq_none_iff.1 hbase
      exact ⟨url, reply, _, _, _, hurl, rfl, .baseless hnone⟩
  | some base =>
      obtain ⟨url', hurl', hsendable'⟩ := reaches_of_isSendable hurl hsendable .put
        (versioned base.number ["clone"]) none
      refine ⟨url, reply, _, _, _, hurl, ?_, .cloned hbase hurl'⟩
      simp only [exchange_transcribed_of_isSendable hurl' hsendable']
      cases outcome "version" readVersion (t.send (c.request .put url' none) s').1 <;> rfl

/-- Two servers list the same versions in any two orders, at most one of them active, and go on
alike. They are sent the same requests, and the results are the same. Without any version nothing is
sent behind the request for the list; otherwise it is followed by the one to clone the base. -/
theorem openVersion_of_perm (hlists : c.Lists t s versions s') (hlists' : c.Lists u r versions' r')
    (hperm : versions.Perm versions') (hone : versions.countP (·.active) ≤ 1)
    (halike : ∀ request, (t.send request s').1 = (u.send request r').1) :
    let opened := c.openVersion t.transcribed (s, [])
    let opened' := c.openVersion u.transcribed (r, [])
    opened.1 = opened'.1
      ∧ opened.2.2.filterMap Passage.request? = opened'.2.2.filterMap Passage.request?
      ∧ ∃ url, c.endpoint? ["version"] = some url
        ∧ (versions = [] → opened.1 = .error (.unusable "version" "service has no versions")
          ∧ opened.2.2.filterMap Passage.request? = [c.request .get url none])
        ∧ (versions ≠ [] → ∃ base cloneUrl, ServiceVersion.IsBase versions base
          ∧ c.endpoint? (versioned base.number ["clone"]) = some cloneUrl
          ∧ opened.2.2.filterMap Passage.request?
            = [c.request .get url none, c.request .put cloneUrl none]) := by
  obtain ⟨url, reply, result, s₂, l, hurl, hopened, hclones⟩ := openVersion_of_lists hlists
  obtain ⟨url', reply', result', r₂, l', hurl', hopened', hclones'⟩ := openVersion_of_lists hlists'
  obtain rfl := Option.some.inj (hurl.symm.trans hurl')
  intro opened opened'
  simp only [opened, opened', hopened, hopened']
  cases hclones with
  | baseless hnone =>
      subst hnone
      cases hclones' with
      | baseless _ => exact ⟨rfl, rfl, url, hurl, fun _ => ⟨rfl, rfl⟩, fun h => absurd rfl h⟩
      | cloned hbase' _ =>
          rw [hperm.symm.eq_nil] at hbase'
          cases hbase'
  | @cloned base cloneUrl hbase hclone =>
      have hisBase := ServiceVersion.isBase_of_base? hbase
      have hne : versions ≠ [] := List.ne_nil_of_mem hisBase.mem
      cases hclones' with
      | baseless hnone' => exact absurd (hperm.trans (.of_eq hnone')).eq_nil hne
      | @cloned base' cloneUrl' hbase' hclone' =>
          have hnumber : base.number = base'.number := hisBase.number_eq hone
            ((ServiceVersion.isBase_of_base? hbase').perm hperm.symm)
          rw [← hnumber] at hclone'
          obtain rfl := Option.some.inj (hclone.symm.trans hclone')
          rw [halike]
          exact ⟨rfl, rfl, url, hurl, fun h => absurd h hne, fun _ =>
            ⟨base, cloneUrl, hisBase, hclone, rfl⟩⟩

/-! ### A list in two orders

The active version is neither the first nor the last nor the greatest one, and one version does not
say whether it is active. -/

/-- A server that lists versions `left` more times, and clones version three to version thirteen. -/
def listingVersions (body : String) (left : Nat) : List Cue :=
  [⟨some "GET /api/service/svc/version", some left, .reply ⟨200, body⟩⟩,
    ⟨some "PUT /api/service/svc/version/3/clone", none, .reply ⟨200, "[13]"⟩⟩]

def risingBody : String :=
  "[\x7b\"number\":2\x7d,\x7b\"active\":true,\"number\":3\x7d,[4294967295,false]]"

def fallingBody : String :=
  "[[4294967295,false],\x7b\"active\":true,\"number\":3\x7d,\x7b\"number\":2\x7d]"

/-- A cue that is used up might as well not be there. -/
theorem send_of_used_up {cue : Cue} (h : cue.left = some 0) (request : Request) (cues : List Cue) :
    (scripted.send request (cue :: cues)).1 = (scripted.send request cues).1 := by
  have hskipped : follow request.line (cue :: cues)
      = ((follow request.line cues).1, cue :: (follow request.line cues).2) := by
    rw [follow, if_neg]
    simp [Cue.fits, h]
  simp only [scripted, hskipped]
  rcases follow request.line cues with ⟨reply | -, rest⟩ <;> rfl

theorem openVersion_reordered :
    edgeClient.Lists scripted (listingVersions risingBody 1)
        [⟨2, false⟩, ⟨3, true⟩, ⟨4294967295, false⟩] (listingVersions risingBody 0)
      ∧ (edgeClient.openVersion scripted.transcribed (listingVersions risingBody 1, [])).1 = .ok 13
      ∧ (edgeClient.openVersion scripted.transcribed (listingVersions fallingBody 1, [])).1
        = .ok 13 := by
  have hrising : edgeClient.Lists scripted (listingVersions risingBody 1)
      [⟨2, false⟩, ⟨3, true⟩, ⟨4294967295, false⟩] (listingVersions risingBody 0) := by
    with_unfolding_all rfl
  have hfalling : edgeClient.Lists scripted (listingVersions fallingBody 1)
      [⟨4294967295, false⟩, ⟨3, true⟩, ⟨2, false⟩] (listingVersions fallingBody 0) := by
    with_unfolding_all rfl
  have hopened : (edgeClient.openVersion scripted.transcribed
      (listingVersions risingBody 1, [])).1 = .ok 13 := by with_unfolding_all rfl
  have hperm : [(⟨2, false⟩ : ServiceVersion), ⟨3, true⟩, ⟨4294967295, false⟩].Perm
      [⟨4294967295, false⟩, ⟨3, true⟩, ⟨2, false⟩] := (List.reverse_perm _).symm
  obtain ⟨hsame, -, -⟩ := openVersion_of_perm hrising hfalling hperm (by decide) fun request =>
    (send_of_used_up rfl request _).trans (send_of_used_up rfl request _).symm
  exact ⟨hrising, hopened, hsame.symm.trans hopened⟩

end Client

end EdgeRouting.Remote
