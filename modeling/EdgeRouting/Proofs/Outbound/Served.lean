import EdgeRouting.Proofs.Outbound.Agreement
import EdgeRouting.Proofs.Rollout.Preparation
import EdgeRouting.Proofs.Selection.Pairs

/-!
# Every request is served

The selector and the outbound URLs of a routing set are compiled apart, and the name of a target is
all that leads from the one to the other. Both keep the targets in their order. So the selection,
whichever way it comes about, gives the position and the name of one target
(`exists_target_of_select`); and since no two names are equal, the name leads to the route of that
target and to no other one (`url?_of_mem`).
-/

namespace EdgeRouting

variable {targets : List Target} {table : WeightTable} {lockHeader : String}

/-- What a placeholder stands for when a target serves a path: the base path is the target's own, all
else is taken from the path. -/
def Target.valueOn (t : Target) (path : InboundPath) (f : Placeholder) : String :=
  if f = .basePath then t.basePath else path.value f

theorem Selector.exists_target_of_select {p : Selector}
    (h : Selector.ofTargets targets table lockHeader = .ok p) (request : RouteRequest) :
    ∃ t, targets[(p.select request).index]? = some t ∧ t.name = (p.select request).name := by
  obtain ⟨c, hc, hname⟩ := p.exists_contender_of_select request
  obtain ⟨t, ht, htname, -⟩ := exists_target_at h hc
  exact ⟨t, ht, htname.symm.trans hname⟩

theorem Outbound.url_ofTarget (t : Target) (path : InboundPath) :
    (Route.ofTarget t).url path = t.template.expand (t.valueOn path) := by
  have hvalue : (Route.ofTarget t).value path = t.valueOn path := by
    funext f
    cases f <;> rfl
  rw [Route.url, hvalue]
  rfl

theorem Outbound.url?_of_mem {o : Outbound} (h : Outbound.ofTargets targets = .ok o) {t : Target}
    (ht : t ∈ targets) (url : String) :
    o.url? t.name url = some (t.template.expand (t.valueOn (InboundPath.ofUrl url))) := by
  have hroute : Route.ofTarget t ∈ o.routes := by
    rw [(ofTargets_eq_ok h).2]
    exact List.mem_map_of_mem ht
  have hfound : o.route? t.name = some (Route.ofTarget t) := (find?_route h hroute).1
  rw [url?, hfound, Option.map_some, url_ofTarget]

/-- Every request is given to one target of the list, which has the name that is selected and is the
only one to have it; and the name leads to the URL that this target has for the request. -/
theorem EdgeLogic.served_by_one_target {logic : EdgeLogic}
    (h : EdgeLogic.ofTargets targets table lockHeader = .ok logic) (request : RouteRequest)
    (url : String) :
    let choice := logic.selector.select request
    ∃ hi : choice.index < targets.length,
      targets[choice.index].name = choice.name
        ∧ (∀ i t, targets[i]? = some t → t.name = choice.name → i = choice.index)
        ∧ logic.outbound.url? choice.name url = some (targets[choice.index].template.expand
          (targets[choice.index].valueOn (InboundPath.ofUrl url))) := by
  intro choice
  obtain ⟨hselector, houtbound, -⟩ := ofTargets_eq_ok h
  obtain ⟨t, ht, hname⟩ := Selector.exists_target_of_select hselector request
  obtain ⟨hi, rfl⟩ := List.getElem?_eq_some_iff.1 ht
  have hnodup := (Selector.ofTargets_eq_ok hselector).1.nodup_names
  refine ⟨hi, hname, fun i u hu huname => ?_, ?_⟩
  · have hsame : (targets.map Target.name)[i]? = (targets.map Target.name)[choice.index]? := by
      rw [List.getElem?_map, List.getElem?_map, hu, ht, Option.map_some, Option.map_some, huname,
        hname]
    have hlt : i < (targets.map Target.name).length := by
      rw [List.length_map]
      exact (List.getElem?_eq_some_iff.1 hu).1
    exact (List.getElem?_inj hlt hnodup).1 hsame
  · rw [← hname]
    exact Outbound.url?_of_mem houtbound (List.getElem_mem hi) url

/-! ### A pinned request

The draw is beyond every threshold and no target is known to be healthy, so without its pin the
request would be a fallback to the other target. -/

namespace EdgeLogic

def storeAndCacheSelector : Selector :=
  ⟨[⟨"store", "store", "F_store", 50, 50⟩, ⟨"cache", "cache", "F_cache", 50, 100⟩], 50, "", "X-Pin",
    by simp⟩

def storeAndCacheLogic : EdgeLogic :=
  ⟨storeAndCacheSelector, Outbound.storeAndCacheOutbound,
    fragmentsOf storeAndCacheSelector Outbound.storeAndCacheOutbound⟩

theorem served_pinnedCache :
    EdgeLogic.ofTargets Outbound.storeAndCache .empty "X-Pin" = .ok storeAndCacheLogic
      ∧ storeAndCacheSelector.select ⟨4294967295, [], some "a=b&env=cache"⟩
        = ⟨1, "cache", "0 0", false⟩
      ∧ storeAndCacheLogic.outbound.url? "cache" "/pkg/act@1.0/index" = some "/index" := by
  have h : EdgeLogic.ofTargets Outbound.storeAndCache .empty "X-Pin" = .ok storeAndCacheLogic := rfl
  have hchoice : storeAndCacheLogic.selector.select ⟨4294967295, [], some "a=b&env=cache"⟩
      = ⟨1, "cache", "0 0", false⟩ := by decide
  obtain ⟨hi, -, -, hurl⟩ := served_by_one_target h ⟨4294967295, [], some "a=b&env=cache"⟩
    "/pkg/act@1.0/index"
  simp only [hchoice] at hurl
  exact ⟨h, hchoice, hurl.trans rfl⟩

end EdgeLogic

end EdgeRouting
