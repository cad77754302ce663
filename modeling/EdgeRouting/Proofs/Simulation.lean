import Mathlib.Algebra.BigOperators.Group.Finset.Basic
import Mathlib.Algebra.GroupWithZero.Nat
import EdgeRouting.Proofs.Selection.PinnedRun
import EdgeRouting.Proofs.Simulation.Report
import EdgeRouting.Proofs.Text.Occurrence

/-!
# Simulated requests are accounted for

A simulation counts its requests under the names of the targets that serve them. The count of a name
is the number of choices with that name (`Tally.hitsOf_foldl`). Every choice is of some target, and
no two targets have the same name, so the counts of all targets add up to the number of requests
(`sum_hitsOf_tally`).

The counts are those that a reader finds in what is printed (`exists_printed`), so what is proved of
them is true of the output.

What else can be said of the counts is said of single choices first, whatever their draws are. A
fallback is a choice of the first target (`index_of_fallback`). Of the other targets one that is
taken for unhealthy is chosen under its own key only (`name_select_ne`). And the override that all
requests carry has the lock up to its first separator for its token (`tokenOf_lockValue`), so a lock
leaves one choice for all of them.
-/

namespace EdgeRouting

/-! ## Counts -/

namespace Tally

theorem getD_lookup_cons (name other : String) (count : Nat) (r : List (String × Nat)) :
    (((name, count) :: r).lookup other).getD 0
      = if name = other then count else (r.lookup other).getD 0 := by
  by_cases h : name = other
  · simp [h]
  · simp [h, beq_false_of_ne (Ne.symm h), List.lookup_cons]

theorem getD_lookup_addHit (name other : String) (l : List (String × Nat)) :
    ((addHit name l).lookup other).getD 0
      = (l.lookup other).getD 0 + if name = other then 1 else 0 := by
  induction l with
  | nil => rw [addHit, getD_lookup_cons, List.lookup_nil, Option.getD_none, Nat.zero_add]
  | cons e r ih =>
      obtain ⟨k, count⟩ := e
      by_cases hk : k = name
      · subst hk
        rw [addHit, if_pos rfl, getD_lookup_cons, getD_lookup_cons]
        split <;> rfl
      · rw [addHit, if_neg hk, getD_lookup_cons, getD_lookup_cons, ih]
        by_cases hother : k = other
        · rw [if_pos hother, if_pos hother, if_neg fun h => hk (hother.trans h.symm), Nat.add_zero]
        · rw [if_neg hother, if_neg hother]

/-- A tally that lists the counts of contenders has them under their names. -/
theorem hitsOf_map {l : List Contender} {name : String} (f : String → Nat) (fallbacks : Nat)
    (h : name ∈ l.map Contender.name) :
    hitsOf ⟨l.map fun c => (c.name, f c.name), fallbacks⟩ name = f name := by
  unfold hitsOf
  induction l with
  | nil => cases h
  | cons c r ih =>
      rw [List.map_cons, getD_lookup_cons]
      by_cases hc : c.name = name
      · rw [if_pos hc, hc]
      · rw [if_neg hc]
        exact ih ((List.mem_cons.1 h).resolve_left (Ne.symm hc))

theorem hitsOf_foldl (choices : List Choice) (t : Tally) (name : String) :
    (choices.foldl add t).hitsOf name = t.hitsOf name + (choices.map Choice.name).count name := by
  induction choices generalizing t with
  | nil => rfl
  | cons c r ih =>
      have hadd : (t.add c).hitsOf name = t.hitsOf name + if c.name = name then 1 else 0 :=
        getD_lookup_addHit c.name name t.hits
      rw [List.foldl_cons, ih, hadd, List.map_cons, List.count_cons]
      simp only [beq_iff_eq]
      omega

theorem fallbacks_foldl (choices : List Choice) (t : Tally) :
    (choices.foldl add t).fallbacks = t.fallbacks + choices.countP Choice.fallback := by
  induction choices generalizing t with
  | nil => rfl
  | cons c r ih =>
      have hadd : (t.add c).fallbacks = t.fallbacks + if c.fallback = true then 1 else 0 := by
        cases h : c.fallback <;> simp [add, h]
      rw [List.foldl_cons, ih, hadd, List.countP_cons]
      omega

end Tally

/-- When every name that occurs is in a list without repetitions, the counts of the listed names are
the count of everything. -/
theorem sum_count_of_nodup {names served : List String} (hnodup : names.Nodup)
    (h : ∀ n ∈ served, n ∈ names) : (names.map served.count).sum = served.length := by
  have hlisted : ∀ n ∈ (served : Multiset String), n ∈ names.toFinset :=
    fun n hn => List.mem_toFinset.2 (h n hn)
  calc (names.map served.count).sum = ∑ n ∈ names.toFinset, served.count n :=
        (List.sum_toFinset _ hnodup).symm
    _ = served.length := by simpa using Multiset.sum_count_eq_card hlisted

/-! ## Single choices -/

namespace Selector

variable {targets : List Target} {table : WeightTable} {lockHeader : String} {p : Selector}
  {request : RouteRequest} {t : Target} {i : Nat}

theorem map_name_contenders (hp : ofTargets targets table lockHeader = .ok p) :
    p.contenders.map Contender.name = targets.map Target.name := by
  obtain ⟨-, hcontenders, -⟩ := ofTargets_eq_ok hp
  rw [hcontenders, map_target_contendersFrom (g := Target.name) fun _ _ => rfl]

theorem nodup_names (hp : ofTargets targets table lockHeader = .ok p) :
    (p.contenders.map Contender.name).Nodup := by
  rw [map_name_contenders hp]
  exact (ofTargets_eq_ok hp).1.nodup_names

theorem isTargetName_name (hp : ofTargets targets table lockHeader = .ok p) {c : Contender}
    (hc : c ∈ p.contenders) : isTargetName c.name = true := by
  obtain ⟨i, hi⟩ := List.getElem?_of_mem hc
  obtain ⟨t, ht, hname, -⟩ := exists_target_at hp hi
  rw [hname]
  exact (ofTargets_eq_ok hp).1.1 t (List.mem_of_getElem? ht)

theorem name_select_mem (p : Selector) (request : RouteRequest) :
    (p.select request).name ∈ p.contenders.map Contender.name := by
  obtain ⟨c, hc, hname⟩ := p.exists_contender_of_select request
  rw [← hname]
  exact List.mem_map_of_mem (List.mem_of_getElem? hc)

theorem name_head {first : Target} {later : List Target}
    (hp : ofTargets (first :: later) table lockHeader = .ok p) :
    (p.contenders.head p.nonempty).name = first.name := by
  obtain ⟨t, ht, hname, -⟩ := exists_target_at hp p.getElem?_zero_contenders
  rw [hname, ← Option.some.inj ht]

/-- The name of a target says where it stands. -/
theorem index_of_name (hp : ofTargets targets table lockHeader = .ok p)
    (ht : targets[i]? = some t) (h : (p.select request).name = t.name) :
    (p.select request).index = i := by
  obtain ⟨c, hc, hname⟩ := p.exists_contender_of_select request
  obtain ⟨d, hd, hdname, -⟩ := exists_contender_at hp ht
  exact position_inj (nodup_names hp) hc hd (by rw [hname, h, hdname])

theorem index_of_fallback (h : (p.select request).fallback = true) :
    (p.select request).index = 0
      ∧ (p.select request).name = (p.contenders.head p.nonempty).name := by
  rcases p.select_cases request with ⟨i, c, -, -, hselect⟩ | ⟨-, hselect⟩
  · rw [hselect] at h
    cases h
  · rw [hselect]
    exact ⟨rfl, rfl⟩

/-- A target behind the first one that is unhealthy and whose key is not the token is not chosen. -/
theorem name_select_ne (hp : ofTargets targets table lockHeader = .ok p)
    (ht : targets[i]? = some t) (hi : 0 < i) (hdown : healthyAt request.health i = false)
    (htoken : Selection.tokenOf request.lock ≠ some t.key) :
    (p.select request).name ≠ t.name := by
  intro hname
  have hindex := index_of_name hp ht hname
  have hfallback : (p.select request).fallback = false := by
    rw [Bool.eq_false_iff]
    exact fun h => Nat.ne_of_lt hi ((index_of_fallback h).1.symm.trans hindex)
  have hwins := (isFirstWinner_index hfallback).wins
  rw [hindex] at hwins
  cases hlock : Selection.tokenOf request.lock with
  | none =>
      obtain ⟨-, -, -, hhealthy⟩ := (winsAt_iff_of_no_token hlock).1 hwins
      rw [hdown] at hhealthy
      cases hhealthy
  | some token =>
      obtain ⟨c, hc, hckey⟩ := (winsAt_iff_of_token hlock).1 hwins
      obtain ⟨u, hu, -, hukey, -⟩ := exists_target_at hp hc
      obtain rfl := Option.some.inj (hu.symm.trans ht)
      exact htoken (by rw [hlock, ← hckey, hukey])

end Selector

/-! ## Locks -/

namespace Selection

/-- The first piece of a text is what stands before the first separator. -/
theorem exists_pieces_eq (separator : Char) (s : List Char) :
    ∃ r, Text.pieces separator s = s.takeWhile (· ≠ separator) :: r := by
  induction s with
  | nil => exact ⟨[], rfl⟩
  | cons c s ih =>
      obtain ⟨r, hr⟩ := ih
      by_cases hc : c = separator
      · exact ⟨Text.pieces separator s, by simp [Text.pieces, hc]⟩
      · exact ⟨r, by simp [Text.pieces, hc, hr]⟩

/-- A pair in the first piece is found under its key. -/
theorem subfield_of_pieces {separator : Char} {source : String} {piece : List Char}
    {r : List (List Char)} {pair : String × String}
    (hpieces : Text.pieces separator source.toList = piece :: r) (hpair : Spells piece pair)
    (hkey : '=' ∉ pair.1.toList) : subfield source pair.1 separator = some pair.2 := by
  have hfound : (pairKey piece == pair.1.toList) = true :=
    beq_iff_eq.2 (pairKey_of_spells hpair hkey)
  rw [subfield, subfieldChars, hpieces, List.find?_cons]
  simp only [hfound, Option.map_some, pairValue_of_spells hpair hkey, String.ofList_toList]

/-- An override that begins with the pair of the key names the value up to the first separator. -/
theorem overrideToken_env (v : String) : overrideToken ("env=" ++ v)
    = (some (String.ofList (v.toList.takeWhile (· ≠ '&')))).filter (· ≠ "") := by
  obtain ⟨r, hr⟩ := exists_pieces_eq overrideSeparator ("env=" ++ v).toList
  have hseparator : overrideSeparator ∉ "env=".toList := by decide
  have hprefix : ∀ c ∈ "env=".toList, decide (c ≠ overrideSeparator) = true :=
    fun c hc => decide_eq_true fun heq => hseparator (heq ▸ hc)
  have henv : "env=".toList = overrideKey.toList ++ ['='] := by decide
  rw [String.toList_append, List.takeWhile_append_of_pos hprefix, ← String.toList_append] at hr
  have hpair : Spells ("env=".toList ++ v.toList.takeWhile (· ≠ '&'))
      (overrideKey, String.ofList (v.toList.takeWhile (· ≠ '&'))) := by
    refine .inl ?_
    rw [henv, String.toList_ofList, List.append_assoc, List.singleton_append]
  have hplain : '=' ∉ overrideKey.toList := by decide
  rw [overrideToken, subfield_of_pieces hr hpair hplain]

end Selection

namespace Simulation

variable {sim : Simulation} {p : Selector} {draws : List Nat} {name : String}
  {targets : List Target} {table : WeightTable} {lockHeader : String} {t : Target} {i : Nat}

/-- The lock, up to its first `&`, is the name of the target in lower case. -/
def Locks (sim : Simulation) (t : Target) : Prop :=
  ∃ name, sim.lock = some name ∧ (Text.lower name).toList.takeWhile (· ≠ '&') = t.key.toList

theorem locks_of_tokenOf (h : Selection.tokenOf sim.lockValue = some t.key) : sim.Locks t := by
  unfold lockValue at h
  cases hlock : sim.lock with
  | none =>
      rw [hlock] at h
      cases h
  | some name =>
      have htoken : Selection.overrideToken ("env=" ++ Text.lower name) = some t.key := by
        rwa [hlock] at h
      rw [Selection.overrideToken_env] at htoken
      obtain ⟨hkey, -⟩ := Option.filter_eq_some_iff.1 htoken
      exact ⟨name, hlock, by rw [← Option.some.inj hkey, String.toList_ofList]⟩

/-- A lock without separators is the token of all requests, in lower case. -/
theorem tokenOf_lockValue (hne : name ≠ "") (hplain : '&' ∉ name.toList) :
    Selection.tokenOf (some ("env=" ++ Text.lower name)) = some (Text.lower name) := by
  have hand : ∀ d : Char, d.toNat < 0x80 → d.toLower = '&' → d = '&' :=
    fun d hd => Text.ascii_induction hd (by decide)
  have hpattern : Text.IsPlainPattern ['&'] := Text.isPlainPattern_of_all (by decide) (by decide)
  have hlower : '&' ∉ (Text.lower name).toList :=
    fun h => hplain (Text.mem_of_mem_lower hpattern hand h)
  have hwhole : (Text.lower name).toList.takeWhile (· ≠ '&') = (Text.lower name).toList :=
    List.takeWhile_eq_self_iff.2 fun c hc => decide_eq_true fun heq => hlower (heq ▸ hc)
  show Selection.overrideToken ("env=" ++ Text.lower name) = _
  rw [Selection.overrideToken_env, hwhole, String.ofList_toList,
    Option.filter_some_pos (by simpa using Text.lower_ne_empty hne)]

/-! ## Counts of a simulation -/

theorem tally_eq (sim : Simulation) (p : Selector) (draws : List Nat) :
    sim.tally p draws = (draws.map (sim.choice p)).foldl Tally.add .empty :=
  List.foldl_map.symm

theorem hitsOf_tally (sim : Simulation) (p : Selector) (draws : List Nat) (name : String) :
    (sim.tally p draws).hitsOf name
      = ((draws.map (sim.choice p)).map Choice.name).count name := by
  rw [tally_eq, Tally.hitsOf_foldl]
  exact Nat.zero_add _

theorem fallbacks_tally (sim : Simulation) (p : Selector) (draws : List Nat) :
    (sim.tally p draws).fallbacks = (draws.map (sim.choice p)).countP Choice.fallback := by
  rw [tally_eq, Tally.fallbacks_foldl]
  exact Nat.zero_add _

theorem sum_hitsOf_tally (hp : Selector.ofTargets targets table lockHeader = .ok p) :
    (p.contenders.map fun c => (sim.tally p draws).hitsOf c.name).sum = draws.length := by
  have hlisted : ∀ n ∈ (draws.map (sim.choice p)).map Choice.name,
      n ∈ p.contenders.map Contender.name := by
    rw [List.forall_mem_map, List.forall_mem_map]
    exact fun draw _ => p.name_select_mem _
  have hsum := sum_count_of_nodup (Selector.nodup_names hp) hlisted
  rw [List.map_map, List.length_map, List.length_map] at hsum
  rw [← hsum]
  exact congrArg List.sum (List.map_congr_left fun c _ => hitsOf_tally sim p draws c.name)

/-- The fallbacks are among what the first target serves. -/
theorem fallbacks_tally_le (sim : Simulation) (p : Selector) (draws : List Nat) :
    (sim.tally p draws).fallbacks
      ≤ (sim.tally p draws).hitsOf (p.contenders.head p.nonempty).name := by
  rw [fallbacks_tally, hitsOf_tally, List.count, List.countP_map (p := (· == _))]
  refine List.countP_mono_left ?_
  rw [List.forall_mem_map]
  exact fun draw _ hfallback => beq_iff_eq.2 (Selector.index_of_fallback hfallback).2

theorem hitsOf_tally_eq_zero (h : ∀ draw, (sim.choice p draw).name ≠ name) :
    (sim.tally p draws).hitsOf name = 0 := by
  rw [hitsOf_tally, List.count_eq_zero, List.map_map]
  intro hmem
  obtain ⟨draw, -, hdraw⟩ := List.mem_map.1 hmem
  exact h draw hdraw

/-- When all requests are served in the same way, one count is that of the requests. -/
theorem tally_of_forall {fallback : Bool}
    (h : ∀ draw, (sim.choice p draw).name = name ∧ (sim.choice p draw).fallback = fallback) :
    (sim.tally p draws).hitsOf name = draws.length
      ∧ (sim.tally p draws).fallbacks = if fallback then draws.length else 0 := by
  constructor
  · have hall : ∀ n ∈ (draws.map (sim.choice p)).map Choice.name, name = n := by
      rw [List.forall_mem_map, List.forall_mem_map]
      exact fun draw _ => (h draw).1.symm
    rw [hitsOf_tally, List.count_eq_length.2 hall, List.length_map, List.length_map]
  · rw [fallbacks_tally, List.countP_map]
    have hsame : Choice.fallback ∘ sim.choice p = fun _ => fallback :=
      funext fun draw => (h draw).2
    rw [hsame]
    cases fallback <;> simp

/-- A target that is named as unhealthy in any case of ASCII letters is so for the selector. -/
theorem healthyAt_health (hp : Selector.ofTargets targets table lockHeader = .ok p)
    (ht : targets[i]? = some t)
    (hdown : ∃ down ∈ sim.unhealthy, Text.eqIgnoringAsciiCase down t.name = true) :
    Selector.healthyAt (sim.health p) i = false := by
  obtain ⟨c, hc, hname, -⟩ := Selector.exists_contender_at hp ht
  rw [Selector.healthyAt, health, List.getElem?_map, hc, Option.map_some, hname,
    List.any_eq_true.2 hdown]
  rfl

/-- A lock without separators leaves one choice: the target with the name, or the fallback. -/
theorem choice_locked (hp : Selector.ofTargets targets table lockHeader = .ok p)
    (hlock : sim.lock = some name) (hne : name ≠ "") (hplain : '&' ∉ name.toList) (draw : Nat) :
    (∀ t ∈ targets, Text.lower t.name = Text.lower name →
        (sim.choice p draw).name = t.name ∧ (sim.choice p draw).fallback = false)
      ∧ ((∀ t ∈ targets, Text.lower t.name ≠ Text.lower name) →
        targets.head?.map Target.name = some (sim.choice p draw).name
          ∧ (sim.choice p draw).fallback = true) := by
  have htoken := tokenOf_lockValue hne hplain
  have hvalue : sim.lockValue = some ("env=" ++ Text.lower name) := by
    rw [lockValue, hlock, Option.map_some]
  rw [choice, hvalue]
  refine ⟨fun t ht hkey => ?_, fun hkeys => ?_⟩
  · obtain ⟨i, hi⟩ := List.getElem?_of_mem ht
    exact (Selector.select_of_key_eq hp htoken hi hkey).2
  · exact (Selector.select_of_forall_key_ne hp htoken hkeys).2

end Simulation

/-! ## Simulations of accepted settings -/

namespace CommandLine

variable {s : Settings} {warnings : List SettingsWarning}

/-- Accepted settings compile, and there is a first target. -/
theorem compile_of_validate (hvalid : s.validate = .ok warnings) :
    ∃ first later logic, buildTargets s.targets = .ok (first :: later)
      ∧ Selector.ofTargets (first :: later) s.weights s.service.lockHeader = .ok logic.selector
      ∧ compile s = .ok (first :: later, logic) := by
  obtain ⟨targets, logic, hbuilt, hlogic⟩ :=
    Settings.exists_logic_of_validate hvalid s.weights s.service.lockHeader
  obtain ⟨first, later, rfl⟩ :=
    List.exists_cons_of_ne_nil (EdgeLogic.exists_ofTargets_iff.1 ⟨logic, hlogic⟩).1
  refine ⟨first, later, logic, hbuilt, (EdgeLogic.ofTargets_eq_ok hlogic).1, ?_⟩
  simp [compile, hbuilt, hlogic, Except.mapError, bind, Except.bind]

/-- A reader finds in the output of a simulation what was counted: for each target in order its name
with its hits, and the fallbacks. -/
theorem exists_printed {targets : List Target} {logic : EdgeLogic}
    (hp : Selector.ofTargets targets s.weights s.service.lockHeader = .ok logic.selector)
    (hcompiled : compile s = .ok (targets, logic)) (sim : Simulation) (draws : Nat → List Nat) :
    ∃ output printed, simulate sim draws s = ⟨0, output, ""⟩
      ∧ Tally.ofReport? output = some printed
      ∧ printed.hits.map Prod.fst = targets.map Target.name
      ∧ (printed.hits.map Prod.snd).sum = (draws sim.requests).length
      ∧ printed.fallbacks = (sim.tally logic.selector (draws sim.requests)).fallbacks
      ∧ ∀ t ∈ targets,
        printed.hitsOf t.name = (sim.tally logic.selector (draws sim.requests)).hitsOf t.name := by
  refine ⟨_, _, by rw [simulate, hcompiled]; rfl,
    Simulation.ofReport?_success fun c hc => Selector.isTargetName_name hp hc, ?_, ?_, rfl, ?_⟩
  · rw [List.map_map, ← Selector.map_name_contenders hp]
    rfl
  · rw [List.map_map]
    exact Simulation.sum_hitsOf_tally hp
  · intro t ht
    refine Tally.hitsOf_map _ _ ?_
    rw [Selector.map_name_contenders hp]
    exact List.mem_map_of_mem ht

/-- What a simulation of accepted settings prints accounts for every request once. The hits that are
read for the targets add up to the number of requests, and the fallbacks are no more than the hits
of the first target. A later target that is named as unhealthy in any case of ASCII letters has no
hits unless the lock is its name. Under a lock without `&`, the target with that name in any case
has all hits and there are no fallbacks, and without such a target the first one has all hits, each
of them a fallback. -/
theorem simulate_accounts (hvalid : s.validate = .ok warnings) (sim : Simulation)
    {draws : Nat → List Nat} (hdraws : (draws sim.requests).length = sim.requests) :
    ∃ first later output printed, buildTargets s.targets = .ok (first :: later)
      ∧ simulate sim draws s = ⟨0, output, ""⟩
      ∧ Tally.ofReport? output = some printed
      ∧ printed.hits.map Prod.fst = (first :: later).map Target.name
      ∧ (printed.hits.map Prod.snd).sum = sim.requests
      ∧ printed.fallbacks ≤ printed.hitsOf first.name
      ∧ (∀ t ∈ later,
        (∃ name ∈ sim.unhealthy, Text.eqIgnoringAsciiCase name t.name = true) →
        ¬ sim.Locks t → printed.hitsOf t.name = 0)
      ∧ ∀ name, sim.lock = some name → name ≠ "" → '&' ∉ name.toList →
        (∀ t ∈ first :: later, Text.lower t.name = Text.lower name →
          printed.hitsOf t.name = sim.requests ∧ printed.fallbacks = 0)
        ∧ ((∀ t ∈ first :: later, Text.lower t.name ≠ Text.lower name) →
          printed.hitsOf first.name = sim.requests ∧ printed.fallbacks = sim.requests) := by
  obtain ⟨first, later, logic, hbuilt, hp, hcompiled⟩ := compile_of_validate hvalid
  obtain ⟨output, printed, houtput, hread, hnames, hsum, hfallbacks, hhits⟩ :=
    exists_printed hp hcompiled sim draws
  have hfirst := hhits first List.mem_cons_self
  refine ⟨first, later, output, printed, hbuilt, houtput, hread, hnames, hsum.trans hdraws, ?_, ?_,
    ?_⟩
  · rw [hfallbacks, hfirst, ← Selector.name_head hp]
    exact sim.fallbacks_tally_le logic.selector (draws sim.requests)
  · intro t ht hdown hlocks
    obtain ⟨i, hi⟩ := List.getElem?_of_mem ht
    have hat : (first :: later)[i + 1]? = some t := hi
    rw [hhits t (List.mem_cons_of_mem _ ht)]
    refine Simulation.hitsOf_tally_eq_zero fun draw => ?_
    exact Selector.name_select_ne hp hat (Nat.succ_pos i) (Simulation.healthyAt_health hp hat hdown)
      (mt Simulation.locks_of_tokenOf hlocks)
  · intro name hlock hne hplain
    have hchoice := Simulation.choice_locked hp hlock hne hplain
    rw [← hdraws, hfallbacks]
    refine ⟨fun t ht hkey => ?_, fun hkeys => ?_⟩
    · rw [hhits t ht]
      exact Simulation.tally_of_forall fun draw => (hchoice draw).1 t ht hkey
    · have hall : ∀ draw, (sim.choice logic.selector draw).name = first.name
          ∧ (sim.choice logic.selector draw).fallback = true := by
        intro draw
        obtain ⟨hname, hfallback⟩ := (hchoice draw).2 hkeys
        exact ⟨(Option.some.inj hname).symm, hfallback⟩
      rw [hfirst]
      exact Simulation.tally_of_forall hall

/-! ### Two targets of which one is unhealthy

Every draw is for the second target, which is unhealthy. It serves nothing until it is locked. -/

def greenDown (lock : Option String) : Simulation := ⟨3, ["GREEN"], lock⟩

def highDraws (n : Nat) : List Nat := List.replicate n 75

theorem simulate_greenDown :
    (Selector.pinSettings "X-Pin").validate = .ok []
      ∧ (∀ n, (highDraws n).length = n)
      ∧ simulate (greenDown none) highDraws (Selector.pinSettings "X-Pin") = .success
        ["Blue             weight=50   threshold=50   hits=3        share=100.0%",
          "green            weight=50   threshold=100  hits=0        share=0.0%",
          "fallback hits: 3"]
      ∧ (∃ printed, Tally.ofReport?
          (simulate (greenDown none) highDraws (Selector.pinSettings "X-Pin")).output = some printed
        ∧ (printed.hits.map Prod.snd).sum = 3 ∧ printed.hitsOf "green" = 0)
      ∧ simulate (greenDown (some "gReeN")) highDraws (Selector.pinSettings "X-Pin") = .success
        ["Blue             weight=50   threshold=50   hits=0        share=0.0%",
          "green            weight=50   threshold=100  hits=3        share=100.0%",
          "fallback hits: 0"]
      ∧ ∃ printed, Tally.ofReport?
          (simulate (greenDown (some "gReeN")) highDraws (Selector.pinSettings "X-Pin")).output
          = some printed
        ∧ printed.hitsOf "green" = 3 ∧ printed.fallbacks = 0 := by
  have hvalid : (Selector.pinSettings "X-Pin").validate = .ok [] := by with_unfolding_all rfl
  have htargets : buildTargets (Selector.pinSettings "X-Pin").targets
      = .ok [Selector.pinTargets[0], Selector.pinTargets[1]] := by with_unfolding_all rfl
  have hlength : ∀ n, (highDraws n).length = n := fun _ => List.length_replicate
  refine ⟨hvalid, hlength, by with_unfolding_all rfl, ?_, by with_unfolding_all rfl, ?_⟩
  · obtain ⟨first, later, output, printed, hbuilt, houtput, hread, -, hsum, -, hdown, -⟩ :=
      simulate_accounts hvalid (greenDown none) (hlength _)
    obtain ⟨rfl, rfl⟩ := List.cons.inj (Except.ok.inj (htargets.symm.trans hbuilt))
    have hname : ∃ name ∈ (greenDown none).unhealthy,
        Text.eqIgnoringAsciiCase name Selector.pinTargets[1].name = true :=
      ⟨"GREEN", List.mem_cons_self, by decide⟩
    have hunlocked : ¬ (greenDown none).Locks Selector.pinTargets[1] := by
      rintro ⟨name, hlock, -⟩
      cases hlock
    rw [houtput]
    exact ⟨printed, hread, hsum, hdown _ List.mem_cons_self hname hunlocked⟩
  · obtain ⟨first, later, output, printed, hbuilt, houtput, hread, -, -, -, -, hlocked⟩ :=
      simulate_accounts hvalid (greenDown (some "gReeN")) (hlength _)
    obtain ⟨rfl, rfl⟩ := List.cons.inj (Except.ok.inj (htargets.symm.trans hbuilt))
    have hgreen := (hlocked "gReeN" rfl (by decide) (by decide)).1 Selector.pinTargets[1]
    rw [houtput]
    exact ⟨printed, hread, hgreen (List.mem_cons_of_mem _ List.mem_cons_self) (by decide)⟩

end CommandLine

end EdgeRouting
