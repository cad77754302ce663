import Mathlib.Data.Finset.Card
import EdgeRouting.Proofs.Settings.Agreement

/-!
# What validation reports

The keys of earlier names are kept while the targets are gone through, and an ill-formed name leaves
them as they are. What is reported about a target thus depends on that target, on its position and
on the well-formed names before it, and on nothing else (`targetFaults_eq`).

Three facts follow by the same induction, with the keys of earlier names arbitrary: when nothing is
reported (`targetFaults_eq_nil_iff`), how many names are reported as taken
(`countP_targetFaults`), and that the faults of a target can be cut out of those of its list
(`targetFaults_append`), so that a fault which is mended disappears alone (`faults_of_mends`).
-/

namespace EdgeRouting

namespace Settings

variable {seen : List String} {position : Nat} {t : TargetSettings}
  {targets earlier : List TargetSettings}

/-! ## Reports -/

/-- A target has a well-formed name that is the same in lower case. -/
def IsTaken (earlier : List TargetSettings) (name : String) : Prop :=
  ∃ t ∈ earlier, isTargetName t.name = true ∧ Text.lower t.name = Text.lower name

instance (earlier : List TargetSettings) (name : String) : Decidable (IsTaken earlier name) :=
  inferInstanceAs (Decidable (∃ t ∈ earlier, _ ∧ _))

/-- What there is to say about the name of a target behind earlier ones. -/
def nameReport (earlier : List TargetSettings) (name : String) : List SettingsFault :=
  if name = "" then [.emptyName earlier.length]
  else if isTargetName name = false then [.invalidName name]
  else if IsTaken earlier name then [.duplicateName name]
  else []

/-- What there is to say about a target behind earlier ones. -/
def reportOn (earlier : List TargetSettings) (t : TargetSettings) : List SettingsFault :=
  nameReport earlier t.name
    ++ (if Text.isBlankText t.host then [.emptyHost t.name] else [])
    ++ (match Template.parse t.urlTemplate with
      | .ok _ => []
      | .error f => [.invalidTemplate t.name f])

/-- What there is to say about settings: a report on each target in order, and the service. -/
def report (s : Settings) : List SettingsFault :=
  (if s.targets = [] then [.noTargets] else [])
    ++ (s.targets.zipIdx.flatMap fun e => reportOn (s.targets.take e.2) e.1)
    ++ (if Url.isBaseUrl s.service.apiUrl then [] else [.invalidApiUrl s.service.apiUrl])
    ++ (if Text.isBlankText s.service.lockHeader then [.emptyLockHeader] else [])

/-- The keys that are kept behind a name. -/
def keysBehind (seen : List String) (name : String) : List String :=
  if isTargetName name then Text.lower name :: seen else seen

theorem keysBehind_of_isTargetName {name : String} (h : isTargetName name = true) :
    keysBehind seen name = Text.lower name :: seen := if_pos h

theorem keysBehind_of_not {name : String} (h : ¬ isTargetName name = true) :
    keysBehind seen name = seen := if_neg h

theorem targetFaults_cons (seen : List String) (position : Nat) (t : TargetSettings)
    (r : List TargetSettings) : targetFaults seen position (t :: r)
      = nameFaults seen position t.name ++ hostFaults t ++ templateFaults t
        ++ targetFaults (keysBehind seen t.name) (position + 1) r := rfl

/-- The keys that are kept are those of the well-formed names before. -/
def Keeps (seen : List String) (earlier : List TargetSettings) : Prop :=
  ∀ key, key ∈ seen ↔ ∃ t ∈ earlier, isTargetName t.name = true ∧ Text.lower t.name = key

theorem Keeps.concat (h : Keeps seen earlier) (t : TargetSettings) :
    Keeps (keysBehind seen t.name) (earlier ++ [t]) := by
  intro key
  simp only [List.mem_append, List.mem_singleton, or_and_right, exists_or, exists_eq_left, ← h key]
  by_cases hname : isTargetName t.name = true
  · rw [keysBehind_of_isTargetName hname, List.mem_cons, or_comm, eq_comm, and_iff_right hname]
  · rw [keysBehind_of_not hname, or_iff_left fun hkey => hname hkey.1]

theorem nameFaults_eq (h : Keeps seen earlier) (name : String) :
    nameFaults seen earlier.length name = nameReport earlier name := by
  have htaken : Text.lower name ∈ seen ↔ IsTaken earlier name := h (Text.lower name)
  simp only [nameFaults, nameReport, String.isEmpty_iff, Bool.not_eq_true', htaken]

theorem targetFaults_cons_eq (h : Keeps seen earlier) (t : TargetSettings)
    (r : List TargetSettings) : targetFaults seen earlier.length (t :: r) = reportOn earlier t
      ++ targetFaults (keysBehind seen t.name) (earlier ++ [t]).length r := by
  rw [targetFaults_cons, nameFaults_eq h, List.length_append, List.length_singleton]
  rfl

theorem targetFaults_eq (h : Keeps seen earlier) : targetFaults seen earlier.length targets
    = (targets.zipIdx earlier.length).flatMap fun e =>
        reportOn ((earlier ++ targets).take e.2) e.1 := by
  induction targets generalizing seen earlier with
  | nil => rfl
  | cons t r ih =>
      have hbehind : earlier ++ t :: r = earlier ++ [t] ++ r := by simp
      rw [targetFaults_cons_eq h, ih (h.concat t), List.zipIdx_cons, List.flatMap_cons,
        List.take_left, ← hbehind, List.length_append, List.length_singleton]

theorem faults_eq_report (s : Settings) : s.faults = s.report := by
  have hnone : Keeps [] [] := by simp [Keeps]
  have htargets := @targetFaults_eq [] s.targets [] hnone
  rw [faults, report, serviceFaults, ← List.append_assoc]
  simp only [List.isEmpty_iff]
  exact congrArg (fun l => _ ++ l ++ _ ++ _) htargets

/-! ## Faults of one name -/

def isDuplicateName : SettingsFault → Bool
  | .duplicateName _ => true
  | _ => false

theorem nameFaults_of_isTargetName {name : String} (h : isTargetName name = true) :
    nameFaults seen position name
      = if Text.lower name ∈ seen then [.duplicateName name] else [] := by
  have hsome : ¬ name.isEmpty = true := by
    intro hempty
    rw [String.isEmpty_iff.1 hempty] at h
    cases h
  rw [nameFaults, if_neg hsome, h]
  rfl

theorem nameFaults_of_not {name : String} (h : ¬ isTargetName name = true) (seen : List String)
    (position : Nat) :
    ∃ f, isDuplicateName f = false ∧ nameFaults seen position name = [f] := by
  unfold nameFaults
  split_ifs with hempty hname
  · exact ⟨_, rfl, rfl⟩
  · exact ⟨_, rfl, rfl⟩
  · simp [h] at hname
  · simp [h] at hname

/-! ## Settings without faults -/

/-- A target about which there is nothing to say by itself. -/
structure IsFaultlessTarget (t : TargetSettings) : Prop where
  isTargetName : isTargetName t.name = true
  host : ¬ Text.AllBlank t.host.toList
  template : ∃ template, Template.parse t.urlTemplate = .ok template

/-- Settings about which there is nothing to say. -/
structure IsFaultless (s : Settings) : Prop where
  targets_ne_nil : s.targets ≠ []
  targets : ∀ t ∈ s.targets, IsFaultlessTarget t
  nodup_keys : (s.targets.map fun t => Text.lower t.name).Nodup
  apiUrl : Url.isBaseUrl s.service.apiUrl = true
  lockHeader : ¬ Text.AllBlank s.service.lockHeader.toList

theorem nameFaults_eq_nil_iff {name : String} : nameFaults seen position name = []
    ↔ isTargetName name = true ∧ Text.lower name ∉ seen := by
  by_cases hname : isTargetName name = true
  · rw [nameFaults_of_isTargetName hname]
    split_ifs with hseen <;> simp [hname, hseen]
  · obtain ⟨f, -, hfault⟩ := nameFaults_of_not hname seen position
    simp [hfault, hname]

theorem hostFaults_eq_nil_iff : hostFaults t = [] ↔ ¬ Text.AllBlank t.host.toList := by
  rw [hostFaults, ← Text.isBlankText_iff]
  split_ifs with h <;> simp [h]

theorem templateFaults_eq_nil_iff :
    templateFaults t = [] ↔ ∃ template, Template.parse t.urlTemplate = .ok template := by
  unfold templateFaults
  cases Template.parse t.urlTemplate <;> simp

theorem targetFaults_eq_nil_iff : targetFaults seen position targets = []
    ↔ (∀ t ∈ targets, IsFaultlessTarget t ∧ Text.lower t.name ∉ seen)
      ∧ (targets.map fun t => Text.lower t.name).Nodup := by
  induction targets generalizing seen position with
  | nil => simp [targetFaults]
  | cons t r ih =>
      simp only [targetFaults_cons, List.append_eq_nil_iff, nameFaults_eq_nil_iff,
        hostFaults_eq_nil_iff, templateFaults_eq_nil_iff, ih, List.forall_mem_cons, List.map_cons,
        List.nodup_cons, List.mem_map, not_exists, not_and]
      constructor
      · rintro ⟨⟨⟨⟨hname, hfresh⟩, hhost⟩, htemplate⟩, hr, hnodup⟩
        rw [keysBehind_of_isTargetName hname] at hr
        refine ⟨⟨⟨⟨hname, hhost, htemplate⟩, hfresh⟩, fun u hu => ?_⟩, fun u hu hkey => ?_, hnodup⟩
        · exact ⟨(hr u hu).1, fun hseen => (hr u hu).2 (List.mem_cons_of_mem _ hseen)⟩
        · exact (hr u hu).2 (List.mem_cons.2 (.inl hkey))
      · rintro ⟨⟨⟨⟨hname, hhost, htemplate⟩, hfresh⟩, hr⟩, hother, hnodup⟩
        rw [keysBehind_of_isTargetName hname]
        refine ⟨⟨⟨⟨hname, hfresh⟩, hhost⟩, htemplate⟩, fun u hu => ⟨(hr u hu).1, ?_⟩, hnodup⟩
        intro hmem
        rcases List.mem_cons.1 hmem with hkey | hseen
        · exact hother u hu hkey
        · exact (hr u hu).2 hseen

theorem serviceFaults_eq_nil_iff {s : ServiceSettings} : serviceFaults s = []
    ↔ Url.isBaseUrl s.apiUrl = true ∧ ¬ Text.AllBlank s.lockHeader.toList := by
  rw [serviceFaults, List.append_eq_nil_iff, ← Text.isBlankText_iff]
  split_ifs with hurl hheader <;> simp [*]

theorem faults_eq_nil_iff {s : Settings} : s.faults = [] ↔ s.IsFaultless := by
  rw [faults, List.append_eq_nil_iff, List.append_eq_nil_iff, targetFaults_eq_nil_iff,
    serviceFaults_eq_nil_iff]
  constructor
  · rintro ⟨⟨hsome, htargets, hnodup⟩, hurl, hheader⟩
    refine ⟨fun hnone => ?_, fun t ht => (htargets t ht).1, hnodup, hurl, hheader⟩
    simp [hnone] at hsome
  · rintro ⟨hsome, htargets, hnodup, hurl, hheader⟩
    exact ⟨⟨by simp [hsome], fun t ht => ⟨htargets t ht, List.not_mem_nil⟩, hnodup⟩, hurl, hheader⟩

/-! ## Names that are taken -/

/-- The keys of the well-formed names. -/
def wellFormedKeys (targets : List TargetSettings) : List String :=
  (targets.filter fun t => isTargetName t.name).map fun t => Text.lower t.name

theorem countP_hostFaults : (hostFaults t).countP isDuplicateName = 0 := by
  unfold hostFaults
  split_ifs <;> rfl

theorem countP_templateFaults : (templateFaults t).countP isDuplicateName = 0 := by
  unfold templateFaults
  cases Template.parse t.urlTemplate <;> rfl

theorem countP_serviceFaults {s : ServiceSettings} :
    (serviceFaults s).countP isDuplicateName = 0 := by
  unfold serviceFaults
  split_ifs <;> rfl

theorem countP_targetFaults_cons (r : List TargetSettings) :
    (targetFaults seen position (t :: r)).countP isDuplicateName
      = (nameFaults seen position t.name).countP isDuplicateName
        + (targetFaults (keysBehind seen t.name) (position + 1) r).countP isDuplicateName := by
  rw [targetFaults_cons, List.countP_append, List.countP_append, List.countP_append,
    countP_hostFaults, countP_templateFaults, Nat.add_zero, Nat.add_zero]

/-- Each well-formed name is reported as taken, or its key is a new one. -/
theorem countP_targetFaults : (targetFaults seen position targets).countP isDuplicateName
    + (seen.toFinset ∪ (wellFormedKeys targets).toFinset).card
      = (wellFormedKeys targets).length + seen.toFinset.card := by
  induction targets generalizing seen position with
  | nil => simp [targetFaults, wellFormedKeys]
  | cons t r ih =>
      rw [countP_targetFaults_cons]
      by_cases hname : isTargetName t.name = true
      · have hkeys : wellFormedKeys (t :: r) = Text.lower t.name :: wellFormedKeys r := by
          simp [wellFormedKeys, hname]
        have hunion : seen.toFinset ∪ (Text.lower t.name :: wellFormedKeys r).toFinset
            = (Text.lower t.name :: seen).toFinset ∪ (wellFormedKeys r).toFinset := by
          simp
        have hrest := @ih (Text.lower t.name :: seen) (position + 1)
        rw [keysBehind_of_isTargetName hname, nameFaults_of_isTargetName hname, hkeys, hunion,
          List.length_cons]
        -- A key that was seen adds a fault, and one that was not adds to the different keys.
        by_cases hseen : Text.lower t.name ∈ seen
        · have hcard : (Text.lower t.name :: seen).toFinset.card = seen.toFinset.card := by
            rw [List.toFinset_cons, Finset.insert_eq_of_mem (List.mem_toFinset.2 hseen)]
          have hone : [SettingsFault.duplicateName t.name].countP isDuplicateName = 1 := rfl
          rw [if_pos hseen, hone]
          omega
        · have hcard : (Text.lower t.name :: seen).toFinset.card = seen.toFinset.card + 1 := by
            rw [List.toFinset_cons, Finset.card_insert_of_notMem (mt List.mem_toFinset.1 hseen)]
          rw [if_neg hseen, List.countP_nil]
          omega
      · obtain ⟨f, hother, hfault⟩ := nameFaults_of_not hname seen position
        have hkeys : wellFormedKeys (t :: r) = wellFormedKeys r := by
          simp [wellFormedKeys, hname]
        rw [keysBehind_of_not hname, hfault, hkeys]
        simpa [hother] using ih

/-- The names reported as taken are as many as the well-formed ones less the different keys. -/
theorem countP_faults (s : Settings) : s.faults.countP isDuplicateName
    = (wellFormedKeys s.targets).length - (wellFormedKeys s.targets).dedup.length := by
  have hnone : (if s.targets.isEmpty then [SettingsFault.noTargets] else []).countP
      isDuplicateName = 0 := by
    split_ifs <;> rfl
  have hcount := @countP_targetFaults [] 0 s.targets
  rw [List.toFinset_nil, Finset.empty_union, List.card_toFinset, Finset.card_empty] at hcount
  rw [faults, List.countP_append, List.countP_append, hnone, countP_serviceFaults]
  omega

/-! ## Faults that are mended -/

/-- One fault of settings is mended: a host, a template, the URL of the service or its header is
replaced by a correct one. -/
inductive Mends (s : Settings) : SettingsFault → Settings → Prop
  | host {before after : List TargetSettings} {t : TargetSettings} {host : String} :
    s.targets = before ++ t :: after → Text.AllBlank t.host.toList → ¬ Text.AllBlank host.toList →
    Mends s (.emptyHost t.name) { s with targets := before ++ { t with host } :: after }
  | template {before after : List TargetSettings} {t : TargetSettings} {source : String}
    {fault : Template.Fault} {template : Template} :
    s.targets = before ++ t :: after → Template.parse t.urlTemplate = .error fault →
    Template.parse source = .ok template →
    Mends s (.invalidTemplate t.name fault)
      { s with targets := before ++ { t with urlTemplate := source } :: after }
  | apiUrl {url : String} : ¬ Url.isBaseUrl s.service.apiUrl = true → Url.isBaseUrl url = true →
    Mends s (.invalidApiUrl s.service.apiUrl)
      { s with service := { s.service with apiUrl := url } }
  | lockHeader {header : String} : Text.AllBlank s.service.lockHeader.toList →
    ¬ Text.AllBlank header.toList →
    Mends s .emptyLockHeader { s with service := { s.service with lockHeader := header } }

theorem targetFaults_append (seen : List String) (position : Nat) (before : List TargetSettings) :
    ∃ seen', ∀ r, targetFaults seen position (before ++ r)
      = targetFaults seen position before ++ targetFaults seen' (position + before.length) r := by
  induction before generalizing seen position with
  | nil => exact ⟨seen, fun r => rfl⟩
  | cons t before ih =>
      obtain ⟨seen', hseen'⟩ := ih (keysBehind seen t.name) (position + 1)
      have hposition : position + 1 + before.length = position + (t :: before).length := by
        rw [List.length_cons]
        omega
      refine ⟨seen', fun r => ?_⟩
      rw [List.cons_append, targetFaults_cons, targetFaults_cons, hseen' r, hposition,
        List.append_assoc _ _ (targetFaults seen' _ r)]

/-- What stands around the faults of a target's host and template depends on its name only. -/
theorem exists_around (s : Settings) (before after : List TargetSettings) (name : String) :
    ∃ l r, ∀ t : TargetSettings, t.name = name →
      { s with targets := before ++ t :: after }.faults
        = l ++ (hostFaults t ++ templateFaults t) ++ r := by
  obtain ⟨seen, hsplit⟩ := targetFaults_append [] 0 before
  refine ⟨targetFaults [] 0 before ++ nameFaults seen (0 + before.length) name,
    targetFaults (keysBehind seen name) (0 + before.length + 1) after ++ serviceFaults s.service,
    ?_⟩
  rintro t rfl
  have hsome : (before ++ t :: after).isEmpty = false := by simp
  simp only [faults, hsplit, targetFaults_cons, hsome, Bool.false_eq_true, if_false,
    List.nil_append, List.append_assoc]

/-- The faults of the settings without those of the service. -/
def routingFaults (targets : List TargetSettings) : List SettingsFault :=
  (if targets.isEmpty then [.noTargets] else []) ++ targetFaults [] 0 targets

theorem faults_eq (s : Settings) :
    s.faults = routingFaults s.targets ++ serviceFaults s.service := rfl

theorem hostFaults_of_blank (h : Text.AllBlank t.host.toList) :
    hostFaults t = [.emptyHost t.name] := by
  rw [hostFaults, if_pos (Text.isBlankText_iff.2 h)]

theorem templateFaults_of_error {f : Template.Fault} (h : Template.parse t.urlTemplate = .error f) :
    templateFaults t = [.invalidTemplate t.name f] := by
  rw [templateFaults, h]

/-- A fault that is mended is gone, and nothing else is. -/
theorem faults_of_mends {s s' : Settings} {f : SettingsFault} (h : Mends s f s') :
    ∃ before after, s.faults = before ++ f :: after ∧ s'.faults = before ++ after := by
  cases h with
  | @host before after t host htargets hblank hhost =>
      obtain ⟨l, r, haround⟩ := exists_around s before after t.name
      refine ⟨l, templateFaults t ++ r, ?_, ?_⟩
      · have hfaults := haround t rfl
        rw [← htargets, hostFaults_of_blank hblank] at hfaults
        simpa using hfaults
      · have hmended := haround { t with host } rfl
        have hnone : hostFaults { t with host } = [] := hostFaults_eq_nil_iff.2 hhost
        rw [hnone, List.nil_append, List.append_assoc] at hmended
        exact hmended
  | @template before after t source fault template htargets hfault htemplate =>
      obtain ⟨l, r, haround⟩ := exists_around s before after t.name
      refine ⟨l ++ hostFaults t, r, ?_, ?_⟩
      · have hfaults := haround t rfl
        rw [← htargets, templateFaults_of_error hfault] at hfaults
        simpa using hfaults
      · have hmended := haround { t with urlTemplate := source } rfl
        have hnone : templateFaults { t with urlTemplate := source } = [] :=
          templateFaults_eq_nil_iff.2 ⟨template, htemplate⟩
        rw [hnone, List.append_nil] at hmended
        exact hmended
  | apiUrl hold hnew =>
      refine ⟨routingFaults s.targets,
        if Text.isBlankText s.service.lockHeader then [.emptyLockHeader] else [], ?_, ?_⟩
      · rw [faults_eq, serviceFaults, if_neg hold, List.singleton_append]
      · rw [faults_eq, serviceFaults, if_pos hnew, List.nil_append]
  | lockHeader hold hnew =>
      refine ⟨routingFaults s.targets
        ++ (if Url.isBaseUrl s.service.apiUrl then [] else [.invalidApiUrl s.service.apiUrl]),
        [], ?_, ?_⟩
      · rw [faults_eq, serviceFaults, if_pos (Text.isBlankText_iff.2 hold), List.append_assoc]
      · rw [faults_eq, serviceFaults, if_neg (mt Text.isBlankText_iff.1 hnew), List.append_nil,
          List.append_nil]

/-! ## Validation -/

/-- The faults that validation reports. -/
def reported (s : Settings) : List SettingsFault :=
  match s.validate with
  | .ok _ => []
  | .error faults => faults

theorem reported_eq (s : Settings) : s.reported = s.faults := by
  unfold reported validate
  cases s.faults <;> rfl

theorem validate_eq_ok_iff {s : Settings} :
    (∃ warnings, s.validate = .ok warnings) ↔ s.IsFaultless := by
  rw [← faults_eq_nil_iff]
  unfold validate
  cases s.faults <;> simp

/-- Validation accepts faultless settings. Of all others it makes the whole report, in which a name
is taken when an earlier well-formed one has the same key, so that there are as many of these as
well-formed names that share their key with an earlier one. What is mended leaves the report. -/
theorem validate_reports (s : Settings) :
    ((∃ warnings, s.validate = .ok warnings) ↔ s.IsFaultless)
      ∧ (¬ s.IsFaultless → s.validate = .error s.report)
      ∧ s.reported.countP isDuplicateName
        = (wellFormedKeys s.targets).length - (wellFormedKeys s.targets).dedup.length
      ∧ ∀ f s', Mends s f s' → ∃ before after,
        s.reported = before ++ f :: after ∧ s'.reported = before ++ after := by
  refine ⟨validate_eq_ok_iff, ?_, ?_, ?_⟩
  · intro hfaulty
    have hsome : s.faults ≠ [] := mt faults_eq_nil_iff.1 hfaulty
    rw [validate, if_neg (mt List.isEmpty_iff.1 hsome), faults_eq_report]
  · rw [reported_eq, countP_faults]
  · intro f s' h
    rw [reported_eq, reported_eq]
    exact faults_of_mends h

/-! ### A blank host, and names that are ill-formed, taken and missing -/

def faultyTargets (host : String) : List TargetSettings :=
  [{ closeTarget "A" with host }, closeTarget "2b", closeTarget "a", closeTarget ""]

def faultySettings (host : String) : Settings :=
  { closeSettings with targets := faultyTargets host }

theorem validate_reports_faulty :
    (faultySettings " ").validate
        = .error [.emptyHost "A", .invalidName "2b", .duplicateName "a", .emptyName 3]
      ∧ ∃ before after, (faultySettings " ").reported = before ++ .emptyHost "A" :: after
        ∧ (faultySettings "10.0.0.1").reported = before ++ after := by
  have hvalidate : (faultySettings " ").validate
      = .error [.emptyHost "A", .invalidName "2b", .duplicateName "a", .emptyName 3] := by
    with_unfolding_all rfl
  have htargets : (faultySettings " ").targets
      = [] ++ { closeTarget "A" with host := " " }
        :: [closeTarget "2b", closeTarget "a", closeTarget ""] := rfl
  have hblank : Text.AllBlank " ".toList := Text.isBlankText_iff.1 (by decide)
  have hhost : ¬ Text.AllBlank "10.0.0.1".toList := mt Text.isBlankText_iff.2 (by decide)
  have hmends : Mends (faultySettings " ") (.emptyHost "A") (faultySettings "10.0.0.1") :=
    .host htargets hblank hhost
  exact ⟨hvalidate, (validate_reports (faultySettings " ")).2.2.2 _ _ hmends⟩

end Settings

end EdgeRouting
