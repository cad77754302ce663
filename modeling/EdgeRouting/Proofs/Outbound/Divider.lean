import EdgeRouting.Proofs.Outbound.Served
import EdgeRouting.Proofs.Path.Cuts
import EdgeRouting.Proofs.Template.Printing

/-!
# Another divider

A path whose version is put behind another divider is cut at the same places. A divider is no
character of a name, so the action still ends in front of it; and where a path has a version, its
rest cannot go on with a character of a name, or the version would have been longer
(`takeWhile_rest`). So the fields are the same but for the version as it is written
(`ofUrl_behind`).

A target can put the version behind a divider and leave the rest of the path alone. What it makes of
a URL is then a URL that it leaves as it is, and of which no target that takes the version with a
divider of its own makes anything else than of the first one (`url?_divided`).
-/

namespace EdgeRouting

namespace PathCut

variable {url : List Char} {c : PathCut} {x d : Char} {v : List Char}

/-- The cut with its version behind another divider. -/
def behind (c : PathCut) (x : Char) : PathCut := { c with version := withDivider x c.version }

theorem withDivider_withDivider (x y : Char) (version : List Char) :
    withDivider y (withDivider x version) = withDivider y version := by
  cases version <;> rfl

theorem behind_of_no_version (hv : c.version = []) (x : Char) : c.behind x = c := by
  cases c
  simp_all [behind, withDivider]

/-- Behind a version that was cut, the rest goes on with no character of a name. -/
theorem takeWhile_rest (h : ofPath? url = some c) (hv : c.version = d :: v) :
    c.rest.takeWhile isNameChar = [] ∧ c.rest.dropWhile isNameChar = c.rest := by
  obtain ⟨t, -, hbehind, hfound⟩ := ofPath?_of_cuts (cuts_of_ofPath? h)
  have hgreedy : greedy c.package t = c := Option.some.inj (hfound.symm.trans h)
  obtain ⟨-, hversion, hrest⟩ := hbehind.greedy_of_version hv c.package
  rw [hgreedy, hv, List.cons.injEq, List.self_eq_append_right] at hversion
  rw [hgreedy] at hrest
  exact ⟨hversion.2, hrest.symm⟩

theorem cuts_behind (h : Cuts url c) (hx : isDivider x = true) :
    Cuts (c.behind x).path (c.behind x) := by
  refine ⟨{ h.1 with version_form := ?_ }, rfl⟩
  have hform := h.1.version_form
  cases hv : c.version with
  | nil => simp [behind, hv, withDivider, IsVersion]
  | cons d v =>
      rw [hv] at hform
      rw [behind, hv]
      exact ⟨hx, hform.2⟩

/-- The path with the other divider is cut at the same places. -/
theorem ofPath?_behind (h : ofPath? url = some c) (hx : isDivider x = true) :
    ofPath? (c.behind x).path = some (c.behind x) := by
  have hcuts := cuts_of_ofPath? h
  cases hv : c.version with
  | nil => rw [behind_of_no_version hv, hcuts.2, h]
  | cons d v =>
      obtain ⟨hname, hrest⟩ := takeWhile_rest h hv
      obtain ⟨t, -, hbehind, hfound⟩ := ofPath?_of_cuts (cuts_behind hcuts hx)
      have hversion : (c.behind x).version = x :: v := by rw [behind, hv, withDivider]
      obtain ⟨haction, hlonger, hleft⟩ := hbehind.greedy_of_version hversion c.package
      have hlongest : (greedy c.package t).version = (c.behind x).version := by
        rw [hlonger, hversion]
        simp [behind, hname]
      have hall : (greedy c.package t).rest = c.rest := hleft.trans hrest
      have hsame : (⟨c.package, (greedy c.package t).action, (greedy c.package t).version,
          (greedy c.package t).rest⟩ : PathCut) = c.behind x := by rw [haction, hlongest, hall]; rfl
      rw [hfound]
      exact congrArg some hsame

end PathCut

namespace InboundPath

variable {url : String}

/-! ## Fields -/

/-- The URL that the fields make up with this text as the version. -/
def urlWith (p : InboundPath) (version : String) : String :=
  "/" ++ p.package ++ "/" ++ p.action ++ version ++ p.rest

/-- The placeholders for the version behind a divider. -/
def dividerForms : List Placeholder := [.atVersion, .underscoreVersion]

/-- The URLs are the same, or two dividers at one place are all that they differ in. -/
def DifferInDivider (url url' : String) : Prop :=
  url = url' ∨ ∃ before d d' after, PathCut.isDivider d = true ∧ PathCut.isDivider d' = true
    ∧ url.toList = before ++ d :: after ∧ url'.toList = before ++ d' :: after

/-- Each of the two forms is the version behind a divider. -/
theorem exists_divider {f : Placeholder} (hf : f ∈ dividerForms) : ∃ x,
    PathCut.isDivider x = true
      ∧ ∀ c : PathCut, (ofCut c).value f = String.ofList (c.behind x).version := by
  simp only [dividerForms, List.mem_cons, List.not_mem_nil, or_false] at hf
  rcases hf with rfl | rfl
  · exact ⟨'@', by decide, fun _ => rfl⟩
  · exact ⟨'_', by decide, fun _ => rfl⟩

theorem value_withVersion {f : Placeholder} (hf : f ∈ dividerForms) (p : InboundPath)
    (version : String) : ({ p with version } : InboundPath).value f = p.value f := by
  simp only [dividerForms, List.mem_cons, List.not_mem_nil, or_false] at hf
  rcases hf with rfl | rfl <;> rfl

theorem ofCut_behind (c : PathCut) (x : Char) :
    ofCut (c.behind x) = { ofCut c with version := String.ofList (c.behind x).version } := by
  simp only [ofCut, PathCut.behind, PathCut.withDivider_withDivider]

theorem urlWith_ofCut (c : PathCut) (x : Char) :
    (ofCut c).urlWith (String.ofList (c.behind x).version) = String.ofList (c.behind x).path := by
  apply String.ext
  simp [urlWith, ofCut, PathCut.path, PathCut.behind]

theorem exists_ofPath? (h : (ofUrl url).isEmpty = false) :
    ∃ c, PathCut.ofPath? url.toList = some c ∧ ofUrl url = ofCut c := by
  unfold ofUrl at h ⊢
  cases hcut : PathCut.ofPath? url.toList with
  | none =>
      rw [hcut] at h
      cases h
  | some c => exact ⟨c, rfl, rfl⟩

theorem differInDivider_behind {c : PathCut} {x : Char} (h : PathCut.Cuts url.toList c)
    (hx : PathCut.isDivider x = true) : DifferInDivider url (String.ofList (c.behind x).path) := by
  obtain ⟨hform, hpath⟩ := h
  cases hv : c.version with
  | nil =>
      left
      rw [PathCut.behind_of_no_version hv, hpath, String.ofList_toList]
  | cons d v =>
      right
      have hd := hform.version_form
      rw [hv] at hd
      refine ⟨'/' :: c.package ++ '/' :: c.action, d, x, v ++ c.rest, hd.1, hx, ?_, ?_⟩
      · rw [← hpath, PathCut.path, hv]
        simp
      · rw [String.toList_ofList, PathCut.path, PathCut.behind, hv]
        simp [PathCut.withDivider]

/-- With another divider in front of its version, the URL has the same fields but for the version as
it is written. -/
theorem ofUrl_behind {c : PathCut} {x : Char} (h : PathCut.ofPath? url.toList = some c)
    (hx : PathCut.isDivider x = true) : ofUrl (String.ofList (c.behind x).path)
      = { ofCut c with version := String.ofList (c.behind x).version } := by
  rw [ofUrl, String.toList_ofList, PathCut.ofPath?_behind h hx]
  exact ofCut_behind c x

end InboundPath

namespace Outbound

/-! ## Targets that write the divider -/

open InboundPath (dividerForms)

/-- The text of a template that puts the version behind a divider and leaves all else alone. -/
def dividerSource (f : Placeholder) : String :=
  "/\x7bpackage\x7d/\x7baction\x7d\x7b" ++ f.name ++ "\x7d\x7brest\x7d"

def dividerParts (f : Placeholder) : List Template.Part :=
  [.literal "/", .field .package, .literal "/", .field .action, .field f, .field .rest]

theorem parse_dividerSource (f : Placeholder) :
    Template.parse (dividerSource f) = .ok ⟨dividerSource f, dividerParts f⟩ := by
  have hsource : (dividerSource f).toList = (dividerParts f).flatMap Template.printPart := by
    cases f <;> rfl
  have hnormal : Template.IsNormal (dividerParts f) := by simp [dividerParts, Template.IsNormal]
  refine Template.parse_eq_ok_iff.2 ⟨rfl, ?_⟩
  rw [hsource]
  exact Template.scan_flatMap_printPart hnormal

/-- Parts are filled in alike by values that agree on the placeholders among them. -/
theorem expandParts_congr {value value' : Placeholder → String} {parts : List Template.Part}
    (h : ∀ f, .field f ∈ parts → value f = value' f) :
    Template.expandParts value parts = Template.expandParts value' parts := by
  induction parts with
  | nil => rfl
  | cons part r ih =>
      have hr := ih fun f hf => h f (List.mem_cons_of_mem _ hf)
      cases part with
      | literal s => rw [Template.expandParts, Template.expandParts, hr]
      | field f => rw [Template.expandParts, Template.expandParts, hr, h f List.mem_cons_self]

theorem expand_dividerSource {t : Target} {f : Placeholder} (hf : f ∈ dividerForms)
    (ht : Template.parse (dividerSource f) = .ok t.template) (path : InboundPath) :
    t.template.expand (t.valueOn path) = path.urlWith (path.value f) := by
  have hbase : f ≠ .basePath := by
    rintro rfl
    simp [dividerForms] at hf
  rw [← Except.ok.inj ((parse_dividerSource f).symm.trans ht)]
  simp [Template.expand, dividerParts, Template.expandParts, Target.valueOn, hbase,
    InboundPath.value, InboundPath.urlWith, String.append_assoc]

/-- A template that does not ask for the version as it is written cannot tell which it was. -/
theorem expand_withVersion {t : Target} (ht : .field .version ∉ t.template.parts)
    (path : InboundPath) (version : String) :
    t.template.expand (t.valueOn { path with version }) = t.template.expand (t.valueOn path) := by
  refine expandParts_congr fun f hf => ?_
  cases f with
  | version => exact absurd hf ht
  | _ => rfl

/-- The URL with its version behind a divider has the fields of the URL itself but for the version as
it is written, and differs from it in the divider only. A target that writes this divider turns the
one URL into the other and leaves that as it is, and no target behind it notices, unless its template
asks for the version as it is written. -/
theorem url?_divided {url : String} (hsome : (InboundPath.ofUrl url).isEmpty = false)
    {f : Placeholder} (hf : f ∈ dividerForms) :
    let path := InboundPath.ofUrl url
    let divided := path.urlWith (path.value f)
    InboundPath.ofUrl divided = { path with version := path.value f }
      ∧ InboundPath.DifferInDivider url divided
      ∧ ∀ {targets : List Target} {o : Outbound}, Outbound.ofTargets targets = .ok o →
        ∀ t ∈ targets,
          (Template.parse (dividerSource f) = .ok t.template →
            o.url? t.name url = some divided ∧ o.url? t.name divided = some divided)
          ∧ (.field .version ∉ t.template.parts → o.url? t.name divided = o.url? t.name url) := by
  intro path divided
  obtain ⟨c, hcut, hpath⟩ : ∃ c, PathCut.ofPath? url.toList = some c ∧ path = .ofCut c :=
    InboundPath.exists_ofPath? hsome
  obtain ⟨x, hx, hvalue⟩ := InboundPath.exists_divider hf
  have hversion : path.value f = String.ofList (c.behind x).version := by rw [hpath, hvalue]
  have hdivided : divided = String.ofList (c.behind x).path := by
    rw [← InboundPath.urlWith_ofCut, ← hpath, ← hversion]
  have hfields : InboundPath.ofUrl divided = { path with version := path.value f } := by
    rw [hdivided, InboundPath.ofUrl_behind hcut hx, hversion, hpath]
  refine ⟨hfields, ?_, fun ho t ht => ⟨fun htemplate => ?_, fun hplain => ?_⟩⟩
  · rw [hdivided]
    exact InboundPath.differInDivider_behind (PathCut.cuts_of_ofPath? hcut) hx
  · have hagain : ({ path with version := path.value f } : InboundPath).urlWith
        (({ path with version := path.value f } : InboundPath).value f) = divided :=
      congrArg path.urlWith (InboundPath.value_withVersion hf path _)
    rw [url?_of_mem ho ht, url?_of_mem ho ht, expand_dividerSource hf htemplate,
      expand_dividerSource hf htemplate, hfields, hagain]
    exact ⟨rfl, rfl⟩
  · rw [url?_of_mem ho ht, url?_of_mem ho ht, hfields, expand_withVersion hplain]

/-! ### A rest that begins with a divider

Package and version hold a line break, and the rest begins with a divider and a slash. -/

example : dividerSource .atVersion
    = "/\x7bpackage\x7d/\x7baction\x7d\x7batversion\x7d\x7brest\x7d" := rfl

def dividerTarget : Target :=
  ⟨"edge", "edge.example", "",
    ⟨dividerSource .underscoreVersion, dividerParts .underscoreVersion⟩, ""⟩

theorem url?_divided_lineBreaks :
    (InboundPath.ofUrl "/a\nb/act@v\n1@/r").isEmpty = false
      ∧ ∃ o, Outbound.ofTargets [dividerTarget] = .ok o
        ∧ o.url? "edge" "/a\nb/act@v\n1@/r" = some "/a\nb/act_v\n1@/r"
        ∧ o.url? "edge" "/a\nb/act_v\n1@/r" = some "/a\nb/act_v\n1@/r"
        ∧ (InboundPath.ofUrl "/a\nb/act_v\n1@/r").version = "_v\n1" := by
  have hsome : (InboundPath.ofUrl "/a\nb/act@v\n1@/r").isEmpty = false := by decide
  have ho : Outbound.ofTargets [dividerTarget] = .ok ⟨[.ofTarget dividerTarget]⟩ := rfl
  have htarget : dividerTarget ∈ [dividerTarget] := List.mem_singleton_self _
  obtain ⟨hfields, -, hgateways⟩ := url?_divided hsome (f := .underscoreVersion)
    (List.mem_cons_of_mem _ List.mem_cons_self)
  obtain ⟨hfirst, hagain⟩ := (hgateways ho dividerTarget htarget).1
    (parse_dividerSource .underscoreVersion)
  have hdivided : (InboundPath.ofUrl "/a\nb/act@v\n1@/r").urlWith
      ((InboundPath.ofUrl "/a\nb/act@v\n1@/r").value .underscoreVersion)
      = "/a\nb/act_v\n1@/r" := by decide
  rw [hdivided] at hfields hfirst hagain
  exact ⟨hsome, _, ho, hfirst, hagain, congrArg InboundPath.version hfields⟩

end Outbound

end EdgeRouting
