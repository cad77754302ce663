import EdgeRouting.Proofs.Outbound.PathPattern

/-!
# Paths are cut at the longest

A path has fields exactly when it has a cut of the form that the grammar asks for, and the fields
are the pieces of the longest one (`ofPath?_eq_some_iff`, `ofPath?_eq_none_iff`). Any cut of a path
has the package up to the first slash behind the leading one, so two cuts differ only behind the
package, and there the greedy cut is at least as long as any other (`Behind.greedy_ge`). It also
leaves the least over, so a line break in its rest is in the rest of every cut
(`Behind.rest_greedy_suffix`): giving characters back would never turn a failure into a match.
-/

namespace EdgeRouting.PathCut

/-! ## Behind the package -/

/-- The cut with as many characters as possible in the action, and then in the version. -/
def greedy (package t : List Char) : PathCut where
  package := package
  action := t.takeWhile isNameChar
  version := (cutVersion (t.dropWhile isNameChar)).1
  rest := (cutVersion (t.dropWhile isNameChar)).2

theorem greedy_append (package t : List Char) :
    (greedy package t).action ++ ((greedy package t).version ++ (greedy package t).rest) = t := by
  rw [greedy, cutVersion_append, List.takeWhile_append_dropWhile]

/-- A text is an action, a version and a rest one behind the other. -/
structure Behind (c : PathCut) (t : List Char) : Prop where
  action_chars : ∀ x ∈ c.action, isNameChar x = true
  version_form : IsVersion c.version
  append : c.action ++ (c.version ++ c.rest) = t

theorem isNameChar_of_isDivider {d : Char} (h : isDivider d = true) : isNameChar d = false := by
  simp [isNameChar, h]

theorem behind_greedy (package t : List Char) : Behind (greedy package t) t where
  action_chars := List.all_eq_true.1 List.all_takeWhile
  version_form := Outbound.isVersion_cutVersion _
  append := greedy_append package t

namespace Behind

variable {c : PathCut} {t : List Char}

/-- A cut with a version has the longest action, since a divider is no character of a name; its
version can only be too short. -/
theorem greedy_of_version (h : Behind c t) {d : Char} {v : List Char} (hv : c.version = d :: v)
    (package : List Char) :
    (greedy package t).action = c.action
      ∧ (greedy package t).version = d :: (v ++ c.rest.takeWhile isNameChar)
      ∧ (greedy package t).rest = c.rest.dropWhile isNameChar := by
  obtain ⟨hd, hne, hchars⟩ : isDivider d = true ∧ v ≠ [] ∧ ∀ x ∈ v, isNameChar x = true := by
    have hform := h.version_form
    rwa [hv] at hform
  have hstop := isNameChar_of_isDivider hd
  have htake : t.takeWhile isNameChar = c.action := by
    rw [← h.append, hv, List.takeWhile_append_of_pos h.action_chars, List.cons_append,
      List.takeWhile_cons_of_neg (by simp [hstop]), List.append_nil]
  have hdrop : t.dropWhile isNameChar = d :: (v ++ c.rest) := by
    rw [← h.append, hv, List.dropWhile_append_of_pos h.action_chars, List.cons_append,
      List.dropWhile_cons_of_neg (by simp [hstop])]
  have hname : (v ++ c.rest).takeWhile isNameChar = v ++ c.rest.takeWhile isNameChar :=
    List.takeWhile_append_of_pos hchars
  have hrest : (v ++ c.rest).dropWhile isNameChar = c.rest.dropWhile isNameChar :=
    List.dropWhile_append_of_pos hchars
  have hcut : cutVersion (d :: (v ++ c.rest))
      = (d :: (v ++ c.rest.takeWhile isNameChar), c.rest.dropWhile isNameChar) := by
    rw [cutVersion, hname, hrest, if_pos]
    simp [hd, hne]
  exact ⟨htake, by rw [greedy, hdrop, hcut], by rw [greedy, hdrop, hcut]⟩

/-- Without a version the characters of a name at the front of the rest belong to the action. -/
theorem greedy_of_no_version (h : Behind c t) (hv : c.version = []) (package : List Char) :
    (greedy package t).action = c.action ++ c.rest.takeWhile isNameChar
      ∧ (greedy package t).version = (cutVersion (c.rest.dropWhile isNameChar)).1
      ∧ (greedy package t).rest = (cutVersion (c.rest.dropWhile isNameChar)).2 := by
  have htext : t = c.action ++ c.rest := by rw [← h.append, hv, List.nil_append]
  have htake : t.takeWhile isNameChar = c.action ++ c.rest.takeWhile isNameChar := by
    rw [htext, List.takeWhile_append_of_pos h.action_chars]
  have hdrop : t.dropWhile isNameChar = c.rest.dropWhile isNameChar := by
    rw [htext, List.dropWhile_append_of_pos h.action_chars]
  exact ⟨htake, by rw [greedy, hdrop], by rw [greedy, hdrop]⟩

theorem greedy_ge (h : Behind c t) (package : List Char) :
    c.action.length < (greedy package t).action.length
      ∨ (c.action.length = (greedy package t).action.length
        ∧ c.version.length ≤ (greedy package t).version.length) := by
  cases hv : c.version with
  | nil =>
      obtain ⟨haction, -, -⟩ := h.greedy_of_no_version hv package
      have hle : c.action.length ≤ (greedy package t).action.length := by
        rw [haction, List.length_append]
        exact Nat.le_add_right _ _
      rcases Nat.lt_or_eq_of_le hle with hlt | heq
      · exact .inl hlt
      · exact .inr ⟨heq, Nat.zero_le _⟩
  | cons d v =>
      obtain ⟨haction, hversion, -⟩ := h.greedy_of_version hv package
      refine .inr ⟨by rw [haction], ?_⟩
      rw [hversion, List.length_cons, List.length_cons, List.length_append]
      omega

theorem rest_greedy_suffix (h : Behind c t) (package : List Char) :
    (greedy package t).rest <:+ c.rest := by
  cases hv : c.version with
  | nil =>
      obtain ⟨-, -, hrest⟩ := h.greedy_of_no_version hv package
      have hcut : (cutVersion (c.rest.dropWhile isNameChar)).2 <:+ c.rest.dropWhile isNameChar :=
        ⟨_, cutVersion_append _⟩
      rw [hrest]
      exact hcut.trans (List.dropWhile_suffix _)
  | cons d v =>
      obtain ⟨-, -, hrest⟩ := h.greedy_of_version hv package
      rw [hrest]
      exact List.dropWhile_suffix _

theorem action_prefix_greedy (h : Behind c t) (package : List Char) :
    c.action <+: (greedy package t).action := by
  cases hv : c.version with
  | nil => exact ⟨_, (h.greedy_of_no_version hv package).1.symm⟩
  | cons d v => exact ⟨[], by rw [(h.greedy_of_version hv package).1, List.append_nil]⟩

end Behind

/-! ## The package -/

theorem isPackageChar_of_ne {p : List Char} (hp : ∀ x ∈ p, x ≠ '/') :
    ∀ x ∈ p, isPackageChar x = true :=
  fun x hx => by simpa [isPackageChar] using hp x hx

/-- A package ends at the first slash. -/
theorem takeWhile_package {p : List Char} (hp : ∀ x ∈ p, x ≠ '/') (t : List Char) :
    (p ++ '/' :: t).takeWhile isPackageChar = p := by
  rw [List.takeWhile_append_of_pos (isPackageChar_of_ne hp), List.takeWhile_cons_of_neg (by decide),
    List.append_nil]

theorem ofPath?_package {p : List Char} (hp : ∀ x ∈ p, x ≠ '/') (t : List Char) :
    ofPath? ('/' :: (p ++ '/' :: t))
      = if p.isEmpty || (greedy p t).action.isEmpty || (greedy p t).rest.contains '\n' then none
        else some (greedy p t) := by
  have hdrop : (p ++ '/' :: t).dropWhile isPackageChar = '/' :: t := by
    rw [List.dropWhile_append_of_pos (isPackageChar_of_ne hp),
      List.dropWhile_cons_of_neg (by decide)]
  simp only [ofPath?, ofPackage?, takeWhile_package hp, hdrop]
  rfl

theorem cuts_iff {url : List Char} {c : PathCut} : Cuts url c ↔ c.package ≠ []
    ∧ (∀ x ∈ c.package, x ≠ '/') ∧ c.action ≠ [] ∧ '\n' ∉ c.rest
    ∧ ∃ t, url = '/' :: (c.package ++ '/' :: t) ∧ Behind c t := by
  constructor
  · rintro ⟨hform, rfl⟩
    refine ⟨hform.package_ne_nil, hform.package_chars, hform.action_ne_nil, hform.rest_chars, _, ?_,
      hform.action_chars, hform.version_form, rfl⟩
    simp [path]
  · rintro ⟨hpackage, hslash, haction, hrest, t, rfl, hbehind⟩
    refine ⟨⟨hpackage, hslash, haction, hbehind.action_chars, hbehind.version_form, hrest⟩, ?_⟩
    simp [path, ← hbehind.append]

/-- Where there is a cut, the greedy one is found. -/
theorem ofPath?_of_cuts {url : List Char} {c : PathCut} (h : Cuts url c) :
    ∃ t, url = '/' :: (c.package ++ '/' :: t) ∧ Behind c t
      ∧ ofPath? url = some (greedy c.package t) := by
  obtain ⟨hpackage, hslash, haction, hrest, t, rfl, hbehind⟩ := cuts_iff.1 h
  have hlonger : (greedy c.package t).action ≠ [] :=
    fun hnil => haction (List.prefix_nil.1 (hnil ▸ hbehind.action_prefix_greedy c.package))
  have hline : '\n' ∉ (greedy c.package t).rest :=
    fun hmem => hrest ((hbehind.rest_greedy_suffix c.package).mem hmem)
  refine ⟨t, rfl, hbehind, ?_⟩
  rw [ofPath?_package hslash, if_neg]
  simp [hpackage, hlonger, hline]

/-- Two cuts of a path have the same package. -/
theorem package_unique {p q t u : List Char} (hp : ∀ x ∈ p, x ≠ '/') (hq : ∀ x ∈ q, x ≠ '/')
    (h : p ++ '/' :: t = q ++ '/' :: u) : p = q ∧ t = u := by
  have hpackage : p = q := by rw [← takeWhile_package hp t, h, takeWhile_package hq u]
  subst hpackage
  exact ⟨rfl, (List.cons.inj (List.append_cancel_left h)).2⟩

/-! ## The cut that is found -/

theorem slashes_of_ofPath? {url : List Char} {c : PathCut} (h : ofPath? url = some c) :
    ∃ p t, (∀ x ∈ p, x ≠ '/') ∧ url = '/' :: (p ++ '/' :: t) := by
  unfold ofPath? at h
  split at h
  · next s =>
    have hsplit := List.takeWhile_append_dropWhile (p := isPackageChar) (l := s)
    cases hdrop : s.dropWhile isPackageChar with
    | nil => simp [ofPackage?, hdrop] at h
    | cons d t =>
        obtain rfl := not_isPackageChar_head hdrop
        refine ⟨s.takeWhile isPackageChar, t, fun x hx => ?_, by rw [← hdrop, hsplit]⟩
        have hx := List.all_eq_true.1 List.all_takeWhile x hx
        simpa [isPackageChar] using hx
  · cases h

theorem cuts_of_ofPath? {url : List Char} {c : PathCut} (h : ofPath? url = some c) :
    Cuts url c := by
  obtain ⟨p, t, hp, rfl⟩ := slashes_of_ofPath? h
  rw [ofPath?_package hp] at h
  split at h
  · cases h
  · next hform =>
    obtain rfl := Option.some.inj h
    simp only [Bool.or_eq_true, List.isEmpty_iff, List.contains_iff_mem, not_or] at hform
    exact cuts_iff.2 ⟨hform.1.1, hp, hform.1.2, hform.2, t, rfl, behind_greedy p t⟩

theorem isLongest_of_ofPath? {url : List Char} {c : PathCut} (h : ofPath? url = some c) :
    IsLongest url c := by
  refine ⟨cuts_of_ofPath? h, fun d hd => ?_⟩
  obtain ⟨t, -, hbehind, hfound⟩ := ofPath?_of_cuts hd
  obtain rfl := Option.some.inj (h.symm.trans hfound)
  exact hbehind.greedy_ge d.package

/-- No two cuts are the longest. -/
theorem IsLongest.unique {url : List Char} {c d : PathCut} (hc : IsLongest url c)
    (hd : IsLongest url d) : c = d := by
  obtain ⟨-, hp, -, -, t, hurl, hct⟩ := cuts_iff.1 hc.1
  obtain ⟨-, hq, -, -, u, hurl', hdu⟩ := cuts_iff.1 hd.1
  obtain ⟨hpackage, rfl⟩ := package_unique hp hq (List.cons.inj (hurl.symm.trans hurl')).2
  have hle := hc.2 d hd.1
  have hge := hd.2 c hc.1
  obtain ⟨haction, htail⟩ := List.append_inj (hct.append.trans hdu.append.symm) (by omega)
  obtain ⟨hversion, hrest⟩ := List.append_inj htail (by omega)
  cases c
  cases d
  simp_all

/-- The cut that is found is the longest one. -/
theorem ofPath?_eq_some_iff {url : List Char} {c : PathCut} :
    ofPath? url = some c ↔ IsLongest url c := by
  refine ⟨isLongest_of_ofPath?, fun h => ?_⟩
  obtain ⟨t, -, -, hfound⟩ := ofPath?_of_cuts h.1
  rw [hfound, (isLongest_of_ofPath? hfound).unique h]

theorem ofPath?_eq_none_iff {url : List Char} :
    ofPath? url = none ↔ ¬ ∃ c, Cuts url c := by
  constructor
  · rintro h ⟨c, hc⟩
    obtain ⟨t, -, -, hfound⟩ := ofPath?_of_cuts hc
    rw [h] at hfound
    cases hfound
  · intro h
    cases hfound : ofPath? url with
    | none => rfl
    | some c => exact absurd ⟨c, cuts_of_ofPath? hfound⟩ h

/-- Without a version the rest does not begin with one. -/
theorem no_version_of_isLongest {url : List Char} {c : PathCut} (h : IsLongest url c)
    (hv : c.version = []) {d x : Char} {r : List Char} (hrest : c.rest = d :: x :: r)
    (hd : isDivider d = true) : isNameChar x = false := by
  obtain ⟨⟨hform, hpath⟩, hlongest⟩ := h
  refine Bool.eq_false_iff.2 fun hx => ?_
  -- With the divider and the character behind it as its version, the cut would be longer.
  have hlonger : Cuts url { c with version := [d, x], rest := r } := by
    refine ⟨{ hform with
      version_form := ⟨hd, List.cons_ne_nil _ _, by simpa using hx⟩
      rest_chars := fun hline => hform.rest_chars ?_ }, ?_⟩
    · rw [hrest]
      exact List.mem_cons_of_mem _ (List.mem_cons_of_mem _ hline)
    · rw [← hpath, path, path, hv, hrest]
      simp
  rcases hlongest _ hlonger with hlt | ⟨-, hle⟩
  · exact absurd hlt (Nat.lt_irrefl _)
  · simp [hv] at hle

end EdgeRouting.PathCut

namespace EdgeRouting.InboundPath

open Logic Outbound

/-! ## The fields of a path -/

/-- The fields that a match of the path pattern gives: its groups, and the version with its first
divider replaced. Without a match there are none. -/
def ofMatch? : Option Pattern.Match → InboundPath
  | none => empty
  | some m => {
    package := m.group 1
    action := m.group 2
    version := m.group 3
    underscoreVersion := dividerPattern.replaceFirst (m.group 3) "_"
    atVersion := dividerPattern.replaceFirst (m.group 3) "@"
    slashVersion := dividerPattern.replaceFirst (m.group 3) "/"
    rest := m.group 4 }

theorem ofUrl_eq_ofMatch? (url : String) : ofUrl url = ofMatch? (pathPattern.find? url) := by
  rw [find?_pathPattern, ofUrl]
  cases hcut : PathCut.ofPath? url.toList with
  | none => rfl
  | some c =>
      obtain ⟨hpackage, haction, hversion, hrest⟩ := group_matchOfCut c
      have hform := isVersion_of_ofPath? hcut
      have hunderscore := replaceFirst_dividerPattern hform '_'
      have hat := replaceFirst_dividerPattern hform '@'
      have hslash := replaceFirst_dividerPattern hform '/'
      simp only [Option.map_some, ofMatch?, hpackage, haction, hversion, hrest, ofCut]
      rw [← hunderscore, ← hat, ← hslash]
      rfl

/-- What the fields of a URL tell about a cut of it. -/
structure Shows (p : InboundPath) (url : String) (c : PathCut) : Prop where
  package : p.package.toList = c.package
  action : p.action.toList = c.action
  version : p.version.toList = c.version
  rest : p.rest.toList = c.rest
  /-- Nothing of the URL is lost. -/
  whole : "/" ++ p.package ++ "/" ++ p.action ++ p.version ++ p.rest = url
  /-- A version that could be cut off the rest is not left in it. -/
  noneLeft : p.version = "" → ∀ {d x r}, p.rest.toList = d :: x :: r → PathCut.isDivider d = true →
    PathCut.isNameChar x = false
  allEmpty : p.version = "" → p.underscoreVersion = "" ∧ p.atVersion = "" ∧ p.slashVersion = ""
  /-- The version behind each divider differs in its first character only. -/
  divided : ∀ {d v}, p.version.toList = d :: v → p.underscoreVersion.toList = '_' :: v
    ∧ p.atVersion.toList = '@' :: v ∧ p.slashVersion.toList = '/' :: v

theorem shows_ofCut {url : String} {c : PathCut} (h : PathCut.IsLongest url.toList c) :
    (ofCut c).Shows url c where
  package := String.toList_ofList
  action := String.toList_ofList
  version := String.toList_ofList
  rest := String.toList_ofList
  whole := by
    apply String.ext
    rw [← h.1.2]
    simp [ofCut, PathCut.path]
  noneLeft hversion _ _ _ hrest hd :=
    PathCut.no_version_of_isLongest h (String.ofList_eq_empty_iff.1 hversion)
      (String.toList_ofList.symm.trans hrest) hd
  allEmpty hversion := by
    have hnil : c.version = [] := String.ofList_eq_empty_iff.1 hversion
    simp [ofCut, hnil, PathCut.withDivider]
  divided hversion := by
    have hcons := String.toList_ofList.symm.trans hversion
    simp [ofCut, hcons, PathCut.withDivider]

theorem isEmpty_ofCut {c : PathCut} (h : c.package ≠ []) : (ofCut c).isEmpty = false := by
  have hne : ofCut c ≠ empty := by
    intro hempty
    have hpackage : String.ofList c.package = "" := congrArg InboundPath.package hempty
    exact h (String.ofList_eq_empty_iff.1 hpackage)
  simpa [isEmpty] using hne

/-- The fields of a URL are what the path pattern captures. There are any exactly when the URL has a
cut, and they show the one with the longest action and then the longest version; otherwise all are
empty. -/
theorem ofUrl_shows_longest (url : String) :
    ofUrl url = ofMatch? (pathPattern.find? url)
      ∧ ((ofUrl url).isEmpty = false ↔ ∃ c, PathCut.Cuts url.toList c)
      ∧ ((∃ c, PathCut.Cuts url.toList c) → ∃ c, PathCut.IsLongest url.toList c
        ∧ (∀ d, PathCut.IsLongest url.toList d → d = c) ∧ (ofUrl url).Shows url c)
      ∧ ((¬ ∃ c, PathCut.Cuts url.toList c) → ofUrl url = ⟨"", "", "", "", "", "", ""⟩) := by
  refine ⟨ofUrl_eq_ofMatch? url, ?_⟩
  cases hcut : PathCut.ofPath? url.toList with
  | none =>
      have hno := PathCut.ofPath?_eq_none_iff.1 hcut
      have hempty : ofUrl url = empty := by rw [ofUrl, hcut]
      refine ⟨⟨fun h => ?_, fun h => absurd h hno⟩, fun h => absurd h hno, fun _ => hempty⟩
      rw [hempty] at h
      cases h
  | some c =>
      have hlongest := PathCut.ofPath?_eq_some_iff.1 hcut
      have hfields : ofUrl url = ofCut c := by rw [ofUrl, hcut]
      have hsome : ∃ c, PathCut.Cuts url.toList c := ⟨c, hlongest.1⟩
      rw [hfields]
      refine ⟨⟨fun _ => hsome, fun _ => isEmpty_ofCut hlongest.1.1.package_ne_nil⟩, fun _ => ?_,
        fun hno => absurd hsome hno⟩
      exact ⟨c, hlongest, fun d hd => hd.unique hlongest, shows_ofCut hlongest⟩

/-- A path with two dividers, and a cut of it that is not the longest: only the text behind the
first divider is the version. -/
theorem shows_twoDividers :
    PathCut.Cuts "/pkg/act_2@3/r".toList ⟨"pkg".toList, "a".toList, [], "ct_2@3/r".toList⟩
      ∧ ¬ (∃ c, PathCut.Cuts "/pkg".toList c) ∧ ofUrl "/pkg" = ⟨"", "", "", "", "", "", ""⟩
      ∧ ∃ c, PathCut.IsLongest "/pkg/act_2@3/r".toList c
        ∧ (ofUrl "/pkg/act_2@3/r").Shows "/pkg/act_2@3/r" c := by
  have hcut : PathCut.Cuts "/pkg/act_2@3/r".toList
      ⟨"pkg".toList, "a".toList, [], "ct_2@3/r".toList⟩ :=
    ⟨⟨by simp, by simp, by simp, by simp [PathCut.isNameChar, PathCut.isDivider], trivial,
      by simp⟩, by decide⟩
  have hnone : ¬ ∃ c, PathCut.Cuts "/pkg".toList c :=
    PathCut.ofPath?_eq_none_iff.1 (by decide)
  obtain ⟨-, -, hfound, -⟩ := ofUrl_shows_longest "/pkg/act_2@3/r"
  obtain ⟨-, -, -, hempty⟩ := ofUrl_shows_longest "/pkg"
  obtain ⟨c, hlongest, -, hshows⟩ := hfound ⟨_, hcut⟩
  exact ⟨hcut, hnone, hempty hnone, c, hlongest, hshows⟩

end EdgeRouting.InboundPath
