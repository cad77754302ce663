import Mathlib.Data.List.TakeWhile
import EdgeRouting.Proofs.Lists
import EdgeRouting.Proofs.Selection.Agreement
import EdgeRouting.Proofs.Selection.Winner

/-!
# Overrides that are written as pairs

An override header is a list of pairs with separators between them. What is read back of such a list
is the value of the first pair with the key that is asked for (`subfield_eq_lookup`), so the token of
a request is the first value of `env` unless that is empty (`tokenOf_eq_lookup`).

With a token the draw, the health and the thresholds play no part: the contender with that key wins,
and since no two keys are equal it is the only one. Without a token the header might as well not be
there. `select_of_listsPairs` says both of a compiled selector.
-/

namespace EdgeRouting

namespace Selection

/-! ## Lists of pairs -/

/-- A piece of text spells a pair: key and value around an equals sign, or the bare key when the
value is empty. -/
def Spells (piece : List Char) (pair : String × String) : Prop :=
  piece = pair.1.toList ++ '=' :: pair.2.toList ∨ pair.2 = "" ∧ piece = pair.1.toList

/-- A source lists pairs between separators. -/
structure ListsPairs (separator : Char) (source : String) (pairs : List (String × String)) :
    Prop where
  spelled : ∃ pieces, source.toList = Text.joinPieces [separator] pieces
    ∧ List.Forall₂ Spells pieces pairs
  keys : ∀ e ∈ pairs, '=' ∉ e.1.toList ∧ separator ∉ e.1.toList
  values : ∀ e ∈ pairs, separator ∉ e.2.toList

section Pieces

variable {piece : List Char} {pair : String × String}

theorem forall_ne_equals {s : List Char} (h : '=' ∉ s) : ∀ c ∈ s, decide (c ≠ '=') = true :=
  fun _ hc => decide_eq_true fun heq => h (heq ▸ hc)

theorem pairKey_of_spells (h : Spells piece pair) (hkey : '=' ∉ pair.1.toList) :
    pairKey piece = pair.1.toList := by
  have hchars := forall_ne_equals hkey
  rcases h with rfl | ⟨-, rfl⟩
  · rw [pairKey, List.takeWhile_append_of_pos hchars, List.takeWhile_cons_of_neg (by decide),
      List.append_nil]
  · exact List.takeWhile_eq_self_iff.2 hchars

theorem pairValue_of_spells (h : Spells piece pair) (hkey : '=' ∉ pair.1.toList) :
    pairValue piece = pair.2.toList := by
  have hchars := forall_ne_equals hkey
  rcases h with rfl | ⟨hempty, rfl⟩
  · rw [pairValue, List.dropWhile_append_of_pos hchars, List.dropWhile_cons_of_neg (by decide)]
    rfl
  · rw [pairValue, List.dropWhile_eq_nil_iff.2 hchars, hempty]
    rfl

theorem not_mem_of_spells {separator : Char} (hseparator : separator ≠ '=')
    (h : Spells piece pair) (hkey : separator ∉ pair.1.toList)
    (hvalue : separator ∉ pair.2.toList) : separator ∉ piece := by
  rcases h with rfl | ⟨-, rfl⟩
  · simp [hseparator, hkey, hvalue]
  · exact hkey

end Pieces

section Lists

variable {separator : Char} {pieces : List (List Char)} {pairs : List (String × String)}

theorem not_mem_pieces (hseparator : separator ≠ '=') (h : List.Forall₂ Spells pieces pairs)
    (hkeys : ∀ e ∈ pairs, separator ∉ e.1.toList) (hvalues : ∀ e ∈ pairs, separator ∉ e.2.toList) :
    ∀ piece ∈ pieces, separator ∉ piece := by
  induction h with
  | nil => simp
  | @cons piece pair _ _ hspells _ ih =>
      rw [List.forall_mem_cons] at hkeys hvalues ⊢
      exact ⟨not_mem_of_spells hseparator hspells hkeys.1 hvalues.1, ih hkeys.2 hvalues.2⟩

theorem find?_pairKey_of_spells (h : List.Forall₂ Spells pieces pairs)
    (hkeys : ∀ e ∈ pairs, '=' ∉ e.1.toList) (key : String) :
    (pieces.find? fun piece => pairKey piece == key.toList).map pairValue
      = (pairs.lookup key).map String.toList := by
  induction h with
  | nil => rfl
  | @cons piece pair _ _ hspells _ ih =>
      rw [List.forall_mem_cons] at hkeys
      have hkey := pairKey_of_spells hspells hkeys.1
      obtain ⟨k, v⟩ := pair
      rw [List.find?_cons, List.lookup_cons, hkey]
      by_cases heq : key = k
      · subst heq
        simp [pairValue_of_spells hspells hkeys.1]
      · have hne : (k.toList == key.toList) = false := by
          simpa [String.toList_inj] using Ne.symm heq
        have hne' : (key == k) = false := by simpa using heq
        rw [hne, hne']
        exact ih hkeys.2

end Lists

/-- What is read of a list of pairs is the first value under the key. The list of no pairs is the
empty text, which reads like the empty key with an empty value. -/
theorem subfield_eq_lookup {separator : Char} (hseparator : separator ≠ '=') {source : String}
    {pairs : List (String × String)} (h : ListsPairs separator source pairs) {key : String}
    (hkey : pairs ≠ [] ∨ key ≠ "") : subfield source key separator = pairs.lookup key := by
  obtain ⟨pieces, hsource, hspelled⟩ := h.spelled
  have hfound : subfieldChars source.toList key.toList separator
      = (pairs.lookup key).map String.toList := by
    cases hspelled with
    | nil =>
        have hne : key ≠ "" := by simpa using hkey
        rw [subfieldChars, hsource]
        simp [Text.joinPieces, Text.pieces, pairKey, hne]
    | @cons piece pair r s hspells hrest =>
        have hplain := not_mem_pieces hseparator (.cons hspells hrest)
          (fun e he => (h.keys e he).2) h.values
        rw [subfieldChars, hsource, Text.pieces_joinPieces separator (by simp) hplain]
        exact find?_pairKey_of_spells (.cons hspells hrest) (fun e he => (h.keys e he).1) key
  rw [subfield, hfound, Option.map_map]
  cases pairs.lookup key with
  | none => rfl
  | some v => simp

/-- The token of a header that lists pairs is the first value of `env`, unless it is empty. -/
theorem tokenOf_eq_lookup {header : String} {pairs : List (String × String)}
    (h : ListsPairs overrideSeparator header pairs) :
    tokenOf (some header) = (pairs.lookup overrideKey).filter (· ≠ "") := by
  show overrideToken header = _
  rw [overrideToken, subfield_eq_lookup (by decide) h (.inr (by decide))]

end Selection

namespace Selector

variable {targets : List Target} {table : WeightTable} {lockHeader : String} {p : Selector}
  {draw : Nat} {health : List Bool} {header token : String} {i : Nat} {t : Target}

/-! ## Contenders and their targets -/

theorem exists_target_at (hp : ofTargets targets table lockHeader = .ok p)
    {c : Contender} (hc : p.contenders[i]? = some c) :
    ∃ t, targets[i]? = some t ∧ c.name = t.name ∧ c.key = t.key ∧ c.backend = t.backendRef := by
  obtain ⟨-, hcontenders, -⟩ := ofTargets_eq_ok hp
  rw [hcontenders] at hc
  exact exists_target_of_contender hc

theorem exists_contender_at (hp : ofTargets targets table lockHeader = .ok p)
    (ht : targets[i]? = some t) :
    ∃ c, p.contenders[i]? = some c ∧ c.name = t.name ∧ c.key = t.key ∧ c.backend = t.backendRef := by
  obtain ⟨-, hcontenders, -⟩ := ofTargets_eq_ok hp
  have hmap := map_target_contendersFrom (f := fun c => (c.name, c.key, c.backend))
    (g := fun t => (t.name, t.key, t.backendRef)) (fun _ _ => rfl)
    (Shares.weightOf table (evenShare targets.length)) 0 targets
  have hi := congrArg (·[i]?) hmap
  simp only [← hcontenders, List.getElem?_map, ht, Option.map_some] at hi
  obtain ⟨c, hc, heq⟩ := Option.map_eq_some_iff.1 hi
  simp only [Prod.mk.injEq] at heq
  exact ⟨c, hc, heq⟩

theorem nodup_keys (hp : ofTargets targets table lockHeader = .ok p) :
    (p.contenders.map Contender.key).Nodup := by
  obtain ⟨hnamed, hcontenders, -⟩ := ofTargets_eq_ok hp
  rw [hcontenders, map_target_contendersFrom (g := Target.key) fun _ _ => rfl]
  exact hnamed.2

theorem key_ne_empty (hp : ofTargets targets table lockHeader = .ok p) :
    ∀ c ∈ p.contenders, c.key ≠ "" := by
  intro c hc
  obtain ⟨hnamed, -⟩ := ofTargets_eq_ok hp
  obtain ⟨i, hi⟩ := List.getElem?_of_mem hc
  obtain ⟨t, ht, -, hkey, -⟩ := exists_target_at hp hi
  rw [hkey]
  exact hnamed.key_ne_empty (List.mem_of_getElem? ht)

/-! ## Selections under a token -/

/-- Under a token, the contender of the target with that key wins, and it is the first one to do so
because no other target has the key. -/
theorem select_of_key_eq (hp : ofTargets targets table lockHeader = .ok p)
    (htoken : Selection.tokenOf (some header) = some token) (ht : targets[i]? = some t)
    (hkey : t.key = token) :
    (p.select ⟨draw, health, some header⟩).index = i
      ∧ (p.select ⟨draw, health, some header⟩).name = t.name
      ∧ (p.select ⟨draw, health, some header⟩).fallback = false := by
  obtain ⟨c, hc, hname, hckey, -⟩ := exists_contender_at hp ht
  have hfirst : p.IsFirstWinner ⟨draw, health, some header⟩ i := by
    refine ⟨(winsAt_iff_of_token htoken).2 ⟨c, hc, hckey.trans hkey⟩, fun j hj hwins => ?_⟩
    obtain ⟨d, hd, hdkey⟩ := (winsAt_iff_of_token htoken).1 hwins
    exact Nat.ne_of_lt hj (position_inj (nodup_keys hp) hd hc (by rw [hdkey, hckey, hkey]))
  rw [select_of_isFirstWinner hfirst hc]
  exact ⟨rfl, hname, rfl⟩

/-- A token that is nobody's key sends the request to the first target, as a fallback. -/
theorem select_of_forall_key_ne (hp : ofTargets targets table lockHeader = .ok p)
    (htoken : Selection.tokenOf (some header) = some token) (hkeys : ∀ t ∈ targets, t.key ≠ token) :
    (p.select ⟨draw, health, some header⟩).index = 0
      ∧ targets.head?.map Target.name = some (p.select ⟨draw, health, some header⟩).name
      ∧ (p.select ⟨draw, health, some header⟩).fallback = true := by
  have hnone : ∀ i, ¬ p.WinsAt ⟨draw, health, some header⟩ i := by
    intro i hwins
    obtain ⟨c, hc, hckey⟩ := (winsAt_iff_of_token htoken).1 hwins
    obtain ⟨t, ht, -, htkey, -⟩ := exists_target_at hp hc
    exact hkeys t (List.mem_of_getElem? ht) (htkey.symm.trans hckey)
  obtain ⟨t, ht, htname, -⟩ := exists_target_at hp p.getElem?_zero_contenders
  rw [select_of_forall_not_winsAt hnone, List.head?_eq_getElem?, ht]
  exact ⟨rfl, congrArg some htname.symm, rfl⟩

/-- Without a token the header might as well not be there. -/
theorem select_of_no_token {lock : Option String} (h : Selection.tokenOf lock = none) :
    p.select ⟨draw, health, lock⟩ = p.select ⟨draw, health, none⟩ := by
  have habsent : Selection.tokenOf none = none := rfl
  have hwins : ∀ i, p.WinsAt ⟨draw, health, lock⟩ i ↔ p.WinsAt ⟨draw, health, none⟩ i := by
    intro i
    rw [winsAt_iff_of_no_token h, winsAt_iff_of_no_token habsent]
  rcases p.select_cases ⟨draw, health, lock⟩ with ⟨i, c, hfirst, hc, hselect⟩ | ⟨hnone, hselect⟩
  · have hfirst' : p.IsFirstWinner ⟨draw, health, none⟩ i :=
      ⟨(hwins i).1 hfirst.wins, fun j hj hj' => hfirst.first j hj ((hwins j).2 hj')⟩
    rw [hselect, select_of_isFirstWinner hfirst' hc]
  · rw [hselect, select_of_forall_not_winsAt fun i hi => hnone i ((hwins i).2 hi)]

/-- The first `env` of the header decides alone. When it has a value, the target with that key serves
the request, whatever the draw, its weight and its health are, and with no such target the fallback
does. When it is absent or empty, the header is as good as absent, whatever later pairs say. -/
theorem select_of_listsPairs (hp : ofTargets targets table lockHeader = .ok p)
    {pairs : List (String × String)}
    (hpairs : Selection.ListsPairs Selection.overrideSeparator header pairs)
    (draw : Nat) (health : List Bool) :
    let choice := p.select ⟨draw, health, some header⟩
    (∀ v, pairs.lookup Selection.overrideKey = some v → v ≠ "" →
        (∀ i t, targets[i]? = some t → t.key = v →
          choice.index = i ∧ choice.name = t.name ∧ choice.fallback = false)
        ∧ ((∀ t ∈ targets, t.key ≠ v) → choice.index = 0
          ∧ targets.head?.map Target.name = some choice.name ∧ choice.fallback = true))
      ∧ ((∀ v, pairs.lookup Selection.overrideKey = some v → v = "") →
        choice = p.select ⟨draw, health, none⟩) := by
  have htoken := Selection.tokenOf_eq_lookup hpairs
  refine ⟨fun v hv hne => ?_, fun hempty => ?_⟩
  · have hsome : Selection.tokenOf (some header) = some v := by simp [htoken, hv, Option.filter, hne]
    exact ⟨fun i t ht hkey => select_of_key_eq hp hsome ht hkey,
      fun hkeys => select_of_forall_key_ne hp hsome hkeys⟩
  · refine select_of_no_token ?_
    rw [htoken, Option.filter_eq_none_iff]
    exact fun v hv => by simpa using hempty v hv

/-- The second target is unhealthy, and the draw would go to the first. Still the second one is
selected, because it is the first that the header names. -/
theorem select_pinnedGreen :
    ofTargets blueGreen blueGreenTable "X-Lock" = .ok blueGreenSelector
      ∧ (blueGreenSelector.select ⟨0, [true], some "flag&x=a=env=b&env=green&env=blue"⟩).index = 1
      ∧ (blueGreenSelector.select ⟨0, [true], some "flag&x=a=env=b&env=green&env=blue"⟩).fallback
        = false := by
  have hp : ofTargets blueGreen blueGreenTable "X-Lock" = .ok blueGreenSelector := rfl
  have hpairs : Selection.ListsPairs Selection.overrideSeparator
      "flag&x=a=env=b&env=green&env=blue"
      [("flag", ""), ("x", "a=env=b"), ("env", "green"), ("env", "blue")] := by
    refine ⟨⟨["flag".toList, "x=a=env=b".toList, "env=green".toList, "env=blue".toList], by decide,
      .cons ?_ (.cons ?_ (.cons ?_ (.cons ?_ .nil)))⟩, by decide, by decide⟩
    · exact .inr ⟨rfl, rfl⟩
    · exact .inl (by decide)
    · exact .inl (by decide)
    · exact .inl (by decide)
  obtain ⟨hindex, -, hfallback⟩ := ((select_of_listsPairs hp hpairs 0 [true]).1 "green" (by decide)
    (by decide)).1 1 _ rfl (by decide)
  exact ⟨hp, hindex, hfallback⟩

end Selector

end EdgeRouting
