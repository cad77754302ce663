import EdgeRouting.Http.Store
import EdgeRouting.Proofs.Lists
import EdgeRouting.Proofs.Url.Percent

/-!
# Segments that are found again

What is put on a path can be read off it again exactly if it is whole (`IsWhole`): it is not one or
two dots, and no character of it vanishes. A whole segment stands in the path as an encoding of its
own (`segment?_segmentText`), which holds no separator, so the text of the path tells the segments
apart (`pathText_append_inj`). A segment that is not whole is lost, and it is lost for good. No
segment makes a path longer by more than one (`length_foldl_pushSegment_le`), so what one of them
leaves out, or takes away by stepping upwards, no later one can make up for
(`isWhole_of_foldl_pushSegment`).
-/

namespace EdgeRouting.Url

open Http.Store (segment? segmentsBehind?)

variable {scheme segment : String} {path segments texts : List String}

/-- A segment that is not one or two dots, and of which no character vanishes. -/
def IsWhole (segment : String) : Prop :=
  segment ≠ "." ∧ segment ≠ ".." ∧ ∀ c ∈ segment.toList, isIgnored c = false

instance : Decidable (IsWhole segment) :=
  decidable_of_iff
    (segment ≠ "." ∧ segment ≠ ".." ∧ segment.toList.all (!isIgnored ·) = true)
    (by simp only [IsWhole, List.all_eq_true, Bool.not_eq_true'])

/-- A path without its last segment if that is empty. -/
def withoutTrailing (path : List String) : List String :=
  if path.getLast? = some "" then path.dropLast else path

/-! ## Whole segments -/

theorem IsWhole.filter_eq (h : IsWhole segment) :
    segment.toList.filter (!isIgnored ·) = segment.toList := by
  refine List.filter_eq_self.2 fun c hc => ?_
  rw [h.2.2 c hc]
  rfl

theorem IsWhole.undotted (h : IsWhole segment) : Undotted segment where
  single := by
    rw [h.filter_eq]
    exact fun hdot => h.1 (String.toList_inj.1 hdot)
  double := by
    rw [h.filter_eq]
    exact fun hdots => h.2.1 (String.toList_inj.1 hdots)

theorem isWhole_of_name (h : ∀ c ∈ segment.toList, isNameChar c = true) : IsWhole segment :=
  ⟨(undotted_of_name h).ne_dots.1, (undotted_of_name h).ne_dots.2,
    fun c hc => (plain_of_isNameChar false (h c hc)).2.2.1⟩

theorem isWhole_toString (n : Nat) : IsWhole (toString n) :=
  isWhole_of_name fun _ => isNameChar_of_mem_toString

/-- What is read off a segment is the segment without what vanishes. -/
theorem segment?_segmentText_eq (special : Bool) (segment : String) :
    segment? (segmentText special segment)
      = some (String.ofList (segment.toList.filter (!isIgnored ·))) := by
  rw [segment?, segmentText, String.toList_ofList, encodeSegment,
    percentDecode_percentEncode (segmentSet_percent special), Option.map_some]

theorem IsWhole.segment?_segmentText (h : IsWhole segment) (special : Bool) :
    segment? (segmentText special segment) = some segment := by
  rw [segment?_segmentText_eq, h.filter_eq, String.ofList_toList]

theorem isIgnored_of_segment? (h : segment? (segmentText special segment) = some segment) :
    ∀ c ∈ segment.toList, isIgnored c = false := by
  rw [segment?_segmentText_eq] at h
  have hkept : segment.toList.filter (!isIgnored ·) = segment.toList := by
    have htext := congrArg String.toList (Option.some.inj h)
    rwa [String.toList_ofList] at htext
  intro c hc
  simpa using List.filter_eq_self.1 hkept c hc

theorem slash_not_mem_segmentText (special : Bool) (segment : String) :
    '/' ∉ (segmentText special segment).toList := by
  rw [segmentText, String.toList_ofList, encodeSegment]
  refine not_mem_percentEncode ?_ (by decide) (by decide)
  cases special <;> decide

/-! ## Reading a path -/

theorem mapM_segment?_of_whole (h : ∀ s ∈ segments, IsWhole s) (special : Bool) :
    (segments.map (segmentText special)).mapM segment? = some segments := by
  rw [mapM_eq_some_iff, List.forall₂_map_left_iff, List.forall₂_same]
  exact fun s hs => (h s hs).segment?_segmentText special

theorem segmentsBehind?_eq_some_iff {u : Url} : segmentsBehind? path u = some segments
    ↔ ∃ texts, u.path = .segments (path ++ texts) ∧ texts.mapM segment? = some segments := by
  unfold segmentsBehind?
  cases u.path with
  | verbatim _ => simp
  | segments l =>
      simp only [UrlPath.segments.injEq]
      constructor
      · intro h
        split at h
        · next hroot =>
          obtain ⟨texts, rfl⟩ := hroot
          rw [List.drop_left] at h
          exact ⟨texts, rfl, h⟩
        · cases h
      · rintro ⟨texts, rfl, h⟩
        rw [if_pos (List.prefix_append path texts), List.drop_left, h]

theorem pieces_flatMap {separator : Char} {p : List Char} {l : List (List Char)}
    (hp : separator ∉ p) (h : ∀ q ∈ l, separator ∉ q) :
    Text.pieces separator (p ++ l.flatMap (separator :: ·)) = p :: l := by
  induction l generalizing p with
  | nil => rw [List.flatMap_nil, List.append_nil, Text.pieces_of_not_mem _ hp]
  | cons q l ih =>
      obtain ⟨hq, hl⟩ := List.forall_mem_cons.1 h
      rw [List.flatMap_cons, List.cons_append, Text.pieces_append _ hp, ih hq hl]

theorem toList_pathText (l : List String) :
    (pathText (.segments l)).toList = (l.map String.toList).flatMap ('/' :: ·) := by
  rw [pathText, String.toList_join, List.flatMap_map, List.flatMap_map]
  simp only [String.toList_append]
  rfl

/-- Behind the same path, segments without separators are told apart by the text. -/
theorem pathText_append_inj {l m : List String} (hl : ∀ s ∈ l, '/' ∉ s.toList)
    (hm : ∀ s ∈ m, '/' ∉ s.toList)
    (h : pathText (.segments (path ++ l)) = pathText (.segments (path ++ m))) : l = m := by
  have hbehind : (l.map String.toList).flatMap ('/' :: ·)
      = (m.map String.toList).flatMap ('/' :: ·) := by
    have htext := congrArg String.toList h
    rw [toList_pathText, toList_pathText, List.map_append, List.map_append, List.flatMap_append,
      List.flatMap_append] at htext
    exact List.append_cancel_left htext
  have hpieces := congrArg (Text.pieces '/') hbehind
  rw [← List.nil_append ((l.map _).flatMap _), ← List.nil_append ((m.map _).flatMap _),
    pieces_flatMap (by simp) (by simpa using hl), pieces_flatMap (by simp) (by simpa using hm)]
    at hpieces
  exact List.map_injective_iff.2 (fun _ _ => String.toList_inj.1) (List.cons.inj hpieces).2

/-! ## What is lost -/

theorem walk_ne_nil (isFile : Bool) (path : List String) (s : List Char) :
    walk isFile path s true ≠ [] := by
  unfold walk
  split
  · simp
  · split
    · simp
    · split <;> simp

theorem length_walk_nil_le (isFile : Bool) (s : List Char) :
    (walk isFile [] s true).length ≤ 1 := by
  unfold walk
  split
  · simp [shorten]
  · split
    · simp
    · split <;> simp

theorem pushSegment_ne_nil (hpath : path ≠ []) (scheme segment : String) :
    pushSegment scheme path segment ≠ [] := by
  unfold pushSegment
  split
  · exact hpath
  · exact walk_ne_nil _ _ _

theorem length_shorten (isFile : Bool) (hpath : path ≠ []) :
    shorten isFile path = path ∨ (shorten isFile path).length + 1 = path.length := by
  unfold shorten
  split
  · split
    · exact .inl rfl
    · exact .inr rfl
  · next _ _ =>
    refine .inr ?_
    have hpos : 0 < path.length := List.length_pos_of_ne_nil hpath
    rw [List.length_dropLast]
    omega

/-- A segment makes no path longer, or it is put behind the path. It can be read there only if it is
whole. -/
theorem pushSegment_cases (hpath : path ≠ []) (scheme segment : String) :
    (pushSegment scheme path segment).length ≤ path.length
      ∨ ∃ text, pushSegment scheme path segment = path ++ [text]
        ∧ (segment? text = some segment → IsWhole segment) := by
  have hempty : segment? "" = some segment → IsWhole segment := by
    intro h
    have hdecoded : segment? "" = some "" := by decide
    rw [← Option.some.inj (hdecoded.symm.trans h)]
    decide
  unfold pushSegment
  split
  · exact .inl (Nat.le_refl _)
  · next hdots =>
    by_cases hslash : path = [""]
    · subst hslash
      exact .inl (length_walk_nil_le _ _)
    · simp only [if_neg hslash]
      unfold walk
      split
      · rcases length_shorten (decide (scheme = "file")) hpath with hkept | hshorter
        · exact .inr ⟨"", by rw [hkept]; rfl, hempty⟩
        · refine .inl ?_
          simp only [if_true, List.length_append, List.length_singleton]
          omega
      · split
        · exact .inr ⟨"", rfl, hempty⟩
        · rw [if_neg (by simp [hpath])]
          refine .inr ⟨_, rfl, fun h => ?_⟩
          rw [Bool.or_eq_true_iff, decide_eq_true_eq, decide_eq_true_eq, not_or] at hdots
          exact ⟨hdots.1, hdots.2, isIgnored_of_segment? h⟩

theorem length_pushSegment_le (hpath : path ≠ []) :
    (pushSegment scheme path segment).length ≤ path.length + 1 := by
  rcases pushSegment_cases hpath scheme segment with hle | ⟨text, heq, -⟩
  · exact Nat.le_succ_of_le hle
  · exact Nat.le_of_eq (by rw [heq, List.length_append, List.length_singleton])

theorem length_foldl_pushSegment_le (hpath : path ≠ []) (scheme : String)
    (segments : List String) :
    (segments.foldl (pushSegment scheme) path).length ≤ path.length + segments.length := by
  induction segments generalizing path with
  | nil => exact Nat.le_refl _
  | cons s r ih =>
      have hstep : (pushSegment scheme path s).length ≤ path.length + 1 :=
        length_pushSegment_le hpath
      have hrest := ih (pushSegment_ne_nil hpath scheme s)
      rw [List.foldl_cons, List.length_cons]
      omega

/-- If a path has grown with every segment, nothing of it is gone. -/
theorem prefix_foldl_pushSegment (hpath : path ≠ [])
    (h : path.length + segments.length ≤ (segments.foldl (pushSegment scheme) path).length) :
    path <+: segments.foldl (pushSegment scheme) path := by
  induction segments generalizing path with
  | nil => exact List.prefix_rfl
  | cons s r ih =>
      have hne : pushSegment scheme path s ≠ [] := pushSegment_ne_nil hpath scheme s
      have hrest := length_foldl_pushSegment_le hne scheme r
      rw [List.foldl_cons] at h ⊢
      rw [List.length_cons] at h
      rcases pushSegment_cases hpath scheme s with hle | ⟨text, heq, -⟩
      · omega
      · rw [heq] at h hne ⊢
        exact (List.prefix_append path [text]).trans
          (ih hne (by rw [List.length_append, List.length_singleton]; omega))

/-- Where as much stands behind a path as was put there, the first of it was put there first. -/
theorem exists_of_foldl_pushSegment {text : String}
    (h : segments.foldl (pushSegment scheme) (path ++ [text]) = path ++ texts)
    (hlength : texts.length = segments.length + 1) :
    ∃ rest, texts = text :: rest
      ∧ segments.foldl (pushSegment scheme) (path ++ [text]) = path ++ [text] ++ rest := by
  have hkept : path ++ [text] <+: path ++ texts := by
    rw [← h]
    refine prefix_foldl_pushSegment (by simp) ?_
    rw [h, List.length_append, List.length_append, List.length_singleton]
    omega
  obtain ⟨rest, rfl⟩ := (List.prefix_append_right_inj path).1 hkept
  exact ⟨rest, rfl, by rw [h, List.append_assoc]⟩

/-- If all that was put on a path can be read behind it, all of it is whole. -/
theorem isWhole_of_foldl_pushSegment (hpath : path ≠ [])
    (h : segments.foldl (pushSegment scheme) path = path ++ texts)
    (hread : texts.mapM segment? = some segments) : ∀ s ∈ segments, IsWhole s := by
  rw [mapM_eq_some_iff] at hread
  induction segments generalizing path texts with
  | nil => simp
  | cons s r ih =>
      have hlength : texts.length = r.length + 1 := hread.length_eq
      have hne : pushSegment scheme path s ≠ [] := pushSegment_ne_nil hpath scheme s
      have hrest := length_foldl_pushSegment_le hne scheme r
      rw [List.foldl_cons] at h
      rw [h, List.length_append, hlength] at hrest
      rcases pushSegment_cases hpath scheme s with hle | ⟨text, heq, hwhole⟩
      · omega
      · rw [heq] at h hne
        obtain ⟨rest, rfl, hbehind⟩ := exists_of_foldl_pushSegment h hlength
        obtain ⟨htext, htexts⟩ := List.forall₂_cons.1 hread
        exact List.forall_mem_cons.2 ⟨hwhole htext, ih hne hbehind htexts⟩

/-! ## The base -/

/-- A path of two empty segments gives up both of them. -/
theorem base_eq_withoutTrailing (h : path ≠ ["", ""]) : base path = withoutTrailing path := by
  rcases List.eq_nil_or_concat path with rfl | ⟨init, last, rfl⟩
  · rfl
  · rw [List.concat_eq_append] at h ⊢
    by_cases hlast : last = ""
    · subst hlast
      have hinit : init ≠ [""] := fun heq => h (by rw [heq]; rfl)
      rw [withoutTrailing, List.getLast?_concat, if_pos rfl, List.dropLast_concat]
      by_cases hnil : init = []
      · rw [hnil]
        rfl
      · have hlong : 0 < init.length := List.length_pos_of_ne_nil hnil
        have hpop : popIfEmpty (init ++ [""]) = init := by
          rw [popIfEmpty, List.getLast?_concat, if_pos (by simp [hlong]), List.dropLast_concat]
        rw [base, hpop, if_neg hinit]
    · have hpop : popIfEmpty (init ++ [last]) = init ++ [last] := by simp [popIfEmpty, hlast]
      rw [base, hpop, if_neg (concat_ne_slash (.inr hlast)), withoutTrailing, List.getLast?_concat,
        if_neg (by simp [hlast])]

end EdgeRouting.Url
