import EdgeRouting.Proofs.Remote.Conversations
import EdgeRouting.Proofs.Url.Whole

/-!
# The addresses of a service

A request is documented to go to the path of the API, the word `service`, the service and what the
request is about, each of them encoded as a segment. That can be read off the address exactly if all
the segments are whole, and if the API's path is not made of two empty segments, both of which it
gives up (`read_of_whole`, `whole_of_read`). Addresses that are as documented are told apart by the
text of their path (`eq_of_pathText`).

Nothing asks whether a service is whole before it is used: it counts as given when it is not blank.
A service with a tab or a line break in it therefore has the address of another one.
-/

namespace EdgeRouting.Remote.Client

open Http
open Http.Store (segment? segmentsBehind?)
open Url (IsWhole withoutTrailing)

variable {c c' : Client} {url url' : Url} {path segments segments' : List String} {v v' : Nat}

/-! ## What is read off an address -/

theorem isWhole_service : IsWhole "service" := by decide

theorem isWhole_versioned (h : ∀ s ∈ segments, IsWhole s) : ∀ s ∈ versioned v segments, IsWhole s :=
  List.forall_mem_cons.2 ⟨by decide, List.forall_mem_cons.2 ⟨Url.isWhole_toString v, h⟩⟩

theorem versioned_inj (h : versioned v segments = versioned v' segments') :
    v = v' ∧ segments = segments' := by
  obtain ⟨hversion, hsegments⟩ := List.cons.inj (List.cons.inj h).2
  exact ⟨Text.natText_inj hversion, hsegments⟩

/-- Whole segments are put behind the base of the path as they are encoded. -/
theorem path_of_whole (hpath : c.api.path = .segments path)
    (h : ∀ s ∈ c.service :: segments, IsWhole s) (hurl : c.endpoint? segments = some url) :
    url.path = .segments (Url.base path ++ ("service" :: c.service :: segments).map
      (Url.segmentText (Url.isSpecialScheme c.api.scheme))) := by
  have hword : IsName "service" := isName_of_all (by decide)
  rw [endpoint?_of_undotted hpath fun s hs => (h s hs).undotted] at hurl
  rw [← Option.some.inj hurl, urlOf, root, hpath, List.map_cons, List.map_cons,
    Url.segmentText_of_name hword]
  simp only [List.append_assoc, List.cons_append, List.nil_append]

theorem read_of_whole (hpath : c.api.path = .segments path) (hbase : path ≠ ["", ""])
    (h : ∀ s ∈ c.service :: segments, IsWhole s) (hurl : c.endpoint? segments = some url) :
    segmentsBehind? (withoutTrailing path) url = some ("service" :: c.service :: segments) := by
  refine Url.segmentsBehind?_eq_some_iff.2 ⟨_, ?_, Url.mapM_segment?_of_whole
    (List.forall_mem_cons.2 ⟨isWhole_service, h⟩) (Url.isSpecialScheme c.api.scheme)⟩
  rw [path_of_whole hpath h hurl, Url.base_eq_withoutTrailing hbase]

theorem whole_of_read (hpath : c.api.path = .segments path)
    (hurl : c.endpoint? segments = some url)
    (hread : segmentsBehind? (withoutTrailing path) url
      = some ("service" :: c.service :: segments)) :
    path ≠ ["", ""] ∧ ∀ s ∈ c.service :: segments, IsWhole s := by
  obtain ⟨texts, htexts, hdecoded⟩ := Url.segmentsBehind?_eq_some_iff.1 hread
  have hlength : texts.length = (c.service :: segments).length + 1 :=
    (mapM_eq_some_iff.1 hdecoded).length_eq
  rw [endpoint?_eq hpath] at hurl
  rw [← Option.some.inj hurl] at htexts
  have hfold := UrlPath.segments.inj htexts
  have hbase : path ≠ ["", ""] := by
    -- One segment is missing, and there are not enough of the others to stand in for it.
    rintro rfl
    have hne : Url.base ["", ""] ++ ["service"] ≠ [] := by simp
    have hle := Url.length_foldl_pushSegment_le hne c.api.scheme (c.service :: segments)
    rw [hfold, List.length_append, hlength] at hle
    have hgone : (Url.base ["", ""] ++ ["service"]).length = 1 := rfl
    have htrailing : (withoutTrailing ["", ""]).length = 1 := rfl
    omega
  refine ⟨hbase, ?_⟩
  rw [Url.base_eq_withoutTrailing hbase] at hfold
  obtain ⟨rest, rfl, hbehind⟩ := Url.exists_of_foldl_pushSegment hfold hlength
  refine Url.isWhole_of_foldl_pushSegment (by simp) hbehind ?_
  exact mapM_eq_some_iff.2 (List.forall₂_cons.1 (mapM_eq_some_iff.1 hdecoded)).2

/-- Whole segments can be told from the text of the path. -/
theorem eq_of_pathText (hpath : c.api.path = .segments path) (hapi : c'.api = c.api)
    (h : ∀ s ∈ c.service :: segments, IsWhole s) (h' : ∀ s ∈ c'.service :: segments', IsWhole s)
    (hurl : c.endpoint? segments = some url) (hurl' : c'.endpoint? segments' = some url')
    (htext : Url.pathText url.path = Url.pathText url'.path) :
    c.service = c'.service ∧ segments = segments' := by
  rw [path_of_whole hpath h hurl, path_of_whole (by rw [hapi, hpath]) h' hurl', hapi] at htext
  have hencoded := Url.pathText_append_inj
    (by simp only [List.forall_mem_map]; exact fun s _ => Url.slash_not_mem_segmentText _ s)
    (by simp only [List.forall_mem_map]; exact fun s _ => Url.slash_not_mem_segmentText _ s) htext
  -- The texts are the same, so what is read off them is.
  have hread := Url.mapM_segment?_of_whole (List.forall_mem_cons.2 ⟨isWhole_service, h⟩)
    (Url.isSpecialScheme c.api.scheme)
  rw [hencoded, Url.mapM_segment?_of_whole (List.forall_mem_cons.2 ⟨isWhole_service, h'⟩)] at hread
  obtain ⟨hservice, hsegments⟩ := List.cons.inj (List.cons.inj (Option.some.inj hread)).2
  exact ⟨hservice.symm, hsegments.symm⟩

/-! ## The documented address -/

/-- Every address can be built. The segments of the API's path, without a trailing empty one, stand
in front of what is read as the word, the service and what the address is about, exactly if all of
these are whole and the API's path is not made of two empty segments. Two addresses of whole
segments that differ in the service, in the version or behind it differ in the text of the path. -/
theorem endpoint_documented_iff (hpath : c.api.path = .segments path) :
    (∀ segments, ∃ url, c.endpoint? segments = some url
      ∧ (segmentsBehind? (withoutTrailing path) url = some ("service" :: c.service :: segments)
        ↔ path ≠ ["", ""] ∧ ∀ s ∈ c.service :: segments, IsWhole s))
    ∧ ∀ (c' : Client) (v v' : Nat) (tail tail' : List String) (url url' : Url), c'.api = c.api →
        (∀ s ∈ c.service :: tail, IsWhole s) → (∀ s ∈ c'.service :: tail', IsWhole s) →
        c.endpoint? (versioned v tail) = some url →
        c'.endpoint? (versioned v' tail') = some url' →
        Url.pathText url.path = Url.pathText url'.path →
        c.service = c'.service ∧ v = v' ∧ tail = tail' := by
  constructor
  · intro segments
    refine ⟨_, endpoint?_eq hpath segments, whole_of_read hpath (endpoint?_eq hpath segments), ?_⟩
    rintro ⟨hbase, hwhole⟩
    exact read_of_whole hpath hbase hwhole (endpoint?_eq hpath segments)
  · intro c' v v' tail tail' url url' hapi hwhole hwhole' hurl hurl' htext
    obtain ⟨hservice, htail⟩ := List.forall_mem_cons.1 hwhole
    obtain ⟨hservice', htail'⟩ := List.forall_mem_cons.1 hwhole'
    obtain ⟨hsame, hsegments⟩ := eq_of_pathText hpath hapi
      (List.forall_mem_cons.2 ⟨hservice, isWhole_versioned htail⟩)
      (List.forall_mem_cons.2 ⟨hservice', isWhole_versioned htail'⟩) hurl hurl' htext
    exact ⟨hsame, versioned_inj hsegments⟩

/-! ### Services with separators and with a tab -/

/-- A service behind an API with a path. -/
def mockSettings (service : String) : ServiceSettings :=
  { ServiceSettings.default with
    service := some service
    auth := some "token"
    checkPath := some "/up"
    apiUrl := "http://10.0.0.1:8080/mock/" }

def mockClient (service : String) : Client :=
  ⟨⟨"http", some ⟨"", none, .ipv4 0x0A000001, some 8080⟩, .segments ["mock", ""], none, none⟩,
    service, "token"⟩

theorem endpoint_documented_slash :
    (mockClient "a").api.path = .segments ["mock", ""]
      ∧ (∃ url, (mockClient "a/version/1%?é").endpoint? (versioned 7 ["snippet", "b#/../c"])
          = some url ∧ segmentsBehind? ["mock"] url
            = some ["service", "a/version/1%?é", "version", "7", "snippet", "b#/../c"])
      ∧ ∀ url url', (mockClient "a/version/1").endpoint? (versioned 7 ["snippet"]) = some url →
          (mockClient "a").endpoint? (versioned 1 ["version", "7", "snippet"]) = some url' →
          Url.pathText url.path ≠ Url.pathText url'.path := by
  refine ⟨rfl, ?_, fun url url' hurl hurl' htext => ?_⟩
  · obtain ⟨url, hurl, hread⟩ := (endpoint_documented_iff (c := mockClient "a/version/1%?é")
      rfl).1 (versioned 7 ["snippet", "b#/../c"])
    exact ⟨url, hurl, hread.2 ⟨by decide, by decide⟩⟩
  · have hsame := (endpoint_documented_iff (c := mockClient "a/version/1") rfl).2 (mockClient "a") 7
      1 ["snippet"] ["version", "7", "snippet"] url url' rfl (by decide) (by decide) hurl hurl'
      htext
    exact absurd hsame.1 (by decide)

/-- A service with a tab in its name is given, and its address is that of another service. -/
theorem endpoint_tab :
    Client.ofSettings (mockSettings "a\tb") = .ok (some (mockClient "a\tb"))
      ∧ ∃ url, (mockClient "a\tb").endpoint? (versioned 1 ["condition", "false"]) = some url
        ∧ (mockClient "ab").endpoint? (versioned 1 ["condition", "false"]) = some url
        ∧ segmentsBehind? ["mock"] url
          = some ["service", "ab", "version", "1", "condition", "false"] := by
  refine ⟨by with_unfolding_all rfl, _, rfl, ?_, ?_⟩
  · with_unfolding_all rfl
  · with_unfolding_all rfl

end EdgeRouting.Remote.Client
