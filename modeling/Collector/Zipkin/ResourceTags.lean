import Collector.Pdata.FiniteMap
import Collector.Zipkin.Grouping

/-!
# Tags of the resource

A resource takes its tags from the first span of its service, and a library its version from the
first span with its name. The other spans of the service leave such tags out of their attributes as
well, so they are kept only as far as the first span has the same ones (`places_keep_iff`).
-/

namespace Collector.Zipkin

open Lib
open Pdata (AnyValue AttributeMap InstrumentationLibrary)
open Pdata.AttributeMap (get_insertNew get_upsertTo mem_keys_iff)
open Translator List

variable {F τ : Type}

/-! ## What a resource holds -/

def nameKey (tags : GoMap String String) : String :=
  if (tags.lookup tagServiceNameSource).getD "" = "" then "service.name"
  else (tags.lookup tagServiceNameSource).getD ""

/-- The tags under this key move to the resource. -/
def OfResource (k : String) : Prop :=
  k ∈ nonSpanAttributes ∧ k ≠ tagServiceNameSource ∧ k ≠ tagInstrumentationName ∧
    k ≠ tagInstrumentationVersion

instance : DecidablePred OfResource := fun _ => inferInstanceAs (Decidable (_ ∧ _))

/-- What the resource of a service holds under a key, from the tags of the first span. -/
def resourceText (tags : GoMap String String) (service k : String) : Option String :=
  if service = resourceNotSet ∨ service = resourceNoAttrs then none
  else (if OfResource k then tags.lookup k else none).or
    (if nameKey tags = k then some service else none)

variable {key k : String} {dest : AttributeMap F} {lib : Library F τ}

theorem get_moveToResource_ne (st : AttributeMap F × GoMap String String) (h : k ≠ key) :
    (moveToResource st key).1.get k = st.1.get k := by
  unfold moveToResource
  split
  · rfl
  · split
    · exact (get_upsertTo _ _ _ _).trans (if_neg h)
    · rfl

theorem get_foldl_moveToResource (keys : List String) (st : AttributeMap F × GoMap String String)
    (k : String) :
    (keys.foldl moveToResource st).1.get k =
      ((if k ∈ keys ∧ k ≠ tagInstrumentationName ∧ k ≠ tagInstrumentationVersion then
        st.2.lookup k else none).map AnyValue.string).or (st.1.get k) := by
  induction keys generalizing st with
  | nil => simp
  | cons key keys ih =>
    rw [foldl_cons, ih]
    by_cases hk : k = key
    · subst hk
      by_cases hlib : k = tagInstrumentationName ∨ k = tagInstrumentationVersion
      · have hnot : ¬(k ≠ tagInstrumentationName ∧ k ≠ tagInstrumentationVersion) := by tauto
        have hst : moveToResource st k = st := if_pos hlib
        rw [hst, if_neg fun h => hnot h.2, if_neg fun h => hnot h.2]
      · have hnot := not_or.1 hlib
        cases hv : st.2.lookup k with
        | none =>
          have hst : moveToResource st k = st := by
            rw [moveToResource, if_neg hlib, hv]
          simp [hst, hv]
        | some v =>
          have hst : moveToResource st k = (st.1.upsertString k v, st.2.erase k) := by
            rw [moveToResource, if_neg hlib, hv]
          have hget : (st.1.upsertString k v).get k = some (.string v) :=
            (get_upsertTo _ _ _ _).trans (if_pos rfl)
          simp [hst, hnot, hget]
    · rw [lookup_moveToResource st (.inl hk), get_moveToResource_ne st hk]
      simp [hk]

theorem get_populateResource (lib : Library F τ) (tags : GoMap String String)
    (service k : String) :
    ((populateResourceFromZipkinSpan lib tags service).1.getD []).get k =
      (resourceText tags service k).map AnyValue.string := by
  have hname : ∀ key : String, (AttributeMap.insertString ([] : AttributeMap F) key service).get k =
      (if key = k then some service else none).map AnyValue.string := by
    intro key
    refine (get_insertNew _ _ _ _).trans ?_
    by_cases hk : key = k <;> simp [hk, AttributeMap.get]
  unfold populateResourceFromZipkinSpan resourceText
  by_cases hnot : service = resourceNotSet
  · rw [if_pos hnot, if_pos (.inl hnot)]
    rfl
  · rw [if_neg hnot]
    by_cases hno : service = resourceNoAttrs
    · rw [if_pos hno, if_pos (.inr hno)]
      rfl
    · rw [if_neg hno, if_neg (not_or.2 ⟨hnot, hno⟩)]
      split
      case isTrue hempty =>
        have htags : tags = ∅ := AList.ext (length_eq_zero_iff.1 hempty)
        subst htags
        exact (hname _).trans (by simp [nameKey])
      case isFalse =>
        have hattrs : (if (tags.lookup tagServiceNameSource).getD "" = "" then
              AttributeMap.insertString ([] : AttributeMap F) "service.name" service
            else
              AttributeMap.insertString [] ((tags.lookup tagServiceNameSource).getD "") service) =
            AttributeMap.insertString [] (nameKey tags) service := by
          unfold nameKey
          split <;> rfl
        refine (get_foldl_moveToResource _ _ k).trans ?_
        simp only [hattrs, hname, (lib.keyOrder.perm nonSpanAttributes).mem_iff]
        by_cases hsource : k = tagServiceNameSource
        · subst hsource
          simp [OfResource]
        · rw [AList.lookup_erase_ne hsource]
          by_cases hk : OfResource k
          · rw [if_pos hk, if_pos ⟨hk.1, hk.2.2⟩, Option.map_or]
          · rw [if_neg hk, if_neg fun h => hk ⟨h.1, hsource, h.2⟩]
            rfl

/-! ## What a span holds -/

/-- The value that a tag becomes among the attributes of a span. -/
def tagValue (lib : Library F τ) (value : String) : AnyValue F :=
  match determineValueType value with
  | .int => .int (lib.parseInt value)
  | .double => .double (lib.parseFloat value)
  | .bool => .bool (value = "true")
  | _ => .string value

theorem upsertTag_eq (lib : Library F τ) (dest : AttributeMap F) (tag : String × String) :
    upsertTag lib dest tag =
      if tag.1 ∈ nonSpanAttributes then dest else dest.upsertTo tag.1 (tagValue lib tag.2) := by
  unfold upsertTag tagValue
  split
  · rfl
  · cases determineValueType tag.2 <;> rfl

theorem get_foldl_upsertTag (lib : Library F τ) {tags : List (String × String)}
    (h : k ∈ nonSpanAttributes ∨ k ∉ tags.map Prod.fst) (dest : AttributeMap F) :
    (tags.foldl (upsertTag lib) dest).get k = dest.get k := by
  induction tags generalizing dest with
  | nil => rfl
  | cons tag tags ih =>
    rw [map_cons, mem_cons, not_or] at h
    rw [foldl_cons, ih (h.imp id And.right), upsertTag_eq]
    split
    case isTrue => rfl
    case isFalse htag =>
      have hne : k ≠ tag.1 := h.elim (fun hk e => htag (e ▸ hk)) And.left
      rw [get_upsertTo, if_neg hne]

theorem get_insertIP (h : key ≠ k) (lib : Library F τ) (hdest : dest.get k = none)
    (ip : Option (List UInt8)) : (insertIP lib key dest ip).get k = none := by
  cases ip with
  | none => exact hdest
  | some ip => exact (get_insertNew _ _ _ _).trans (by rw [hdest, if_neg h]; rfl)

theorem get_upsertPort (h : key ≠ k) (hdest : dest.get k = none) (port : UInt16) :
    (upsertPort key dest port).get k = none := by
  unfold upsertPort
  split
  · exact (get_upsertTo _ _ _ _).trans ((if_neg h.symm).trans hdest)
  · exact hdest

theorem get_zTagsToInternalAttrs (lib : Library F τ) (zspan : SpanModel)
    (tags : GoMap String String) (h : k ∈ nonSpanAttributes) :
    (zTagsToInternalAttrs lib zspan tags).get k = none := by
  have hne : ∀ key ∉ nonSpanAttributes, key ≠ k := fun key hkey e => hkey (e ▸ h)
  have htags : (tagsToAttributeMap lib tags).get k = none :=
    get_foldl_upsertTag lib (.inl h) []
  have hostIP := hne "net.host.ip" (by decide)
  have hostPort := hne "net.host.port" (by decide)
  have peerIP := hne "net.peer.ip" (by decide)
  have peerPort := hne "net.peer.port" (by decide)
  have peerService := hne "peer.service" (by decide)
  unfold zTagsToInternalAttrs
  extract_lets dest dest'
  have hlocal : dest'.get k = none := by
    simp only [dest']
    split
    · exact htags
    · exact get_upsertPort hostPort
        (get_insertIP hostIP lib (get_insertIP hostIP lib htags _) _) _
  split
  · exact hlocal
  · refine get_upsertPort peerPort (get_insertIP peerIP lib (get_insertIP peerIP lib ?_ _) _) _
    split
    · exact (get_insertNew _ _ _ _).trans (by rw [hlocal, if_neg peerService]; rfl)
    · exact hlocal

theorem Translates.get_attributes {zspan : SpanModel} {span : Pdata.Span F}
    (h : Translates lib zspan span) (hk : k ∈ nonSpanAttributes) :
    span.attributes.get k = none := by
  obtain ⟨tags, -, hspan⟩ := h
  obtain ⟨⟨links, tags'⟩, -, hspan⟩ := bind_eq_ok.1 hspan
  obtain ⟨events, -, hspan⟩ := bind_eq_ok.1 hspan
  cases hspan
  exact get_zTagsToInternalAttrs lib zspan tags' hk

/-! ## Places -/

/-- A span in the traces, with the resource and the library it is under. -/
structure Place (F : Type) where
  resource : Pdata.ResourceAttributes F
  library : Option InstrumentationLibrary
  span : Pdata.Span F

def places (td : List (ResourceSpans F (Filled F))) : List (Place F) :=
  td.flatMap fun rs => rs.libraries.flatMap fun ils =>
    ils.spans.map fun span => ⟨rs.resource, ils.library, span⟩

/-- A span with the first one of its service and the first one of its library there. -/
structure Headed where
  service : SpanModel
  library : SpanModel
  span : SpanModel

def headed (zspans : List SpanModel) : List Headed :=
  (keyRuns serviceOf zspans).flatMap fun r => (keyRuns libraryOf r.members).flatMap fun q =>
    q.members.map fun z => ⟨r.first, q.first, z⟩

variable (zspans : List SpanModel)

theorem map_span_headed :
    (headed zspans).map Headed.span = zspans := by
  have hlibrary : ∀ f (q : KeyRun SpanModel String),
      (q.members.map fun z => (⟨f, q.first, z⟩ : Headed)).map Headed.span = q.members := by
    intro f q
    rw [map_map]
    exact map_id _
  simp only [headed, map_flatMap, hlibrary, flatMap_members_keyRuns]

theorem forall₂_headed_iff {P : SpanModel → Place F → Prop} {zspans : List SpanModel}
    {ps : List (Place F)} :
    List.Forall₂ P zspans ps ↔ List.Forall₂ (fun x p => P x.span p) (headed zspans) ps := by
  conv_lhs => rw [← map_span_headed zspans]
  exact forall₂_map_left_iff

/-- Where a span stands. -/
structure StandsAt (lib : Library F τ) (x : Headed) (p : Place F) : Prop where
  resource : p.resource =
    (populateResourceFromZipkinSpan lib x.service.tags (serviceOf x.service)).1
  library : p.library = libraryFrom x.library.tags (libraryOf x.library)
  name : p.library.elim "" InstrumentationLibrary.name = libraryOf x.span
  span : Translates lib x.span p.span

theorem standsAt_library {f : SpanModel} {q : KeyRun SpanModel String}
    (hkey : ∀ z ∈ q.members, libraryOf z = q.key) {resource : Pdata.ResourceAttributes F}
    (hresource : resource = (populateResourceFromZipkinSpan lib f.tags (serviceOf f)).1)
    {ils : Filled F} (h : HoldsLibrary lib q ils) :
    List.Forall₂ (StandsAt lib) (q.members.map fun z => ⟨f, q.first, z⟩)
      (ils.spans.map fun span => ⟨resource, ils.library, span⟩) := by
  rw [forall₂_map_left_iff, forall₂_map_right_iff]
  refine ((forall₂_and_left _ _).2 ⟨hkey, h.spans⟩).imp fun z span hz => ?_
  refine ⟨hresource, ?_, h.name.trans hz.1.symm, hz.2⟩
  rw [hkey q.first mem_cons_self]
  exact h.library

theorem standsAt_headed {zspans : List SpanModel} {td : List (ResourceSpans F (Filled F))}
    (h : List.Forall₂ (HoldsService lib) (keyRuns serviceOf zspans) td) :
    List.Forall₂ (StandsAt lib) (headed zspans) (places td) := by
  have hkeys : ∀ r ∈ keyRuns serviceOf zspans, serviceOf r.first = r.key :=
    fun r hr => key_of_mem_keyRuns hr mem_cons_self
  refine rel_flatMap ((forall₂_and_left _ _).2 ⟨hkeys, h⟩) fun r rs hrs => ?_
  obtain ⟨hkey, hrs⟩ := hrs
  have hlibraries : ∀ q ∈ keyRuns libraryOf r.members, ∀ z ∈ q.members, libraryOf z = q.key :=
    fun q hq z hz => key_of_mem_keyRuns hq hz
  refine rel_flatMap ((forall₂_and_left _ _).2 ⟨hlibraries, hrs.libraries⟩)
    fun q ils hils => ?_
  exact standsAt_library hils.1 (by rw [hkey]; exact hrs.resource) hils.2

/-! ## Tags that are kept -/

/-- A place shows a tag: among the attributes of the span, or on its library or resource. The tag
for the source of the service name is the name of an attribute there. -/
def Place.Shows (lib : Library F τ) (p : Place F) (k v : String) : Prop :=
  p.span.attributes.get k = some (tagValue lib v) ∨
    if k = tagInstrumentationName then p.library.elim "" InstrumentationLibrary.name = v
    else if k = tagInstrumentationVersion then
      p.library.elim "" InstrumentationLibrary.version = v
    else if k = tagServiceNameSource then v ∈ (p.resource.getD []).keys
    else (p.resource.getD []).get k = some (.string v)

/-- The place of a span shows its tags for the resource and the library, and none of another span
of the service that differs. -/
structure Keeps (lib : Library F τ) (zspans : List SpanModel) (z : SpanModel) (p : Place F) :
    Prop where
  own : ∀ k ∈ nonSpanAttributes, ∀ v, z.tags.lookup k = some v → p.Shows lib k v
  others : ∀ z' ∈ zspans, serviceOf z' = serviceOf z → ∀ k ∈ nonSpanAttributes, ∀ v v',
    z.tags.lookup k = some v → z'.tags.lookup k = some v' → v' ≠ v → ¬p.Shows lib k v'

/-- The first spans say what the span says. -/
structure Uniform (zspans : List SpanModel) (x : Headed) : Prop where
  resource : ∀ k, OfResource k → ∀ v, x.span.tags.lookup k = some v →
    resourceText x.service.tags (serviceOf x.service) k = some v
  version : ∀ v, x.span.tags.lookup tagInstrumentationVersion = some v →
    (libraryFrom x.library.tags (libraryOf x.library)).elim "" InstrumentationLibrary.version = v
  source : ∀ v, x.span.tags.lookup tagServiceNameSource = some v →
    resourceText x.service.tags (serviceOf x.service) v ≠ none ∧
      ∀ z' ∈ zspans, serviceOf z' = serviceOf x.span → ∀ v',
        z'.tags.lookup tagServiceNameSource = some v' → v' ≠ v →
          resourceText x.service.tags (serviceOf x.service) v' = none

section Shows

variable {x : Headed} {p : Place F} (h : StandsAt lib x p)
include h

theorem StandsAt.get_resource (k : String) : (p.resource.getD []).get k =
    (resourceText x.service.tags (serviceOf x.service) k).map AnyValue.string := by
  rw [h.resource]
  exact get_populateResource lib _ _ k

theorem StandsAt.shows_iff {v : String} (hk : k ∈ nonSpanAttributes) :
    p.Shows lib k v ↔
      if k = tagInstrumentationName then libraryOf x.span = v
      else if k = tagInstrumentationVersion then
        (libraryFrom x.library.tags (libraryOf x.library)).elim ""
          InstrumentationLibrary.version = v
      else if k = tagServiceNameSource then
        resourceText x.service.tags (serviceOf x.service) v ≠ none
      else resourceText x.service.tags (serviceOf x.service) k = some v := by
  have hspan : p.span.attributes.get k ≠ some (tagValue lib v) := by
    rw [h.span.get_attributes hk]
    exact (Option.some_ne_none _).symm
  rw [Place.Shows, or_iff_right hspan, h.name, h.library, mem_keys_iff, h.get_resource,
    h.get_resource]
  simp

/-- **A place keeps the tags of a span exactly if the first spans agree with it.** -/
theorem StandsAt.keeps_iff :
    Keeps lib zspans x.span p ↔ Uniform zspans x := by
  constructor
  · intro hkeeps
    refine ⟨fun k hk v hv => ?_, fun v hv => ?_, fun v hv => ⟨?_, ?_⟩⟩
    · have := (h.shows_iff hk.1).1 (hkeeps.own k hk.1 v hv)
      rwa [if_neg hk.2.2.1, if_neg hk.2.2.2, if_neg hk.2.1] at this
    · exact (h.shows_iff (by decide)).1 (hkeeps.own _ (by decide) v hv)
    · exact (h.shows_iff (by decide)).1 (hkeeps.own _ (by decide) v hv)
    · intro z' hz' hservice v' hv' hne
      have hnot := hkeeps.others z' hz' hservice _ (by decide) v v' hv hv' hne
      rw [h.shows_iff (by decide)] at hnot
      exact not_not.1 hnot
  · intro hu
    have hown : ∀ k ∈ nonSpanAttributes, ∀ v, x.span.tags.lookup k = some v → p.Shows lib k v := by
      intro k hk v hv
      rw [h.shows_iff hk]
      split
      case isTrue hname =>
        subst hname
        show Option.getD _ _ = v
        rw [hv]
        rfl
      case isFalse hname =>
        split
        case isTrue hversion =>
          subst hversion
          exact hu.version v hv
        case isFalse hversion =>
          split
          case isTrue hsource =>
            subst hsource
            exact (hu.source v hv).1
          case isFalse hsource => exact hu.resource k ⟨hk, hsource, hname, hversion⟩ v hv
    refine ⟨hown, fun z' hz' hservice k hk v v' hv hv' hne hshows => ?_⟩
    have hshown := hown k hk v hv
    rw [h.shows_iff hk] at hshown hshows
    split at hshown
    case isTrue hname =>
      rw [if_pos hname] at hshows
      exact hne (hshows.symm.trans hshown)
    case isFalse hname =>
      rw [if_neg hname] at hshows
      split at hshown
      case isTrue hversion =>
        rw [if_pos hversion] at hshows
        exact hne (hshows.symm.trans hshown)
      case isFalse hversion =>
        rw [if_neg hversion] at hshows
        split at hshown
        case isTrue hsource =>
          subst hsource
          exact hshows ((hu.source v hv).2 z' hz' hservice v' hv' hne)
        case isFalse hsource =>
          rw [if_neg hsource, hshown] at hshows
          exact hne (Option.some.inj hshows).symm

end Shows

theorem forall₂_keeps_iff {xs : List Headed} {ps : List (Place F)}
    (h : List.Forall₂ (StandsAt lib) xs ps) :
    List.Forall₂ (fun x p => Keeps lib zspans x.span p) xs ps ↔ ∀ x ∈ xs, Uniform zspans x := by
  induction h with
  | nil => exact iff_of_true .nil (by simp)
  | cons hx _ ih => rw [forall₂_cons, forall_mem_cons, ih, hx.keeps_iff zspans]

/-- The pass returns traces for spans that decode and have a service name. Where it returns them,
the spans in them are those of the list in the order of the pass, and each keeps its tags for the
resource and the library exactly if the first spans of its service and its library have the
same. -/
theorem places_keep_iff (lib : Library F τ) (sort : InterfaceSort (Option SpanModel))
    (zipkinSpans : List (Option SpanModel)) :
    ((∀ z, some z ∈ zipkinSpans → Decodes lib z ∧ serviceOf z ≠ "") →
      ∃ td, v2SpansToInternalTraces lib sort zipkinSpans = .ok (.ok td)) ∧
    ∀ td, v2SpansToInternalTraces lib sort zipkinSpans = .ok (.ok td) →
      List.Forall₂ (fun z p => Translates lib z p.span) (inOrder sort zipkinSpans) (places td) ∧
      (List.Forall₂ (Keeps lib (inOrder sort zipkinSpans)) (inOrder sort zipkinSpans)
          (places td) ↔
        ∀ x ∈ headed (inOrder sort zipkinSpans), Uniform (inOrder sort zipkinSpans) x) := by
  refine ⟨fun hspans => ?_, fun td h => ?_⟩
  · obtain ⟨td, hrun, -⟩ := v2SpansToInternalTraces_runs lib sort (fun z hz => (hspans z hz).1)
      fun z hz => (hspans z hz).2
    exact ⟨td, hrun⟩
  · have hstands := standsAt_headed (holdsService_of_run h)
    rw [forall₂_headed_iff, forall₂_headed_iff]
    exact ⟨hstands.imp fun x p hx => hx.span, forall₂_keeps_iff _ hstands⟩

/-! ## Two spans of a service -/

def spanOnHost (host : String) : SpanModel :=
  bareSpan "a" ((∅ : GoMap String String).insert "host.name" host)

theorem lookup_spanOnHost (host k : String) :
    (spanOnHost host).tags.lookup k = if k = "host.name" then some host else none := by
  by_cases h : k = "host.name"
  · subst h
    exact (AList.lookup_insert _).trans (if_pos rfl).symm
  · exact (AList.lookup_insert_ne h).trans (if_neg h).symm

theorem decodes_spanOnHost (host : String) : Decodes noLibrary (spanOnHost host) :=
  decodes_bareSpan "a" ((lookup_spanOnHost host _).trans (if_neg (by decide)))

theorem libraryOf_spanOnHost (host : String) :
    extractInstrumentationLibrary (some (spanOnHost host)) = "" := by
  rfl

theorem inOrder_spanOnHost (host host' : String) :
    inOrder .stable [some (spanOnHost host), some (spanOnHost host')] =
      [spanOnHost host, spanOnHost host'] := by
  have hless : byOTLPTypes (some (spanOnHost host)) (some (spanOnHost host')) :=
    byOTLPTypes_iff.2 (.inr ⟨rfl, by rw [libraryOf_spanOnHost, libraryOf_spanOnHost]⟩)
  simp [inOrder, InterfaceSort.stable, List.insertionSort, hless, List.reduceOption]

theorem headed_spanOnHost (host host' : String) :
    headed [spanOnHost host, spanOnHost host'] =
      [⟨spanOnHost host, spanOnHost host, spanOnHost host⟩,
        ⟨spanOnHost host, spanOnHost host, spanOnHost host'⟩] := by
  have hservice : extractLocalServiceName (some (spanOnHost host')) =
      extractLocalServiceName (some (spanOnHost host)) := rfl
  simp [headed, keyRuns, KeyRun.members, hservice, libraryOf_spanOnHost]

theorem run_spanOnHost (host host' : String) : ∃ td, v2SpansToInternalTraces noLibrary .stable
    [some (spanOnHost host), some (spanOnHost host')] = .ok (.ok td) := by
  have hcases : ∀ z, some z ∈ [some (spanOnHost host), some (spanOnHost host')] →
      z = spanOnHost host ∨ z = spanOnHost host' := by simp
  have hdecodes : ∀ z, some z ∈ [some (spanOnHost host), some (spanOnHost host')] →
      Decodes noLibrary z := by
    intro z hz
    rcases hcases z hz with rfl | rfl <;> exact decodes_spanOnHost _
  have hname : ∀ z, some z ∈ [some (spanOnHost host), some (spanOnHost host')] →
      serviceOf z ≠ "" := by
    intro z hz
    rcases hcases z hz with rfl | rfl <;> exact (by decide : "a" ≠ "")
  obtain ⟨td, hrun, -⟩ := v2SpansToInternalTraces_runs noLibrary .stable hdecodes hname
  exact ⟨td, hrun⟩

theorem resourceText_spanOnHost (host : String) :
    resourceText (spanOnHost host).tags "a" "host.name" = some host := by
  rfl

theorem uniform_spanOnHost_iff (host host' : String) :
    Uniform zspans ⟨spanOnHost host, spanOnHost host, spanOnHost host'⟩ ↔ host' = host := by
  constructor
  · intro h
    have htext := h.resource "host.name" (by decide) host'
      ((lookup_spanOnHost host' _).trans (if_pos rfl))
    exact (Option.some.inj ((resourceText_spanOnHost host).symm.trans htext)).symm
  · rintro rfl
    have hlookup : ∀ {k v}, (spanOnHost host').tags.lookup k = some v →
        k = "host.name" ∧ v = host' := by
      intro k v hv
      rw [lookup_spanOnHost] at hv
      split at hv
      case isTrue hk => exact ⟨hk, (Option.some.inj hv).symm⟩
      case isFalse => cases hv
    refine ⟨fun k _ v hv => ?_, fun v hv => ?_, fun v hv => ?_⟩
    · obtain ⟨rfl, rfl⟩ := hlookup hv
      exact resourceText_spanOnHost v
    all_goals exact absurd (hlookup hv).1 (by decide)

theorem sameHost_kept :
    ∃ td, v2SpansToInternalTraces noLibrary .stable
        [some (spanOnHost "x"), some (spanOnHost "x")] = .ok (.ok td) ∧
      List.Forall₂ (Keeps noLibrary [spanOnHost "x", spanOnHost "x"])
        [spanOnHost "x", spanOnHost "x"] (places td) := by
  obtain ⟨td, hrun⟩ := run_spanOnHost "x" "x"
  refine ⟨td, hrun, ?_⟩
  have hkeep := ((places_keep_iff noLibrary .stable _).2 td hrun).2
  rw [inOrder_spanOnHost, headed_spanOnHost] at hkeep
  refine hkeep.2 fun x hx => ?_
  have hx : x = ⟨spanOnHost "x", spanOnHost "x", spanOnHost "x"⟩ := by simpa using hx
  rw [hx, uniform_spanOnHost_iff]

/-- The second span of a service stands under the host of the first. -/
theorem otherHost_lost :
    ∃ td, v2SpansToInternalTraces noLibrary .stable
        [some (spanOnHost "x"), some (spanOnHost "y")] = .ok (.ok td) ∧
      inOrder .stable [some (spanOnHost "x"), some (spanOnHost "y")] =
        [spanOnHost "x", spanOnHost "y"] ∧
      ¬List.Forall₂ (Keeps noLibrary [spanOnHost "x", spanOnHost "y"])
        [spanOnHost "x", spanOnHost "y"] (places td) := by
  obtain ⟨td, hrun⟩ := run_spanOnHost "x" "y"
  refine ⟨td, hrun, inOrder_spanOnHost "x" "y", fun hkeeps => ?_⟩
  have hstands := standsAt_headed (holdsService_of_run hrun)
  have huniform := (forall₂_keeps_iff _ hstands).1 (forall₂_headed_iff.1 hkeeps)
  have hhost : "y" = "x" := (uniform_spanOnHost_iff _ "x" "y").1
    (huniform _ (mem_cons_of_mem _ mem_cons_self))
  exact absurd hhost (by decide)

end Collector.Zipkin
