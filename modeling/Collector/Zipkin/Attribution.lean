import Collector.Zipkin.Trip

/-!
# The library that a span is attributed to

The name and the version of a library are written into the tags of the resource, and what one
library writes is left there for the next. A span is attributed to its own library exactly where
nothing is left from an earlier one (`attributed_iff`).
-/

namespace Collector.Zipkin

open Lib Translator
open Pdata (AttributeMap InstrumentationLibrary KeyValue)
open List

inductive LibraryTag where
  | name | version

namespace LibraryTag

def key : LibraryTag → String
  | name => tagInstrumentationName
  | version => tagInstrumentationVersion

/-- What the spans of the library should have under the tag. -/
def value (t : LibraryTag) (il : Option InstrumentationLibrary) : Option String :=
  (il.map fun il => match t with
    | name => il.name
    | version => il.version).filter (· ≠ "")

end LibraryTag

variable {F τ : Type} {lib : Printer F τ} {service key : String} {t : LibraryTag}
  {zTags zTags' : GoMap String String}

/-! ## The tag of a span -/

def Unused (key : String) (attrs : AttributeMap F) : Prop := ∀ v, KeyValue.mk key v ∉ attrs

theorem lookup_extract (il : Option InstrumentationLibrary) :
    (extractInstrumentationLibraryTags il zTags).lookup t.key =
      (t.value il).or (zTags.lookup t.key) := by
  have hne : tagInstrumentationName ≠ tagInstrumentationVersion := by decide
  cases il with
  | none => rfl
  | some il =>
    cases t <;> simp only [extractInstrumentationLibraryTags, LibraryTag.key, LibraryTag.value,
      Option.map_some, Option.filter_some, decide_eq_true_eq] <;> split <;> split <;>
      simp [AList.lookup_insert_ne, hne, hne.symm]

theorem lookup_foldl {α : Type} {step : GoMap String String → α → GoMap String String}
    {l : List α} (h : ∀ tags, ∀ a ∈ l, (step tags a).lookup key = tags.lookup key)
    (tags : GoMap String String) : (l.foldl step tags).lookup key = tags.lookup key := by
  induction l generalizing tags with
  | nil => rfl
  | cons a l ih =>
    rw [foldl_cons, ih fun tags a ha => h tags a (mem_cons_of_mem _ ha)]
    exact h tags a mem_cons_self

theorem keys_zipkinEndpointFromTags (lib : Printer F τ) (zTags : GoMap String String)
    (service : String) (remote : Bool) {keys : List String} (h : keys ⊆ endpointKeys) :
    (zipkinEndpointFromTags lib zTags service remote keys).2 ⊆ endpointKeys := by
  simp only [zipkinEndpointFromTags, apply_ite Prod.snd, ite_self]
  cases remote <;> cases zTags.lookup "peer.service" <;>
    simp only [Bool.false_eq_true, if_true, if_false] <;> split <;> split <;>
      simpa [endpointKeys] using h

theorem lookup_spanLinksToZipkinTags {links : List (Option (Pdata.SpanLink F))}
    (h : spanLinksToZipkinTags lib links zTags = .ok zTags') (hkey : key ∈ nonSpanAttributes) :
    zTags'.lookup key = zTags.lookup key := by
  unfold spanLinksToZipkinTags at h
  generalize links.zipIdx = links at h
  induction links generalizing zTags with
  | nil =>
    cases h
    rfl
  | cons link links ih =>
    obtain ⟨tags, htags, h⟩ := bind_eq_ok.1 h
    rw [ih h]
    unfold addLinkTag at htags
    split at htags
    · cases htags
      rfl
    · obtain ⟨jsonStr, -, htags⟩ := bind_eq_ok.1 htags
      cases htags
      exact AList.lookup_insert_ne fun he => linkKey_notMem link.2 (he ▸ hkey)

section Spans

variable [GoFloat F] {span : Pdata.Span F} {spans : List (Option (Pdata.Span F))} {z : SpanModel}
  {zs : List SpanModel}

theorem lookup_aggregateSpanTags (h : Unused key span.attributes) :
    (aggregateSpanTags span zTags).lookup key = zTags.lookup key := by
  have hown : (attributeMapToStringMap span.attributes).lookup key = none := by
    refine (lookup_foldl (fun tags kv hkv => ?_) ∅).trans (AList.lookup_empty key)
    cases kv with
    | nil => rfl
    | mk k v =>
      have hne : key ≠ k := by
        rintro rfl
        exact h v hkv
      dsimp only
      split
      · exact AList.lookup_insert_ne hne
      · rfl
  refine lookup_foldl (fun tags tag htag => AList.lookup_insert_ne ?_) zTags
  rintro rfl
  have hsome := GoMap.mem_pairs.1 htag
  rw [hown] at hsome
  cases hsome

theorem SentAs.lookup_tags (h : SentAs lib span service zTags z)
    (hunused : Unused t.key span.attributes) : z.tags.lookup t.key = zTags.lookup t.key := by
  obtain ⟨hmem, hendpoint, hstate, hkind, hcode, hmsg⟩ :
      t.key ∈ nonSpanAttributes ∧ t.key ∉ endpointKeys ∧ t.key ≠ tagW3CTraceState ∧
        t.key ≠ tagSpanKind ∧ t.key ≠ tagStatusCode ∧ t.key ≠ tagStatusMsg := by
    cases t <;> decide
  have hkeys : (endpointsOf lib (fullTags span zTags) service).2.2 ⊆ endpointKeys :=
    keys_zipkinEndpointFromTags _ _ _ _ (keys_zipkinEndpointFromTags _ _ _ _ (nil_subset _))
  have hremove : (removeRedundentTags (endpointsOf lib (fullTags span zTags) service).2.2
      (fullTags span zTags)).lookup t.key = (fullTags span zTags).lookup t.key := by
    refine lookup_foldl (fun _ k hk => AList.lookup_erase_ne ?_) _
    rintro rfl
    exact hendpoint (hkeys hk)
  rw [lookup_spanLinksToZipkinTags h.tags hmem, lookup_addStatusTags_ne _ _ hcode hmsg, hremove,
    fullTags, lookup_ownTags_ne hkind, lookup_stateTags_ne hstate, lookup_aggregateSpanTags hunused]

theorem tags_of_library (hunused : ∀ span ∈ spans.reduceOption, Unused t.key span.attributes)
    (h : (spans.mapM (elementToZipkinSpan lib service zTags)).run = .ok (.ok zs)) :
    List.Forall₂ (fun _ z => z.tags.lookup t.key = zTags.lookup t.key) spans zs := by
  induction spans generalizing zs with
  | nil =>
    cases h
    exact .nil
  | cons span spans ih =>
    rw [mapM_cons] at h
    obtain ⟨z, hz, h⟩ := run_bind_eq_ok h
    obtain ⟨zs', hzs, h⟩ := run_bind_eq_ok h
    cases h
    cases span with
    | none => cases hz
    | some span =>
      rw [reduceOption_cons_of_some, forall_mem_cons] at hunused
      have hsent := sentAs_of_ok (Except.ok.inj hz)
      exact .cons (hsent.lookup_tags hunused.1) (ih hunused.2 hzs)

end Spans

/-! ## The loop over the libraries -/

/-- The library of each span, in the order in which the spans are sent. -/
def owners (libs : List (Option (LibrarySpans (Option (Pdata.Span F))))) :
    List (Option InstrumentationLibrary) :=
  libs.reduceOption.flatMap fun ils => ils.spans.map fun _ => ils.library

/-- Each span that is sent has the tag of its own library. -/
def Attributed (t : LibraryTag) (libs : List (Option (LibrarySpans (Option (Pdata.Span F)))))
    (zSpans : List SpanModel) : Prop :=
  List.Forall₂ (fun il z => z.tags.lookup t.key = t.value il) (owners libs) zSpans

/-- After a library that writes the tag, all that have spans write it. -/
def Steady (t : LibraryTag) (libs : List (Option (LibrarySpans (Option (Pdata.Span F))))) : Prop :=
  libs.reduceOption.Pairwise fun a b =>
    (t.value a.library).isSome → b.spans ≠ [] → (t.value b.library).isSome

variable {libs : List (Option (LibrarySpans (Option (Pdata.Span F))))} {zs zs' : List SpanModel}

theorem attributed_cons_iff {ils : LibrarySpans (Option (Pdata.Span F))} {found : Option String}
    (h : List.Forall₂ (fun _ z => z.tags.lookup t.key = found) ils.spans zs) :
    Attributed t (some ils :: libs) (zs ++ zs') ↔
      (ils.spans ≠ [] → found = t.value ils.library) ∧ Attributed t libs zs' := by
  have howners : owners (some ils :: libs) = (ils.spans.map fun _ => ils.library) ++ owners libs :=
    rfl
  unfold Attributed
  rw [howners]
  generalize ils.spans = spans at h
  induction h with
  | nil => simp
  | cons hz _ ih =>
    simp only [map_cons, cons_append, forall₂_cons, hz, ih]
    simp +contextual

variable [GoFloat F]

/-- The loop, from tags that earlier libraries have left. -/
theorem attributed_loop_iff (hunused : ∀ ils ∈ libs.reduceOption,
      ∀ span ∈ ils.spans.reduceOption, Unused t.key span.attributes)
    (h : (libs.foldlM (addLibrary lib service) (zTags, zs)).run = .ok (.ok (zTags', zs'))) :
    ∃ out, zs' = zs ++ out ∧ (Attributed t libs out ↔ Steady t libs ∧
      ((zTags.lookup t.key).isSome → ∀ b ∈ libs.reduceOption, b.spans ≠ [] →
        (t.value b.library).isSome)) := by
  induction libs generalizing zTags zs with
  | nil =>
    cases h
    exact ⟨[], by simp, by simp [Attributed, Steady, owners]⟩
  | cons ils libs ih =>
    obtain ⟨st, hst, h⟩ := run_bind_eq_ok h
    cases ils with
    | none =>
      cases hst
      exact ih hunused h
    | some ils =>
      obtain ⟨own, hown, hst⟩ := run_bind_eq_ok hst
      cases hst
      rw [reduceOption_cons_of_some, forall_mem_cons] at hunused
      obtain ⟨out, hout, hiff⟩ := ih hunused.2 h
      refine ⟨own ++ out, hout.trans (append_assoc ..), ?_⟩
      -- the spans of this library have its own tag unless it leaves an earlier one in place
      have hor : (t.value ils.library).or (zTags.lookup t.key) = t.value ils.library ↔
          ((zTags.lookup t.key).isSome → (t.value ils.library).isSome) := by
        cases t.value ils.library <;> cases zTags.lookup t.key <;> simp
      rw [attributed_cons_iff (tags_of_library hunused.1 hown), hiff, lookup_extract, hor,
        Option.isSome_or, Bool.or_eq_true, Steady, Steady, reduceOption_cons_of_some,
        pairwise_cons, forall_mem_cons]
      grind

/-! ## A resource -/

/-- No attribute of the resource or of its spans has the key of the tag. -/
def Free (t : LibraryTag) (rs : InternalSpans F) : Prop :=
  Unused t.key (rs.resource.getD []) ∧ ∀ ils ∈ rs.libraries.reduceOption,
    ∀ span ∈ ils.spans.reduceOption, Unused t.key span.attributes

omit [GoFloat F] in
theorem lookup_extractZipkinServiceName (h : zTags.lookup t.key = none) :
    (extractZipkinServiceName zTags).2.lookup t.key = none := by
  have hkey : t.key ∉ ["service.name", "faas.name", "k8s.deployment.name",
      "process.executable.name", tagServiceNameSource] := by
    cases t <;> decide
  simp only [mem_cons, not_or] at hkey
  unfold extractZipkinServiceName
  repeat' split
  all_goals simp [AList.lookup_insert_ne, AList.lookup_erase_ne, hkey, h]

theorem lookup_resourceTags (lib : Printer F τ) {resource : Pdata.ResourceAttributes F}
    (h : Unused t.key (resource.getD [])) :
    (resourceToZipkinEndpointServiceNameAndAttributeMap lib resource).2.lookup t.key = none := by
  match resource with
  | none | some [] => rfl
  | some (kv :: attrs) =>
    refine lookup_extractZipkinServiceName
      ((lookup_foldl (fun tags kv hkv => ?_) ∅).trans (AList.lookup_empty _))
    cases kv with
    | nil => rfl
    | mk k v =>
      refine AList.lookup_insert_ne ?_
      rintro rfl
      exact h v hkv

/-- **A span is attributed to its own library** exactly if no library is without a name (version)
that comes, with spans, after one with a name (version). -/
theorem attributed_iff {rs : InternalSpans F} {zSpans : List SpanModel}
    (h : (resourceSpansToZipkinSpans lib rs).run = .ok (.ok zSpans)) (hfree : ∀ t, Free t rs) :
    (∀ t, Attributed t rs.libraries zSpans) ↔ ∀ t, Steady t rs.libraries := by
  refine forall_congr' fun t => ?_
  unfold resourceSpansToZipkinSpans at h
  split at h
  case isTrue hnone =>
    cases h
    rw [eq_nil_of_length_eq_zero hnone.2]
    exact iff_of_true .nil .nil
  case isFalse =>
    have hnone := lookup_resourceTags lib (hfree t).1
    generalize resourceToZipkinEndpointServiceNameAndAttributeMap lib rs.resource = r at h hnone
    obtain ⟨st, hloop, h⟩ := run_bind_eq_ok h
    cases h
    obtain ⟨out, hout, hiff⟩ := attributed_loop_iff (hfree t).2 hloop
    rw [hout, nil_append, hiff, hnone]
    simp

attribute [local instance] GoFloat.whole

def twoLibraries (first second : Option InstrumentationLibrary) : InternalSpans Int :=
  ⟨none, [some ⟨first, [some (spanUntil 9)]⟩, none, some ⟨second, [some (spanUntil 9)]⟩]⟩

theorem free_twoLibraries (first second : Option InstrumentationLibrary) (t : LibraryTag) :
    Free t (twoLibraries first second) := by
  simp [Free, Unused, twoLibraries, spanUntil, List.reduceOption]

theorem attributed_nameLast : ∃ zSpans,
    (resourceSpansToZipkinSpans noPrinter (twoLibraries none (some ⟨"b", "1"⟩))).run =
      .ok (.ok zSpans) ∧
    ∀ t, Attributed t (twoLibraries none (some ⟨"b", "1"⟩)).libraries zSpans := by
  obtain ⟨zSpans, hrun⟩ : ∃ zSpans, (resourceSpansToZipkinSpans noPrinter
    (twoLibraries none (some ⟨"b", "1"⟩))).run = .ok (.ok zSpans) := ⟨_, rfl⟩
  refine ⟨zSpans, hrun, (attributed_iff hrun (free_twoLibraries _ _)).2 fun t => ?_⟩
  cases t <;> simp [Steady, twoLibraries, List.reduceOption, LibraryTag.value]

/-- The span of a library without a name is attributed to the one before. -/
theorem name_left_over : (∀ t, Free t (twoLibraries (some ⟨"a", ""⟩) none)) ∧ ∃ zSpans,
    (resourceSpansToZipkinSpans noPrinter (twoLibraries (some ⟨"a", ""⟩) none)).run =
      .ok (.ok zSpans) ∧
    zSpans.map (·.tags.lookup tagInstrumentationName) = [some "a", some "a"] ∧
    ¬Attributed .name (twoLibraries (some ⟨"a", ""⟩) none).libraries zSpans := by
  refine ⟨free_twoLibraries _ _, _, rfl, by decide, fun h => ?_⟩
  obtain _ | ⟨-, _ | ⟨hnone, -⟩⟩ := h
  exact absurd hnone (by decide)

end Collector.Zipkin
