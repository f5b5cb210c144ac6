import Mathlib.Data.Prod.Lex
import Collector.Lib.Guarded
import Collector.Lib.Runs
import Collector.Zipkin.ToInternal

/-!
# Grouping by service and library

The pass over the sorted spans opens a resource where the service changes and a library where its
name changes. So the traces are the runs of the list by service, and each resource
is the runs of those by library (`translateSpans_runs`). The previous name starts out empty: a
first service without a name passes for the one before it, and there is none.
-/

namespace Collector.Zipkin

open Lib
open Pdata (AttributeMap)
open Translator List

variable {F τ : Type}

abbrev serviceOf (zspan : SpanModel) : String := extractLocalServiceName (some zspan)

abbrev libraryOf (zspan : SpanModel) : String := extractInstrumentationLibrary (some zspan)

/-! ## Tags that are left -/

/-- The same tags, up to those that are not for a span. -/
def Agree (tags tags' : GoMap String String) : Prop :=
  ∀ k ∉ nonSpanAttributes, tags'.lookup k = tags.lookup k

theorem Agree.refl (tags : GoMap String String) : Agree tags tags := fun _ _ => rfl

variable {tags tags' : GoMap String String} {k : String} {zspan : SpanModel} {lib : Library F τ}
  {sort : InterfaceSort (Option SpanModel)} {zipkinSpans : List (Option SpanModel)}

theorem Agree.trans {tags'' : GoMap String String} (h : Agree tags tags')
    (h' : Agree tags' tags'') :
    Agree tags tags'' := fun k hk => (h' k hk).trans (h k hk)

theorem lookup_moveToResource (st : AttributeMap F × GoMap String String) {key : String}
    (h : k ≠ key ∨ k = tagInstrumentationName ∨ k = tagInstrumentationVersion) :
    (moveToResource st key).2.lookup k = st.2.lookup k := by
  unfold moveToResource
  split
  case isTrue => rfl
  case isFalse hkey =>
    have hne : k ≠ key := by
      rcases h with h | rfl | rfl
      · exact h
      · exact fun e => hkey (.inl e.symm)
      · exact fun e => hkey (.inr e.symm)
    split
    · exact AList.lookup_erase_ne hne
    · rfl

theorem lookup_foldl_moveToResource {keys : List String}
    (h : k ∉ keys ∨ k = tagInstrumentationName ∨ k = tagInstrumentationVersion)
    (st : AttributeMap F × GoMap String String) :
    (keys.foldl moveToResource st).2.lookup k = st.2.lookup k := by
  induction keys generalizing st with
  | nil => rfl
  | cons key keys ih =>
    rw [mem_cons, not_or] at h
    rw [foldl_cons, ih (h.imp_left And.right), lookup_moveToResource st (h.imp_left And.left)]

theorem lookup_populateResource (lib : Library F τ) (tags : GoMap String String) (name : String)
    (h : k ∉ nonSpanAttributes ∨ k = tagInstrumentationName ∨ k = tagInstrumentationVersion) :
    (populateResourceFromZipkinSpan lib tags name).2.lookup k = tags.lookup k := by
  have hsource : k ≠ tagServiceNameSource := by
    rintro rfl
    revert h
    decide
  unfold populateResourceFromZipkinSpan
  split
  · rfl
  · split
    · rfl
    · split
      · rfl
      · have hkeys : k ∉ lib.keyOrder.order nonSpanAttributes ∨ k = tagInstrumentationName ∨
            k = tagInstrumentationVersion := by
          rwa [(lib.keyOrder.perm nonSpanAttributes).mem_iff]
        exact (lookup_foldl_moveToResource hkeys _).trans (AList.lookup_erase_ne hsource)

def libraryFrom (tags : GoMap String String) (instrLibName : String) :
    Option Pdata.InstrumentationLibrary :=
  if instrLibName = "" then none
  else some ⟨(tags.lookup tagInstrumentationName).getD "",
    (tags.lookup tagInstrumentationVersion).getD ""⟩

theorem populateILFromZipkinSpan_eq (tags : GoMap String String) (instrLibName : String) :
    ∃ tags', populateILFromZipkinSpan tags instrLibName = (libraryFrom tags instrLibName, tags') ∧
      Agree tags tags' := by
  have hname : Agree tags (tags.erase tagInstrumentationName) := fun k hk =>
    AList.lookup_erase_ne fun e => hk (e ▸ by decide)
  have hversion : ∀ tags : GoMap String String, Agree tags (tags.erase tagInstrumentationVersion) :=
    fun tags k hk => AList.lookup_erase_ne fun e => hk (e ▸ by decide)
  have hlookup : (tags.erase tagInstrumentationName).lookup tagInstrumentationVersion =
      tags.lookup tagInstrumentationVersion := AList.lookup_erase_ne (by decide)
  unfold populateILFromZipkinSpan libraryFrom
  split
  · exact ⟨tags, rfl, .refl tags⟩
  · cases hn : tags.lookup tagInstrumentationName with
    | some n =>
      cases hv : tags.lookup tagInstrumentationVersion with
      | some v =>
        rw [hv] at hlookup
        exact ⟨_, by simp only [hlookup]; rfl, hname.trans (hversion _)⟩
      | none =>
        rw [hv] at hlookup
        exact ⟨_, by simp only [hlookup]; rfl, hname⟩
    | none =>
      cases hv : tags.lookup tagInstrumentationVersion with
      | some v => exact ⟨_, by simp only [hv]; rfl, hversion _⟩
      | none => exact ⟨_, by simp only [hv]; rfl, .refl tags⟩

/-! ## Spans that decode -/

theorem not_prefix_link (h : ¬"otlp.link.".toList <+: k.toList) (i : Nat) : linkKey i ≠ k := by
  rintro rfl
  refine h ?_
  rw [linkKey, String.toList_append]
  exact prefix_append _ _

theorem linkKey_notMem (i : Nat) : linkKey i ∉ nonSpanAttributes := by
  intro h
  have hall : ∀ k ∈ nonSpanAttributes, ¬"otlp.link.".toList <+: k.toList := by decide +kernel
  exact not_prefix_link (hall _ h) i rfl

def SameLinks (tags tags' : GoMap String String) : Prop :=
  ∀ i, tags'.lookup (linkKey i) = tags.lookup (linkKey i)

theorem Agree.sameLinks (h : Agree tags tags') :
    SameLinks tags tags' := fun i => h _ (linkKey_notMem i)

theorem SameLinks.erase_right (h : SameLinks tags tags') {key : String}
    (hkey : ¬"otlp.link.".toList <+: key.toList) :
    SameLinks tags (tags'.erase key) := fun i =>
  (AList.lookup_erase_ne (not_prefix_link hkey i)).trans (h i)

theorem linksFromTags_congr (lib : Library F τ) (h : SameLinks tags tags') (n i : Nat) :
    (linksFromTags lib n i tags').map Prod.fst = (linksFromTags lib n i tags).map Prod.fst := by
  induction n generalizing i tags tags' with
  | zero => rfl
  | succ n ih =>
    have hstep : SameLinks (tags.erase (linkKey i)) (tags'.erase (linkKey i)) := by
      intro j
      by_cases hij : linkKey j = linkKey i
      · rw [hij, AList.lookup_erase, AList.lookup_erase]
      · rw [AList.lookup_erase_ne hij, AList.lookup_erase_ne hij, h j]
    have hnext := ih hstep (i + 1)
    unfold linksFromTags
    rw [h i]
    cases tags.lookup (linkKey i) with
    | none => rfl
    | some val =>
      dsimp only
      split
      · exact hnext
      · cases decodeLink lib (splitBar val) with
        | error e => rfl
        | ok link =>
          have hmap : ∀ x : Except (GoError τ)
                (List (Option (Pdata.SpanLink F)) × GoMap String String),
              (x >>= fun r => .ok (some link :: r.1, r.2)).map Prod.fst =
                (x.map Prod.fst).map (some link :: ·) := by
            rintro (_ | _) <;> rfl
          exact (hmap _).trans ((congrArg _ hnext).trans (hmap _).symm)

theorem returns_of_map_eq {ε α β : Type} {f : α → β} {x y : Except ε α} (h : x.map f = y.map f)
    (hy : Returns y) : Returns x := by
  obtain ⟨r, rfl⟩ := hy
  cases x with
  | error e => cases h
  | ok a => exact returns_ok a

/-- The annotations and the link tags of a span decode. -/
structure Decodes (lib : Library F τ) (zspan : SpanModel) : Prop where
  links : ∃ r, zTagsToSpanLinks lib zspan.tags = .ok r
  events : ∃ events, populateSpanEvents lib zspan = .ok events

/-- A translation of a span, whichever of its tags went to the resource. -/
def Translates (lib : Library F τ) (zspan : SpanModel) (span : Pdata.Span F) : Prop :=
  ∃ tags, Agree zspan.tags tags ∧ zSpanToInternal lib zspan tags = .ok span

/-- The tags for links are there until they are read. -/
theorem sameLinks_status (ha : Agree zspan.tags tags) : SameLinks zspan.tags (populateSpanStatus
      (zipkinKindToSpanKind zspan.kind (traceStateFromTags tags).2).2).2 := by
  have hstate : SameLinks zspan.tags (traceStateFromTags tags).2 := by
    unfold traceStateFromTags
    split
    · exact ha.sameLinks.erase_right (by decide)
    · exact ha.sameLinks
  have hkind : SameLinks zspan.tags
      (zipkinKindToSpanKind zspan.kind (traceStateFromTags tags).2).2 := by
    unfold zipkinKindToSpanKind
    split
    iterate 4 exact hstate
    split
    · exact hstate.erase_right (by decide)
    · exact hstate
  unfold populateSpanStatus
  split
  · exact hkind
  · dsimp only
    split
    · exact (hkind.erase_right (by decide)).erase_right (by decide)
    · exact hkind.erase_right (by decide)

theorem zSpanToInternal_ok_iff (ha : Agree zspan.tags tags) :
    (∃ span, zSpanToInternal lib zspan tags = .ok span) ↔ Decodes lib zspan := by
  have hlinks := linksFromTags_congr lib (sameLinks_status ha) 128 0
  constructor
  · rintro ⟨span, h⟩
    simp only [zSpanToInternal] at h
    obtain ⟨⟨links, tags'⟩, hr, h⟩ := bind_eq_ok.1 h
    obtain ⟨events, hevents, -⟩ := bind_eq_ok.1 h
    exact ⟨returns_of_map_eq hlinks.symm ⟨_, hr⟩, events, hevents⟩
  · rintro ⟨hr, events, hevents⟩
    obtain ⟨r', hl⟩ := returns_of_map_eq hlinks hr
    simp only [zSpanToInternal, zTagsToSpanLinks, hl, hevents, ok_bind]
    exact ⟨_, rfl⟩

/-! ## Runs -/

/-- The spans of a library hold a run of spans. -/
structure HoldsLibrary (lib : Library F τ) (run : KeyRun SpanModel String) (ils : Filled F) :
    Prop where
  library : ils.library = libraryFrom run.first.tags run.key
  name : ils.library.elim "" Pdata.InstrumentationLibrary.name = run.key
  spans : List.Forall₂ (Translates lib) run.members ils.spans

/-- The spans of a resource hold a run of spans, library by library. -/
structure HoldsService (lib : Library F τ) (run : KeyRun SpanModel String)
    (rs : ResourceSpans F (Filled F)) : Prop where
  resource : rs.resource = (populateResourceFromZipkinSpan lib run.first.tags run.key).1
  libraries : List.Forall₂ (HoldsLibrary lib) (keyRuns libraryOf run.members) rs.libraries

/-- The variables of the loop while it fills a library. -/
def filling (rss : List (ResourceSpans F (Filled F))) (service : String)
    (resource : Pdata.ResourceAttributes F) (closed : List (Filled F)) (ils : Filled F)
    (library : String) (n : Nat) : Progress F where
  rss := rss
  curRscSpans := some ⟨resource, closed⟩
  curILSpans := some ils
  prevServiceName := service
  prevInstrLibName := library
  ilsCount := n

section Steps

variable {service : String}

theorem translateSpans_members {zspans : List SpanModel} {library : String} {n : Nat}
    (h : ∀ z ∈ zspans, serviceOf z = service ∧ libraryOf z = library ∧ Decodes lib z)
    (hn : n ≠ 0) (rss : List (ResourceSpans F (Filled F))) (resource : Pdata.ResourceAttributes F)
    (closed : List (Filled F)) (ils : Filled F) :
    ∃ spans, List.Forall₂ (Translates lib) zspans spans ∧ ∀ rest,
      translateSpans lib (zspans.map some ++ rest)
          (filling rss service resource closed ils library n) =
        translateSpans lib rest (filling rss service resource closed
          { ils with spans := ils.spans ++ spans } library n) := by
  induction zspans generalizing ils with
  | nil => exact ⟨[], .nil, fun rest => by rw [append_nil]; rfl⟩
  | cons z zspans ih =>
    obtain ⟨⟨hservice, hlibrary, hdecodes⟩, hrest⟩ := forall_mem_cons.1 h
    obtain ⟨span, hspan⟩ := (zSpanToInternal_ok_iff (.refl z.tags)).2 hdecodes
    obtain ⟨spans, hspans, hrun⟩ := ih hrest { ils with spans := ils.spans ++ [span] }
    refine ⟨span :: spans, .cons ⟨z.tags, .refl _, hspan⟩ hspans, fun rest => ?_⟩
    have henter : enterResource lib (filling rss service resource closed ils library n) z =
        (filling rss service resource closed ils library n, z.tags) :=
      if_neg (not_not.2 hservice)
    have henter' : enterLibrary (filling rss service resource closed ils library n) z z.tags =
        .ok (filling rss service resource closed ils library n, z.tags) :=
      if_neg (not_or.2 ⟨not_not.2 hlibrary, hn⟩)
    rw [map_cons, cons_append, translateSpans, henter]
    simp only [henter', ok_bind, hspan]
    have hassoc : ils.spans ++ span :: spans = (ils.spans ++ [span]) ++ spans := by
      rw [append_assoc]
      rfl
    rw [hassoc]
    exact hrun rest

theorem translateSpans_library {run : KeyRun SpanModel String}
    (h : ∀ z ∈ run.members, serviceOf z = service ∧ libraryOf z = run.key ∧ Decodes lib z)
    {st st' : Progress F}
    (hst : enterResource lib st run.first = (st', tags))
    (ha : ∀ k, (k ∉ nonSpanAttributes ∨ k = tagInstrumentationName ∨
      k = tagInstrumentationVersion) → tags.lookup k = run.first.tags.lookup k)
    {rs : ResourceSpans F (Filled F)} (hrs : st'.curRscSpans = some rs)
    (hservice : st'.prevServiceName = service)
    (hopen : run.key ≠ st'.prevInstrLibName ∨ st'.ilsCount = 0) :
    ∃ ils, HoldsLibrary lib run ils ∧ ∀ rest,
      translateSpans lib (run.members.map some ++ rest) st =
        translateSpans lib rest (filling st'.rss service rs.resource
          (rs.libraries ++ st'.curILSpans.toList) ils run.key (st'.ilsCount + 1)) := by
  obtain ⟨⟨hservice', hlibrary, hdecodes⟩, hrest⟩ := forall_mem_cons.1 h
  obtain ⟨tags', hil, hagree⟩ := populateILFromZipkinSpan_eq tags run.key
  have hfrom : libraryFrom tags run.key = libraryFrom run.first.tags run.key := by
    unfold libraryFrom
    rw [ha _ (.inr (.inl rfl)), ha _ (.inr (.inr rfl))]
  have hagree' : Agree run.first.tags tags' :=
    Agree.trans (fun k hk => ha k (.inl hk)) hagree
  obtain ⟨span, hspan⟩ := (zSpanToInternal_ok_iff hagree').2 hdecodes
  obtain ⟨spans, hspans, hrun⟩ := translateSpans_members hrest
    (Nat.succ_ne_zero st'.ilsCount) st'.rss rs.resource (rs.libraries ++ st'.curILSpans.toList)
    ⟨libraryFrom run.first.tags run.key, [span]⟩
  refine ⟨⟨libraryFrom run.first.tags run.key, span :: spans⟩, ⟨rfl, ?_, ?_⟩, fun rest => ?_⟩
  · dsimp only [libraryFrom]
    split
    case isTrue hempty => exact hempty.symm
    case isFalse => exact hlibrary
  · exact .cons ⟨tags', hagree', hspan⟩ hspans
  · have hopenLibrary : enterLibrary st' run.first tags = .ok (filling st'.rss service rs.resource
        (rs.libraries ++ st'.curILSpans.toList) ⟨libraryFrom run.first.tags run.key, []⟩ run.key
        (st'.ilsCount + 1), tags') := by
      have hname : extractInstrumentationLibrary (some run.first) = run.key := hlibrary
      simp only [enterLibrary, hname]
      rw [if_pos hopen, hil, hfrom]
      simp only [Progress.openLibrary, hrs, hservice, deref, filling]
      rfl
    rw [KeyRun.members, map_cons, cons_append, translateSpans, hst]
    simp only [hopenLibrary, ok_bind, hspan]
    exact hrun rest

theorem translateSpans_libraries {runs : List (KeyRun SpanModel String)}
    (hchain : runs.IsChain fun r r' => r.key ≠ r'.key)
    (h : ∀ r ∈ runs, ∀ z ∈ r.members, serviceOf z = service ∧ libraryOf z = r.key ∧ Decodes lib z)
    (rss : List (ResourceSpans F (Filled F))) (resource : Pdata.ResourceAttributes F)
    (closed : List (Filled F)) (ils : Filled F) {library : String}
    (hhead : ∀ r ∈ runs.head?, r.key ≠ library) {n : Nat} (hn : n ≠ 0) :
    ∃ libraries, List.Forall₂ (HoldsLibrary lib) runs libraries ∧
      ∃ closed' ils' library' n', closed' ++ [ils'] = closed ++ [ils] ++ libraries ∧ ∀ rest,
        translateSpans lib ((runs.flatMap KeyRun.members).map some ++ rest)
            (filling rss service resource closed ils library n) =
          translateSpans lib rest (filling rss service resource closed' ils' library' n') := by
  induction runs generalizing closed ils library n with
  | nil => exact ⟨[], .nil, closed, ils, library, n, (append_nil _).symm, fun _ => rfl⟩
  | cons r runs ih =>
    obtain ⟨hne, hchain⟩ := isChain_cons.1 hchain
    obtain ⟨hr, hruns⟩ := forall_mem_cons.1 h
    have hst : enterResource lib (filling rss service resource closed ils library n) r.first =
        (filling rss service resource closed ils library n, r.first.tags) :=
      if_neg (not_not.2 (hr r.first mem_cons_self).1)
    obtain ⟨ils₁, hils₁, hrun₁⟩ := translateSpans_library hr hst (fun _ _ => rfl) rfl rfl
      (.inl (hhead r rfl))
    obtain ⟨libraries, hlibraries, closed', ils', library', n', heq, hrun⟩ :=
      ih hchain hruns (closed ++ [ils]) ils₁ (fun r' hr' => (hne r' hr').symm)
        (Nat.succ_ne_zero n)
    refine ⟨ils₁ :: libraries, .cons hils₁ hlibraries, closed', ils', library', n', ?_,
      fun rest => ?_⟩
    · rw [heq]
      simp
    · rw [flatMap_cons, map_append, append_assoc, hrun₁]
      exact hrun rest

end Steps

variable {st : Progress F}

theorem translateSpans_service {run : KeyRun SpanModel String}
    (h : ∀ z ∈ run.members, serviceOf z = run.key ∧ Decodes lib z)
    (hne : run.key ≠ st.prevServiceName) :
    ∃ rs, HoldsService lib run rs ∧ ∃ st', st'.traceData = st.traceData ++ [rs] ∧
      st'.prevServiceName = run.key ∧ ∀ rest,
        translateSpans lib (run.members.map some ++ rest) st = translateSpans lib rest st' := by
  have hall : ∀ r ∈ keyRuns libraryOf run.members, ∀ z ∈ r.members,
      serviceOf z = run.key ∧ libraryOf z = r.key ∧ Decodes lib z := by
    intro r hr z hz
    obtain ⟨hservice, hdecodes⟩ := h z (mem_of_mem_keyRuns hr hz)
    exact ⟨hservice, key_of_mem_keyRuns hr hz, hdecodes⟩
  have hflat := flatMap_members_keyRuns libraryOf run.members
  have hchain := isChain_keyRuns libraryOf run.members
  cases hruns : keyRuns libraryOf run.members with
  | nil => cases keyRuns_eq_nil.1 hruns
  | cons r runs =>
    rw [hruns] at hall hflat hchain
    obtain ⟨hr, hrest⟩ := forall_mem_cons.1 hall
    obtain ⟨hhead, hchain⟩ := isChain_cons.1 hchain
    have hfirst : r.first = run.first := (List.cons.inj hflat).1
    have hservice : extractLocalServiceName (some run.first) = run.key :=
      (h run.first mem_cons_self).1
    have hst : enterResource lib st r.first = (st.openResource run.key
        (populateResourceFromZipkinSpan lib run.first.tags run.key).1,
        (populateResourceFromZipkinSpan lib run.first.tags run.key).2) := by
      rw [hfirst]
      unfold enterResource
      rw [hservice, if_pos hne]
    obtain ⟨ils, hils, hrun⟩ := translateSpans_library hr hst
      (fun k hk => hfirst ▸ lookup_populateResource lib run.first.tags run.key hk) rfl rfl
      (.inr rfl)
    obtain ⟨libraries, hlibraries, closed', ils', library', n', heq, hruns'⟩ :=
      translateSpans_libraries hchain hrest st.traceData
        (populateResourceFromZipkinSpan lib run.first.tags run.key).1 [] ils
        (fun r' hr' => (hhead r' hr').symm) Nat.one_ne_zero
    refine ⟨⟨(populateResourceFromZipkinSpan lib run.first.tags run.key).1, ils :: libraries⟩,
      ⟨rfl, hruns ▸ .cons hils hlibraries⟩, filling st.traceData run.key
      (populateResourceFromZipkinSpan lib run.first.tags run.key).1 closed' ils' library' n', ?_,
      rfl, fun rest => ?_⟩
    · show _ ++ [ResourceSpans.mk _ (closed' ++ [ils'])] = _
      rw [heq]
      rfl
    · rw [← hflat, flatMap_cons, map_append, append_assoc, hrun]
      exact hruns' rest

theorem translateSpans_runs {runs : List (KeyRun SpanModel String)}
    (hchain : runs.IsChain fun r r' => r.key ≠ r'.key)
    (h : ∀ r ∈ runs, ∀ z ∈ r.members, serviceOf z = r.key ∧ Decodes lib z)
    (hhead : ∀ r ∈ runs.head?, r.key ≠ st.prevServiceName) :
    ∃ rss, List.Forall₂ (HoldsService lib) runs rss ∧
      ∃ st', translateSpans lib ((runs.flatMap KeyRun.members).map some) st = .ok (.ok st') ∧
        st'.traceData = st.traceData ++ rss := by
  induction runs generalizing st with
  | nil => exact ⟨[], .nil, st, rfl, (append_nil _).symm⟩
  | cons r runs ih =>
    obtain ⟨hne, hchain⟩ := isChain_cons.1 hchain
    obtain ⟨hr, hruns⟩ := forall_mem_cons.1 h
    obtain ⟨rs, hrs, st₁, htd₁, hprev, hrun₁⟩ := translateSpans_service hr (hhead r rfl)
    have hhead₁ : ∀ r' ∈ runs.head?, r'.key ≠ st₁.prevServiceName := fun r' hr' =>
      hprev ▸ (hne r' hr').symm
    obtain ⟨rss, hrss, st', hrun, htd⟩ := ih hchain hruns hhead₁
    refine ⟨rs :: rss, .cons hrs hrss, st', ?_, ?_⟩
    · rw [flatMap_cons, map_append, hrun₁]
      exact hrun
    · rw [htd, htd₁, append_assoc]
      rfl

/-! ## The sorted list -/

theorem translateSpans_reduceOption (lib : Library F τ) (zspans : List (Option SpanModel))
    (st : Progress F) :
    translateSpans lib zspans st = translateSpans lib (zspans.reduceOption.map some) st := by
  induction zspans generalizing st with
  | nil => rfl
  | cons z zspans ih =>
    cases z with
    | none => rw [reduceOption_cons_of_none, translateSpans, ih]
    | some z =>
      rw [reduceOption_cons_of_some, map_cons, translateSpans, translateSpans, funext ih]

theorem byOTLPTypes_iff {a b : Option SpanModel} : byOTLPTypes a b = true ↔
    extractLocalServiceName a < extractLocalServiceName b ∨
      extractLocalServiceName a = extractLocalServiceName b ∧
        extractInstrumentationLibrary a ≤ extractInstrumentationLibrary b := by
  unfold byOTLPTypes
  by_cases h : extractLocalServiceName a = extractLocalServiceName b
  · rw [if_neg (not_not.2 h), decide_eq_true_iff]
    exact ⟨fun hle => .inr ⟨h, hle⟩, fun hor => hor.elim (fun hlt => absurd h hlt.ne) And.right⟩
  · rw [if_pos h, decide_eq_true_iff]
    exact ⟨fun hle => .inl (lt_of_le_of_ne hle h),
      fun hor => hor.elim le_of_lt fun hand => absurd hand.1 h⟩

theorem byOTLPTypes_iff_le {a b : Option SpanModel} : byOTLPTypes a b = true ↔
    toLex (extractLocalServiceName a, extractInstrumentationLibrary a) ≤
      toLex (extractLocalServiceName b, extractInstrumentationLibrary b) := by
  rw [byOTLPTypes_iff, Prod.Lex.toLex_le_toLex]

theorem byOTLPTypes_total (a b : Option SpanModel) : byOTLPTypes a b ∨ byOTLPTypes b a := by
  rw [byOTLPTypes_iff_le, byOTLPTypes_iff_le]
  exact le_total _ _

theorem byOTLPTypes_trans (a b c : Option SpanModel) (hab : byOTLPTypes a b)
    (hbc : byOTLPTypes b c) : byOTLPTypes a c := by
  rw [byOTLPTypes_iff_le] at hab hbc ⊢
  exact hab.trans hbc

def inOrder (sort : InterfaceSort (Option SpanModel)) (zipkinSpans : List (Option SpanModel)) :
    List SpanModel :=
  (sort.sort byOTLPTypes zipkinSpans).reduceOption

theorem inOrder_perm (sort : InterfaceSort (Option SpanModel))
    (zipkinSpans : List (Option SpanModel)) :
    (inOrder sort zipkinSpans).Perm zipkinSpans.reduceOption :=
  (sort.perm byOTLPTypes zipkinSpans).filterMap _

theorem mem_inOrder {z : SpanModel} : z ∈ inOrder sort zipkinSpans ↔ some z ∈ zipkinSpans :=
  (inOrder_perm sort zipkinSpans).mem_iff.trans reduceOption_mem_iff

theorem pairwise_inOrder (sort : InterfaceSort (Option SpanModel))
    (zipkinSpans : List (Option SpanModel)) :
    (inOrder sort zipkinSpans).Pairwise fun a b => byOTLPTypes (some a) (some b) := by
  refine List.Pairwise.filterMap _ ?_
    (sort.sorted byOTLPTypes byOTLPTypes_total byOTLPTypes_trans zipkinSpans)
  rintro _ _ h a rfl b rfl
  exact h

theorem pairwise_serviceOf (sort : InterfaceSort (Option SpanModel))
    (zipkinSpans : List (Option SpanModel)) :
    (inOrder sort zipkinSpans).Pairwise fun a b => serviceOf a ≤ serviceOf b :=
  (pairwise_inOrder sort zipkinSpans).imp fun h =>
    (byOTLPTypes_iff.1 h).elim le_of_lt fun hand => hand.1.le

theorem v2SpansToInternalTraces_runs (lib : Library F τ) (sort : InterfaceSort (Option SpanModel))
    (h : ∀ z, some z ∈ zipkinSpans → Decodes lib z)
    (hname : ∀ z, some z ∈ zipkinSpans → serviceOf z ≠ "") :
    ∃ td, v2SpansToInternalTraces lib sort zipkinSpans = .ok (.ok td) ∧
      List.Forall₂ (HoldsService lib) (keyRuns serviceOf (inOrder sort zipkinSpans)) td := by
  have hall : ∀ r ∈ keyRuns serviceOf (inOrder sort zipkinSpans), ∀ z ∈ r.members,
      serviceOf z = r.key ∧ Decodes lib z := fun r hr z hz =>
    ⟨key_of_mem_keyRuns hr hz, h z (mem_inOrder.1 (mem_of_mem_keyRuns hr hz))⟩
  have hhead : ∀ r ∈ (keyRuns serviceOf (inOrder sort zipkinSpans)).head?,
      r.key ≠ ({} : Progress F).prevServiceName := by
    intro r hr
    have hmem := mem_of_mem_head? hr
    rw [← (hall r hmem r.first mem_cons_self).1]
    exact hname _ (mem_inOrder.1 (mem_of_mem_keyRuns hmem mem_cons_self))
  obtain ⟨rss, hrss, st, hrun, htd⟩ :=
    translateSpans_runs (isChain_keyRuns serviceOf _) hall hhead
  rw [flatMap_members_keyRuns, inOrder, ← translateSpans_reduceOption] at hrun
  refine ⟨st.traceData, ?_, ?_⟩
  · simp only [v2SpansToInternalTraces, hrun, ok_bind]
    rfl
  · rw [htd]
    exact hrss

/-- A service without a name comes first, and there is no resource yet. -/
theorem v2SpansToInternalTraces_crash (lib : Library F τ) (sort : InterfaceSort (Option SpanModel))
    {z : SpanModel} (hz : some z ∈ zipkinSpans) (hname : serviceOf z = "") :
    v2SpansToInternalTraces lib sort zipkinSpans = .error .nilDereference := by
  have hsorted := pairwise_serviceOf sort zipkinSpans
  have hmem : z ∈ inOrder sort zipkinSpans := mem_inOrder.2 hz
  have hrun : translateSpans lib ((inOrder sort zipkinSpans).map some) {} =
      .error .nilDereference := by
    cases hfirst : inOrder sort zipkinSpans with
    | nil =>
      rw [hfirst] at hmem
      cases hmem
    | cons first rest =>
      rw [hfirst] at hmem hsorted
      have hempty : extractLocalServiceName (some first) = "" := by
        rcases mem_cons.1 hmem with rfl | hmem
        · exact hname
        · have hle : serviceOf first ≤ "" := hname ▸ (pairwise_cons.1 hsorted).1 z hmem
          exact le_antisymm hle (not_lt.1 fun hlt =>
            not_lt_nil _ (String.lt_iff_toList_lt.1 hlt))
      have hresource : enterResource lib ({} : Progress F) first = ({}, first.tags) :=
        if_neg (not_not.2 hempty)
      have hlibrary : enterLibrary ({} : Progress F) first first.tags = .error .nilDereference :=
        if_pos (.inr rfl)
      rw [map_cons, translateSpans, hresource]
      simp only [hlibrary]
      rfl
  rw [inOrder, ← translateSpans_reduceOption] at hrun
  rw [v2SpansToInternalTraces, hrun]
  rfl

theorem enterResource_agree (lib : Library F τ) (st : Progress F) (zspan : SpanModel) :
    Agree zspan.tags (enterResource lib st zspan).2 := by
  unfold enterResource
  dsimp only
  split
  · exact fun k hk => lookup_populateResource lib zspan.tags _ (.inl hk)
  · exact .refl _

theorem enterLibrary_agree {st' : Progress F} (h : enterLibrary st zspan tags = .ok (st', tags')) :
    Agree tags tags' := by
  unfold enterLibrary at h
  dsimp only at h
  split at h
  · obtain ⟨tags₁, hil, hagree⟩ :=
      populateILFromZipkinSpan_eq tags (extractInstrumentationLibrary (some zspan))
    rw [hil] at h
    obtain ⟨st₁, -, h⟩ := bind_eq_ok.1 h
    cases h
    exact hagree
  · cases h
    exact .refl _

theorem decodes_of_translateSpans {zspans : List (Option SpanModel)} {st' : Progress F}
    (h : translateSpans lib zspans st = .ok (.ok st')) : ∀ z, some z ∈ zspans → Decodes lib z := by
  induction zspans generalizing st with
  | nil =>
    intro z hz
    cases hz
  | cons zspan zspans ih =>
    cases zspan with
    | none => exact fun z hz => ih h z (mem_of_ne_of_mem (Option.some_ne_none z) hz)
    | some zspan =>
      obtain ⟨⟨st₁, tags⟩, hlibrary, h⟩ := bind_eq_ok.1 h
      have hagree : Agree zspan.tags tags :=
        (enterResource_agree lib st zspan).trans (enterLibrary_agree hlibrary)
      dsimp only at h
      split at h
      case h_1 => cases h
      case h_2 span hspan =>
        obtain ⟨st₂, -, h⟩ := bind_eq_ok.1 h
        intro z hz
        rcases mem_cons.1 hz with heq | hz
        · cases heq
          exact (zSpanToInternal_ok_iff hagree).1 ⟨span, hspan⟩
        · exact ih h z hz

theorem holdsService_of_run {td : List (ResourceSpans F (Filled F))}
    (h : v2SpansToInternalTraces lib sort zipkinSpans = .ok (.ok td)) :
    List.Forall₂ (HoldsService lib) (keyRuns serviceOf (inOrder sort zipkinSpans)) td := by
  have hdecodes : ∀ z, some z ∈ zipkinSpans → Decodes lib z := by
    obtain ⟨r, hrun, hr⟩ := bind_eq_ok.1 h
    cases r with
    | error err => cases hr
    | ok st =>
      exact fun z hz => decodes_of_translateSpans hrun z
        ((sort.perm byOTLPTypes zipkinSpans).mem_iff.2 hz)
  have hname : ∀ z, some z ∈ zipkinSpans → serviceOf z ≠ "" := by
    intro z hz hempty
    rw [v2SpansToInternalTraces_crash lib sort hz hempty] at h
    cases h
  obtain ⟨td', hrun, hruns⟩ := v2SpansToInternalTraces_runs lib sort hdecodes hname
  rw [hrun] at h
  cases h
  exact hruns

/-! ## Grouped spans -/

/-- The traces have one resource for each service, and in it the spans of that service, library by
library. Every span that is there has one place. -/
def Grouped (lib : Library F τ) (zipkinSpans : List (Option SpanModel))
    (td : List (ResourceSpans F (Filled F))) : Prop :=
  ∃ runs : List (KeyRun SpanModel String),
    (runs.flatMap KeyRun.members).Perm zipkinSpans.reduceOption ∧
    (∀ r ∈ runs, ∀ z ∈ r.members, serviceOf z = r.key) ∧
    (runs.map KeyRun.key).Nodup ∧
    List.Forall₂ (HoldsService lib) runs td

/-- Spans that decode are grouped unless a service has an empty name. -/
theorem v2Spans_grouped_iff (lib : Library F τ) (sort : InterfaceSort (Option SpanModel))
    {zipkinSpans : List (Option SpanModel)} (h : ∀ z, some z ∈ zipkinSpans → Decodes lib z) :
    (∃ td, v2SpansToInternalTraces lib sort zipkinSpans = .ok (.ok td) ∧
        Grouped lib zipkinSpans td) ↔
      ∀ z, some z ∈ zipkinSpans → serviceOf z ≠ "" := by
  constructor
  · rintro ⟨td, hrun, -⟩ z hz hname
    rw [v2SpansToInternalTraces_crash lib sort hz hname] at hrun
    cases hrun
  · intro hname
    obtain ⟨td, hrun, hruns⟩ := v2SpansToInternalTraces_runs lib sort h hname
    refine ⟨td, hrun, keyRuns serviceOf (inOrder sort zipkinSpans), ?_,
      fun _ hr _ hz => key_of_mem_keyRuns hr hz, ?_, hruns⟩
    · rw [flatMap_members_keyRuns]
      exact inOrder_perm sort zipkinSpans
    · exact nodup_keys_keyRuns (pairwise_serviceOf sort zipkinSpans)

def noLibrary : Library Int Unit where
  hexDecode _ := .ok []
  unmarshal _ := .ok []
  parseUint32 _ := .ok 0
  parseInt _ := 0
  parseFloat _ := 0
  isWhole _ := true
  int64 _ := 0
  ipString _ := ""
  tagOrder := .stored
  keyOrder := .stored

def bareSpan (service : String) (tags : GoMap String String) : SpanModel where
  traceId := ⟨0, 1⟩
  id := 2
  parentId := none
  sampled := none
  err := none
  name := "span"
  kind := .client
  timestamp := 5
  duration := 3
  localEndpoint := some { serviceName := service }
  remoteEndpoint := none
  annotations := []
  tags := tags

theorem decodes_bareSpan (service : String) (h : tags.lookup (linkKey 0) = none) :
    Decodes noLibrary (bareSpan service tags) where
  links := ⟨([], tags), by rw [bareSpan, zTagsToSpanLinks, linksFromTags, h]⟩
  events := ⟨_, rfl⟩

theorem bareSpans_grouped :
    ∃ td, v2SpansToInternalTraces noLibrary .stable
        [some (bareSpan "b" ∅), none, some (bareSpan "a" ∅)] = .ok (.ok td) ∧
      Grouped noLibrary [some (bareSpan "b" ∅), none, some (bareSpan "a" ∅)] td := by
  refine (v2Spans_grouped_iff noLibrary .stable fun z hz => ?_).2 fun z hz => ?_
  · have hz : z = bareSpan "b" ∅ ∨ z = bareSpan "a" ∅ := by simpa using hz
    rcases hz with rfl | rfl
    · exact decodes_bareSpan "b" rfl
    · exact decodes_bareSpan "a" rfl
  · have hz : z = bareSpan "b" ∅ ∨ z = bareSpan "a" ∅ := by simpa using hz
    rcases hz with rfl | rfl <;> decide

/-- An endpoint whose service has no name. -/
theorem nameless_service_crashes :
    Decodes noLibrary (bareSpan "" ∅) ∧
      v2SpansToInternalTraces noLibrary .stable [some (bareSpan "" ∅)] =
        .error .nilDereference :=
  ⟨decodes_bareSpan "" rfl, v2SpansToInternalTraces_crash noLibrary .stable mem_cons_self rfl⟩

end Collector.Zipkin
