import Collector.Prometheus.Groups

/-!
# The metric builder

`metricBuilder.AddDataPoint`: the samples of a scrape come one after the other, and a family is
closed when a sample comes that is not of it. Which family a sample is of is decided twice, by
`IsSameFamily` from the name alone and by `newMetricFamily` with the metadata. The two differ for a
name that ends in one of the suffixes of histograms and summaries, where what is before the suffix
names a metric of its own (`isSameFamily_newMetricFamily`).
-/

namespace Collector.Prometheus

open Lib OpenCensus List

/-- `scrape.MetricMetadata` with its type, which is `none` for a text that is no type. -/
structure TypedMetadata extends MetricMetadata where
  type : Option TextMetricType
  deriving DecidableEq, Repr

/-- `MetadataCache.Metadata`. -/
abbrev MetadataCache := String → TypedMetadata × Bool

def trimmableSuffixes : List String := ["_bucket", "_count", "_sum"]

/-- `strings.TrimSuffix`. -/
def trimSuffix (s suf : String) : String :=
  if hasSuffix s suf then String.ofList (s.toList.take (s.toList.length - suf.toList.length)) else s

def normalizeMetricName (name : String) : String :=
  match trimmableSuffixes.find? fun s => hasSuffix name s && name != s with
  | some s => trimSuffix name s
  | none => name

def isInternalMetric (metricName : String) : Bool :=
  metricName == "up" || "scrape_".toList.isPrefixOf metricName.toList

/-- `convToOCAMetricType`, for any text. -/
def metricTypeOf (type : Option TextMetricType) : MetricType :=
  type.elim .unspecified convToOCAMetricType

section Family

variable {F : Type}

def newMetricFamily (metricName : String) (mc : MetadataCache) : OpenFamily F :=
  let familyName := normalizeMetricName metricName
  let (metadata, ok) := mc familyName
  if ¬ ok ∧ metricName ≠ familyName then
    -- a metric that is no histogram or summary, but has a name like theirs
    let (metadata, ok) := mc metricName
    let type := if ok then metadata.type else some .unknown
    .fresh metricName (metricTypeOf type) metadata.toMetricMetadata
  else .fresh familyName (metricTypeOf metadata.type) metadata.toMetricMetadata

def OpenFamily.isSameFamily (mf : OpenFamily F) (metricName : String) : Bool :=
  let familyName := normalizeMetricName metricName
  mf.name == familyName || familyName != metricName && mf.name == metricName

end Family

/-- What a builder is made with, and the parts of the libraries that it uses. -/
structure BuilderEnv (F N τ : Type) where
  mc : MetadataCache
  useStartTimeMetric : Bool
  startTimeMetricRegex : Option (String → Bool)
  sort : SliceSort (DataPoint F)
  int64 : F → N
  parseFloat : String → Except (GoError τ) F
  isPrint : Char → Bool

structure MetricBuilder (F N : Type) where
  hasData : Bool
  hasInternalMetric : Bool
  metrics : List (Metric (TimeSeries F N))
  numTimeseries : Nat
  droppedTimeseries : Nat
  startTime : F
  scrapeLatencyMs : F
  scrapeStatus : String
  currentMf : Option (OpenFamily F)

/-- The arguments of `AddDataPoint`, and the order in which the loop over the groups of a family
that it closes visits them. -/
structure DataPointCall (F : Type) where
  ls : List Label
  t : Int64
  v : F
  ord : MapOrder (String × Nat)

def DataPointCall.metricName [LabelSet] {F : Type} (call : DataPointCall F) : String :=
  getLabel call.ls "__name__"

section Builder

variable {F N τ : Type}

/-- `newMetricBuilder`. -/
def MetricBuilder.new [Zero F] : MetricBuilder F N := ⟨false, false, [], 0, 0, 0, 0, "", none⟩

def BuilderEnv.matchStartTimeMetric (c : BuilderEnv F N τ) (metricName : String) : Bool :=
  match c.startTimeMetricRegex with
  | some regex => regex metricName
  | none => metricName == "process_start_time_seconds"

/-- What `AddDataPoint` keeps of a metric about the scrape. -/
def MetricBuilder.addInternal [BEq F] [One F] [Mul F] [OfNat F 1000] (b : MetricBuilder F N)
    (metricName : String) (v : F) : MetricBuilder F N :=
  let b := { b with hasInternalMetric := true }
  if metricName = "up" then { b with scrapeStatus := if v == 1 then "200" else "404" }
  else if metricName = "scrape_duration_seconds" then { b with scrapeLatencyMs := v * 1000 }
  else b

variable [LabelSet] [Zero F] [One F] [BEq F] [Sub F] [Mul F] [OfNat F 100] [OfNat F 1000] [LT F]
  [DecidableLT F] (c : BuilderEnv F N τ)

def MetricBuilder.close (ord : MapOrder (String × Nat)) (b : MetricBuilder F N)
    (mf : OpenFamily F) : Go (MetricBuilder F N) := do
  let (m, ts, dts) ← mf.toMetric c.sort c.int64 ord
  return { b with
    numTimeseries := b.numTimeseries + ts
    droppedTimeseries := b.droppedTimeseries + dts
    metrics := b.metrics ++ m.toList }

def MetricBuilder.familyFor (ord : MapOrder (String × Nat)) (b : MetricBuilder F N)
    (metricName : String) : Go (MetricBuilder F N × OpenFamily F) :=
  match b.currentMf with
  | some mf =>
    if mf.isSameFamily metricName then .ok (b, mf)
    else do
      let b ← b.close c ord mf
      return (b, newMetricFamily metricName c.mc)
  | none => .ok (b, newMetricFamily metricName c.mc)

def MetricBuilder.addDataPoint (b : MetricBuilder F N) (call : DataPointCall F) :
    Go (MetricBuilder F N × Option (GoError τ)) :=
  let metricName := call.metricName
  if metricName = "" then
    .ok ({ b with
      numTimeseries := b.numTimeseries + 1
      droppedTimeseries := b.droppedTimeseries + 1 },
      some (.new "metricName not found from labels"))
  else if isInternalMetric metricName then .ok (b.addInternal metricName call.v, none)
  else do
    let b := if c.useStartTimeMetric && c.matchStartTimeMetric metricName then
      { b with startTime := call.v } else b
    let b := { b with hasData := true }
    let (b, mf) ← b.familyFor c call.ord metricName
    let (mf, err) := mf.add c.parseFloat c.isPrint ⟨metricName, call.ls, call.t, call.v⟩
    return ({ b with currentMf := some mf }, err)

end Builder

/-! ## Which family -/

section Names

variable {F : Type} {mc : MetadataCache} {m : String}

theorem name_newMetricFamily (m : String) (mc : MetadataCache) :
    (newMetricFamily m mc : OpenFamily F).name =
      if (mc (normalizeMetricName m)).2 = true ∨ normalizeMetricName m = m
      then normalizeMetricName m else m := by
  have hiff : (¬ (mc (normalizeMetricName m)).2 = true ∧ m ≠ normalizeMetricName m) ↔
      ¬ ((mc (normalizeMetricName m)).2 = true ∨ normalizeMetricName m = m) := by
    rw [not_or, ne_comm]
  unfold newMetricFamily
  simp only [hiff]
  by_cases hown : (mc (normalizeMetricName m)).2 = true ∨ normalizeMetricName m = m
  · rw [if_neg (not_not.2 hown), if_pos hown]
    rfl
  · rw [if_pos hown, if_neg hown]
    rfl

/-- A sample of this name is not mistaken for one of this family: where its name has a suffix, the
family is not the other of the two that the name may stand for. -/
structure Clear (mc : MetadataCache) (family m : String) : Prop where
  original : normalizeMetricName m ≠ m → (mc (normalizeMetricName m)).2 = true → family ≠ m
  trimmed : normalizeMetricName m ≠ m → (mc (normalizeMetricName m)).2 = false →
    family ≠ normalizeMetricName m

/-- **The two decisions agree exactly where the name is clear.** -/
theorem isSameFamily_newMetricFamily (mf : OpenFamily F) :
    (if mf.isSameFamily m then mf.name else (newMetricFamily m mc : OpenFamily F).name) =
      (newMetricFamily m mc : OpenFamily F).name ↔ Clear mc mf.name m := by
  have hsame : mf.isSameFamily m = true ↔ mf.name = normalizeMetricName m ∨
      normalizeMetricName m ≠ m ∧ mf.name = m := by
    simp [OpenFamily.isSameFamily]
  rw [name_newMetricFamily]
  by_cases hne : normalizeMetricName m = m
  · -- There is no suffix, and only one name.
    have hclear : Clear mc mf.name m := ⟨fun h => absurd hne h, fun h => absurd hne h⟩
    refine iff_of_true ?_ hclear
    rw [if_pos (Or.inr hne)]
    split
    · rename_i h
      rcases hsame.1 h with h | ⟨h, -⟩
      · exact h
      · exact absurd hne h
    · rfl
  · cases hdecl : (mc (normalizeMetricName m)).2 with
    | true =>
      have hnew : (if true = true ∨ normalizeMetricName m = m then normalizeMetricName m else m) =
          normalizeMetricName m := if_pos (.inl rfl)
      by_cases hname : mf.name = m
      · rw [if_pos (hsame.2 (.inr ⟨hne, hname⟩)), hname]
        exact iff_of_false (Ne.symm hne) fun h => h.original hne hdecl rfl
      · refine iff_of_true ?_ ⟨fun _ _ => hname, fun _ h => absurd (hdecl.symm.trans h) (by decide)⟩
        split
        · rename_i h
          exact (hsame.1 h).resolve_right fun h => hname h.2
        · rfl
    | false =>
      have hnew : (if false = true ∨ normalizeMetricName m = m then normalizeMetricName m else m) =
          m := if_neg fun h => h.elim (by decide) hne
      rw [hnew]
      by_cases hname : mf.name = normalizeMetricName m
      · rw [if_pos (hsame.2 (.inl hname)), hname]
        exact iff_of_false hne fun h => h.trimmed hne hdecl rfl
      · refine iff_of_true ?_ ⟨fun _ h => absurd (hdecl.symm.trans h) (by decide), fun _ _ => hname⟩
        split
        · rename_i h
          exact ((hsame.1 h).resolve_left hname).2
        · rfl

end Names

/-! ## Runs -/

section Run

variable {F N τ : Type}

def OpenFamily.Ordered (mf : OpenFamily F) : Prop :=
  ∃ l, Positions mf.groupOrders l ∧ ∀ k, k ∈ l ↔ k ∈ mf.groups

theorem ordered_fresh (name : String) (mtype : MetricType) (metadata : MetricMetadata) :
    (OpenFamily.fresh name mtype metadata : OpenFamily F).Ordered :=
  ⟨[], Positions.empty, fun k => iff_of_false not_mem_nil (AList.notMem_empty k)⟩

theorem ordered_newMetricFamily (m : String) (mc : MetadataCache) :
    (newMetricFamily m mc : OpenFamily F).Ordered := by
  unfold newMetricFamily
  simp only
  split <;> exact ordered_fresh _ _ _

theorem Added.ordered {mf mf' : OpenFamily F} {s : Sample F} {key : String} {mg : MetricGroup F}
    (h : Added mf s key mg mf') (hmf : mf.Ordered) : mf'.Ordered := by
  obtain ⟨l, hl, hmem⟩ := hmf
  refine ⟨_, h.positions hl hmem, fun k => ?_⟩
  rw [h.mem_groups, ← hmem]
  split
  · rename_i hkey
    refine ⟨.inl, fun hk => ?_⟩
    rcases hk with hk | rfl
    · exact hk
    · exact hkey
  · rw [mem_append, mem_singleton]

/-- What one call does to the family, by its name. -/
structure Entry (τ : Type) where
  metricName : String
  before : Option String
  after : Option String
  err : Option (GoError τ)
  deriving DecidableEq, Repr

/-- The names of samples that go to families. -/
def isSampleName (m : String) : Bool := m != "" && !isInternalMetric m

def Entry.Accepted (e : Entry τ) : Prop := isSampleName e.metricName = true ∧ e.err = none

theorem currentMf_addInternal [BEq F] [One F] [Mul F] [OfNat F 1000] (b : MetricBuilder F N)
    (m : String) (v : F) : (b.addInternal m v).currentMf = b.currentMf := by
  unfold MetricBuilder.addInternal
  simp only
  split_ifs <;> rfl

variable [LabelSet] [Sub F] [Mul F] [OfNat F 100] [LT F] [DecidableLT F] (c : BuilderEnv F N τ)

theorem OpenFamily.Ordered.close {mf : OpenFamily F} (h : mf.Ordered)
    (ord : MapOrder (String × Nat)) (b : MetricBuilder F N) :
    ∃ b', b.close c ord mf = .ok b' := by
  obtain ⟨l, hl, hmem⟩ := h
  obtain ⟨made, n, hmade, -⟩ := toMetric_series c.sort c.int64 ord hl fun k hk => (hmem k).1 hk
  unfold MetricBuilder.close
  rw [hmade]
  exact ⟨_, rfl⟩

variable {b : MetricBuilder F N}

theorem familyFor_ok (h : ∀ mf ∈ b.currentMf, mf.Ordered) (ord : MapOrder (String × Nat))
    (m : String) :
    ∃ b' mf', b.familyFor c ord m = .ok (b', mf') ∧ mf'.Ordered ∧
      mf'.name = (b.currentMf.map fun mf => if mf.isSameFamily m then mf.name
        else (newMetricFamily m c.mc : OpenFamily F).name).getD
          (newMetricFamily m c.mc : OpenFamily F).name := by
  unfold MetricBuilder.familyFor
  cases hmf : b.currentMf with
  | none => exact ⟨b, _, rfl, ordered_newMetricFamily _ _, rfl⟩
  | some mf =>
    have hordered : mf.Ordered := h mf hmf
    by_cases hsame : mf.isSameFamily m = true
    · simp only [if_pos hsame]
      exact ⟨b, mf, rfl, hordered, (if_pos hsame).symm⟩
    · obtain ⟨b', hclose⟩ := hordered.close c ord b
      simp only [if_neg hsame, hclose]
      exact ⟨b', _, rfl, ordered_newMetricFamily _ _, (if_neg hsame).symm⟩

variable [Zero F] [One F] [BEq F] [OfNat F 1000]

/-- The family after a call: that of the sample, if there is one. -/
structure NextFamily (mc : MetadataCache) (b b' : MetricBuilder F N) (m : String) : Prop where
  kept : isSampleName m = false → b'.currentMf = b.currentMf
  added : isSampleName m = true → ∃ mf', b'.currentMf = some mf' ∧ mf'.Ordered ∧
    mf'.name = (b.currentMf.map fun mf => if mf.isSameFamily m then mf.name
      else (newMetricFamily m mc : OpenFamily F).name).getD
        (newMetricFamily m mc : OpenFamily F).name

theorem addDataPoint_ok (h : ∀ mf ∈ b.currentMf, mf.Ordered) (call : DataPointCall F) :
    ∃ b' err, b.addDataPoint c call = .ok (b', err) ∧
      NextFamily c.mc b b' call.metricName := by
  unfold MetricBuilder.addDataPoint
  by_cases hempty : call.metricName = ""
  · have hno : isSampleName call.metricName = false := by rw [hempty]; rfl
    simp only [if_pos hempty]
    exact ⟨_, _, rfl, fun _ => rfl, fun hs => absurd (hno.symm.trans hs) (by decide)⟩
  · by_cases hinternal : isInternalMetric call.metricName = true
    · have hno : isSampleName call.metricName = false := by simp [isSampleName, hinternal]
      simp only [if_neg hempty, if_pos hinternal]
      exact ⟨_, _, rfl, fun _ => currentMf_addInternal b _ _,
        fun hs => absurd (hno.symm.trans hs) (by decide)⟩
    · have hyes : isSampleName call.metricName = true := by simp [isSampleName, hempty, hinternal]
      simp only [if_neg hempty, if_neg hinternal]
      -- The start time and `hasData` do not matter to the family.
      obtain ⟨b₀, hb₀, hcurrent⟩ : ∃ b₀ : MetricBuilder F N, { (if c.useStartTimeMetric &&
          c.matchStartTimeMetric call.metricName then { b with startTime := call.v } else b)
            with hasData := true } = b₀ ∧ b₀.currentMf = b.currentMf := by
        refine ⟨_, rfl, ?_⟩
        split <;> rfl
      obtain ⟨b₁, mf, hfamily, hordered, hname⟩ := familyFor_ok c (hcurrent ▸ h) call.ord
        call.metricName
      rw [hb₀, hfamily]
      refine ⟨_, _, rfl, fun hno => absurd (hno.symm.trans hyes) (by decide), fun _ =>
        ⟨_, rfl, (added_add mf _).ordered hordered, ?_⟩⟩
      rw [← hcurrent]
      exact (added_add mf _).name.trans hname

/-- `AddDataPoint`, observed. -/
def MetricBuilder.observe (b : MetricBuilder F N) (call : DataPointCall F) :
    Go (MetricBuilder F N × Entry τ) := do
  let (b', err) ← b.addDataPoint c call
  return (b', ⟨call.metricName, b.currentMf.map (·.name), b'.currentMf.map (·.name), err⟩)

/-- The family of a builder is in order, and the one of a sample that has come. -/
structure BuilderInv (mc : MetadataCache) (seen : List String) (b : MetricBuilder F N) : Prop where
  ordered : ∀ mf ∈ b.currentMf, mf.Ordered
  named : ∀ mf ∈ b.currentMf, ∃ m ∈ seen, mf.name = (newMetricFamily m mc : OpenFamily F).name

structure Observed (mc : MetadataCache) (b : MetricBuilder F N) (m : String) (e : Entry τ) :
    Prop where
  metricName : e.metricName = m
  before : e.before = b.currentMf.map (·.name)
  after : isSampleName m = true → (e.after = some (newMetricFamily m mc : OpenFamily F).name ↔
    ∀ f ∈ e.before, Clear mc f m)

/-- **One call.** It does not crash, and puts a sample in the family that `newMetricFamily` would
choose for it exactly where the name is clear of the current family. -/
theorem observe_ok {seen : List String} (h : BuilderInv c.mc seen b) (call : DataPointCall F) :
    ∃ b' e, b.observe c call = .ok (b', e) ∧ Observed c.mc b call.metricName e ∧
      BuilderInv c.mc (seen ++ [call.metricName].filter isSampleName) b' := by
  obtain ⟨b', err, hb', hnext⟩ := addDataPoint_ok c h.ordered call
  refine ⟨b', _, by unfold MetricBuilder.observe; rw [hb']; rfl, ⟨rfl, rfl, fun hs => ?_⟩, ?_⟩
  · obtain ⟨mf', hmf', -, hname⟩ := hnext.added hs
    rw [hmf', Option.map_some, Option.some_inj, hname]
    cases hmf : b.currentMf with
    | none => exact iff_of_true rfl (by simp)
    | some mf =>
      simp only [Option.map_some, Option.getD_some, Option.mem_some_iff, forall_eq']
      exact isSameFamily_newMetricFamily mf
  · cases hs : isSampleName call.metricName with
    | false =>
      rw [filter_cons_of_neg (by rw [hs]; decide), filter_nil, append_nil]
      have hkept := hnext.kept hs
      exact ⟨hkept ▸ h.ordered, hkept ▸ h.named⟩
    | true =>
      rw [filter_cons_of_pos hs, filter_nil]
      obtain ⟨mf', hmf', hordered, hname⟩ := hnext.added hs
      have hnew : ∃ m ∈ seen ++ [call.metricName],
          (newMetricFamily call.metricName c.mc : OpenFamily F).name =
            (newMetricFamily m c.mc : OpenFamily F).name :=
        ⟨_, mem_append_right _ mem_cons_self, rfl⟩
      refine ⟨fun mf hmf => ?_, fun mf hmf => ?_⟩ <;> rw [hmf'] at hmf <;> cases hmf
      · exact hordered
      · rw [hname]
        cases hb : b.currentMf with
        | none => exact hnew
        | some mf =>
          simp only [Option.map_some, Option.getD_some]
          split
          · obtain ⟨m, hm, hmname⟩ := h.named mf hb
            exact ⟨m, mem_append_left _ hm, hmname⟩
          · exact hnew

def sampled (calls : List (DataPointCall F)) : List String :=
  (calls.map DataPointCall.metricName).filter isSampleName

/-- What a call of a run shows: it is of one of the samples, the family before it is that of one of
them, and the one after it is right exactly where the name is clear. -/
structure Entry.Shown (e : Entry τ) (mc : MetadataCache) (seen names : List String) : Prop where
  sampled : isSampleName e.metricName = true → e.metricName ∈ names
  before : ∀ f ∈ e.before, ∃ m ∈ seen ++ names, f = (newMetricFamily m mc : OpenFamily F).name
  after : isSampleName e.metricName = true →
    (e.after = some (newMetricFamily e.metricName mc : OpenFamily F).name ↔
      ∀ f ∈ e.before, Clear mc f e.metricName)

theorem shown_run {seen : List String} (h : BuilderInv c.mc seen b)
    (calls : List (DataPointCall F)) :
    ∃ b' log, accumulate (MetricBuilder.observe c) b calls = .ok (b', log) ∧
      ∀ e ∈ log, e.Shown (F := F) c.mc seen (sampled calls) := by
  induction calls generalizing seen b with
  | nil => exact ⟨b, [], rfl, fun e he => absurd he not_mem_nil⟩
  | cons call calls ih =>
    obtain ⟨b₁, e, hstep, hobs, hinv⟩ := observe_ok c h call
    obtain ⟨b', log, hrun, hlog⟩ := ih hinv
    have hnames : sampled (call :: calls) =
        [call.metricName].filter isSampleName ++ sampled calls := by
      rw [sampled, map_cons, ← singleton_append, filter_append]
      rfl
    refine ⟨b', e :: log, accumulate_cons_ok.2 ⟨b₁, e, log, hstep, hrun, rfl⟩, fun x hx => ?_⟩
    rw [hnames]
    rcases mem_cons.1 hx with rfl | hx
    · refine ⟨fun hs => ?_, fun f hf => ?_, fun hs => ?_⟩
      · rw [hobs.metricName] at hs ⊢
        exact mem_append_left _ (mem_filter.2 ⟨mem_cons_self, hs⟩)
      · rw [hobs.before] at hf
        obtain ⟨mf, hmf, rfl⟩ := Option.map_eq_some_iff.1 hf
        obtain ⟨m, hm, hname⟩ := h.named mf hmf
        exact ⟨m, mem_append_left _ hm, hname⟩
      · rw [hobs.metricName] at hs ⊢
        exact hobs.after hs
    · obtain ⟨hsampled, hbefore, hafter⟩ := hlog x hx
      refine ⟨fun hs => mem_append_right _ (hsampled hs), fun f hf => ?_, hafter⟩
      rw [← append_assoc]
      exact hbefore f hf

/-- No sample of these names is mistaken for one of the family of another. -/
def Separate (mc : MetadataCache) (names : List String) : Prop :=
  ∀ m ∈ names, ∀ m' ∈ names, Clear mc (newMetricFamily m' mc : OpenFamily Unit).name m

/-- The metrics of these names are declared, and none of them has the name of another that is
declared and one of the suffixes. -/
structure DeclaredApart (mc : MetadataCache) (names : List String) : Prop where
  declared : ∀ m ∈ names, (mc (normalizeMetricName m)).2 = true ∨ (mc m).2 = true
  apart : ∀ m ∈ names, normalizeMetricName m ≠ m → (mc (normalizeMetricName m)).2 = true →
    (mc m).2 = false

omit [LabelSet] in
theorem DeclaredApart.separate {mc : MetadataCache} {names : List String}
    (h : DeclaredApart mc names) : Separate mc names := by
  intro m hm m' hm'
  have hdecl : (mc (newMetricFamily m' mc : OpenFamily Unit).name).2 = true := by
    rw [name_newMetricFamily]
    split
    · rename_i hown
      rcases hown with hown | hown
      · exact hown
      · rcases h.declared m' hm' with hd | hd
        · exact hd
        · rw [hown]
          exact hd
    · rename_i hown
      exact (h.declared m' hm').resolve_left fun hd => hown (.inl hd)
  refine ⟨fun hne hstem he => ?_, fun _ hstem he => ?_⟩
  · rw [he, h.apart m hm hne hstem] at hdecl
    cases hdecl
  · rw [he, hstem] at hdecl
    cases hdecl

/-- **The families of a run.** No call crashes; each sample is in the family that `newMetricFamily`
chooses for its name exactly if each is clear of the family that was current, and so they are
where no name is mistaken for the family of another, as where the metrics are declared apart. -/
theorem families_run (calls : List (DataPointCall F)) :
    ∃ b log, accumulate (MetricBuilder.observe c) .new calls = .ok (b, log) ∧
      log.length = calls.length ∧
      ((∀ e ∈ log, e.Accepted →
          e.after = some (newMetricFamily e.metricName c.mc : OpenFamily F).name) ↔
        ∀ e ∈ log, e.Accepted → ∀ f ∈ e.before, Clear c.mc f e.metricName) ∧
      (Separate c.mc (sampled calls) → ∀ e ∈ log, e.Accepted →
        e.after = some (newMetricFamily e.metricName c.mc : OpenFamily F).name) ∧
      (DeclaredApart c.mc (sampled calls) → Separate c.mc (sampled calls)) := by
  have hinv : BuilderInv c.mc [] (MetricBuilder.new : MetricBuilder F N) :=
    ⟨fun mf hmf => absurd hmf (Option.not_mem_none mf), fun mf hmf =>
      absurd hmf (Option.not_mem_none mf)⟩
  obtain ⟨b, log, hrun, hlog⟩ := shown_run c hinv calls
  refine ⟨b, log, hrun, length_accumulate hrun, ?_, fun hsep e he hacc => ?_,
    DeclaredApart.separate⟩
  · refine forall_congr' fun e => forall_congr' fun he => forall_congr' fun hacc => ?_
    exact (hlog e he).after hacc.1
  · refine ((hlog e he).after hacc.1).2 fun f hf => ?_
    obtain ⟨m, hm, rfl⟩ := (hlog e he).before f hf
    have hclear := hsep _ ((hlog e he).sampled hacc.1) m hm
    rw [name_newMetricFamily] at hclear ⊢
    exact hclear

end Run

def declaring (declared : List (String × TextMetricType)) : BuilderEnv Int Int Empty where
  mc name := match declared.lookup name with
    | some type => (⟨⟨"", ""⟩, some type⟩, true)
    | none => (⟨⟨"", ""⟩, none⟩, false)
  useStartTimeMetric := false
  startTimeMetricRegex := none
  sort := .stable
  int64 := id
  parseFloat _ := .ok 0
  isPrint _ := true

attribute [local instance] LabelSet.listed

/-- Samples without labels of their own: what the calls show, and the values and counts that the
groups of the last family have. -/
def sampleRun (declared : List (String × TextMetricType)) (samples : List (String × Int)) :
    Option (List (Entry Empty) × Option (List (Int × Int))) :=
  let calls := samples.map fun s => ⟨[⟨"__name__", s.1⟩], 0, s.2, .stored⟩
  (accumulate (MetricBuilder.observe (declaring declared)) .new calls).toOption.map fun r =>
    (r.2, r.1.currentMf.map fun mf => mf.groups.values.map fun mg => (mg.value, mg.count))

/-- An untyped metric and a counter with its name and a suffix are one family, and the value of the
first is lost; and so are a summary and a histogram that are both declared. -/
theorem families_confused :
    sampleRun [("jobs_count", .counter)] [("jobs", 5), ("jobs_count", 7)] =
        some ([⟨"jobs", none, some "jobs", none⟩, ⟨"jobs_count", some "jobs", some "jobs", none⟩],
          some [(7, 0)]) ∧
      (newMetricFamily "jobs_count" (declaring [("jobs_count", .counter)]).mc :
        OpenFamily Int).name = "jobs_count" ∧
      sampleRun [("jobs", .summary), ("jobs_count", .histogram)]
          [("jobs_count_sum", 5), ("jobs_count", 7)] =
        some ([⟨"jobs_count_sum", none, some "jobs_count", none⟩,
          ⟨"jobs_count", some "jobs_count", some "jobs_count", none⟩], some [(0, 7)]) ∧
      (newMetricFamily "jobs_count"
        (declaring [("jobs", .summary), ("jobs_count", .histogram)]).mc : OpenFamily Int).name =
          "jobs" := by
  decide +kernel

end Collector.Prometheus
