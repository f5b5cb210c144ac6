import Mathlib.Data.String.Basic
import Collector.Go.Errors
import Collector.Go.Quote
import Collector.Lib.Search
import Collector.Lib.Tabulate
import Collector.Prometheus.Family

/-!
# Adding samples to a family

`metricFamily.Add`: the labels of a sample extend the sorted list of label keys,
its signature under that list picks the group, and the name of the sample says
which part of the group it is. The table `isPrint` of the standard library and
`strconv.ParseFloat` are parameters.
-/

namespace Collector.Prometheus

open Lib OpenCensus

/-- `strings.HasSuffix`. -/
def hasSuffix (s suf : String) : Bool := suf.toList.isSuffixOf s.toList

def isUsefulLabel (mType : MetricType) (labelKey : String) : Bool :=
  if labelKey ∈ ["__name__", "instance", "__scheme__", "__metrics_path__", "job"] then false
  else if labelKey = "le" then mType ≠ .gaugeDistribution && mType ≠ .cumulativeDistribution
  else if labelKey = "quantile" then mType ≠ .summary
  else true

/-- A `metricFamily` with the set `labelKeys`, which only `Add` reads. -/
structure OpenFamily (F : Type) extends MetricFamily F where
  labelKeys : GoMap String Bool

def OpenFamily.fresh {F : Type} (name : String) (mtype : MetricType) (metadata : MetricMetadata) :
    OpenFamily F where
  name := name
  mtype := mtype
  droppedTimeseries := 0
  labelKeysOrdered := []
  metadata := metadata
  groupOrders := ∅
  groups := ∅
  labelKeys := ∅

/-- The arguments of one `Add`. -/
structure Sample (F : Type) where
  metricName : String
  ls : List Label
  t : Int64
  v : F

def dpgSignature [LabelSet] (isPrint : Char → Bool) (orderedKnownLabelKeys : List String)
    (ls : List Label) : String :=
  goSyntax isPrint (orderedKnownLabelKeys.filterMap fun k =>
    let v := getLabel ls k
    if v = "" then none else some (k ++ "=" ++ v))

section Add

variable {F τ : Type}

/-- The body of the loop of `updateLabelKeys`. -/
def OpenFamily.addLabelKey (mf : OpenFamily F) (l : Label) : OpenFamily F :=
  if isUsefulLabel mf.mtype l.name then
    match mf.labelKeys.lookup l.name with
    | some _ => mf
    | none => { mf with
        labelKeys := mf.labelKeys.insert l.name true
        labelKeysOrdered := insertSorted mf.labelKeysOrdered l.name }
  else mf

def OpenFamily.updateLabelKeys (mf : OpenFamily F) (ls : List Label) : OpenFamily F :=
  ls.foldl OpenFamily.addLabelKey mf

def OpenFamily.getGroupKey [LabelSet] (isPrint : Char → Bool) (mf : OpenFamily F)
    (ls : List Label) : OpenFamily F × String :=
  let mf := mf.updateLabelKeys ls
  (mf, dpgSignature isPrint mf.labelKeysOrdered ls)

def OpenFamily.loadMetricGroupOrCreate [Zero F] (mf : OpenFamily F) (groupKey : String)
    (ls : List Label) (ts : Int64) : OpenFamily F × MetricGroup F :=
  match mf.groups.lookup groupKey with
  | some mg => (mf, mg)
  | none =>
    let mg : MetricGroup F := ⟨ts, ls, 0, false, 0, false, 0, []⟩
    ({ mf with
      groups := mf.groups.insert groupKey mg
      groupOrders := mf.groupOrders.insert groupKey mf.groupOrders.pairs.length }, mg)

variable (parseFloat : String → Except (GoError τ) F)

def getBoundary [LabelSet] (metricType : MetricType) (ls : List Label) : Except (GoError τ) F :=
  let boundary (labelName : String) : Except (GoError τ) F :=
    let v := getLabel ls labelName
    if v = "" then .error (.new "BucketLabel or QuantileLabel is empty") else parseFloat v
  match metricType with
  | .cumulativeDistribution | .gaugeDistribution => boundary "le"
  | .summary => boundary "quantile"
  | _ => .error (.new "given metricType has no BucketLabel or QuantileLabel")

/-- The parts of a histogram or a summary, by the name of the sample. -/
def MetricGroup.addPart [LabelSet] (mtype : MetricType) (s : Sample F) (mg : MetricGroup F) :
    Except (GoError τ) (MetricGroup F) :=
  if hasSuffix s.metricName "_sum" then .ok { mg with ts := s.t, sum := s.v, hasSum := true }
  else if hasSuffix s.metricName "_count" then .ok { mg with count := s.v, hasCount := true }
  else do
    let boundary ← getBoundary parseFloat mtype s.ls
    return { mg with complexValue := mg.complexValue ++ [⟨s.v, boundary⟩] }

/-- The switch of `Add`. -/
def MetricGroup.addSample [LabelSet] (mtype : MetricType) (s : Sample F) (mg : MetricGroup F) :
    Except (GoError τ) (MetricGroup F) :=
  match mtype with
  | .cumulativeDistribution | .summary => mg.addPart parseFloat mtype s
  | _ => .ok { mg with value := s.v }

/-- `metricFamily.Add`. -/
def OpenFamily.add [LabelSet] [Zero F] (isPrint : Char → Bool) (mf : OpenFamily F) (s : Sample F) :
    OpenFamily F × Option (GoError τ) :=
  let (mf, groupKey) := mf.getGroupKey isPrint s.ls
  let (mf, mg) := mf.loadMetricGroupOrCreate groupKey s.ls s.t
  match mg.addSample parseFloat mf.mtype s with
  | .error err => ({ mf with droppedTimeseries := mf.droppedTimeseries + 1 }, some err)
  | .ok mg => ({ mf with groups := mf.groups.insert groupKey mg }, none)

/-! ## Label keys -/

/-- The label keys are in order: strictly sorted, the useful ones among those seen, and the set
agrees with the list. -/
structure OpenFamily.KeysSound (mf : OpenFamily F) (seen : List Label) : Prop where
  sorted : mf.labelKeysOrdered.Pairwise (· < ·)
  mem : ∀ k, k ∈ mf.labelKeysOrdered ↔ isUsefulLabel mf.mtype k = true ∧ ∃ l ∈ seen, l.name = k
  known : ∀ k, k ∈ mf.labelKeys ↔ k ∈ mf.labelKeysOrdered

structure OpenFamily.SameButKeys (mf mf' : OpenFamily F) : Prop where
  name : mf'.name = mf.name
  mtype : mf'.mtype = mf.mtype
  groups : mf'.groups = mf.groups
  groupOrders : mf'.groupOrders = mf.groupOrders

variable {mf : OpenFamily F}

theorem OpenFamily.sameButKeys_addLabelKey (mf : OpenFamily F) (l : Label) :
    mf.SameButKeys (mf.addLabelKey l) := by
  unfold addLabelKey
  split
  · split <;> exact ⟨rfl, rfl, rfl, rfl⟩
  · exact ⟨rfl, rfl, rfl, rfl⟩

theorem OpenFamily.SameButKeys.trans {mf₁ mf₂ mf₃ : OpenFamily F} (h : mf₁.SameButKeys mf₂)
    (h' : mf₂.SameButKeys mf₃) : mf₁.SameButKeys mf₃ :=
  ⟨h'.name.trans h.name, h'.mtype.trans h.mtype, h'.groups.trans h.groups,
    h'.groupOrders.trans h.groupOrders⟩

theorem OpenFamily.sameButKeys_updateLabelKeys (mf : OpenFamily F) (ls : List Label) :
    mf.SameButKeys (mf.updateLabelKeys ls) := by
  induction ls generalizing mf with
  | nil => exact ⟨rfl, rfl, rfl, rfl⟩
  | cons l ls ih => exact (mf.sameButKeys_addLabelKey l).trans (ih _)

theorem OpenFamily.KeysSound.addLabelKey {seen : List Label} (h : mf.KeysSound seen) (l : Label) :
    (mf.addLabelKey l).KeysSound (seen ++ [l]) := by
  have hsnoc : ∀ k, (∃ l' ∈ seen ++ [l], l'.name = k) ↔
      (∃ l' ∈ seen, l'.name = k) ∨ l.name = k := by
    intro k
    simp [or_and_right, exists_or]
  unfold OpenFamily.addLabelKey
  split
  · rename_i huseful
    split
    · rename_i b hb
      -- The key is there already.
      have hold : l.name ∈ mf.labelKeysOrdered :=
        (h.known _).1 (AList.lookup_isSome.1 (by rw [hb]; rfl))
      refine ⟨h.sorted, fun k => ?_, h.known⟩
      rw [h.mem, hsnoc]
      refine and_congr_right fun _ => ⟨.inl, fun hk => ?_⟩
      rcases hk with hk | rfl
      · exact hk
      · exact ((h.mem _).1 hold).2
    · rename_i hnone
      have hnew : l.name ∉ mf.labelKeysOrdered := fun hk =>
        AList.lookup_eq_none.1 hnone ((h.known _).2 hk)
      refine ⟨pairwise_insertSorted h.sorted hnew, fun k => ?_, fun k => ?_⟩
      · show k ∈ insertSorted _ _ ↔ _
        rw [mem_insertSorted, h.mem, hsnoc]
        constructor
        · rintro (rfl | ⟨hk, hseen⟩)
          · exact ⟨huseful, .inr rfl⟩
          · exact ⟨hk, .inl hseen⟩
        · rintro ⟨hk, hseen | rfl⟩
          · exact .inr ⟨hk, hseen⟩
          · exact .inl rfl
      · show k ∈ mf.labelKeys.insert l.name true ↔ k ∈ insertSorted _ _
        rw [AList.mem_insert, mem_insertSorted, h.known]
  · rename_i huseful
    refine ⟨h.sorted, fun k => ?_, h.known⟩
    rw [h.mem, hsnoc]
    refine and_congr_right fun hk => ⟨.inl, fun hseen => ?_⟩
    rcases hseen with hseen | rfl
    · exact hseen
    · exact absurd hk huseful

theorem OpenFamily.KeysSound.updateLabelKeys {seen : List Label} (h : mf.KeysSound seen)
    (ls : List Label) : (mf.updateLabelKeys ls).KeysSound (seen ++ ls) := by
  induction ls generalizing mf seen with
  | nil =>
    rw [List.append_nil]
    exact h
  | cons l ls ih =>
    rw [List.append_cons]
    exact ih (h.addLabelKey l)

end Add

end Collector.Prometheus
