import Collector.Lib.Heap
import Collector.Service.Config

/-!
# Clones of the data in pipelines

`Traces.Clone`, `MetricData.Clone`, `Logs.Clone` and `CloneMetrics` on a heap. The
data of a pipeline is a pointer to a slice, and a slice is a cell with its elements;
whether a slice without elements is nil makes no difference where the code makes
none. What lies in protobuf messages is known to `proto.Clone` alone, which is
assumed to be a deep copy. Then so are the four functions (`clone_copied`).
-/

namespace Collector.Fanout

open Lib Lib.Heap

/-- Who allocates: the goroutine of the receiver, in which the connectors run, or a pipeline. -/
inductive Owner where
  | sender
  | pipeline (i : Nat)
  deriving DecidableEq, Repr

/-- A slice, a `consumerdata.MetricsData`, or a part of a message with its own fields `M`. -/
inductive Label (M : Type) where
  | slice
  | metricsData
  | message (m : M)
  deriving DecidableEq, Repr

abbrev Memory (M : Type) := Heap Owner (Label M)

abbrev Ptr := Option (Addr Owner)

/-- `proto.Clone`, a deep copy. -/
structure ProtoClone (M : Type) where
  clone : Memory M → Ptr → Memory M × Ptr
  deep : ∀ h p, Within .sender h p → Copied .sender h p (clone h p).1 (clone h p).2

section Functions

variable {M : Type}

def readSlice (h : Memory M) (p : Ptr) : Go (List Ptr) :=
  match p.bind h.read with
  | some ⟨.slice, es⟩ => .ok es
  | _ => .error .nilDereference

def cloneAll (clone : Memory M → Ptr → Go (Memory M × Ptr)) (h : Memory M) :
    List Ptr → Go (Memory M × List Ptr)
  | [] => .ok (h, [])
  | p :: ps => do
    let (h, p') ← clone h p
    let (h, ps') ← cloneAll clone h ps
    return (h, p' :: ps')

def cloneSlice (clone : Memory M → Ptr → Go (Memory M × Ptr)) (h : Memory M) (p : Ptr) :
    Go (Memory M × Ptr) := do
  let es ← readSlice h p
  let (h, es') ← cloneAll clone h es
  let (h, a) := h.alloc .sender ⟨.slice, es'⟩
  return (h, some a)

variable (K : ProtoClone M)

/-- `Traces.Clone`. -/
def tracesClone : Memory M → Ptr → Go (Memory M × Ptr) :=
  cloneSlice fun h p => .ok (K.clone h p)

/-- `MetricData.Clone`. -/
def metricDataClone : Memory M → Ptr → Go (Memory M × Ptr) :=
  cloneSlice fun h p => .ok (K.clone h p)

/-- `Logs.Clone`. -/
def logsClone : Memory M → Ptr → Go (Memory M × Ptr) :=
  cloneSlice fun h p => .ok (K.clone h p)

/-- The metrics of `CloneMetricsDataOld`, which stay nil if they are. -/
def cloneMetricsField (h : Memory M) (metrics : Ptr) : Go (Memory M × Ptr) :=
  if metrics.isNone then .ok (h, none) else cloneSlice (fun h p => .ok (K.clone h p)) h metrics

def cloneMetricsDataOld (h : Memory M) (p : Ptr) : Go (Memory M × Ptr) :=
  match p.bind h.read with
  | some ⟨.metricsData, [node, resource, metrics]⟩ => do
    let (h, node') := K.clone h node
    let (h, resource') := K.clone h resource
    let (h, metrics') ← cloneMetricsField K h metrics
    let (h, a) := h.alloc .sender ⟨.metricsData, [node', resource', metrics']⟩
    return (h, some a)
  | _ => .error .nilDereference

/-- What a receiver sends; metrics come in one of two representations. -/
inductive Data where
  | traces (orig : Ptr)
  | metricData (orig : Ptr)
  | ocMetrics (ocmds : Ptr)
  | logs (orig : Ptr)

def Data.root : Data → Ptr
  | traces p => p
  | metricData p => p
  | ocMetrics p => p
  | logs p => p

def Data.type : Data → Service.DataType
  | traces _ => .traces
  | metricData _ => .metrics
  | ocMetrics _ => .metrics
  | logs _ => .logs

/-- `td.Clone()`, `pdatautil.CloneMetrics(md)` and `ld.Clone()`. -/
def Data.clone (h : Memory M) : Data → Go (Memory M × Data)
  | traces p => do
    let (h, p') ← tracesClone K h p
    return (h, traces p')
  | metricData p => do
    let (h, p') ← metricDataClone K h p
    return (h, metricData p')
  | ocMetrics p => do
    let (h, p') ← cloneSlice (cloneMetricsDataOld K) h p
    return (h, ocMetrics p')
  | logs p => do
    let (h, p') ← logsClone K h p
    return (h, logs p')

end Functions

/-! ## Depth -/

section Depth

variable {M : Type} {h h₁ : Memory M}

/-- In every later heap, `clone` makes a deep copy of what `p` is in `h`. -/
def Clones (clone : Memory M → Ptr → Go (Memory M × Ptr)) (h : Memory M) (p : Ptr) : Prop :=
  ∀ h₁, Grows .sender h h₁ → ∃ r, clone h₁ p = .ok r ∧ Grows .sender h₁ r.1 ∧
    Copied .sender h p r.1 r.2

variable {p : Ptr} {clone : Memory M → Ptr → Go (Memory M × Ptr)} {es : List Ptr}

theorem clones_proto (K : ProtoClone M) (hw : Within .sender h p) :
    Clones (fun h p => .ok (K.clone h p)) h p := by
  intro h₁ g
  have hc := K.deep h₁ p (hw.grows g)
  exact ⟨_, rfl, hc.grows, hc.grows_left hw g⟩

theorem cloneAll_spec {ps : List Ptr} (hps : ∀ p ∈ ps, Clones clone h p) (g : Grows .sender h h₁) :
    ∃ h₂ ps', cloneAll clone h₁ ps = .ok (h₂, ps') ∧ Grows .sender h₁ h₂ ∧
      List.Forall₂ (fun p p' => Copied .sender h p h₂ p') ps ps' := by
  induction ps generalizing h₁ with
  | nil => exact ⟨h₁, [], rfl, .refl _ _, .nil⟩
  | cons p ps ih =>
    obtain ⟨⟨h₂, p'⟩, hclone, g₂, hp⟩ := hps p List.mem_cons_self h₁ g
    obtain ⟨h₃, ps', hrest, g₃, hps'⟩ :=
      ih (fun q hq => hps q (List.mem_cons_of_mem _ hq)) (g.trans g₂)
    refine ⟨h₃, p' :: ps', ?_, g₂.trans g₃, .cons (hp.grows_right g₃) hps'⟩
    unfold cloneAll
    rw [hclone]
    show (cloneAll clone h₂ ps >>= _) = _
    rw [hrest]
    rfl

def IsSlice (h : Memory M) (p : Ptr) (es : List Ptr) : Prop :=
  ∃ a, p = some a ∧ h.read a = some ⟨.slice, es⟩

theorem readSlice_eq (hs : IsSlice h p es) : readSlice h p = .ok es := by
  obtain ⟨a, rfl, hread⟩ := hs
  unfold readSlice
  rw [Option.bind_some, hread]

theorem IsSlice.grows (hs : IsSlice h p es) (g : Grows .sender h h₁) : IsSlice h₁ p es := by
  obtain ⟨a, rfl, hread⟩ := hs
  exact ⟨a, rfl, g.read hread⟩

theorem clones_slice (hs : IsSlice h p es) (hes : ∀ q ∈ es, Clones clone h q) :
    Clones (cloneSlice clone) h p := by
  intro h₁ g
  obtain ⟨h₂, es', hall, g₂, hcopied⟩ := cloneAll_spec hes g
  refine ⟨((h₂.alloc .sender ⟨.slice, es'⟩).1, some (h₂.alloc .sender ⟨.slice, es'⟩).2), ?_,
    g₂.trans (grows_alloc _ _ _), ?_⟩
  · unfold cloneSlice
    rw [readSlice_eq (hs.grows g)]
    show (cloneAll clone h₁ es >>= _) = _
    rw [hall]
    rfl
  · obtain ⟨a, rfl, hread⟩ := hs
    exact copied_alloc hread (g.trans g₂) hcopied

/-- A `consumerdata.MetricsData` of the heap. -/
def IsMetricsData (h : Memory M) (p : Ptr) : Prop :=
  ∃ a node resource metrics, p = some a ∧
    h.read a = some ⟨.metricsData, [node, resource, metrics]⟩ ∧
    (metrics = none ∨ ∃ es, IsSlice h metrics es)

theorem clones_metricsData (K : ProtoClone M) (hw : Within .sender h p) (hp : IsMetricsData h p) :
    Clones (cloneMetricsDataOld K) h p := by
  obtain ⟨a, node, resource, metrics, rfl, hread, hm⟩ := hp
  have hnode : Within .sender h node := hw.child hread (by simp)
  have hresource : Within .sender h resource := hw.child hread (by simp)
  have hmetrics : Within .sender h metrics := hw.child hread (by simp)
  intro h₁ g
  obtain ⟨⟨h₂, node'⟩, hn, g₂, hcn⟩ := clones_proto K hnode h₁ g
  obtain ⟨⟨h₃, resource'⟩, hr, g₃, hcr⟩ := clones_proto K hresource h₂ (g.trans g₂)
  -- the metrics are nil or a slice of messages
  have hslice : ∃ h₄ metrics', cloneMetricsField K h₃ metrics = .ok (h₄, metrics') ∧
      Grows .sender h₃ h₄ ∧ Copied .sender h metrics h₄ metrics' := by
    rcases hm with rfl | ⟨es, hs⟩
    · refine ⟨h₃, none, rfl, .refl _ _, ?_⟩
      exact (copied_none _ h).grows_right ((g.trans g₂).trans g₃)
    · obtain ⟨b, rfl, hb⟩ := id hs
      have hclones := clones_slice hs fun q hq => clones_proto K (hmetrics.child hb hq)
      obtain ⟨⟨h₄, metrics'⟩, hcs, g₄, hc⟩ := hclones h₃ ((g.trans g₂).trans g₃)
      exact ⟨h₄, metrics', hcs, g₄, hc⟩
  obtain ⟨h₄, metrics', hms, g₄, hcm⟩ := hslice
  refine ⟨((h₄.alloc .sender ⟨.metricsData, [node', resource', metrics']⟩).1,
    some (h₄.alloc .sender ⟨.metricsData, [node', resource', metrics']⟩).2), ?_,
    ((g₂.trans g₃).trans g₄).trans (grows_alloc _ _ _), ?_⟩
  · unfold cloneMetricsDataOld
    rw [Option.bind_some, g.read hread]
    simp only [Except.ok.inj hn, Except.ok.inj hr, hms]
    rfl
  · refine copied_alloc hread (((g.trans g₂).trans g₃).trans g₄) ?_
    exact .cons (hcn.grows_right (g₃.trans g₄)) (.cons (hcr.grows_right g₄) (.cons hcm .nil))

/-- The data has the shape of its Go type down to the messages. -/
def Data.Shaped (h : Memory M) : Data → Prop
  | .traces p => ∃ es, IsSlice h p es
  | .metricData p => ∃ es, IsSlice h p es
  | .ocMetrics p => ∃ es, IsSlice h p es ∧ ∀ q ∈ es, IsMetricsData h q
  | .logs p => ∃ es, IsSlice h p es

theorem Data.Shaped.congr {data : Data} (hs : data.Shaped h)
    (hread : ∀ a, Reach h data.root a → h₁.read a = h.read a) : data.Shaped h₁ := by
  have hslice : ∀ p es, (∀ a, Reach h p a → h₁.read a = h.read a) → IsSlice h p es →
      IsSlice h₁ p es := by
    rintro p es hread ⟨a, rfl, ha⟩
    exact ⟨a, rfl, (hread a (.root rfl)).trans ha⟩
  cases data with
  | traces p | metricData p | logs p => exact hs.imp fun es => hslice p es hread
  | ocMetrics p =>
    obtain ⟨es, hsl, hes⟩ := hs
    obtain ⟨a, rfl, ha⟩ := id hsl
    refine ⟨es, hslice _ es hread hsl, fun q hq => ?_⟩
    obtain ⟨b, node, resource, metrics, rfl, hb, hm⟩ := hes q hq
    have hrb : Reach h (some a) b := (Reach.root rfl).child ha hq
    refine ⟨b, node, resource, metrics, rfl, (hread b hrb).trans hb, hm.imp_right ?_⟩
    rintro ⟨ms, d, rfl, hd⟩
    exact ⟨ms, d, rfl, (hread d (hrb.child hb (by simp))).trans hd⟩

theorem clone_copied (K : ProtoClone M) {data : Data} (hw : Within .sender h data.root)
    (hs : data.Shaped h) :
    ∃ h' data', data.clone K h = .ok (h', data') ∧
      Copied .sender h data.root h' data'.root := by
  have hslice : ∀ p es, Within .sender h p → IsSlice h p es → ∃ r,
      cloneSlice (fun h p => .ok (K.clone h p)) h p = .ok r ∧ Copied .sender h p r.1 r.2 := by
    rintro p es hw ⟨a, rfl, hread⟩
    obtain ⟨r, hr, -, hc⟩ := clones_slice ⟨a, rfl, hread⟩
      (fun q hq => clones_proto K (hw.child hread hq)) h (.refl _ _)
    exact ⟨r, hr, hc⟩
  cases data with
  | traces p =>
    obtain ⟨es, hs⟩ := hs
    obtain ⟨r, hr, hc⟩ := hslice p es hw hs
    exact ⟨r.1, .traces r.2, by simp only [Data.clone, tracesClone, hr]; rfl, hc⟩
  | metricData p =>
    obtain ⟨es, hs⟩ := hs
    obtain ⟨r, hr, hc⟩ := hslice p es hw hs
    exact ⟨r.1, .metricData r.2, by simp only [Data.clone, metricDataClone, hr]; rfl, hc⟩
  | logs p =>
    obtain ⟨es, hs⟩ := hs
    obtain ⟨r, hr, hc⟩ := hslice p es hw hs
    exact ⟨r.1, .logs r.2, by simp only [Data.clone, logsClone, hr]; rfl, hc⟩
  | ocMetrics p =>
    obtain ⟨es, hsl, hes⟩ := hs
    obtain ⟨a, rfl, hread⟩ := id hsl
    obtain ⟨r, hr, -, hc⟩ := clones_slice hsl
      (fun q hq => clones_metricsData K (hw.child hread hq) (hes q hq)) h (.refl _ _)
    exact ⟨r.1, .ocMetrics r.2, by simp only [Data.clone, hr]; rfl, hc⟩

end Depth

end Collector.Fanout
