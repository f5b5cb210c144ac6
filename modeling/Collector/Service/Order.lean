import Collector.Service.Lifecycle

/-!
# The order of starting and stopping

The graph that the builders made gives the components below each component.
`Orderly` is what the service owes to them: every object that was created is
started and shut down once, after and before those below it. The order is kept by
every deployment (`pairwise_started`, `pairwise_stopped`), since exporters, processors
and receivers are handled in layers and the processors of a pipeline backwards. But
`builtExporter.Start` and `Shutdown` have no call on the logs exporter, and one each on
the exporters of traces and of metrics, which may be one object.
-/

namespace Collector.Service

open Lib List

namespace Consumer

/-- The component is somewhere in the graph under the consumer. -/
inductive Reaches : Consumer → Component → Prop where
  | exporter (c : Component) : Reaches (.exporter c) c
  | processor (c : Component) (next : Consumer) : Reaches (.processor c next) c
  | next {c b : Component} {next : Consumer} : Reaches next b → Reaches (.processor c next) b
  | fanOut {b : Component} {k : Consumer} {cs : List Consumer} : k ∈ cs → Reaches k b →
      Reaches (.fanOut cs) b
  | cloningFanOut {b : Component} {k : Consumer} {cs : List Consumer} : k ∈ cs → Reaches k b →
      Reaches (.cloningFanOut cs) b

/-- In the graph under the consumer, `b` is somewhere under the processor `a`. -/
inductive Feeds : Consumer → Component → Component → Prop where
  | processor {a b : Component} {next : Consumer} : Reaches next b → Feeds (.processor a next) a b
  | next {c a b : Component} {next : Consumer} : Feeds next a b → Feeds (.processor c next) a b
  | fanOut {a b : Component} {k : Consumer} {cs : List Consumer} : k ∈ cs → Feeds k a b →
      Feeds (.fanOut cs) a b
  | cloningFanOut {a b : Component} {k : Consumer} {cs : List Consumer} : k ∈ cs → Feeds k a b →
      Feeds (.cloningFanOut cs) a b

/-- `k` is one of the consumers or a connector over all of them. -/
def Spreads (k : Consumer) (cs : List Consumer) : Prop :=
  k ∈ cs ∨ k = fanOut cs ∨ k = cloningFanOut cs

theorem spreads_newFanOutConnector (cs : List Consumer) : (newFanOutConnector cs).Spreads cs := by
  match cs with
  | [] | _ :: _ :: _ => exact .inr (.inl rfl)
  | [c] => exact .inl mem_cons_self

theorem spreads_newCloningFanOutConnector (cs : List Consumer) :
    (newCloningFanOutConnector cs).Spreads cs := by
  match cs with
  | [] | _ :: _ :: _ => exact .inr (.inr rfl)
  | [c] => exact .inl mem_cons_self

variable {k : Consumer} {cs : List Consumer} {a b : Component}

theorem Spreads.reaches (hk : k.Spreads cs) (h : k.Reaches b) : ∃ c ∈ cs, c.Reaches b := by
  rcases hk with hk | rfl | rfl
  · exact ⟨k, hk, h⟩
  · cases h with
    | fanOut hc h => exact ⟨_, hc, h⟩
  · cases h with
    | cloningFanOut hc h => exact ⟨_, hc, h⟩

theorem Spreads.feeds (hk : k.Spreads cs) (h : k.Feeds a b) : ∃ c ∈ cs, c.Feeds a b := by
  rcases hk with hk | rfl | rfl
  · exact ⟨k, hk, h⟩
  · cases h with
    | fanOut hc h => exact ⟨_, hc, h⟩
  · cases h with
    | cloningFanOut hc h => exact ⟨_, hc, h⟩

end Consumer

namespace Application

variable (app : Application)

/-- A factory made the component for the application. -/
inductive Created : Component → Prop where
  | exporter {e : Entity} {exp : BuiltExporter} {ty : DataType} {c : Component} :
      app.exporters.lookup e = some exp → exp.get ty = some c → Created c
  | processor {p : Pipeline} {bp : BuiltPipeline} {c : Component} :
      app.pipelines.lookup p = some bp → c ∈ bp.processors → Created c
  | receiver {e : Entity} {rcv : BuiltReceiver} :
      app.receivers.lookup e = some rcv → Created (.receiver e.name)

inductive Downstream : Component → Component → Prop where
  | pipeline {p : Pipeline} {bp : BuiltPipeline} {ty : DataType} {a b : Component} :
      app.pipelines.lookup p = some bp → (bp.first.get ty).Feeds a b → Downstream a b
  | junction {e : Entity} {rcv : BuiltReceiver} {ty : DataType} {next : Consumer}
      {a b : Component} : app.receivers.lookup e = some rcv → rcv.next.lookup ty = some next →
      next.Feeds a b → Downstream a b
  | receiver {e : Entity} {rcv : BuiltReceiver} {ty : DataType} {next : Consumer}
      {b : Component} : app.receivers.lookup e = some rcv → rcv.next.lookup ty = some next →
      next.Reaches b → Downstream (.receiver e.name) b

end Application

/-! ## Objects -/

/-- What stands behind a component. -/
inductive Object where
  | exporter (pointer : Option Nat)
  | other (c : Component)
  deriving DecidableEq

/-- The exporter that the factory returns for a data type. -/
def Deployment.pointer (d : Deployment) (name : String) (ty : DataType) : Option Nat := do
  let e ← d.cfg.exporters.find name
  let factory ← d.factories.exporters.lookup e.type
  match factory ty e with
  | .made pointer => some pointer
  | _ => none

def Deployment.object (d : Deployment) : Component → Object
  | .exporter name ty => .exporter (d.pointer name ty)
  | c => .other c

def Event.started : Event → Option Component
  | .start c => some c
  | .shutdown _ => none

def Event.stopped : Event → Option Component
  | .start _ => none
  | .shutdown c => some c

/-- Every object is started and shut down once, after and before those downstream. -/
structure Orderly (object : Component → Object) (app : Application) (events : List Event) :
    Prop where
  startedOnce : ∀ c, app.Created c →
    ((events.filterMap Event.started).map object).count (object c) = 1
  stoppedOnce : ∀ c, app.Created c →
    ((events.filterMap Event.stopped).map object).count (object c) = 1
  startedAfter : ∀ a b, app.Downstream a b →
    Precedes ((events.filterMap Event.started).map object) (object b) (object a)
  stoppedBefore : ∀ a b, app.Downstream a b →
    Precedes ((events.filterMap Event.stopped).map object) (object a) (object b)

def RunsOrderly (d : Deployment) (ords : LifeOrders) : Prop :=
  ∃ app events, (lifecycle d.cfg d.factories .success ords).exec = (.ok (app, none), events) ∧
    Orderly d.object app events

/-- No object is called for two exporters. -/
def Deployment.Separate (d : Deployment) : Prop :=
  ∀ name ty name' ty', exporterUsed d.cfg name ty → exporterUsed d.cfg name' ty' → ty ≠ .logs →
    ty' ≠ .logs → d.pointer name ty = d.pointer name' ty' → name = name' ∧ ty = ty'

/-- Every logs exporter is the object of an exporter that is called. -/
def Deployment.LogsShared (d : Deployment) : Prop :=
  ∀ name, exporterUsed d.cfg name .logs → ∃ name' ty', exporterUsed d.cfg name' ty' ∧ ty' ≠ .logs ∧
    d.pointer name' ty' = d.pointer name .logs

/-! ## Layers -/

/-- The places of components: a receiver is above the others, a processor above the exporters and
the later processors of its pipeline. -/
def Above : Component → Component → Prop
  | .receiver _, .receiver _ => False
  | .receiver _, _ => True
  | .processor p i _, .processor q j _ => p = q ∧ i < j
  | .processor _ _ _, .exporter _ _ => True
  | _, _ => False

variable {a b : Component} {p : Pipeline}

theorem Above.ne (h : Above a b) : a ≠ b := by
  rintro rfl
  cases a with
  | exporter => exact h
  | processor => exact Nat.lt_irrefl _ h.2
  | receiver => exact h

theorem Above.asymm (h : Above a b) : ¬ Above b a := by
  intro h'
  cases a <;> cases b <;> simp_all [Above]
  omega

def Component.layer : Component → Nat
  | .exporter _ _ => 0
  | .processor _ _ _ => 1
  | .receiver _ => 2

/-- `y` may be started after `x` and shut down before it. -/
def Later (x y : Component) : Prop := x ≠ y ∧ ¬ Above x y

theorem Above.later (h : Above a b) : Later b a := ⟨h.ne.symm, h.asymm⟩

theorem later_of_layer {x y : Component} (h : x.layer < y.layer) : Later x y := by
  constructor
  · rintro rfl
    exact Nat.lt_irrefl _ h
  · cases x <;> cases y <;> simp_all [Above, Component.layer]

theorem later_of_ne {x y : Component} (hne : x ≠ y) (h : x.layer = y.layer) (hl : x.layer ≠ 1) :
    Later x y := by
  refine ⟨hne, ?_⟩
  cases x <;> cases y <;> simp_all [Above, Component.layer]

theorem pairwise_of_layer {l : List Component} {n : Nat} (hn : n ≠ 1) (hl : l.Nodup)
    (hlayer : ∀ c ∈ l, c.layer = n) : l.Pairwise fun a b => Later a b ∧ Later b a := by
  refine hl.imp_of_mem fun {a b} ha hb hne => ?_
  have hla := hlayer a ha
  have hlb := hlayer b hb
  exact ⟨later_of_ne hne (by omega) (by omega), later_of_ne (Ne.symm hne) (by omega) (by omega)⟩

theorem pairwise_layers {es ps rs : List Component} (hes : es.Pairwise Later)
    (hps : ps.Pairwise Later) (hrs : rs.Pairwise Later) (les : ∀ c ∈ es, c.layer = 0)
    (lps : ∀ c ∈ ps, c.layer = 1) (lrs : ∀ c ∈ rs, c.layer = 2) :
    (es ++ (ps ++ rs)).Pairwise Later := by
  refine pairwise_append.2 ⟨hes, pairwise_append.2 ⟨hps, hrs, ?_⟩, ?_⟩
  · intro a ha b hb
    have hla := lps a ha
    have hlb := lrs b hb
    exact later_of_layer (by omega)
  · intro a ha b hb
    have hla := les a ha
    rcases mem_append.1 hb with hb | hb
    · have hlb := lps b hb
      exact later_of_layer (by omega)
    · have hlb := lrs b hb
      exact later_of_layer (by omega)

theorem pairwise_zipIdx_lt {α : Type} (l : List α) : l.zipIdx.Pairwise fun x y => x.2 < y.2 := by
  rw [pairwise_iff_getElem]
  intro i j hi hj hij
  simpa using hij

theorem pairwise_processorComponents (p : Pipeline) : (processorComponents p).Pairwise Above := by
  unfold processorComponents
  rw [pairwise_map]
  exact (pairwise_zipIdx_lt p.processors).imp fun h => ⟨rfl, h⟩

theorem eq_of_mem_processorComponents {c : Component} (h : c ∈ processorComponents p) :
    ∃ i name, c = .processor p.name i name := by
  obtain ⟨x, -, rfl⟩ := mem_map.1 h
  exact ⟨x.2, x.1, rfl⟩

theorem eq_of_mem_exporterComponents {c : Component} (h : c ∈ exporterComponents p) :
    ∃ name ∈ p.exporters, c = .exporter name p.inputType := by
  obtain ⟨name, hname, rfl⟩ := mem_map.1 h
  exact ⟨name, hname, rfl⟩

/-! ## The graph of a deployment -/

variable {next : Consumer}

theorem reaches_chain {procs : List Component}
    (h : (procs.foldr .processor next).Reaches b) : b ∈ procs ∨ next.Reaches b := by
  induction procs with
  | nil => exact .inr h
  | cons c procs ih =>
    cases h with
    | processor => exact .inl mem_cons_self
    | next h => exact (ih h).imp_left (mem_cons_of_mem _)

theorem feeds_chain {procs : List Component} (hprocs : procs.Pairwise Above)
    (hnext : ∀ c ∈ procs, ∀ b, next.Reaches b → Above c b) (hend : ∀ a b, ¬ next.Feeds a b)
    (h : (procs.foldr .processor next).Feeds a b) :
    Above a b ∧ a ∈ procs ∧ (b ∈ procs ∨ next.Reaches b) := by
  induction procs with
  | nil => exact absurd h (hend a b)
  | cons c procs ih =>
    rw [pairwise_cons] at hprocs
    cases h with
    | processor h =>
      rcases reaches_chain h with hb | hb
      · exact ⟨hprocs.1 b hb, mem_cons_self, .inl (mem_cons_of_mem _ hb)⟩
      · exact ⟨hnext a mem_cons_self b hb, mem_cons_self, .inr hb⟩
    | next h =>
      obtain ⟨hab, ha, hb⟩ := ih hprocs.2 (fun c hc => hnext c (mem_cons_of_mem _ hc)) h
      exact ⟨hab, mem_cons_of_mem _ ha, hb.imp_left (mem_cons_of_mem _)⟩

theorem reaches_exporters
    (h : (Consumer.newFanOutConnector ((exporterComponents p).map .exporter)).Reaches b) :
    b ∈ exporterComponents p := by
  obtain ⟨k, hk, hb⟩ := (Consumer.spreads_newFanOutConnector _).reaches h
  obtain ⟨c, hc, rfl⟩ := mem_map.1 hk
  cases hb
  exact hc

theorem reaches_chainOf (h : (chainOf p).Reaches b) : b ∈ route p := by
  rcases reaches_chain h with hb | hb
  · exact mem_append_left _ hb
  · exact mem_append_right _ (reaches_exporters hb)

theorem feeds_chainOf (h : (chainOf p).Feeds a b) : Above a b ∧ a ∈ route p ∧ b ∈ route p := by
  have hend : ∀ a b, ¬ (Consumer.newFanOutConnector
      ((exporterComponents p).map .exporter)).Feeds a b := by
    intro a b h
    obtain ⟨k, hk, h⟩ := (Consumer.spreads_newFanOutConnector _).feeds h
    obtain ⟨c, -, rfl⟩ := mem_map.1 hk
    cases h
  have hnext : ∀ c ∈ processorComponents p, ∀ b, (Consumer.newFanOutConnector
      ((exporterComponents p).map .exporter)).Reaches b → Above c b := by
    intro c hc b hb
    obtain ⟨i, name, rfl⟩ := eq_of_mem_processorComponents hc
    obtain ⟨name, -, rfl⟩ := eq_of_mem_exporterComponents (reaches_exporters hb)
    trivial
  obtain ⟨hab, ha, hb⟩ := feeds_chain (pairwise_processorComponents p) hnext hend h
  refine ⟨hab, mem_append_left _ ha, ?_⟩
  rcases hb with hb | hb
  · exact mem_append_left _ hb
  · exact mem_append_right _ (reaches_exporters hb)

theorem spreads_junctionOf (cfg : Config) (factories : Factories) (ord : MapOrder Pipeline)
    (ty : DataType) (name : String) :
    (junctionOf cfg factories ord ty name).Spreads ((attachedOf cfg ord ty name).map chainOf) := by
  unfold junctionOf
  rw [pipelinesJunction_eq, map_first_attachedOf]
  split
  · exact Consumer.spreads_newCloningFanOutConnector _
  · exact Consumer.spreads_newFanOutConnector _

section Deployment

variable {d : Deployment} {app : Application} (hb : Built d app)
include hb

theorem created_of_mem_route (hp : p ∈ d.cfg.pipelines.values) {c : Component}
    (hc : c ∈ route p) : app.Created c := by
  rcases mem_append.1 hc with hc | hc
  · have hbp := hb.pipelines p
    rw [if_pos hp] at hbp
    exact .processor hbp hc
  · obtain ⟨name, hname, rfl⟩ := eq_of_mem_exporterComponents hc
    obtain ⟨e, he⟩ := (d.pipelineOk hp).exporter name hname
    have hen := d.cfg.exporters.name_of_find he
    have hexp := hb.exporters e
    rw [if_pos (d.cfg.exporters.mem_of_find he)] at hexp
    have hget : (exporterOf d.cfg e).get p.inputType = some (.exporter name p.inputType) := by
      rw [get_exporterOf, hen, if_pos (exporterUsed_iff.2 ⟨p, hp, rfl, hname⟩)]
    exact .exporter hexp hget

theorem reaches_next {e : Entity} {rcv : BuiltReceiver} {ty : DataType}
    (hr : app.receivers.lookup e = some rcv) (hn : rcv.next.lookup ty = some next)
    (h : next.Reaches b) : ∃ p ∈ d.cfg.pipelines.values, b ∈ route p := by
  obtain ⟨ord, rfl⟩ := hb.next e rcv ty next hr hn
  obtain ⟨c, hc, h⟩ := (spreads_junctionOf _ _ _ _ _).reaches h
  obtain ⟨p, hp, rfl⟩ := mem_map.1 hc
  exact ⟨p, (mem_pipelinesOf.1 ((perm_attachedOf _ _ _ _).mem_iff.1 hp)).1, reaches_chainOf h⟩

theorem feeds_spec (hp : p ∈ d.cfg.pipelines.values) (h : (chainOf p).Feeds a b) :
    Above a b ∧ app.Created a ∧ app.Created b := by
  obtain ⟨hab, ha, hb'⟩ := feeds_chainOf h
  exact ⟨hab, created_of_mem_route hb hp ha, created_of_mem_route hb hp hb'⟩

theorem downstream_spec (h : app.Downstream a b) :
    Above a b ∧ app.Created a ∧ app.Created b := by
  cases h with
  | @pipeline p bp ty _ _ hp h =>
    rw [hb.pipelines] at hp
    split at hp
    · rename_i hmem
      cases hp
      rw [get_first_pipelineOf] at h
      split at h
      · exact feeds_spec hb hmem h
      · cases h
    · cases hp
  | junction hr hn h =>
    obtain ⟨ord, rfl⟩ := hb.next _ _ _ _ hr hn
    obtain ⟨c, hc, h⟩ := (spreads_junctionOf _ _ _ _ _).feeds h
    obtain ⟨p, hp, rfl⟩ := mem_map.1 hc
    exact feeds_spec hb (mem_pipelinesOf.1 ((perm_attachedOf _ _ _ _).mem_iff.1 hp)).1 h
  | receiver hr hn h =>
    obtain ⟨p, hp, hmem⟩ := reaches_next hb hr hn h
    refine ⟨?_, .receiver hr, created_of_mem_route hb hp hmem⟩
    rcases mem_append.1 hmem with hmem | hmem
    · obtain ⟨i, name, rfl⟩ := eq_of_mem_processorComponents hmem
      trivial
    · obtain ⟨name, -, rfl⟩ := eq_of_mem_exporterComponents hmem
      trivial

end Deployment

/-! ## The calls of a deployment -/

section Calls

variable {exp : BuiltExporter} {c : Component} {ord : MapOrder (Entity × BuiltExporter)}
  {e : Entity}

theorem mem_calledFields :
    c ∈ calledFields exp ↔ exp.get .traces = some c ∨ exp.get .metrics = some c := by
  simp [calledFields, reduceOption_mem_iff, ByType.get, eq_comm]

theorem mem_exporterCalls {exps : Exporters} :
    c ∈ exporterCalls ord exps ↔ ∃ e exp, exps.lookup e = some exp ∧ c ∈ calledFields exp := by
  simp [exporterCalls, mem_flatMap, MapOrder.mem_order_pairs]

theorem mem_receiverCalls {ord : MapOrder (Entity × BuiltReceiver)} {rcvs : Receivers} :
    c ∈ receiverCalls ord rcvs ↔ ∃ e rcv, rcvs.lookup e = some rcv ∧ c = .receiver e.name := by
  simp [receiverCalls, MapOrder.mem_order_pairs, eq_comm]

def Handled (app : Application) (c : Component) : Prop :=
  app.Created c ∧ ∀ name, c ≠ .exporter name .logs

variable {d : Deployment} {app : Application} (hb : Built d app)
include hb

theorem exporter_eq (h : app.exporters.lookup e = some exp) :
    e ∈ d.cfg.exporters.values ∧ exp = exporterOf d.cfg e := by
  rw [hb.exporters] at h
  split at h
  · exact ⟨‹_›, (Option.some.inj h).symm⟩
  · cases h

theorem pipeline_eq {bp : BuiltPipeline} (h : app.pipelines.lookup p = some bp) :
    p ∈ d.cfg.pipelines.values ∧ bp = pipelineOf d.cfg d.factories p := by
  rw [hb.pipelines] at h
  split at h
  · exact ⟨‹_›, (Option.some.inj h).symm⟩
  · cases h

theorem receiver_mem {rcv : BuiltReceiver} (h : app.receivers.lookup e = some rcv) :
    e ∈ d.cfg.receivers.values :=
  ((hb.receivers e).1 (by rw [h]; rfl)).1

theorem eq_of_get {ty : DataType} (h : app.exporters.lookup e = some exp)
    (hc : exp.get ty = some c) : exporterUsed d.cfg e.name ty ∧ c = .exporter e.name ty := by
  obtain ⟨-, rfl⟩ := exporter_eq hb h
  rw [get_exporterOf] at hc
  split at hc
  · exact ⟨‹_›, (Option.some.inj hc).symm⟩
  · cases hc

theorem eq_of_mem_calledFields (h : app.exporters.lookup e = some exp) (hc : c ∈ calledFields exp) :
    ∃ ty, ty ≠ .logs ∧ exp.get ty = some c ∧ c = .exporter e.name ty := by
  rcases mem_calledFields.1 hc with hc | hc
  · exact ⟨.traces, nofun, hc, (eq_of_get hb h hc).2⟩
  · exact ⟨.metrics, nofun, hc, (eq_of_get hb h hc).2⟩

theorem handled_iff :
    Handled app c ↔ (∃ e exp, app.exporters.lookup e = some exp ∧ c ∈ calledFields exp) ∨
      (∃ p bp, app.pipelines.lookup p = some bp ∧ c ∈ bp.processors) ∨
      ∃ e rcv, app.receivers.lookup e = some rcv ∧ c = .receiver e.name := by
  constructor
  · rintro ⟨hc, hlogs⟩
    cases hc with
    | @exporter e exp ty _ hl hc =>
      refine .inl ⟨e, exp, hl, mem_calledFields.2 ?_⟩
      cases ty with
      | traces => exact .inl hc
      | metrics => exact .inr hc
      | logs => exact absurd (eq_of_get hb hl hc).2 (hlogs _)
    | processor hl hc => exact .inr (.inl ⟨_, _, hl, hc⟩)
    | receiver hl => exact .inr (.inr ⟨_, _, hl, rfl⟩)
  · rintro (⟨e, exp, hl, hc⟩ | ⟨p, bp, hl, hc⟩ | ⟨e, rcv, hl, rfl⟩)
    · obtain ⟨ty, hty, hget, rfl⟩ := eq_of_mem_calledFields hb hl hc
      refine ⟨.exporter hl hget, fun name h => hty ?_⟩
      cases h
      rfl
    · refine ⟨.processor hl hc, fun name h => ?_⟩
      obtain ⟨-, rfl⟩ := pipeline_eq hb hl
      obtain ⟨i, name', rfl⟩ := eq_of_mem_processorComponents hc
      cases h
    · exact ⟨.receiver hl, nofun⟩

theorem mem_started (ords : LifeOrders) : c ∈ started app ords ↔ Handled app c := by
  rw [handled_iff hb]
  simp [started, mem_exporterCalls, mem_receiverCalls, MapOrder.mem_order_pairs]

theorem mem_stopped (ords : LifeOrders) : c ∈ stopped app ords ↔ Handled app c := by
  rw [handled_iff hb]
  simp [stopped, mem_exporterCalls, mem_receiverCalls, MapOrder.mem_order_pairs, or_comm, or_assoc]

theorem layer_exporterCalls (h : c ∈ exporterCalls ord app.exporters) : c.layer = 0 := by
  obtain ⟨e, exp, hl, hc⟩ := mem_exporterCalls.1 h
  obtain ⟨ty, -, -, rfl⟩ := eq_of_mem_calledFields hb hl hc
  rfl

theorem layer_processors {ord : MapOrder (Pipeline × BuiltPipeline)} {x : Pipeline × BuiltPipeline}
    (hx : x ∈ ord.order (GoMap.pairs app.pipelines)) (hc : c ∈ x.2.processors) : c.layer = 1 := by
  obtain ⟨-, hbp⟩ := pipeline_eq hb (ord.mem_order_pairs.1 hx)
  rw [hbp] at hc
  obtain ⟨i, name, rfl⟩ := eq_of_mem_processorComponents hc
  rfl

omit hb in
theorem layer_receiverCalls {ord : MapOrder (Entity × BuiltReceiver)} {rcvs : Receivers}
    (h : c ∈ receiverCalls ord rcvs) : c.layer = 2 := by
  obtain ⟨e, rcv, -, rfl⟩ := mem_receiverCalls.1 h
  rfl

theorem nodup_exporterCalls (ord : MapOrder (Entity × BuiltExporter)) :
    (exporterCalls ord app.exporters).Nodup := by
  unfold exporterCalls
  rw [nodup_flatMap]
  constructor
  · intro x hx
    have hl := ord.mem_order_pairs.1 hx
    unfold calledFields
    cases ht : x.2.traces with
    | none => cases x.2.metrics <;> simp [List.reduceOption]
    | some te =>
      cases hm : x.2.metrics with
      | none => simp [List.reduceOption]
      | some me =>
        have hte := (eq_of_get hb hl (show x.2.get .traces = some te from ht)).2
        have hme := (eq_of_get hb hl (show x.2.get .metrics = some me from hm)).2
        simp [List.reduceOption, hte, hme]
  · refine (ord.pairwise_order_pairs app.exporters).imp_of_mem fun {x y} hx hy hne => ?_
    intro c hcx hcy
    have hlx := ord.mem_order_pairs.1 hx
    have hly := ord.mem_order_pairs.1 hy
    obtain ⟨tx, -, -, hx'⟩ := eq_of_mem_calledFields hb hlx hcx
    obtain ⟨ty, -, -, hy'⟩ := eq_of_mem_calledFields hb hly hcy
    rw [hx', Component.exporter.injEq] at hy'
    exact hne (d.cfg.exporters.eq_of_name (exporter_eq hb hlx).1 (exporter_eq hb hly).1 hy'.1)

theorem nodup_receiverCalls (ord : MapOrder (Entity × BuiltReceiver)) :
    (receiverCalls ord app.receivers).Nodup := by
  refine pairwise_map.2 ?_
  refine (ord.pairwise_order_pairs app.receivers).imp_of_mem fun {x y} hx hy hne h => ?_
  rw [Component.receiver.injEq] at h
  exact hne (d.cfg.receivers.eq_of_name (receiver_mem hb (ord.mem_order_pairs.1 hx))
    (receiver_mem hb (ord.mem_order_pairs.1 hy)) h)

/-- The processors of different pipelines may come in any order. -/
theorem later_processors {ord : MapOrder (Pipeline × BuiltPipeline)}
    {x y : Pipeline × BuiltPipeline} (hx : x ∈ ord.order (GoMap.pairs app.pipelines))
    (hy : y ∈ ord.order (GoMap.pairs app.pipelines)) (hne : x.1 ≠ y.1)
    (ha : a ∈ x.2.processors) (hb' : b ∈ y.2.processors) : Later a b := by
  obtain ⟨hpx, hbx⟩ := pipeline_eq hb (ord.mem_order_pairs.1 hx)
  obtain ⟨hpy, hby⟩ := pipeline_eq hb (ord.mem_order_pairs.1 hy)
  rw [hbx] at ha
  rw [hby] at hb'
  obtain ⟨i, name, rfl⟩ := eq_of_mem_processorComponents ha
  obtain ⟨j, name', rfl⟩ := eq_of_mem_processorComponents hb'
  have hname : x.1.name ≠ y.1.name := fun h => hne (d.cfg.pipelines.eq_of_name hpx hpy h)
  constructor
  · intro h
    rw [Component.processor.injEq] at h
    exact hname h.1
  · intro h
    exact hname h.1

theorem pairwise_exporterCalls (ord : MapOrder (Entity × BuiltExporter)) :
    (exporterCalls ord app.exporters).Pairwise fun a b => Later a b ∧ Later b a :=
  pairwise_of_layer (by decide) (nodup_exporterCalls hb ord) fun _ => layer_exporterCalls hb

theorem pairwise_receiverCalls (ord : MapOrder (Entity × BuiltReceiver)) :
    (receiverCalls ord app.receivers).Pairwise fun a b => Later a b ∧ Later b a :=
  pairwise_of_layer (by decide) (nodup_receiverCalls hb ord) fun _ => layer_receiverCalls

theorem pairwise_processors {R : Component → Component → Prop} {f : List Component → List Component}
    (ord : MapOrder (Pipeline × BuiltPipeline)) (hf : ∀ l c, c ∈ f l ↔ c ∈ l)
    (hown : ∀ p, (f (processorComponents p)).Pairwise R)
    (hother : ∀ a b, Later a b → Later b a → R a b) :
    ((ord.order (GoMap.pairs app.pipelines)).flatMap fun x => f x.2.processors).Pairwise R := by
  rw [pairwise_flatMap]
  constructor
  · intro x hx
    obtain ⟨-, hbp⟩ := pipeline_eq hb (ord.mem_order_pairs.1 hx)
    rw [hbp]
    exact hown x.1
  · refine (ord.pairwise_order_pairs app.pipelines).imp_of_mem fun {x y} hx hy hne a ha b hb' => ?_
    rw [hf] at ha hb'
    exact hother a b (later_processors hb hx hy hne ha hb')
      (later_processors hb hy hx (Ne.symm hne) hb' ha)

/-- **The order of starting**: nothing is started before what is below it. -/
theorem pairwise_started (ords : LifeOrders) : (started app ords).Pairwise Later := by
  refine pairwise_layers ((pairwise_exporterCalls hb _).imp And.left) ?_
    ((pairwise_receiverCalls hb _).imp And.left) (fun c => layer_exporterCalls hb) ?_
    fun c => layer_receiverCalls
  · refine pairwise_processors hb _ (fun l c => mem_reverse) (fun p => ?_) fun a b h _ => h
    rw [pairwise_reverse]
    exact (pairwise_processorComponents p).imp Above.later
  · intro c hc
    obtain ⟨x, hx, hc⟩ := mem_flatMap.1 hc
    exact layer_processors hb hx (mem_reverse.1 hc)

/-- **The order of shutting down**, which is one of starting read backwards. -/
theorem pairwise_stopped (ords : LifeOrders) :
    (stopped app ords).Pairwise fun a b => Later b a := by
  rw [← pairwise_reverse]
  unfold stopped
  rw [reverse_append, reverse_append, append_assoc]
  refine pairwise_layers ?_ ?_ ?_ ?_ ?_ ?_
  · rw [pairwise_reverse]
    exact (pairwise_exporterCalls hb _).imp And.right
  · rw [pairwise_reverse]
    refine pairwise_processors hb (f := id) _ (fun l c => Iff.rfl) (fun p => ?_) fun a b _ h => h
    exact (pairwise_processorComponents p).imp Above.later
  · rw [pairwise_reverse]
    exact (pairwise_receiverCalls hb _).imp And.right
  · intro c hc
    exact layer_exporterCalls hb (mem_reverse.1 hc)
  · intro c hc
    obtain ⟨x, hx, hc⟩ := mem_flatMap.1 (mem_reverse.1 hc)
    exact layer_processors hb hx hc
  · intro c hc
    exact layer_receiverCalls (mem_reverse.1 hc)

end Calls

/-! ## The objects of a deployment -/

section Objects

variable {d : Deployment} {app : Application} (hb : Built d app)

include hb

theorem used_of_created {name : String} {ty : DataType} (h : app.Created (.exporter name ty)) :
    exporterUsed d.cfg name ty := by
  cases h with
  | exporter hl hget =>
    obtain ⟨hused, hc⟩ := eq_of_get hb hl hget
    cases hc
    exact hused
  | processor hl hmem =>
    obtain ⟨-, rfl⟩ := pipeline_eq hb hl
    obtain ⟨i, name', h⟩ := eq_of_mem_processorComponents hmem
    cases h

theorem created_of_used {name : String} {ty : DataType} (h : exporterUsed d.cfg name ty) :
    app.Created (.exporter name ty) := by
  obtain ⟨p, hp, rfl, hname⟩ := exporterUsed_iff.1 h
  exact created_of_mem_route hb hp (mem_append_right _ (mem_map_of_mem hname))

theorem handled_of_used {name : String} {ty : DataType} (h : exporterUsed d.cfg name ty)
    (hty : ty ≠ .logs) : Handled app (.exporter name ty) :=
  ⟨created_of_used hb h, fun _ hname => hty (Component.exporter.inj hname).2⟩

omit hb in
theorem handled_of_above (h : Above a b) (ha : app.Created a) : Handled app a :=
  ⟨ha, fun name hname => by subst hname; cases b <;> exact h.elim⟩

/-- The object of a component that is called tells it from the others. -/
theorem object_inj (hsep : d.Separate) (ha : Handled app a) (hb' : Handled app b)
    (h : d.object a = d.object b) : a = b := by
  cases a with
  | exporter name ty =>
    cases b with
    | exporter name' ty' =>
      obtain ⟨rfl, rfl⟩ := hsep name ty name' ty' (used_of_created hb ha.1)
        (used_of_created hb hb'.1) (fun hty => ha.2 name (hty ▸ rfl))
        (fun hty => hb'.2 name' (hty ▸ rfl)) (Object.exporter.inj h)
      rfl
    | _ => cases h
  | processor | receiver =>
    cases b with
    | exporter => cases h
    | _ => exact Object.other.inj h

/-- A component that is called in the place of a created one, as far below the others. -/
theorem exists_handled (hlogs : d.LogsShared) {c : Component} (hc : app.Created c) :
    ∃ c', Handled app c' ∧ d.object c' = d.object c ∧ ∀ a, Above a c → Above a c' := by
  by_cases h : ∃ name, c = .exporter name .logs
  · obtain ⟨name, rfl⟩ := h
    obtain ⟨name', ty', hused, hty, hpointer⟩ := hlogs name (used_of_created hb hc)
    refine ⟨.exporter name' ty', handled_of_used hb hused hty, congrArg Object.exporter hpointer,
      fun a ha => ?_⟩
    cases a with
    | exporter => exact ha
    | processor | receiver => trivial
  · exact ⟨c, ⟨hc, fun name hname => h ⟨name, hname⟩⟩, rfl, fun _ ha => ha⟩

variable {l : List Component} (hmem : ∀ c, c ∈ l ↔ Handled app c)

include hmem

theorem count_object (hsep : d.Separate) (hlogs : d.LogsShared) (hl : l.Nodup) {c : Component}
    (hc : app.Created c) : (l.map d.object).count (d.object c) = 1 := by
  obtain ⟨c', hc', hobject, -⟩ := exists_handled hb hlogs hc
  rw [← hobject]
  refine count_eq_one_of_mem ?_ (mem_map_of_mem ((hmem c').2 hc'))
  exact hl.map_on fun a ha b hb' => object_inj hb hsep ((hmem a).1 ha) ((hmem b).1 hb')

/-- The order of the components that are called is one of the objects. -/
theorem precedes_object (hsep : d.Separate) {x y : Component} (hy : Handled app y)
    (h : Precedes l x y) : Precedes (l.map d.object) (d.object x) (d.object y) :=
  h.map fun z hz => object_inj hb hsep ((hmem z).1 hz) hy

/-- What is called for two exporters is not called once. -/
theorem separate_of_count
    (h : ∀ c, app.Created c → (l.map d.object).count (d.object c) = 1) : d.Separate := by
  intro name ty name' ty' hused hused' hty hty' hpointer
  have hone := h _ (created_of_used hb hused)
  rw [count, countP_map, countP_eq_length_filter, length_eq_one_iff] at hone
  obtain ⟨c, hc⟩ := hone
  have hfst : Component.exporter name ty ∈ [c] :=
    hc ▸ mem_filter.2 ⟨(hmem _).2 (handled_of_used hb hused hty), by simp⟩
  have hsnd : Component.exporter name' ty' ∈ [c] :=
    hc ▸ mem_filter.2 ⟨(hmem _).2 (handled_of_used hb hused' hty'), by
      simp [Deployment.object, hpointer]⟩
  rw [mem_singleton] at hfst hsnd
  exact Component.exporter.inj (hfst.trans hsnd.symm)

theorem logsShared_of_count
    (h : ∀ c, app.Created c → (l.map d.object).count (d.object c) = 1) : d.LogsShared := by
  intro name hused
  have hone := h _ (created_of_used hb hused)
  have hpos : d.object (.exporter name .logs) ∈ l.map d.object :=
    count_pos_iff.1 (hone ▸ Nat.one_pos)
  obtain ⟨c, hc, hobject⟩ := mem_map.1 hpos
  obtain ⟨hcreated, hlogs⟩ := (hmem c).1 hc
  cases c with
  | exporter name' ty' =>
    exact ⟨name', ty', used_of_created hb hcreated, fun hty => hlogs name' (hty ▸ rfl),
      Object.exporter.inj hobject⟩
  | processor | receiver => cases hobject

end Objects

/-! ## The journal of a deployment -/

section Journal

variable {d : Deployment} {app : Application} (ords : LifeOrders)

def calls (app : Application) (ords : LifeOrders) : List Event :=
  (started app ords).map .start ++ (stopped app ords).map .shutdown

theorem started_calls : (calls app ords).filterMap Event.started = started app ords := by
  simp [calls, filterMap_append, filterMap_map, Function.comp_def, Event.started]

theorem stopped_calls : (calls app ords).filterMap Event.stopped = stopped app ords := by
  simp [calls, filterMap_append, filterMap_map, Function.comp_def, Event.stopped]

theorem orderly_calls (hb : Built d app) (hsep : d.Separate) (hlogs : d.LogsShared) :
    Orderly d.object app (calls app ords) := by
  have hstarted := pairwise_started hb ords
  have hstopped := pairwise_stopped hb ords
  have hmemStarted (c : Component) : c ∈ started app ords ↔ Handled app c := mem_started hb ords
  have hmemStopped (c : Component) : c ∈ stopped app ords ↔ Handled app c := mem_stopped hb ords
  constructor <;> simp only [started_calls, stopped_calls]
  · intro c hc
    exact count_object hb hmemStarted hsep hlogs (hstarted.imp fun h => h.1) hc
  · intro c hc
    exact count_object hb hmemStopped hsep hlogs (hstopped.imp fun h => h.1.symm) hc
  all_goals
    intro a b h
    obtain ⟨hab, ha, hcb⟩ := downstream_spec hb h
    have ha' := handled_of_above hab ha
    obtain ⟨b', hb', hobject, habove⟩ := exists_handled hb hlogs hcb
    have hab' := habove a hab
    rw [← hobject]
  · refine precedes_object hb hmemStarted hsep ha' ?_
    exact precedes_of_pairwise hstarted ((hmemStarted b').2 hb') hab'.ne.symm fun hl => hl.2 hab'
  · refine precedes_object hb hmemStopped hsep hb' ?_
    exact precedes_of_pairwise hstopped ((hmemStopped a).2 ha') hab'.ne fun hl => hl.2 hab'

end Journal

/-- **A run is orderly exactly when** no object is called for two exporters and every logs exporter
is the object of one that is called. -/
theorem runsOrderly_iff (d : Deployment) (ords : LifeOrders) :
    RunsOrderly d ords ↔ d.Separate ∧ d.LogsShared := by
  obtain ⟨app, hb, hrun⟩ := exec_lifecycle d ords
  constructor
  · rintro ⟨app', events, hrun', horderly⟩
    rw [hrun, Prod.mk.injEq, Except.ok.injEq, Prod.mk.injEq] at hrun'
    obtain ⟨⟨rfl, -⟩, rfl⟩ := hrun'
    have hone := horderly.startedOnce
    rw [← calls, started_calls] at hone
    exact ⟨separate_of_count hb (fun c => mem_started hb ords) hone,
      logsShared_of_count hb (fun c => mem_started hb ords) hone⟩
  · rintro ⟨hsep, hlogs⟩
    exact ⟨app, calls app ords, hrun, orderly_calls ords hb hsep hlogs⟩

section Runs

def storedOrders : LifeOrders where
  buildExporters := ⟨.stored, .stored, fun _ => .stored⟩
  startExporters := .stored
  buildPipelines := .stored
  startProcessors := .stored
  buildReceivers := ⟨.stored, fun _ => .stored, fun _ => .stored⟩
  startReceivers := .stored
  shutdownReceivers := .stored
  shutdownProcessors := .stored
  shutdownExporters := .stored

/-- The file exporter is one object for traces and logs: it is started as the one of traces. -/
theorem file_runsOrderly : RunsOrderly fileDeployment storedOrders := by
  refine (runsOrderly_iff _ _).2 ⟨?_, ?_⟩
  · intro name ty name' ty' h h' hty hty' hpointer
    obtain ⟨p, hp, rfl, hname⟩ := exporterUsed_iff.1 h
    obtain ⟨p', hp', rfl, hname'⟩ := exporterUsed_iff.1 h'
    have hcalled : ∀ q ∈ fileConfig.pipelines.values, q.inputType ≠ .logs → q = tracesPipeline := by
      decide
    have hpointers : ∀ n ∈ tracesPipeline.exporters, ∀ n' ∈ tracesPipeline.exporters,
        fileDeployment.pointer n .traces = fileDeployment.pointer n' .traces → n = n' := by
      decide
    obtain rfl := hcalled p hp hty
    obtain rfl := hcalled p' hp' hty'
    exact ⟨hpointers name hname name' hname' hpointer, rfl⟩
  · intro name h
    obtain ⟨p, hp, hty, hname⟩ := exporterUsed_iff.1 h
    have hlogs : ∀ q ∈ fileConfig.pipelines.values, q.inputType = .logs →
        q.exporters = ["file"] := by
      decide
    rw [hlogs p hp hty, mem_singleton] at hname
    subst hname
    exact ⟨"file", .traces, by decide, nofun, rfl⟩

def logsConfig : Config where
  receivers := Named.empty.add ⟨"fluentforward", "fluentforward"⟩
  exporters := Named.empty.add ⟨"logging", "logging"⟩
  processors := .empty
  extensions := .empty
  serviceExtensions := []
  pipelines := Named.empty.add ⟨"logs", .logs, ["fluentforward"], [], ["logging"]⟩

def logsDeployment : Deployment where
  cfg := logsConfig
  factories :=
    { receivers := AList.singleton "fluentforward" fun _ _ => .made 0
      processors := ∅
      exporters := AList.singleton "logging" fun _ _ => .made 0 }
  accepted := by rfl
  exporterFactory e he := by
    obtain rfl := List.mem_singleton.1 he
    exact ⟨_, rfl, fun _ _ _ => ⟨_, rfl⟩⟩
  processorFactory e he := by cases he
  receiverFactory e he := by
    obtain rfl := List.mem_singleton.1 he
    exact ⟨_, rfl, 0, fun _ _ _ => rfl⟩

theorem exec_logsDeployment :
    ∃ app, (lifecycle logsDeployment.cfg logsDeployment.factories .success storedOrders).exec =
        (.ok (app, none),
          [.start (.receiver "fluentforward"), .shutdown (.receiver "fluentforward")]) ∧
      app.Created (.exporter "logging" .logs) :=
  ⟨_, rfl, .exporter (e := ⟨"logging", "logging"⟩) rfl (show ByType.get _ .logs = _ from rfl)⟩

/-- The exporter of a logs pipeline is created, and never started. -/
theorem logsExporter_not_started : ¬ RunsOrderly logsDeployment storedOrders := by
  rintro ⟨app', events, hrun', horderly⟩
  obtain ⟨app, hrun, hcreated⟩ := exec_logsDeployment
  rw [hrun, Prod.mk.injEq, Except.ok.injEq, Prod.mk.injEq] at hrun'
  obtain ⟨⟨rfl, -⟩, rfl⟩ := hrun'
  have hone := horderly.startedOnce _ hcreated
  revert hone
  decide

end Runs

end Collector.Service
