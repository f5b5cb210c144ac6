import Collector.Service.Config

/-!
# The builders

`ExportersBuilder`, `PipelinesBuilder` and `ReceiversBuilder` of
`service/builder`. They put the graph of components together backwards, from the
exporters to the receivers. A consumer here is the graph under a component: an
exporter, a processor with the consumer it was created with, a fan-out connector,
or nil. Loggers and creation parameters are left out.
-/

namespace Collector.Service

/-- How a build stops early. -/
inductive Failure where
  | crash (c : Crash)
  | error (msg : String)
  | errUnusedReceiver
  deriving DecidableEq, Repr

abbrev Build (α : Type) := Except Failure α

/-- `*p` in a builder. -/
def derefBuild {α : Type} (p : Option α) : Build α := (deref p).mapError Failure.crash

@[simp] theorem derefBuild_some {α : Type} (a : α) : derefBuild (some a) = .ok a := rfl

/-- A component that a factory has created. A processor is created for its place in a pipeline,
an exporter for a data type, and a receiver once for all of them. -/
inductive Component where
  | exporter (name : String) (ty : DataType)
  | processor (pipeline : String) (index : Nat) (name : String)
  | receiver (name : String)
  deriving DecidableEq, Repr

/-- What a factory does: it returns a component, nil, `ErrDataTypeIsNotSupported` or another
error. -/
inductive Creation (α : Type) where
  | made (a : α)
  | nil
  | notSupported
  | failed (msg : String)
  deriving DecidableEq, Repr

/-- An exporter is told from others by its pointer: it may be one object for several data types. -/
abbrev ExporterFactory := DataType → Entity → Creation Nat

/-- A processor tells whether it mutates the data. -/
abbrev ProcessorFactory := DataType → Entity → Creation Bool

/-- A receiver is told from others by its pointer as well. -/
abbrev ReceiverFactory := DataType → Entity → Creation Nat

structure Factories where
  receivers : GoMap String ReceiverFactory
  processors : GoMap String ProcessorFactory
  exporters : GoMap String ExporterFactory

structure ByType (α : Type) where
  traces : α
  metrics : α
  logs : α
  deriving DecidableEq, Repr

namespace ByType

variable {α : Type}

def get (b : ByType α) : DataType → α
  | .traces => b.traces
  | .metrics => b.metrics
  | .logs => b.logs

def set (b : ByType α) (ty : DataType) (a : α) : ByType α :=
  match ty with
  | .traces => { b with traces := a }
  | .metrics => { b with metrics := a }
  | .logs => { b with logs := a }

def const (a : α) : ByType α := ⟨a, a, a⟩

@[simp] theorem get_const (a : α) (ty : DataType) : (const a).get ty = a := by
  cases ty <;> rfl

theorem get_set (b : ByType α) (ty ty' : DataType) (a : α) :
    (b.set ty a).get ty' = if ty' = ty then a else b.get ty' := by
  cases ty <;> cases ty' <;> rfl

theorem ext_get {a b : ByType α} (h : ∀ ty, a.get ty = b.get ty) : a = b := by
  cases a
  cases b
  exact congr (congrArg₂ mk (h .traces) (h .metrics)) (h .logs)

theorem get_foldl_set {β : Type} (v : DataType → α) (l : List (DataType × β)) (b : ByType α)
    (ty : DataType) :
    (l.foldl (fun b x => b.set x.1 (v x.1)) b).get ty =
      if ty ∈ l.map Prod.fst then v ty else b.get ty := by
  induction l generalizing b with
  | nil => simp
  | cons x l ih =>
    rw [List.foldl_cons, ih, get_set, List.map_cons]
    by_cases hl : ty ∈ l.map Prod.fst
    · rw [if_pos hl, if_pos (List.mem_cons_of_mem _ hl)]
    · rw [if_neg hl]
      by_cases hx : ty = x.1
      · subst hx
        rw [if_pos rfl, if_pos List.mem_cons_self]
      · rw [if_neg hx, if_neg (by simp [hx, hl])]

end ByType

/-! ## Consumers -/

inductive Consumer where
  | nil
  | exporter (c : Component)
  | processor (c : Component) (next : Consumer)
  | fanOut (cs : List Consumer)
  | cloningFanOut (cs : List Consumer)

namespace Consumer

/-- An exporter as a consumer, which is nil when the exporter is. -/
def ofExporter : Option Component → Consumer
  | none => nil
  | some c => exporter c

/-- `NewTracesFanOutConnector` and its like. -/
def newFanOutConnector : List Consumer → Consumer
  | [c] => c
  | cs => fanOut cs

/-- `NewTracesCloningFanOutConnector` and its like. -/
def newCloningFanOutConnector : List Consumer → Consumer
  | [c] => c
  | cs => cloningFanOut cs

mutual

/-- The components an item visits, in order; processors pass it on. A call on a nil consumer
crashes. -/
def deliver : Consumer → Go (List Component)
  | nil => .error .nilDereference
  | exporter c => .ok [c]
  | processor c next => (deliver next).map (c :: ·)
  | fanOut cs => deliverAll cs
  | cloningFanOut cs => deliverAll cs

/-- One consumer after the other; an error of one does not keep the item from the next. -/
def deliverAll : List Consumer → Go (List Component)
  | [] => .ok []
  | c :: cs => do
    let visited ← deliver c
    let rest ← deliverAll cs
    return visited ++ rest

end

@[simp] theorem deliver_newFanOutConnector (cs : List Consumer) :
    (newFanOutConnector cs).deliver = deliverAll cs := by
  match cs with
  | [] | _ :: _ :: _ => simp only [newFanOutConnector, deliver]
  | [c] =>
    simp only [newFanOutConnector, deliverAll]
    cases c.deliver with
    | error crash => rfl
    | ok visited => exact congrArg Except.ok (List.append_nil visited).symm

@[simp] theorem deliver_newCloningFanOutConnector (cs : List Consumer) :
    (newCloningFanOutConnector cs).deliver = deliverAll cs := by
  match cs with
  | [] | _ :: _ :: _ => simp only [newCloningFanOutConnector, deliver]
  | [c] => exact deliver_newFanOutConnector [c]

theorem deliverAll_map {α : Type} {l : List α} {c : α → Consumer} {visits : α → List Component}
    (h : ∀ a ∈ l, (c a).deliver = .ok (visits a)) :
    deliverAll (l.map c) = .ok (l.flatMap visits) := by
  induction l with
  | nil => simp [deliverAll]
  | cons a l ih =>
    rw [List.map_cons, deliverAll, h a List.mem_cons_self,
      ih fun b hb => h b (List.mem_cons_of_mem _ hb)]
    rfl

theorem deliver_foldr_processor (procs : List Component) {next : Consumer}
    {visited : List Component} (h : next.deliver = .ok visited) :
    (procs.foldr processor next).deliver = .ok (procs ++ visited) := by
  induction procs with
  | nil => exact h
  | cons c procs ih =>
    rw [List.foldr_cons, deliver, ih]
    rfl

end Consumer

/-! ## Exporters -/

/-- `builtExporter`: the fields `te`, `me` and `le`. -/
abbrev BuiltExporter := ByType (Option Component)

abbrev Exporters := GoMap Entity BuiltExporter

/-- `exportersRequiredDataTypes`; a reference to no exporter requires types of a nil config. -/
abbrev Requirements := GoMap (Option Entity) (GoMap DataType Pipeline)

section Exporters

/-- The body of the inner loop of `calcExportersRequiredDataTypes`. -/
def requireType (cfg : Config) (pipeline : Pipeline) (result : Requirements) (expName : String) :
    Requirements :=
  result.insert (cfg.exporters.find expName)
    (((result.lookup (cfg.exporters.find expName)).getD ∅).insert pipeline.inputType pipeline)

def calcExportersRequiredDataTypes (cfg : Config) (ord : MapOrder Pipeline) : Requirements :=
  (ord.order cfg.pipelines.values).foldl
    (fun result pipeline => pipeline.exporters.foldl (requireType cfg pipeline) result) ∅

def exporterTypeMismatchErr (config : Entity) (requiredByPipeline : Pipeline) (ty : DataType) :
    Failure :=
  .error ("pipeline " ++ quoted requiredByPipeline.name ++ " of data type " ++ quoted ty.string ++
    " has an exporter " ++ quoted config.name ++ ", which does not support that data type")

/-- The body of the loop of `buildExporter`, the same for the three data types. -/
def createExporter (factory : ExporterFactory) (config : Entity) (exporter : BuiltExporter)
    (required : DataType × Pipeline) : Build BuiltExporter :=
  match factory required.1 config with
  | .notSupported => .error (exporterTypeMismatchErr config required.2 required.1)
  | .failed msg => .error (.error ("error creating " ++ config.name ++ " exporter: " ++ msg))
  | .nil => .error (.error ("factory for " ++ quoted config.name ++ " produced a nil exporter"))
  | .made _ => .ok (exporter.set required.1 (some (.exporter config.name required.1)))

def buildExporter (factories : Factories) (ord : MapOrder (DataType × Pipeline))
    (required : Requirements) (config : Entity) : Build BuiltExporter :=
  match factories.exporters.lookup config.type with
  | none => .error (.error ("exporter factory not found for type: " ++ config.type))
  | some factory =>
    match required.lookup (some config) with
    | none => .ok (.const none)
    | some inputDataTypes =>
      (ord.order (GoMap.pairs inputDataTypes)).foldlM (createExporter factory config) (.const none)

/-- The orders of the loops of `ExportersBuilder.Build`. -/
structure ExporterOrders where
  exporters : MapOrder Entity
  pipelines : MapOrder Pipeline
  dataTypes : Entity → MapOrder (DataType × Pipeline)

/-- `ExportersBuilder.Build`. -/
def buildExporters (cfg : Config) (factories : Factories) (ords : ExporterOrders) :
    Build Exporters :=
  let required := calcExportersRequiredDataTypes cfg ords.pipelines
  (ords.exporters.order cfg.exporters.values).foldlM (fun exporters config => do
    let exp ← buildExporter factories (ords.dataTypes config) required config
    return exporters.insert config exp) ∅

end Exporters

/-! ## Pipelines -/

/-- `builtPipeline`: the fields `firstTC`, `firstMC` and `firstLC`, and the processors. -/
structure BuiltPipeline where
  first : ByType Consumer
  mutatesConsumedData : Bool
  processors : List Component

abbrev BuiltPipelines := GoMap Pipeline BuiltPipeline

section Pipelines

variable (cfg : Config) (factories : Factories) (exporters : Exporters)

def getBuiltExportersByNames (exporterNames : List String) : List (Option BuiltExporter) :=
  exporterNames.map fun name => (cfg.exporters.find name).bind exporters.lookup

def exporterField (ty : DataType) (exp : Option BuiltExporter) : Build Consumer := do
  let exp ← derefBuild exp
  return .ofExporter (exp.get ty)

/-- The functions `buildFanoutExporters…Consumer` differ in the field they read. -/
def buildFanoutExportersConsumer (ty : DataType) (exporterNames : List String) :
    Build Consumer :=
  match getBuiltExportersByNames cfg exporters exporterNames with
  | [exp] => exporterField ty exp
  | exps => do
    let cs ← exps.mapM (exporterField ty)
    return .newFanOutConnector cs

def buildFanoutExportersTraceConsumer : List String → Build Consumer :=
  buildFanoutExportersConsumer cfg exporters .traces

def buildFanoutExportersMetricsConsumer : List String → Build Consumer :=
  buildFanoutExportersConsumer cfg exporters .metrics

def buildFanoutExportersLogConsumer : List String → Build Consumer :=
  buildFanoutExportersConsumer cfg exporters .logs

/-- The consumer junction point at the end of a pipeline. -/
def exportersJunction (pipelineCfg : Pipeline) : Build Consumer :=
  match pipelineCfg.inputType with
  | .traces => buildFanoutExportersTraceConsumer cfg exporters pipelineCfg.exporters
  | .metrics => buildFanoutExportersMetricsConsumer cfg exporters pipelineCfg.exporters
  | .logs => buildFanoutExportersLogConsumer cfg exporters pipelineCfg.exporters

/-- What the loop of `buildPipeline` carries: the consumer of the pipeline's data type, the other
two being nil. -/
structure PipelineState where
  next : Consumer
  mutatesConsumedData : Bool
  processors : List Component

/-- The body of the loop of `buildPipeline`. Neither the config nor the factory is checked for
nil. -/
def buildProcessor (pipelineCfg : Pipeline) (proc : String × Nat) (st : PipelineState) :
    Build PipelineState := do
  let procCfg ← derefBuild (cfg.processors.find proc.1)
  let factory ← derefBuild (factories.processors.lookup procCfg.type)
  let failed (msg : String) : Failure := .error ("error creating processor " ++ quoted proc.1 ++
    " in pipeline " ++ quoted pipelineCfg.name ++ ": " ++ msg)
  match factory pipelineCfg.inputType procCfg with
  | .failed msg => .error (failed msg)
  | .notSupported => .error (failed "telemetry type is not supported")
  | .nil => .error (.error ("factory for " ++ quoted procCfg.name ++ " produced a nil processor"))
  | .made mutates =>
    let c := Component.processor pipelineCfg.name proc.2 proc.1
    return ⟨.processor c st.next, st.mutatesConsumedData || mutates, c :: st.processors⟩

/-- `buildPipeline`; the loop over the processors runs backwards. -/
def buildPipeline (pipelineCfg : Pipeline) : Build BuiltPipeline := do
  let junction ← exportersJunction cfg exporters pipelineCfg
  let st ← pipelineCfg.processors.zipIdx.foldrM (buildProcessor cfg factories pipelineCfg)
    ⟨junction, false, []⟩
  return ⟨(ByType.const .nil).set pipelineCfg.inputType st.next, st.mutatesConsumedData,
    st.processors⟩

/-- `PipelinesBuilder.Build`. -/
def buildPipelines (ord : MapOrder Pipeline) : Build BuiltPipelines :=
  (ord.order cfg.pipelines.values).foldlM (fun built pipeline => do
    let bp ← buildPipeline cfg factories exporters pipeline
    return built.insert pipeline bp) ∅

end Pipelines

/-! ## Receivers -/

/-- `builtReceiver`, with the consumers its factory was given. -/
structure BuiltReceiver where
  receiver : Option Nat
  next : GoMap DataType Consumer

abbrev Receivers := GoMap Entity BuiltReceiver

section Receivers

variable (cfg : Config) (factories : Factories) (builtPipelines : BuiltPipelines)

def hasReceiver (pipeline : Pipeline) (receiverName : String) : Bool :=
  pipeline.receivers.any fun name => name == receiverName

abbrev AttachedPipelines := GoMap DataType (List BuiltPipeline)

/-- The body of the loop of `findPipelinesToAttach`. -/
def attachPipeline (config : Entity) (attached : AttachedPipelines) (pipelineCfg : Pipeline) :
    Build AttachedPipelines :=
  match builtPipelines.lookup pipelineCfg with
  | none =>
    .error (.error ("cannot find pipeline processor for pipeline " ++ pipelineCfg.name))
  | some bp =>
    if hasReceiver pipelineCfg config.name then
      .ok (attached.insert pipelineCfg.inputType
        ((attached.lookup pipelineCfg.inputType).getD [] ++ [bp]))
    else .ok attached

def findPipelinesToAttach (ord : MapOrder Pipeline) (config : Entity) : Build AttachedPipelines :=
  (ord.order cfg.pipelines.values).foldlM (attachPipeline builtPipelines config)
    (AList.insert DataType.metrics [] (AList.insert DataType.traces [] ∅))

/-- The functions `buildFanout…Consumer` differ in the field they read. -/
def buildFanoutConsumer (ty : DataType) (pipelines : List BuiltPipeline) : Consumer :=
  match pipelines with
  | [bp] => bp.first.get ty
  | bps =>
    if bps.any BuiltPipeline.mutatesConsumedData then
      .newCloningFanOutConnector (bps.map fun bp => bp.first.get ty)
    else .newFanOutConnector (bps.map fun bp => bp.first.get ty)

def buildFanoutTraceConsumer : List BuiltPipeline → Consumer := buildFanoutConsumer .traces

def buildFanoutMetricConsumer : List BuiltPipeline → Consumer := buildFanoutConsumer .metrics

def buildFanoutLogConsumer : List BuiltPipeline → Consumer := buildFanoutConsumer .logs

/-- The consumer at the start of the pipelines of a receiver. -/
def pipelinesJunction (ty : DataType) (pipelines : List BuiltPipeline) : Consumer :=
  match ty with
  | .traces => buildFanoutTraceConsumer pipelines
  | .metrics => buildFanoutMetricConsumer pipelines
  | .logs => buildFanoutLogConsumer pipelines

/-- The case of one pipeline is no exception, since a connector of one consumer is the consumer. -/
theorem pipelinesJunction_eq (ty : DataType) (bps : List BuiltPipeline) :
    pipelinesJunction ty bps =
      if bps.any BuiltPipeline.mutatesConsumedData then
        .newCloningFanOutConnector (bps.map fun bp => bp.first.get ty)
      else .newFanOutConnector (bps.map fun bp => bp.first.get ty) := by
  have hj : pipelinesJunction ty bps = buildFanoutConsumer ty bps := by
    cases ty <;> rfl
  rw [hj]
  match bps with
  | [] => rfl
  | [bp] => split <;> rfl
  | bp :: bp' :: bps => rfl

def attachReceiverToPipelines (factory : ReceiverFactory) (config : Entity) (rcv : BuiltReceiver)
    (attached : DataType × List BuiltPipeline) : Build BuiltReceiver :=
  match factory attached.1 config with
  | .notSupported => .error (.error ("receiver " ++ config.name ++ " does not support " ++
      attached.1.string ++ " but it was used in a " ++ attached.1.string ++ " pipeline"))
  | .failed msg => .error (.error ("cannot create receiver " ++ config.name ++ ": " ++ msg))
  | .nil => .error (.error ("factory for " ++ quoted config.name ++ " produced a nil receiver"))
  | .made created =>
    if rcv.receiver.any (· ≠ created) then
      .error (.error ("factory for " ++ quoted config.name ++ " is implemented incorrectly: " ++
        "CreateTraceReceiver and CreateMetricsReceiver must return the same " ++
        "receiver pointer when creating receivers of different data types"))
    else
      .ok ⟨some created, rcv.next.insert attached.1 (pipelinesJunction attached.1 attached.2)⟩

/-- The orders of the loops of `ReceiversBuilder.Build`. -/
structure ReceiverOrders where
  receivers : MapOrder Entity
  pipelines : Entity → MapOrder Pipeline
  dataTypes : Entity → MapOrder (DataType × List BuiltPipeline)

def buildReceiver (ords : ReceiverOrders) (config : Entity) : Build BuiltReceiver := do
  let attached ← findPipelinesToAttach cfg builtPipelines (ords.pipelines config) config
  match factories.receivers.lookup config.type with
  | none => .error (.error ("receiver factory not found for type: " ++ config.type))
  | some factory =>
    let rcv ← ((ords.dataTypes config).order (GoMap.pairs attached)).foldlM (fun rcv dataType =>
      if dataType.2.length = 0 then return rcv
      else attachReceiverToPipelines factory config rcv dataType) ⟨none, ∅⟩
    if rcv.receiver.isNone then .error .errUnusedReceiver else return rcv

/-- `ReceiversBuilder.Build`; a receiver without pipelines is passed over. -/
def buildReceivers (ords : ReceiverOrders) : Build Receivers :=
  (ords.receivers.order cfg.receivers.values).foldlM (fun receivers config =>
    match buildReceiver cfg factories builtPipelines ords config with
    | .error .errUnusedReceiver => .ok receivers
    | .error failure => .error failure
    | .ok rcv => .ok (receivers.insert config rcv)) ∅

end Receivers

end Collector.Service
