import Collector.Go.Errors
import Collector.Lib.Journal
import Collector.Service.Wiring

/-!
# Starting and stopping the pipelines

`setupPipelines` and `shutdownPipelines` of the service with the functions of the
builders they call. The journal of a run holds the calls of `Start` and `Shutdown`
on components, in order. What a component answers is an `Answers`. Extensions and
the logs are left out.
-/

namespace Collector.Service

open Lib
open GoMap (pairs)

abbrev ServiceError := GoError Empty

inductive Event where
  | start (c : Component)
  | shutdown (c : Component)
  deriving DecidableEq, Repr

/-- What the components return from `Start` and `Shutdown`. -/
structure Answers where
  start : Component → Option ServiceError
  shutdown : Component → Option ServiceError

def Answers.success : Answers := ⟨fun _ => none, fun _ => none⟩

inductive Stop where
  | crash (c : Crash)
  | error (err : ServiceError)

abbrev Life (α : Type) := Journal Stop Event α

section Calls

variable (answers : Answers)

def startComponent (c : Component) : Life (Option ServiceError) := do
  note (.start c)
  return answers.start c

def shutdownComponent (c : Component) : Life (Option ServiceError) := do
  note (.shutdown c)
  return answers.shutdown c

def callField (call : Component → Life (Option ServiceError)) (field : Option Component) :
    Life (Option ServiceError) :=
  match field with
  | none => return none
  | some c => call c

/-- `builtExporter.Start`. -/
def startExporter (exp : BuiltExporter) : Life (Option ServiceError) := do
  let te ← callField (startComponent answers) exp.traces
  let me ← callField (startComponent answers) exp.metrics
  return GoError.combineErrors [te, me].reduceOption

/-- `builtExporter.Shutdown`. -/
def shutdownExporter (exp : BuiltExporter) : Life (Option ServiceError) := do
  let te ← callField (shutdownComponent answers) exp.traces
  let me ← callField (shutdownComponent answers) exp.metrics
  return GoError.combineErrors [te, me].reduceOption

/-- `Exporters.StartAll`. -/
def startExporters (ord : MapOrder (Entity × BuiltExporter)) (exps : Exporters) :
    Life (Option ServiceError) :=
  firstSome (fun x => startExporter answers x.2) (ord.order (GoMap.pairs exps))

/-- `Exporters.ShutdownAll`. -/
def shutdownExporters (ord : MapOrder (Entity × BuiltExporter)) (exps : Exporters) :
    Life (Option ServiceError) := do
  let errs ← (ord.order (GoMap.pairs exps)).mapM fun x => shutdownExporter answers x.2
  return GoError.combineErrors errs.reduceOption

/-- `BuiltPipelines.StartProcessors`; the loop over the processors runs backwards. -/
def startProcessors (ord : MapOrder (Pipeline × BuiltPipeline)) (bps : BuiltPipelines) :
    Life (Option ServiceError) :=
  firstSome (fun x => firstSome (startComponent answers) x.2.processors.reverse)
    (ord.order (GoMap.pairs bps))

/-- `BuiltPipelines.ShutdownProcessors`. -/
def shutdownProcessors (ord : MapOrder (Pipeline × BuiltPipeline)) (bps : BuiltPipelines) :
    Life (Option ServiceError) := do
  let errs ← (ord.order (GoMap.pairs bps)).mapM fun x =>
    x.2.processors.mapM (shutdownComponent answers)
  return GoError.combineErrors errs.flatten.reduceOption

/-- A call on the receiver in a `builtReceiver`. -/
def callReceiver (call : Component → Life (Option ServiceError)) (x : Entity × BuiltReceiver) :
    Life (Option ServiceError) :=
  match x.2.receiver with
  | none => throw (.crash .nilDereference)
  | some _ => call (.receiver x.1.name)

/-- `Receivers.StartAll`. -/
def startReceivers (ord : MapOrder (Entity × BuiltReceiver)) (rcvs : Receivers) :
    Life (Option ServiceError) :=
  firstSome (callReceiver (startComponent answers)) (ord.order (GoMap.pairs rcvs))

/-- `Receivers.ShutdownAll`. -/
def shutdownReceivers (ord : MapOrder (Entity × BuiltReceiver)) (rcvs : Receivers) :
    Life (Option ServiceError) := do
  let errs ← (ord.order (GoMap.pairs rcvs)).mapM (callReceiver (shutdownComponent answers))
  return GoError.combineErrors errs.reduceOption

end Calls

/-! ## The service -/

/-- The fields of `Application` that the setup fills in. -/
structure Application where
  exporters : Exporters
  pipelines : BuiltPipelines
  receivers : Receivers

/-- The orders of the loops over maps, from the setup to the shutdown. -/
structure LifeOrders where
  buildExporters : ExporterOrders
  startExporters : MapOrder (Entity × BuiltExporter)
  buildPipelines : MapOrder Pipeline
  startProcessors : MapOrder (Pipeline × BuiltPipeline)
  buildReceivers : ReceiverOrders
  startReceivers : MapOrder (Entity × BuiltReceiver)
  shutdownReceivers : MapOrder (Entity × BuiltReceiver)
  shutdownProcessors : MapOrder (Pipeline × BuiltPipeline)
  shutdownExporters : MapOrder (Entity × BuiltExporter)

def building {α : Type} (pre : String) (build : Build α) : Life α :=
  match build with
  | .ok a => return a
  | .error (.crash c) => throw (.crash c)
  | .error (.error msg) => throw (.error (.wrap pre (.new msg)))
  | .error .errUnusedReceiver =>
    throw (.error (.wrap pre (.new "receiver defined but not used by any pipeline")))

def starting (pre : String) (start : Life (Option ServiceError)) : Life Unit := do
  match ← start with
  | none => return ()
  | some err => throw (.error (.wrap pre err))

def setupPipelines (cfg : Config) (factories : Factories) (answers : Answers) (ords : LifeOrders) :
    Life Application := do
  let exporters ← building "cannot build builtExporters: "
    (buildExporters cfg factories ords.buildExporters)
  starting "cannot start builtExporters: " (startExporters answers ords.startExporters exporters)
  let pipelines ← building "cannot build pipelines: "
    (buildPipelines cfg factories exporters ords.buildPipelines)
  starting "cannot start processors: " (startProcessors answers ords.startProcessors pipelines)
  let receivers ← building "cannot build receivers: "
    (buildReceivers cfg factories pipelines ords.buildReceivers)
  starting "cannot start receivers: " (startReceivers answers ords.startReceivers receivers)
  return ⟨exporters, pipelines, receivers⟩

def shutdownPipelines (answers : Answers) (ords : LifeOrders) (app : Application) :
    Life (Option ServiceError) := do
  let rs ← shutdownReceivers answers ords.shutdownReceivers app.receivers
  let ps ← shutdownProcessors answers ords.shutdownProcessors app.pipelines
  let es ← shutdownExporters answers ords.shutdownExporters app.exporters
  return GoError.combineErrors [rs.map (.wrap "failed to stop receivers: "),
    ps.map (.wrap "failed to shutdown processors: "),
    es.map (.wrap "failed to shutdown exporters: ")].reduceOption

/-- The setup followed by the shutdown, with the error of the latter. -/
def lifecycle (cfg : Config) (factories : Factories) (answers : Answers) (ords : LifeOrders) :
    Life (Application × Option ServiceError) := do
  let app ← setupPipelines cfg factories answers ords
  let err ← shutdownPipelines answers ords app
  return (app, err)

/-! ## The calls of a run that succeeds -/

/-- The components of a built exporter on which `Start` and `Shutdown` are called. -/
def calledFields (exp : BuiltExporter) : List Component := [exp.traces, exp.metrics].reduceOption

section Success

/-- A function on components is called with `ev`, and succeeds. -/
abbrev Succeeds (call : Component → Life (Option ServiceError)) (ev : Component → Event) : Prop :=
  ∀ c, Writes (call c) [ev c] none

theorem succeeds_startComponent : Succeeds (startComponent .success) .start :=
  fun c => (writes_note (Event.start c)).bind (writes_pure none)

theorem succeeds_shutdownComponent : Succeeds (shutdownComponent .success) .shutdown :=
  fun c => (writes_note (Event.shutdown c)).bind (writes_pure none)

variable {call : Component → Life (Option ServiceError)} {ev : Component → Event}

theorem Succeeds.callField (h : Succeeds call ev) (field : Option Component) :
    Writes (callField call field) (field.toList.map ev) none := by
  cases field with
  | none => exact writes_pure none
  | some c => exact h c

theorem Succeeds.callReceiver (h : Succeeds call ev) {x : Entity × BuiltReceiver}
    (hx : x.2.receiver.isSome) :
    Writes (callReceiver call x) [ev (.receiver x.1.name)] none := by
  unfold Service.callReceiver
  obtain ⟨pointer, hp⟩ := Option.isSome_iff_exists.1 hx
  rw [hp]
  exact h _

theorem Succeeds.callFields (h : Succeeds call ev) (exp : BuiltExporter) :
    Writes (do
      let te ← Service.callField call exp.traces
      let me ← Service.callField call exp.metrics
      return GoError.combineErrors [te, me].reduceOption) ((calledFields exp).map ev) none := by
  have hfields : (calledFields exp).map ev =
      exp.traces.toList.map ev ++ (exp.metrics.toList.map ev ++ []) := by
    unfold calledFields
    cases exp.traces <;> cases exp.metrics <;> rfl
  rw [hfields]
  exact (h.callField exp.traces).bind ((h.callField exp.metrics).bind (writes_pure none))

theorem reduceOption_map_none {α β : Type} (l : List α) :
    (l.map fun _ => (none : Option β)).reduceOption = [] := by
  simp [List.reduceOption]

theorem writes_combined {α : Type} {f : α → Life (Option ServiceError)} {w : α → List Event}
    {l : List α} (h : ∀ a ∈ l, Writes (f a) (w a) none) :
    Writes (do
      let errs ← l.mapM f
      return GoError.combineErrors errs.reduceOption) (l.flatMap w) none := by
  rw [← List.append_nil (l.flatMap w)]
  refine (writes_mapM h).bind ?_
  rw [reduceOption_map_none]
  exact writes_pure none

def exporterCalls (ord : MapOrder (Entity × BuiltExporter)) (exps : Exporters) : List Component :=
  (ord.order (GoMap.pairs exps)).flatMap fun x => calledFields x.2

def receiverCalls (ord : MapOrder (Entity × BuiltReceiver)) (rcvs : Receivers) : List Component :=
  (ord.order (GoMap.pairs rcvs)).map fun x => .receiver x.1.name

variable (app : Application) (ords : LifeOrders)

def started : List Component :=
  exporterCalls ords.startExporters app.exporters ++
    ((ords.startProcessors.order (GoMap.pairs app.pipelines)).flatMap
        (fun x => x.2.processors.reverse) ++
      receiverCalls ords.startReceivers app.receivers)

def stopped : List Component :=
  receiverCalls ords.shutdownReceivers app.receivers ++
    ((ords.shutdownProcessors.order (GoMap.pairs app.pipelines)).flatMap
        (fun x => x.2.processors) ++
      exporterCalls ords.shutdownExporters app.exporters)

theorem writes_building {α : Type} (pre : String) {build : Build α} {a : α} (h : build = .ok a) :
    Writes (building pre build) [] a := by
  rw [h]
  exact writes_pure a

theorem writes_starting (pre : String) {start : Life (Option ServiceError)} {l : List Event}
    (h : Writes start l none) : Writes (starting pre start) l () := by
  rw [← List.append_nil l]
  exact h.bind (writes_pure ())

theorem writes_shutdownProcessors (ord : MapOrder (Pipeline × BuiltPipeline))
    (bps : BuiltPipelines) :
    Writes (shutdownProcessors .success ord bps) ((ord.order (pairs bps)).flatMap fun x =>
      x.2.processors.flatMap fun c => [.shutdown c]) none := by
  rw [← List.append_nil (List.flatMap _ _)]
  refine (writes_mapM fun x _ => writes_mapM fun c _ => succeeds_shutdownComponent c).bind ?_
  have hnil : ((ord.order (pairs bps)).map fun x =>
      x.2.processors.map fun _ => (none : Option ServiceError)).flatten.reduceOption = [] := by
    simp [List.reduceOption]
  rw [hnil]
  exact writes_pure none

theorem writes_setupPipelines {cfg : Config} {factories : Factories} {app : Application}
    (hexps : buildExporters cfg factories ords.buildExporters = .ok app.exporters)
    (hps : buildPipelines cfg factories app.exporters ords.buildPipelines = .ok app.pipelines)
    (hrcvs : buildReceivers cfg factories app.pipelines ords.buildReceivers = .ok app.receivers)
    (hr : ∀ x ∈ pairs app.receivers, x.2.receiver.isSome) :
    Writes (setupPipelines cfg factories .success ords) ((started app ords).map .start) app := by
  have hevents : (started app ords).map Event.start =
      [] ++ ((ords.startExporters.order (pairs app.exporters)).flatMap
          (fun x => (calledFields x.2).map .start) ++
        ([] ++ ((ords.startProcessors.order (pairs app.pipelines)).flatMap
            (fun x => x.2.processors.reverse.flatMap fun c => [.start c]) ++
          ([] ++ ((ords.startReceivers.order (pairs app.receivers)).flatMap
            (fun x => [.start (.receiver x.1.name)]) ++ []))))) := by
    simp [started, exporterCalls, receiverCalls, List.map_flatMap,
      ← List.map_eq_flatMap, Function.comp_def]
  rw [hevents]
  refine (writes_building _ hexps).bind ((writes_starting _ ?_).bind
    ((writes_building _ hps).bind ((writes_starting _ ?_).bind
      ((writes_building _ hrcvs).bind ((writes_starting _ ?_).bind (writes_pure app))))))
  · exact writes_firstSome fun x _ => succeeds_startComponent.callFields x.2
  · exact writes_firstSome fun x _ => writes_firstSome fun c _ => succeeds_startComponent c
  · refine writes_firstSome fun x hx => succeeds_startComponent.callReceiver (hr x ?_)
    exact (ords.startReceivers.perm _).mem_iff.1 hx

theorem writes_shutdownPipelines (hr : ∀ x ∈ pairs app.receivers, x.2.receiver.isSome) :
    Writes (shutdownPipelines .success ords app) ((stopped app ords).map .shutdown) none := by
  have hevents : (stopped app ords).map Event.shutdown =
      (ords.shutdownReceivers.order (pairs app.receivers)).flatMap
          (fun x => [.shutdown (.receiver x.1.name)]) ++
        ((ords.shutdownProcessors.order (pairs app.pipelines)).flatMap
            (fun x => x.2.processors.flatMap fun c => [.shutdown c]) ++
          ((ords.shutdownExporters.order (pairs app.exporters)).flatMap
            (fun x => (calledFields x.2).map .shutdown) ++ [])) := by
    simp [stopped, exporterCalls, receiverCalls, List.map_flatMap,
      ← List.map_eq_flatMap, Function.comp_def]
  rw [hevents]
  refine Writes.bind (a := none) ?_ ((writes_shutdownProcessors _ _).bind
    (Writes.bind (a := none) ?_ (writes_pure none)))
  · refine writes_combined fun x hx => succeeds_shutdownComponent.callReceiver (hr x ?_)
    exact (ords.shutdownReceivers.perm _).mem_iff.1 hx
  · exact writes_combined fun x _ => succeeds_shutdownComponent.callFields x.2

end Success

/-! ## Deployments -/

structure Built (d : Deployment) (app : Application) : Prop where
  exporters : ∀ e, app.exporters.lookup e =
    if e ∈ d.cfg.exporters.values then some (exporterOf d.cfg e) else none
  pipelines : ∀ p, app.pipelines.lookup p =
    if p ∈ d.cfg.pipelines.values then some (pipelineOf d.cfg d.factories p) else none
  receivers : ∀ e, (app.receivers.lookup e).isSome ↔
    e ∈ d.cfg.receivers.values ∧ receiverUsed d.cfg e.name
  next : ∀ e rcv ty c, app.receivers.lookup e = some rcv → rcv.next.lookup ty = some c →
    ∃ ord, c = junctionOf d.cfg d.factories ord ty e.name

/-- **The run of a deployment** whose components all start and shut down. -/
theorem exec_lifecycle (d : Deployment) (ords : LifeOrders) :
    ∃ app, Built d app ∧ (lifecycle d.cfg d.factories .success ords).exec =
      (.ok (app, none), (started app ords).map .start ++ (stopped app ords).map .shutdown) := by
  obtain ⟨exporters, hexporters, hexp⟩ := buildExporters_ok d ords.buildExporters
  obtain ⟨pipelines, hpipelines, hbuilt⟩ := buildPipelines_ok d hexp ords.buildPipelines
  obtain ⟨receivers, hreceivers, hsome, hnext⟩ := buildReceivers_ok d hbuilt ords.buildReceivers
  have hr : ∀ x ∈ pairs receivers, x.2.receiver.isSome :=
    fun x hx => (hnext x.1 x.2 (GoMap.mem_pairs.1 hx)).1
  obtain ⟨app, happ⟩ : ∃ app : Application, app = ⟨exporters, pipelines, receivers⟩ := ⟨_, rfl⟩
  refine ⟨app, ?_, ?_⟩
  · subst happ
    refine ⟨hexp, hbuilt, hsome, fun e rcv ty c hrcv hc => ?_⟩
    rw [(hnext e rcv hrcv).2] at hc
    split at hc
    · cases hc
    · exact ⟨_, (Option.some.inj hc).symm⟩
  · have hset : Writes (setupPipelines d.cfg d.factories .success ords)
        ((started app ords).map .start) app := by
      subst happ
      exact writes_setupPipelines ords hexporters hpipelines hreceivers hr
    have hstop : Writes (shutdownPipelines .success ords app)
        ((stopped app ords).map .shutdown) none := by
      subst happ
      exact writes_shutdownPipelines _ ords hr
    rw [← List.append_nil ((stopped app ords).map Event.shutdown)]
    exact (hset.bind (hstop.bind (writes_pure (app, none)))).exec_eq

end Collector.Service
