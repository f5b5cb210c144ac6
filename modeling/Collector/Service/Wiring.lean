import Collector.Lib.Guarded
import Collector.Lib.Returns
import Collector.Lib.Tabulate
import Collector.Service.Builder

/-!
# The graph that the builders make

A `Deployment` is a configuration that `ValidateConfig` accepts, with factories
that create what its pipelines ask for. On a deployment every builder succeeds,
whatever the orders of the loops over maps, and what it builds is a function of
the configuration: `exporterOf`, `pipelineOf` and `junctionOf` say which. An item
that a receiver emits then takes the route of every pipeline that lists the
receiver, and no other.
-/

namespace Collector.Service

open Lib List

/-- An accepted configuration with factories that serve it: each creates what the pipelines ask
for, and that of a receiver returns one receiver for all data types, as the builder demands. -/
structure Deployment where
  cfg : Config
  factories : Factories
  accepted : validateConfig cfg .stored = none
  exporterFactory : ∀ e ∈ cfg.exporters.values, ∃ f, factories.exporters.lookup e.type = some f ∧
    ∀ p ∈ cfg.pipelines.values, e.name ∈ p.exporters → ∃ pointer, f p.inputType e = .made pointer
  processorFactory : ∀ e ∈ cfg.processors.values, ∃ f,
    factories.processors.lookup e.type = some f ∧
    ∀ p ∈ cfg.pipelines.values, e.name ∈ p.processors → ∃ mutates, f p.inputType e = .made mutates
  receiverFactory : ∀ e ∈ cfg.receivers.values, ∃ f, factories.receivers.lookup e.type = some f ∧
    ∃ pointer, ∀ p ∈ cfg.pipelines.values, e.name ∈ p.receivers → f p.inputType e = .made pointer

variable {p : Pipeline}

theorem Deployment.pipelineOk (d : Deployment) (hp : p ∈ d.cfg.pipelines.values) :
    PipelineOk d.cfg p :=
  pipelineOk_of_validateConfig d.accepted hp

/-! ## Exporters -/

section Exporters

def exporterUsed (cfg : Config) (name : String) (ty : DataType) : Bool :=
  cfg.pipelines.values.any fun p => p.inputType = ty ∧ name ∈ p.exporters

def exporterOf (cfg : Config) (e : Entity) : BuiltExporter :=
  let field (ty : DataType) :=
    if exporterUsed cfg e.name ty then some (.exporter e.name ty) else none
  ⟨field .traces, field .metrics, field .logs⟩

theorem get_exporterOf (cfg : Config) (e : Entity) (ty : DataType) :
    (exporterOf cfg e).get ty =
      if exporterUsed cfg e.name ty then some (.exporter e.name ty) else none := by
  cases ty <;> rfl

def typesOf (r : Requirements) (key : Option Entity) : GoMap DataType Pipeline :=
  (r.lookup key).getD ∅

theorem lookup_typesOf_requireType (cfg : Config) (p : Pipeline) (r : Requirements) (name : String)
    (key : Option Entity) (ty : DataType) :
    (typesOf (requireType cfg p r name) key).lookup ty =
      if key = cfg.exporters.find name ∧ ty = p.inputType then some p
      else (typesOf r key).lookup ty := by
  unfold typesOf requireType
  by_cases hk : key = cfg.exporters.find name
  · subst hk
    by_cases ht : ty = p.inputType
    · subst ht
      simp
    · simp [ht]
  · simp [hk]

theorem lookup_typesOf_foldl (cfg : Config) (uses : List (Pipeline × String)) (r : Requirements)
    (key : Option Entity) (ty : DataType) :
    ((typesOf (uses.foldl (fun r u => requireType cfg u.1 r u.2) r) key).lookup ty).isSome = true ↔
      ((typesOf r key).lookup ty).isSome = true ∨
        ∃ u ∈ uses, key = cfg.exporters.find u.2 ∧ ty = u.1.inputType := by
  induction uses generalizing r with
  | nil => simp
  | cons u uses ih =>
    rw [foldl_cons, ih, lookup_typesOf_requireType]
    by_cases h : key = cfg.exporters.find u.2 ∧ ty = u.1.inputType
    · rw [if_pos h]
      exact iff_of_true (.inl rfl) (.inr ⟨u, mem_cons_self, h⟩)
    · rw [if_neg h]
      refine or_congr_right ⟨?_, ?_⟩
      · rintro ⟨u', hu', h'⟩
        exact ⟨u', mem_cons_of_mem _ hu', h'⟩
      · rintro ⟨u', hu', h'⟩
        rcases mem_cons.1 hu' with rfl | hu'
        · exact absurd h' h
        · exact ⟨u', hu', h'⟩

variable {name : String} {cfg : Config}

theorem exporterUsed_iff {ty : DataType} :
    exporterUsed cfg name ty = true ↔
      ∃ p ∈ cfg.pipelines.values, p.inputType = ty ∧ name ∈ p.exporters := by
  simp [exporterUsed]

variable {e : Entity}

theorem isSome_required_iff (cfg : Config) (ord : MapOrder Pipeline)
    (he : e ∈ cfg.exporters.values) (ty : DataType) :
    ((typesOf (calcExportersRequiredDataTypes cfg ord) (some e)).lookup ty).isSome = true ↔
      exporterUsed cfg e.name ty = true := by
  have hcalc : calcExportersRequiredDataTypes cfg ord =
      ((ord.order cfg.pipelines.values).flatMap fun p =>
        p.exporters.map fun name => (p, name)).foldl (fun r u => requireType cfg u.1 r u.2) ∅ := by
    rw [foldl_flatMap]
    simp only [foldl_map]
    rfl
  rw [hcalc, lookup_typesOf_foldl, exporterUsed_iff]
  constructor
  · rintro (h | ⟨⟨p, name⟩, hu, hkey, rfl⟩)
    · cases h
    · obtain ⟨p', hp, hname⟩ := mem_flatMap.1 hu
      obtain ⟨name', hmem, heq⟩ := mem_map.1 hname
      cases heq
      rw [cfg.exporters.name_of_find hkey.symm]
      exact ⟨p, (ord.perm _).mem_iff.1 hp, rfl, hmem⟩
  · rintro ⟨p, hp, rfl, hmem⟩
    refine .inr ⟨(p, e.name), mem_flatMap.2 ⟨p, (ord.perm _).mem_iff.2 hp, ?_⟩, ?_, rfl⟩
    · exact mem_map.2 ⟨e.name, hmem, rfl⟩
    · exact (cfg.exporters.mem_values.1 he).symm

theorem buildExporter_ok (d : Deployment) (ord : MapOrder (DataType × Pipeline))
    (pord : MapOrder Pipeline) (he : e ∈ d.cfg.exporters.values) :
    buildExporter d.factories ord (calcExportersRequiredDataTypes d.cfg pord) e =
      .ok (exporterOf d.cfg e) := by
  have hreq := isSome_required_iff d.cfg pord he
  obtain ⟨f, hf, hmade⟩ := d.exporterFactory e he
  unfold buildExporter
  simp only [hf]
  unfold typesOf at hreq
  cases htypes : (calcExportersRequiredDataTypes d.cfg pord).lookup (some e) with
  | none =>
    refine congrArg Except.ok (ByType.ext_get fun ty => ?_)
    have hn : exporterUsed d.cfg e.name ty = false := by
      have := hreq ty
      rw [htypes] at this
      simpa using this
    rw [ByType.get_const, get_exporterOf, hn]
    rfl
  | some types =>
    simp only [htypes, Option.getD_some] at hreq
    -- every required type has a pipeline that makes the factory succeed
    have hcreate : ∀ x ∈ ord.order (GoMap.pairs types), ∀ b,
        createExporter f e b x = .ok (b.set x.1 (some (.exporter e.name x.1))) := by
      intro x hx b
      have hx' := GoMap.mem_pairs.1 ((ord.perm _).mem_iff.1 hx)
      obtain ⟨p, hp, hty, hmem⟩ := exporterUsed_iff.1 ((hreq x.1).1 (by rw [hx']; rfl))
      obtain ⟨pointer, hm⟩ := hmade p hp hmem
      rw [hty] at hm
      simp only [createExporter, hm]
    simp only
    rw [foldlM_ok hcreate]
    refine congrArg Except.ok (ByType.ext_get fun ty => ?_)
    rw [ByType.get_foldl_set fun ty => some (Component.exporter e.name ty), get_exporterOf,
      ByType.get_const]
    refine if_congr ?_ rfl rfl
    rw [← hreq ty, ((ord.perm _).map Prod.fst).mem_iff, Option.isSome_iff_exists]
    constructor
    · intro h
      obtain ⟨⟨ty', p⟩, hmem, rfl⟩ := mem_map.1 h
      exact ⟨p, GoMap.mem_pairs.1 hmem⟩
    · rintro ⟨p, hp⟩
      exact mem_map.2 ⟨(ty, p), GoMap.mem_pairs.2 hp, rfl⟩

theorem buildExporters_ok (d : Deployment) (ords : ExporterOrders) :
    ∃ exporters, buildExporters d.cfg d.factories ords = .ok exporters ∧
      ∀ e, exporters.lookup e =
        if e ∈ d.cfg.exporters.values then some (exporterOf d.cfg e) else none := by
  have hperm := ords.exporters.perm d.cfg.exporters.values
  refine ⟨enter id (exporterOf d.cfg) ∅ (ords.exporters.order d.cfg.exporters.values),
    foldlM_enter (fun e he => buildExporter_ok d _ _ (hperm.mem_iff.1 he)) ∅, fun e => ?_⟩
  rw [lookup_enter_self _ (hperm.nodup_iff.2 d.cfg.exporters.nodup_values)]
  exact if_congr hperm.mem_iff rfl rfl

end Exporters

/-! ## Pipelines -/

section Pipelines

def processorComponents (p : Pipeline) : List Component :=
  p.processors.zipIdx.map fun x => .processor p.name x.2 x.1

def exporterComponents (p : Pipeline) : List Component :=
  p.exporters.map fun name => .exporter name p.inputType

def chainOf (p : Pipeline) : Consumer :=
  (processorComponents p).foldr .processor
    (.newFanOutConnector ((exporterComponents p).map .exporter))

def processorMutates (cfg : Config) (factories : Factories) (ty : DataType) (name : String) :
    Bool :=
  match cfg.processors.find name with
  | none => false
  | some e =>
    match factories.processors.lookup e.type with
    | none => false
    | some f =>
      match f ty e with
      | .made mutates => mutates
      | _ => false

def pipelineOf (cfg : Config) (factories : Factories) (p : Pipeline) : BuiltPipeline :=
  ⟨(ByType.const .nil).set p.inputType (chainOf p),
    p.processors.any (processorMutates cfg factories p.inputType), processorComponents p⟩

theorem buildFanoutExportersConsumer_ok {exporters : Exporters} {ty : DataType}
    {names : List String} {cs : List Consumer}
    (h : (getBuiltExportersByNames cfg exporters names).mapM (exporterField ty) = .ok cs) :
    buildFanoutExportersConsumer cfg exporters ty names = .ok (.newFanOutConnector cs) := by
  unfold buildFanoutExportersConsumer
  cases hexps : getBuiltExportersByNames cfg exporters names with
  | nil =>
    rw [hexps] at h
    cases h
    rfl
  | cons exp exps =>
    rw [hexps] at h
    cases exps with
    | nil =>
      rw [mapM_cons] at h
      obtain ⟨c, hf, h⟩ := Lib.bind_eq_ok.1 h
      cases h
      exact hf
    | cons exp' exps =>
      show (List.mapM (exporterField ty) (exp :: exp' :: exps) >>= fun cs =>
        Except.ok (Consumer.newFanOutConnector cs)) = _
      rw [h, ok_bind]

variable (d : Deployment) {exporters : Exporters}
  (hexp : ∀ e, exporters.lookup e =
    if e ∈ d.cfg.exporters.values then some (exporterOf d.cfg e) else none)
include hexp

theorem exportersJunction_ok (hp : p ∈ d.cfg.pipelines.values) :
    exportersJunction d.cfg exporters p =
      .ok (.newFanOutConnector ((exporterComponents p).map .exporter)) := by
  have hfield : ∀ name ∈ p.exporters,
      exporterField p.inputType ((d.cfg.exporters.find name).bind exporters.lookup) =
        .ok (.exporter (.exporter name p.inputType)) := by
    intro name hname
    obtain ⟨e, he⟩ := (d.pipelineOk hp).exporter name hname
    have hn := d.cfg.exporters.name_of_find he
    have hused : exporterUsed d.cfg e.name p.inputType = true :=
      exporterUsed_iff.2 ⟨p, hp, rfl, by rwa [hn]⟩
    rw [he, Option.bind_some, hexp e, if_pos (d.cfg.exporters.mem_of_find he)]
    show Except.ok (Consumer.ofExporter ((exporterOf d.cfg e).get p.inputType)) = _
    rw [get_exporterOf, if_pos hused, hn]
    rfl
  have hall : (getBuiltExportersByNames d.cfg exporters p.exporters).mapM
      (exporterField p.inputType) = .ok ((exporterComponents p).map .exporter) := by
    unfold getBuiltExportersByNames exporterComponents
    rw [mapM_map, map_map]
    exact mapM_ok hfield
  have hgen := buildFanoutExportersConsumer_ok hall
  unfold exportersJunction
  cases hty : p.inputType <;> rw [hty] at hgen <;> exact hgen

omit hexp in
theorem buildProcessor_ok (hp : p ∈ d.cfg.pipelines.values) {proc : String × Nat}
    (hproc : proc.1 ∈ p.processors) (st : PipelineState) :
    buildProcessor d.cfg d.factories p proc st =
      .ok ⟨.processor (.processor p.name proc.2 proc.1) st.next,
        st.mutatesConsumedData || processorMutates d.cfg d.factories p.inputType proc.1,
        .processor p.name proc.2 proc.1 :: st.processors⟩ := by
  obtain ⟨e, he⟩ := (d.pipelineOk hp).processor proc.1 hproc
  obtain ⟨f, hf, hmade⟩ := d.processorFactory e (d.cfg.processors.mem_of_find he)
  obtain ⟨mutates, hm⟩ := hmade p hp (by rwa [d.cfg.processors.name_of_find he])
  unfold buildProcessor processorMutates
  simp only [he, derefBuild_some, ok_bind, hf, hm]
  rfl

omit d hexp in
theorem foldr_processors (p : Pipeline) (m : String → Bool) (junction : Consumer)
    (procs : List (String × Nat)) :
    procs.foldr (fun proc (st : PipelineState) =>
        ⟨.processor (.processor p.name proc.2 proc.1) st.next, st.mutatesConsumedData || m proc.1,
          .processor p.name proc.2 proc.1 :: st.processors⟩) ⟨junction, false, []⟩ =
      ⟨(procs.map fun x => Component.processor p.name x.2 x.1).foldr .processor junction,
        procs.any fun x => m x.1, procs.map fun x => .processor p.name x.2 x.1⟩ := by
  induction procs with
  | nil => rfl
  | cons x procs ih => simp [ih, Bool.or_comm]

theorem buildPipeline_ok (hp : p ∈ d.cfg.pipelines.values) :
    buildPipeline d.cfg d.factories exporters p = .ok (pipelineOf d.cfg d.factories p) := by
  unfold buildPipeline
  rw [exportersJunction_ok d hexp hp, ok_bind,
    foldrM_ok fun proc hproc st => buildProcessor_ok d hp (fst_mem_of_mem_zipIdx hproc) st,
    foldr_processors p (processorMutates d.cfg d.factories p.inputType), ok_bind]
  have hany : (p.processors.zipIdx.any fun x =>
      processorMutates d.cfg d.factories p.inputType x.1) =
        p.processors.any (processorMutates d.cfg d.factories p.inputType) := by
    have hfst := zipIdx_map_fst 0 p.processors
    conv_rhs => rw [← hfst, any_map]
    rfl
  rw [hany]
  rfl

theorem buildPipelines_ok (ord : MapOrder Pipeline) :
    ∃ built, buildPipelines d.cfg d.factories exporters ord = .ok built ∧
      ∀ p, built.lookup p =
        if p ∈ d.cfg.pipelines.values then some (pipelineOf d.cfg d.factories p) else none := by
  have hperm := ord.perm d.cfg.pipelines.values
  refine ⟨enter id (pipelineOf d.cfg d.factories) ∅ (ord.order d.cfg.pipelines.values),
    foldlM_enter (fun p hp => buildPipeline_ok d hexp (hperm.mem_iff.1 hp)) ∅, fun p => ?_⟩
  rw [lookup_enter_self _ (hperm.nodup_iff.2 d.cfg.pipelines.nodup_values)]
  exact if_congr hperm.mem_iff rfl rfl

end Pipelines

/-! ## Receivers -/

section Receivers

def pipelinesOf (cfg : Config) (ty : DataType) (name : String) : List Pipeline :=
  cfg.pipelines.values.filter fun p => p.inputType = ty ∧ name ∈ p.receivers

def attachedOf (cfg : Config) (ord : MapOrder Pipeline) (ty : DataType) (name : String) :
    List Pipeline :=
  (ord.order cfg.pipelines.values).filter fun p => p.inputType = ty ∧ name ∈ p.receivers

theorem perm_attachedOf (cfg : Config) (ord : MapOrder Pipeline) (ty : DataType) (name : String) :
    (attachedOf cfg ord ty name).Perm (pipelinesOf cfg ty name) :=
  (ord.perm _).filter _

theorem mem_pipelinesOf {ty : DataType} :
    p ∈ pipelinesOf cfg ty name ↔
      p ∈ cfg.pipelines.values ∧ p.inputType = ty ∧ name ∈ p.receivers := by
  simp [pipelinesOf]

theorem hasReceiver_iff :
    hasReceiver p name = true ↔ name ∈ p.receivers := by
  simp [hasReceiver]

/-- `attachPipeline` where every pipeline is built. -/
def attachBuilt (built : Pipeline → BuiltPipeline) (name : String) (attached : AttachedPipelines)
    (p : Pipeline) : AttachedPipelines :=
  if hasReceiver p name then
    attached.insert p.inputType ((attached.lookup p.inputType).getD [] ++ [built p])
  else attached

theorem getD_lookup_foldl_attachBuilt (built : Pipeline → BuiltPipeline) (name : String)
    (l : List Pipeline) (attached : AttachedPipelines) (ty : DataType) :
    ((l.foldl (attachBuilt built name) attached).lookup ty).getD [] =
      (attached.lookup ty).getD [] ++
        (l.filter fun p => p.inputType = ty ∧ name ∈ p.receivers).map built := by
  induction l generalizing attached with
  | nil => simp
  | cons p l ih =>
    rw [foldl_cons, ih, attachBuilt]
    by_cases hr : name ∈ p.receivers
    · rw [if_pos (hasReceiver_iff.2 hr)]
      by_cases ht : p.inputType = ty
      · subst ht
        rw [AList.lookup_insert, filter_cons_of_pos (by simp [hr])]
        simp
      · rw [AList.lookup_insert_ne (Ne.symm ht), filter_cons_of_neg (by simp [ht])]
    · rw [if_neg (fun h => hr (hasReceiver_iff.1 h)), filter_cons_of_neg (by simp [hr])]

variable (d : Deployment) {built : BuiltPipelines}
  (hbuilt : ∀ p, built.lookup p =
    if p ∈ d.cfg.pipelines.values then some (pipelineOf d.cfg d.factories p) else none)
include hbuilt

theorem findPipelinesToAttach_ok (ord : MapOrder Pipeline) (e : Entity) :
    ∃ attached, findPipelinesToAttach d.cfg built ord e = .ok attached ∧
      ∀ ty, (attached.lookup ty).getD [] =
        (attachedOf d.cfg ord ty e.name).map (pipelineOf d.cfg d.factories) := by
  have hstep : ∀ p ∈ ord.order d.cfg.pipelines.values, ∀ attached,
      attachPipeline built e attached p =
        .ok (attachBuilt (pipelineOf d.cfg d.factories) e.name attached p) := by
    intro p hp attached
    unfold attachPipeline attachBuilt
    rw [hbuilt p, if_pos ((ord.perm _).mem_iff.1 hp)]
    cases hasReceiver p e.name <;> rfl
  refine ⟨_, foldlM_ok hstep _, fun ty => ?_⟩
  have hinit : ((AList.insert DataType.metrics [] (AList.insert DataType.traces [] ∅) :
      AttachedPipelines).lookup ty).getD [] = [] := by
    cases ty <;> rfl
  rw [getD_lookup_foldl_attachBuilt, hinit]
  rfl

omit d hbuilt in
theorem foldlM_attachReceiver {f : ReceiverFactory} {pointer : Nat}
    {l : List (DataType × List BuiltPipeline)}
    (hf : ∀ x ∈ l, x.2.length ≠ 0 → f x.1 e = .made pointer) (rcv : BuiltReceiver)
    (hr : rcv.receiver = none ∨ rcv.receiver = some pointer) :
    l.foldlM (fun rcv dataType => if dataType.2.length = 0 then return rcv
        else attachReceiverToPipelines f e rcv dataType) rcv =
      (.ok ⟨if l.any fun x => x.2.length ≠ 0 then some pointer else rcv.receiver,
        enter Prod.fst (fun x => pipelinesJunction x.1 x.2) rcv.next
          (l.filter fun x => x.2.length ≠ 0)⟩ : Build BuiltReceiver) := by
  induction l generalizing rcv with
  | nil => rfl
  | cons x l ih =>
    have hf' : ∀ y ∈ l, y.2.length ≠ 0 → f y.1 e = .made pointer :=
      fun y hy => hf y (mem_cons_of_mem _ hy)
    rw [foldlM_cons]
    by_cases hx : x.2.length = 0
    · have hd : decide (x.2.length ≠ 0) = false := by simp [hx]
      rw [if_pos hx, filter_cons_of_neg (by simp [hx]), any_cons, hd, Bool.false_or]
      exact ih hf' rcv hr
    · have hattach : attachReceiverToPipelines f e rcv x =
          .ok ⟨some pointer, rcv.next.insert x.1 (pipelinesJunction x.1 x.2)⟩ := by
        simp only [attachReceiverToPipelines, hf x mem_cons_self hx]
        rcases hr with hr | hr <;> simp [hr]
      have hd : decide (x.2.length ≠ 0) = true := by simp [hx]
      rw [if_neg hx, hattach, ok_bind, ih hf' _ (.inr rfl),
        filter_cons_of_pos (by simp [hx]), any_cons, hd, Bool.true_or, if_pos rfl,
        ite_self]
      rfl

def receiverUsed (cfg : Config) (name : String) : Bool :=
  cfg.pipelines.values.any fun p => name ∈ p.receivers

omit d hbuilt in
theorem receiverUsed_iff :
    receiverUsed cfg name = true ↔ ∃ ty, pipelinesOf cfg ty name ≠ [] := by
  unfold receiverUsed
  rw [any_eq_true]
  constructor
  · rintro ⟨p, hp, hname⟩
    exact ⟨p.inputType, ne_nil_of_mem (mem_pipelinesOf.2 ⟨hp, rfl, by simpa using hname⟩)⟩
  · rintro ⟨ty, hne⟩
    obtain ⟨p, hp⟩ := exists_mem_of_ne_nil _ hne
    obtain ⟨hmem, -, hname⟩ := mem_pipelinesOf.1 hp
    exact ⟨p, hmem, by simpa using hname⟩

/-- The consumer that the factory of a receiver is given for a data type. -/
def junctionOf (cfg : Config) (factories : Factories) (ord : MapOrder Pipeline) (ty : DataType)
    (name : String) : Consumer :=
  pipelinesJunction ty ((attachedOf cfg ord ty name).map (pipelineOf cfg factories))

theorem attached_spec (ord : MapOrder Pipeline) (e : Entity) :
    ∃ attached, findPipelinesToAttach d.cfg built ord e = .ok attached ∧
      (∀ x ∈ GoMap.pairs attached,
        x.2 = (attachedOf d.cfg ord x.1 e.name).map (pipelineOf d.cfg d.factories)) ∧
      ∀ ty, pipelinesOf d.cfg ty e.name ≠ [] →
        (ty, (attachedOf d.cfg ord ty e.name).map (pipelineOf d.cfg d.factories)) ∈
          GoMap.pairs attached := by
  obtain ⟨attached, hatt, hget⟩ := findPipelinesToAttach_ok d hbuilt ord e
  refine ⟨attached, hatt, fun x hx => ?_, fun ty hne => ?_⟩
  · rw [← hget, GoMap.mem_pairs.1 hx]
    rfl
  · rw [GoMap.mem_pairs, ← hget]
    cases hl : attached.lookup ty with
    | some bps => rfl
    | none =>
      have hnil := hget ty
      rw [hl, Option.getD_none, eq_comm, map_eq_nil_iff] at hnil
      have hperm := perm_attachedOf d.cfg ord ty e.name
      rw [hnil] at hperm
      exact absurd hperm.symm.eq_nil hne

theorem buildReceiver_spec (ords : ReceiverOrders)
    (he : e ∈ d.cfg.receivers.values) :
    ∃ pointer next, (∀ ty, next.lookup ty = if pipelinesOf d.cfg ty e.name = [] then none
        else some (junctionOf d.cfg d.factories (ords.pipelines e) ty e.name)) ∧
      buildReceiver d.cfg d.factories built ords e =
        if receiverUsed d.cfg e.name then .ok ⟨some pointer, next⟩
        else .error .errUnusedReceiver := by
  obtain ⟨attached, hatt, hpairs, hall⟩ := attached_spec d hbuilt (ords.pipelines e) e
  obtain ⟨f, hf, pointer, hmade⟩ := d.receiverFactory e he
  obtain ⟨l, hl⟩ : ∃ l, l = (ords.dataTypes e).order (GoMap.pairs attached) := ⟨_, rfl⟩
  have hperm : l.Perm (GoMap.pairs attached) := hl ▸ (ords.dataTypes e).perm _
  -- a data type has pipelines attached exactly when some pipeline of the type lists the receiver
  have hne : ∀ x ∈ l, x.2.length ≠ 0 ↔ pipelinesOf d.cfg x.1 e.name ≠ [] := by
    intro x hx
    rw [hpairs x (hperm.mem_iff.1 hx), length_map,
      (perm_attachedOf d.cfg (ords.pipelines e) x.1 e.name).length_eq, Ne, length_eq_zero_iff]
  have hfac : ∀ x ∈ l, x.2.length ≠ 0 → f x.1 e = .made pointer := by
    intro x hx hlen
    obtain ⟨p, hp⟩ := exists_mem_of_ne_nil _ ((hne x hx).1 hlen)
    obtain ⟨hp, hty, hname⟩ := mem_pipelinesOf.1 hp
    rw [← hty]
    exact hmade p hp hname
  have hany : (l.any fun x => x.2.length ≠ 0) = receiverUsed d.cfg e.name := by
    rw [Bool.eq_iff_iff, receiverUsed_iff, any_eq_true]
    constructor
    · rintro ⟨x, hx, hlen⟩
      exact ⟨x.1, (hne x hx).1 (by simpa using hlen)⟩
    · rintro ⟨ty, hty⟩
      have hx := hperm.mem_iff.2 (hall ty hty)
      exact ⟨_, hx, by simpa using (hne _ hx).2 hty⟩
  refine ⟨pointer, enter Prod.fst (fun x => pipelinesJunction x.1 x.2) ∅
    (l.filter fun x => x.2.length ≠ 0), fun ty => ?_, ?_⟩
  · by_cases hty : pipelinesOf d.cfg ty e.name = []
    · rw [if_pos hty]
      refine lookup_enter_of_notMem _ _ fun hmem => ?_
      obtain ⟨x, hx, rfl⟩ := mem_map.1 hmem
      obtain ⟨hx, hlen⟩ := mem_filter.1 hx
      exact (hne x hx).1 (by simpa using hlen) hty
    · rw [if_neg hty]
      have hx := hperm.mem_iff.2 (hall ty hty)
      have hkeys : ((l.filter fun x => x.2.length ≠ 0).map Prod.fst).Nodup :=
        ((hperm.map Prod.fst).nodup_iff.2 (GoMap.nodup_keys_pairs attached)).sublist
          (filter_sublist.map Prod.fst)
      exact lookup_enter_of_mem _ _ hkeys
        (mem_filter.2 ⟨hx, by simpa using (hne _ hx).2 hty⟩)
  · unfold buildReceiver
    rw [hatt, ok_bind]
    simp only [hf, ← hl]
    rw [foldlM_attachReceiver hfac ⟨none, ∅⟩ (.inl rfl), ok_bind, hany]
    cases receiverUsed d.cfg e.name <;> rfl

theorem buildReceivers_ok (ords : ReceiverOrders) :
    ∃ receivers, buildReceivers d.cfg d.factories built ords = .ok receivers ∧
      (∀ e, (receivers.lookup e).isSome ↔
        e ∈ d.cfg.receivers.values ∧ receiverUsed d.cfg e.name) ∧
      ∀ e rcv, receivers.lookup e = some rcv → rcv.receiver.isSome ∧ ∀ ty, rcv.next.lookup ty =
        if pipelinesOf d.cfg ty e.name = [] then none
        else some (junctionOf d.cfg d.factories (ords.pipelines e) ty e.name) := by
  have hspec : ∀ e, ∃ rcv : BuiltReceiver, e ∈ d.cfg.receivers.values →
      (rcv.receiver.isSome ∧ ∀ ty, rcv.next.lookup ty =
        if pipelinesOf d.cfg ty e.name = [] then none
        else some (junctionOf d.cfg d.factories (ords.pipelines e) ty e.name)) ∧
      buildReceiver d.cfg d.factories built ords e =
        if receiverUsed d.cfg e.name then .ok rcv else .error .errUnusedReceiver := by
    intro e
    by_cases he : e ∈ d.cfg.receivers.values
    · obtain ⟨pointer, next, hnext, hb⟩ := buildReceiver_spec d hbuilt ords he
      exact ⟨⟨some pointer, next⟩, fun _ => ⟨⟨rfl, hnext⟩, hb⟩⟩
    · exact ⟨⟨none, ∅⟩, fun h => absurd h he⟩
  choose rcvOf hrcv using hspec
  have hperm := ords.receivers.perm d.cfg.receivers.values
  obtain ⟨used, hused⟩ : ∃ used, used = (ords.receivers.order d.cfg.receivers.values).filter
    fun e => receiverUsed d.cfg e.name := ⟨_, rfl⟩
  have hmem : ∀ e, e ∈ used ↔ e ∈ d.cfg.receivers.values ∧ receiverUsed d.cfg e.name := by
    intro e
    rw [hused, mem_filter, hperm.mem_iff]
  have hlookup : ∀ e, (enter id rcvOf ∅ used).lookup e =
      if e ∈ used then some (rcvOf e) else none := by
    refine lookup_enter_self rcvOf ?_
    rw [hused]
    exact (hperm.nodup_iff.2 d.cfg.receivers.nodup_values).sublist filter_sublist
  refine ⟨enter id rcvOf ∅ used, ?_, fun e => ?_, fun e rcv hlook => ?_⟩
  · rw [hused]
    unfold buildReceivers enter
    rw [foldl_filter]
    refine foldlM_ok (fun e he receivers => ?_) ∅
    rw [(hrcv e (hperm.mem_iff.1 he)).2]
    cases receiverUsed d.cfg e.name <;> rfl
  · rw [← hmem, hlookup]
    by_cases he : e ∈ used <;> simp [he]
  · rw [hlookup] at hlook
    by_cases he : e ∈ used
    · rw [if_pos he, Option.some.injEq] at hlook
      rw [← hlook]
      exact (hrcv e ((hmem e).1 he).1).1
    · rw [if_neg he] at hlook
      cases hlook

end Receivers

/-! ## Routes -/

def route (p : Pipeline) : List Component :=
  processorComponents p ++ exporterComponents p

theorem deliver_chainOf (p : Pipeline) : (chainOf p).deliver = .ok (route p) := by
  have hexps : Consumer.deliverAll ((exporterComponents p).map .exporter) =
      .ok ((exporterComponents p).flatMap fun c => [c]) :=
    Consumer.deliverAll_map fun c _ => by rw [Consumer.deliver]
  refine Consumer.deliver_foldr_processor _ ?_
  rw [Consumer.deliver_newFanOutConnector, hexps, flatMap_singleton']

theorem get_first_pipelineOf (cfg : Config) (factories : Factories) (p : Pipeline) (ty : DataType) :
    (pipelineOf cfg factories p).first.get ty = if ty = p.inputType then chainOf p else .nil := by
  unfold pipelineOf
  rw [ByType.get_set, ByType.get_const]

theorem map_first_attachedOf (cfg : Config) (factories : Factories) (ord : MapOrder Pipeline)
    (ty : DataType) (name : String) :
    (((attachedOf cfg ord ty name).map (pipelineOf cfg factories)).map fun bp => bp.first.get ty) =
      (attachedOf cfg ord ty name).map chainOf := by
  rw [map_map]
  refine map_congr_left fun p hp => ?_
  obtain ⟨-, hty, -⟩ := mem_pipelinesOf.1 ((perm_attachedOf cfg ord ty name).mem_iff.1 hp)
  exact (get_first_pipelineOf cfg factories p ty).trans (if_pos hty.symm)

theorem deliver_junctionOf (cfg : Config) (factories : Factories) (ord : MapOrder Pipeline)
    (ty : DataType) (name : String) :
    (junctionOf cfg factories ord ty name).deliver =
      .ok ((attachedOf cfg ord ty name).flatMap route) := by
  unfold junctionOf
  rw [pipelinesJunction_eq, map_first_attachedOf]
  have hall := Consumer.deliverAll_map (l := attachedOf cfg ord ty name)
    fun p _ => deliver_chainOf p
  split
  · rw [Consumer.deliver_newCloningFanOutConnector, hall]
  · rw [Consumer.deliver_newFanOutConnector, hall]

/-- The consumer to which a receiver sends the items of a data type. -/
def emitsTo (receivers : Receivers) (e : Entity) (ty : DataType) : Option Consumer :=
  (receivers.lookup e).bind fun rcv => rcv.next.lookup ty

/-- The built receivers send every item along the pipelines that list them. -/
structure Wired (cfg : Config) (receivers : Receivers) : Prop where
  configured : ∀ e, (receivers.lookup e).isSome → e ∈ cfg.receivers.values
  unused : ∀ e ∈ cfg.receivers.values, ∀ ty, pipelinesOf cfg ty e.name = [] →
    emitsTo receivers e ty = none
  routed : ∀ e ∈ cfg.receivers.values, ∀ ty, pipelinesOf cfg ty e.name ≠ [] →
    ∃ next, ∃ ps : List Pipeline, emitsTo receivers e ty = some next ∧
      ps.Perm (pipelinesOf cfg ty e.name) ∧
      next.deliver = .ok (ps.flatMap route)

/-- **The wiring of a deployment.** The builders succeed one after the other, and an item that a
receiver emits takes the route of each pipeline of its data type that lists the receiver, once,
and no other: through the processors as they are configured, then to the listed exporters. -/
theorem wiring (d : Deployment) (eords : ExporterOrders) (pord : MapOrder Pipeline)
    (rords : ReceiverOrders) :
    ∃ exporters pipelines receivers,
      buildExporters d.cfg d.factories eords = .ok exporters ∧
      buildPipelines d.cfg d.factories exporters pord = .ok pipelines ∧
      buildReceivers d.cfg d.factories pipelines rords = .ok receivers ∧
      Wired d.cfg receivers := by
  obtain ⟨exporters, hexporters, hexp⟩ := buildExporters_ok d eords
  obtain ⟨pipelines, hpipelines, hbuilt⟩ := buildPipelines_ok d hexp pord
  obtain ⟨receivers, hreceivers, hsome, hnext⟩ := buildReceivers_ok d hbuilt rords
  refine ⟨exporters, pipelines, receivers, hexporters, hpipelines, hreceivers,
    fun e he => ((hsome e).1 he).1, fun e he ty hnil => ?_, fun e he ty hne => ?_⟩
  · unfold emitsTo
    cases hl : receivers.lookup e with
    | none => rfl
    | some rcv =>
      rw [Option.bind_some, (hnext e rcv hl).2, if_pos hnil]
  · obtain ⟨rcv, hl⟩ := Option.isSome_iff_exists.1 ((hsome e).2 ⟨he, receiverUsed_iff.2 ⟨ty, hne⟩⟩)
    refine ⟨junctionOf d.cfg d.factories (rords.pipelines e) ty e.name,
      attachedOf d.cfg (rords.pipelines e) ty e.name, ?_, perm_attachedOf _ _ _ _,
      deliver_junctionOf _ _ _ _ _⟩
    unfold emitsTo
    rw [hl, Option.bind_some, (hnext e rcv hl).2, if_neg hne]

/-! ## A deployment

Two pipelines share a receiver, a processor and an exporter, which is one object for both. -/

def tracesPipeline : Pipeline :=
  ⟨"traces", .traces, ["otlp"], ["queued_retry", "batch"], ["file", "logging"]⟩

def logsPipeline : Pipeline := ⟨"logs", .logs, ["otlp"], ["batch"], ["file"]⟩

def fileConfig : Config where
  receivers := Named.empty.add ⟨"otlp", "otlp"⟩
  exporters := (Named.empty.add ⟨"file", "file"⟩).add ⟨"logging", "logging"⟩
  processors := (Named.empty.add ⟨"batch", "batch"⟩).add ⟨"queued_retry", "queued_retry"⟩
  extensions := .empty
  serviceExtensions := []
  pipelines := (Named.empty.add tracesPipeline).add logsPipeline

def fileDeployment : Deployment where
  cfg := fileConfig
  factories :=
    { receivers := AList.singleton "otlp" fun _ _ => .made 0
      processors := (AList.singleton "batch" fun _ _ => .made true).insert "queued_retry"
        fun _ _ => .made false
      exporters := (AList.singleton "file" fun _ _ => .made 0).insert "logging"
        fun _ _ => .made 1 }
  accepted := by rfl
  exporterFactory e he := by
    rcases List.mem_cons.1 he with rfl | he
    · exact ⟨_, rfl, fun _ _ _ => ⟨_, rfl⟩⟩
    · obtain rfl := List.mem_singleton.1 he
      exact ⟨_, rfl, fun _ _ _ => ⟨_, rfl⟩⟩
  processorFactory e he := by
    rcases List.mem_cons.1 he with rfl | he
    · exact ⟨_, rfl, fun _ _ _ => ⟨_, rfl⟩⟩
    · obtain rfl := List.mem_singleton.1 he
      exact ⟨_, rfl, fun _ _ _ => ⟨_, rfl⟩⟩
  receiverFactory e he := by
    obtain rfl := List.mem_singleton.1 he
    exact ⟨_, rfl, 0, fun _ _ _ => rfl⟩

/-- The route of the traces of the deployment. -/
theorem wiring_file : ∀ (eords : ExporterOrders) (pord : MapOrder Pipeline)
    (rords : ReceiverOrders), ∃ exporters pipelines receivers next,
      buildExporters fileConfig fileDeployment.factories eords = .ok exporters ∧
      buildPipelines fileConfig fileDeployment.factories exporters pord = .ok pipelines ∧
      buildReceivers fileConfig fileDeployment.factories pipelines rords = .ok receivers ∧
      emitsTo receivers ⟨"otlp", "otlp"⟩ .traces = some next ∧
      next.deliver = .ok [.processor "traces" 0 "queued_retry", .processor "traces" 1 "batch",
        .exporter "file" .traces, .exporter "logging" .traces] := by
  intro eords pord rords
  obtain ⟨exporters, pipelines, receivers, hexporters, hpipelines, hreceivers, hwired⟩ :=
    wiring fileDeployment eords pord rords
  obtain ⟨next, ps, hnext, hps, hdeliver⟩ :=
    hwired.routed ⟨"otlp", "otlp"⟩ List.mem_cons_self .traces (List.cons_ne_nil tracesPipeline [])
  obtain rfl : ps = [tracesPipeline] := List.perm_singleton.1 hps
  exact ⟨exporters, pipelines, receivers, next, hexporters, hpipelines, hreceivers, hnext, hdeliver⟩

end Collector.Service
