import Mathlib.Data.Option.Basic
import Collector.Go.Runtime

/-!
# Configurations of the service

What the builders read of a `configmodels.Config`, and `ValidateConfig`. The
loader enters every component and every pipeline under its own name and lets
no data type but three into a pipeline. So a pointer to a configuration object
is told from the others of its kind by the name in it, and a map keyed by such
pointers is one keyed by the objects.
-/

namespace Collector.Service

/-- `configmodels.DataType`. -/
inductive DataType where
  | traces
  | metrics
  | logs
  deriving DecidableEq, Repr

def DataType.string : DataType → String
  | traces => "traces"
  | metrics => "metrics"
  | logs => "logs"

/-- `configmodels.NamedEntity`: the configuration of a receiver, processor or exporter. -/
structure Entity where
  type : String
  name : String
  deriving DecidableEq, Repr

structure Pipeline where
  name : String
  inputType : DataType
  receivers : List String
  processors : List String
  exporters : List String
  deriving DecidableEq, Repr

/-- A map that holds every value under the value's own name. -/
structure Named (α : Type) (name : α → String) where
  map : GoMap String α
  own : ∀ key a, map.lookup key = some a → name a = key

namespace Named

variable {α : Type} {name : α → String} (m : Named α name)

def find (key : String) : Option α := m.map.lookup key

def values : List α := m.map.values

def empty : Named α name := ⟨∅, nofun⟩

def add (a : α) : Named α name where
  map := m.map.insert (name a) a
  own key b h := by
    by_cases hkey : key = name a
    · subst hkey
      rw [AList.lookup_insert] at h
      rw [Option.some.inj h]
    · rw [AList.lookup_insert_ne hkey] at h
      exact m.own key b h

theorem mem_values {a : α} : a ∈ m.values ↔ m.find (name a) = some a := by
  unfold values find
  rw [GoMap.mem_values]
  constructor
  · rintro ⟨key, h⟩
    rwa [m.own key a h]
  · intro h
    exact ⟨name a, h⟩

theorem name_of_find {key : String} {a : α} (h : m.find key = some a) : name a = key :=
  m.own key a h

theorem mem_of_find {key : String} {a : α} (h : m.find key = some a) : a ∈ m.values := by
  rw [mem_values, m.name_of_find h, h]

theorem names_values : m.values.map name = m.map.keys := by
  unfold values GoMap.values AList.keys List.keys
  rw [List.map_map]
  refine List.map_congr_left fun e he => ?_
  exact m.own e.1 e.2 (AList.mem_lookup_iff.2 he)

theorem nodup_names : (m.values.map name).Nodup := by
  rw [names_values]
  exact m.map.nodupKeys

theorem nodup_values : m.values.Nodup := List.Nodup.of_map name m.nodup_names

theorem eq_of_name {a b : α} (ha : a ∈ m.values) (hb : b ∈ m.values) (h : name a = name b) :
    a = b := by
  rw [mem_values] at ha hb
  rw [h, hb] at ha
  exact (Option.some.inj ha).symm

end Named

/-- `configmodels.Config`. -/
structure Config where
  receivers : Named Entity Entity.name
  exporters : Named Entity Entity.name
  processors : Named Entity Entity.name
  extensions : Named Entity Entity.name
  serviceExtensions : List String
  pipelines : Named Pipeline Pipeline.name

/-! ## Validation -/

inductive ConfigErrorCode where
  | errMissingPipelines
  | errPipelineMustHaveReceiver
  | errPipelineMustHaveExporter
  | errExtensionNotExists
  | errPipelineReceiverNotExists
  | errPipelineProcessorNotExists
  | errPipelineExporterNotExists
  | errMissingReceivers
  | errMissingExporters
  deriving DecidableEq, Repr

structure ConfigError where
  code : ConfigErrorCode
  msg : String
  deriving DecidableEq, Repr

section Validate

variable (cfg : Config)

/-- The first reference that `m` does not hold. -/
def checkReferences {α : Type} {name : α → String} (m : Named α name) (refs : List String)
    (err : String → ConfigError) : Option ConfigError :=
  refs.findSome? fun ref => if (m.find ref).isNone then some (err ref) else none

def validatePipelineReceivers (pipeline : Pipeline) : Option ConfigError :=
  if pipeline.receivers.length = 0 then
    some ⟨.errPipelineMustHaveReceiver,
      "pipeline " ++ quoted pipeline.name ++ " must have at least one receiver"⟩
  else
    checkReferences cfg.receivers pipeline.receivers fun ref =>
      ⟨.errPipelineReceiverNotExists, "pipeline " ++ quoted pipeline.name ++
        " references receiver " ++ quoted ref ++ " which does not exist"⟩

def validatePipelineExporters (pipeline : Pipeline) : Option ConfigError :=
  if pipeline.exporters.length = 0 then
    some ⟨.errPipelineMustHaveExporter,
      "pipeline " ++ quoted pipeline.name ++ " must have at least one exporter"⟩
  else
    checkReferences cfg.exporters pipeline.exporters fun ref =>
      ⟨.errPipelineExporterNotExists, "pipeline " ++ quoted pipeline.name ++
        " references exporter " ++ quoted ref ++ " which does not exist"⟩

/-- The one check that does not quote the reference. -/
def validatePipelineProcessors (pipeline : Pipeline) : Option ConfigError :=
  checkReferences cfg.processors pipeline.processors fun ref =>
    ⟨.errPipelineProcessorNotExists, "pipeline " ++ quoted pipeline.name ++
      " references processor " ++ ref ++ " which does not exist"⟩

def validatePipeline (pipeline : Pipeline) : Option ConfigError :=
  validatePipelineReceivers cfg pipeline <|> validatePipelineExporters cfg pipeline <|>
    validatePipelineProcessors cfg pipeline

def validatePipelines (ord : MapOrder Pipeline) : Option ConfigError :=
  if cfg.pipelines.values.length = 0 then
    some ⟨.errMissingPipelines, "must have at least one pipeline"⟩
  else (ord.order cfg.pipelines.values).findSome? (validatePipeline cfg)

def validateServiceExtensions : Option ConfigError :=
  checkReferences cfg.extensions cfg.serviceExtensions fun ref =>
    ⟨.errExtensionNotExists,
      "service references extension " ++ quoted ref ++ " which does not exist"⟩

def validateService (ord : MapOrder Pipeline) : Option ConfigError :=
  validatePipelines cfg ord <|> validateServiceExtensions cfg

def validateReceivers : Option ConfigError :=
  if cfg.receivers.values.length = 0 then
    some ⟨.errMissingReceivers, "no enabled receivers specified in config"⟩
  else none

def validateExporters : Option ConfigError :=
  if cfg.exporters.values.length = 0 then
    some ⟨.errMissingExporters, "no enabled exporters specified in config"⟩
  else none

/-- `ValidateConfig`; the order decides which of several errors is returned. -/
def validateConfig (ord : MapOrder Pipeline) : Option ConfigError :=
  validateReceivers cfg <|> validateExporters cfg <|> validateService cfg ord

end Validate

/-! ## What an accepted configuration has -/

/-- The pipeline has receivers and exporters, and its references are defined. -/
structure PipelineOk (cfg : Config) (pipeline : Pipeline) : Prop where
  receivers : pipeline.receivers ≠ []
  exporters : pipeline.exporters ≠ []
  receiver : ∀ ref ∈ pipeline.receivers, ∃ e, cfg.receivers.find ref = some e
  processor : ∀ ref ∈ pipeline.processors, ∃ e, cfg.processors.find ref = some e
  exporter : ∀ ref ∈ pipeline.exporters, ∃ e, cfg.exporters.find ref = some e

section Accepted

variable {cfg : Config}

theorem checkReferences_eq_none {α : Type} {name : α → String} {m : Named α name}
    {refs : List String} {err : String → ConfigError} :
    checkReferences m refs err = none ↔ ∀ ref ∈ refs, ∃ a, m.find ref = some a := by
  unfold checkReferences
  rw [List.findSome?_eq_none_iff]
  refine forall₂_congr fun ref _ => ?_
  cases m.find ref <;> simp

theorem validatePipeline_eq_none {pipeline : Pipeline} :
    validatePipeline cfg pipeline = none ↔ PipelineOk cfg pipeline := by
  have hrs : validatePipelineReceivers cfg pipeline = none ↔ pipeline.receivers ≠ [] ∧
      ∀ ref ∈ pipeline.receivers, ∃ e, cfg.receivers.find ref = some e := by
    unfold validatePipelineReceivers
    by_cases h : pipeline.receivers = []
    · simp [h]
    · rw [if_neg (by simpa using h), checkReferences_eq_none]
      exact ⟨fun hr => ⟨h, hr⟩, fun hr => hr.2⟩
  have hes : validatePipelineExporters cfg pipeline = none ↔ pipeline.exporters ≠ [] ∧
      ∀ ref ∈ pipeline.exporters, ∃ e, cfg.exporters.find ref = some e := by
    unfold validatePipelineExporters
    by_cases h : pipeline.exporters = []
    · simp [h]
    · rw [if_neg (by simpa using h), checkReferences_eq_none]
      exact ⟨fun hr => ⟨h, hr⟩, fun hr => hr.2⟩
  unfold validatePipeline validatePipelineProcessors
  rw [Option.orElse_eq_none, Option.orElse_eq_none, hrs, hes, checkReferences_eq_none]
  constructor
  · rintro ⟨⟨hr, hr'⟩, ⟨he, he'⟩, hp⟩
    exact ⟨hr, he, hr', hp, he'⟩
  · rintro ⟨hr, he, hr', hp, he'⟩
    exact ⟨⟨hr, hr'⟩, ⟨he, he'⟩, hp⟩

theorem pipelineOk_of_validateConfig {ord : MapOrder Pipeline} (h : validateConfig cfg ord = none)
    {pipeline : Pipeline} (hp : pipeline ∈ cfg.pipelines.values) : PipelineOk cfg pipeline := by
  unfold validateConfig validateService validatePipelines at h
  rw [Option.orElse_eq_none, Option.orElse_eq_none, Option.orElse_eq_none] at h
  have hps := h.2.2.1
  split at hps
  · cases hps
  · rw [List.findSome?_eq_none_iff] at hps
    exact validatePipeline_eq_none.1 (hps pipeline ((ord.perm _).mem_iff.2 hp))

end Accepted

end Collector.Service
