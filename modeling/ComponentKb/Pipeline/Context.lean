import ComponentKb.Lib.Passing
import ComponentKb.Pipeline.Facts
import Mathlib.Data.List.Chain

/-!
# The context of a pipeline run

The stages of the import pipeline, in their order, and the record of the stages a run has been
through (`imports/pipeline/context.py`). A stage hands the run on with `advance`, which takes only
the execution of the stage that is next, and rechecks the record (`advance_passes`).
-/

namespace ComponentKb.Pipeline

open ComponentKb.Catalog (isBlank)
open ComponentKb.Lib

inductive PipelineStage
  | acquisition | extraction | normalization | identity | enrichment | evaluation | composition
  | persistence
deriving DecidableEq

def pipelineOrder : List PipelineStage :=
  [.acquisition, .extraction, .normalization, .identity, .enrichment, .evaluation, .composition,
    .persistence]

/-- What the constructors of a stage's execution and of the facts say of warnings. -/
abbrev WarningsValid (warnings : List String) : Prop :=
  (∀ warning ∈ warnings, warning ≠ "" ∧ warning.length ≤ 160) ∧ warnings.Nodup

theorem warningsValid {warnings : List String}
    (short : ∀ warning ∈ warnings, warning ≠ "" ∧ warning.length ≤ 160)
    (unique : warnings.Nodup) : WarningsValid warnings := ⟨short, unique⟩

theorem warningsValid_nil : WarningsValid [] := by decide

structure StageExecution where
  stage : PipelineStage
  startedAt : Time
  completedAt : Time
  warnings : List String := []
  forward : startedAt ≤ completedAt := by decide
  warned : WarningsValid warnings := by decide
deriving DecidableEq

def StageExecution.make (stage : PipelineStage) (startedAt completedAt : Time)
    (warnings : List String) : Except String StageExecution := do
  let ⟨forward⟩ ← demand (startedAt ≤ completedAt) "stage_completed_before_start"
  let ⟨short⟩ ← demand (∀ warning ∈ warnings, warning ≠ "" ∧ warning.length ≤ 160)
    "stage_warning_invalid"
  let ⟨unique⟩ ← demand warnings.Nodup "stage_warnings_must_be_unique"
  return { stage, startedAt, completedAt, warnings, forward, warned := warningsValid short unique }

theorem StageExecution.make_passes {stage : PipelineStage} {startedAt completedAt : Time}
    {warnings : List String} (hwarned : WarningsValid warnings) :
    Passes (StageExecution.make stage startedAt completedAt warnings) (startedAt ≤ completedAt)
      fun execution => execution.stage = stage ∧ execution.startedAt = startedAt := by
  refine Passes.congr (Passes.bind_demand fun _ => ?_) (and_iff_left trivial)
  refine Passes.bind_met hwarned.1 ?_
  refine Passes.bind_met hwarned.2 ?_
  exact Passes.pure ⟨rfl, rfl⟩

structure ImportPipelineContext where
  runId : UUID
  sourceKey : String
  sourceLocator : String
  pipelineVersion : String
  startedAt : Time
  executions : List StageExecution := []
  keyed : isSourceKey sourceKey = true := by decide
  located : isBlank sourceLocator = false ∧ sourceLocator.length ≤ 1000 := by decide
  versioned : isVersion pipelineVersion = true := by decide
  ordered : executions.map (·.stage) = pipelineOrder.take executions.length := by decide
  begun : ∀ execution ∈ executions.head?, startedAt ≤ execution.startedAt := by decide
  apart : executions.IsChain fun previous current => previous.completedAt ≤ current.startedAt := by
    decide

namespace ImportPipelineContext

def nextStage (context : ImportPipelineContext) : Option PipelineStage :=
  pipelineOrder[context.executions.length]?

/-- An execution may follow those on record: the checks that `replace` runs again. -/
def follows (context : ImportPipelineContext) (execution : StageExecution) : Prop :=
  (∀ first ∈ (context.executions ++ [execution]).head?, context.startedAt ≤ first.startedAt) ∧
    ∀ last ∈ context.executions.getLast?, last.completedAt ≤ execution.startedAt

instance (context : ImportPipelineContext) (execution : StageExecution) :
    Decidable (context.follows execution) := inferInstanceAs (Decidable (_ ∧ _))

theorem ordered_append {context : ImportPipelineContext} {execution : StageExecution}
    (h : context.nextStage = some execution.stage) :
    (context.executions ++ [execution]).map (·.stage) =
      pipelineOrder.take (context.executions ++ [execution]).length := by
  obtain ⟨hlength, hstage⟩ := List.getElem?_eq_some_iff.mp h
  rw [List.map_append, context.ordered, List.length_append, List.length_singleton,
    List.take_add_one, List.getElem?_eq_getElem hlength, hstage]
  rfl

theorem apart_append {context : ImportPipelineContext} {execution : StageExecution}
    (h : ∀ last ∈ context.executions.getLast?, last.completedAt ≤ execution.startedAt) :
    (context.executions ++ [execution]).IsChain fun previous current =>
      previous.completedAt ≤ current.startedAt := by
  refine List.isChain_append.mpr ⟨context.apart, .singleton _, fun last hlast next hnext => ?_⟩
  rw [List.head?_cons, Option.mem_def, Option.some.injEq] at hnext
  exact hnext ▸ h last hlast

def advance (context : ImportPipelineContext) (execution : StageExecution) :
    Except String ImportPipelineContext := do
  let ⟨next⟩ ← demand (context.nextStage = some execution.stage) "pipeline_stage_out_of_order"
  let ⟨begun⟩ ← demand (∀ first ∈ (context.executions ++ [execution]).head?,
    context.startedAt ≤ first.startedAt) "pipeline_stage_precedes_run"
  let ⟨apart⟩ ← demand (∀ last ∈ context.executions.getLast?,
    last.completedAt ≤ execution.startedAt) "pipeline_stages_overlap"
  return { context with
    executions := context.executions ++ [execution]
    ordered := ordered_append next
    begun
    apart := apart_append apart }

theorem advance_passes {context : ImportPipelineContext} {execution : StageExecution} :
    Passes (context.advance execution)
      (context.nextStage = some execution.stage ∧ context.follows execution) fun after =>
      after.executions = context.executions ++ [execution] := by
  refine Passes.bind_demand fun _ => ?_
  refine Passes.bind_demand fun _ => ?_
  exact Passes.last fun _ => ⟨_, rfl, rfl⟩

/-- After the first stage, an execution follows once the last one is over. -/
theorem follows_of_started {context : ImportPipelineContext} {execution : StageExecution}
    (hne : context.executions ≠ [])
    (hlast : ∀ last ∈ context.executions.getLast?, last.completedAt ≤ execution.startedAt) :
    context.follows execution := by
  refine ⟨fun first hfirst => context.begun first ?_, hlast⟩
  rwa [List.head?_append_of_ne_nil _ hne] at hfirst

end ImportPipelineContext

end ComponentKb.Pipeline
