import CrynuxRelay.Model.State

/-!
# Calibrations of execution times

A calibration keeps the parameters that predict the execution time of tasks of one configuration on one
GPU, and the sums that they are fitted to.

* `GPUExecutionCalibration` -- a row, which is also the cached record;
* `PricingConfig` -- the initial parameters, and the regression;
* `calibrated` -- a record with one more sample;
* `loaded` -- a record as `InitTaskPricing` reads it.
-/

namespace CrynuxRelay

structure GPUCalibrationKey where
  taskType : TaskType
  name : Text
  vram : Nat
  modelName : Text
  executionDType : Text
  requiredModelFilesHash : Hash32
  quantizationConfigHash : Hash32
  deriving DecidableEq

/-- `llm` lists the constant, the seconds per input byte, output token, model switch, image and megapixel. -/
structure ExecutionParameters where
  sdOverhead : Rat
  sdRate : Rat
  llm : Fin 6 → Rat

def sdFormulaVersion : Nat := 1

def llmFormulaVersion : Nat := 2

/-- a calibration; the weighted sums of a regression are empty before its first sample. -/
structure GPUExecutionCalibration where
  key : GPUCalibrationKey
  minVRAMRequirement : Nat := 0
  maxVRAMRequirement : Nat := 0
  parameters : ExecutionParameters
  sdFormulaVersion : Nat := CrynuxRelay.sdFormulaVersion
  sdSums : List Rat := []
  sdSuccessSamples : Nat := 0
  llmFormulaVersion : Nat := CrynuxRelay.llmFormulaVersion
  llmSums : List Rat := []
  llmSuccessSamples : Nat := 0

/-- the initial parameters, and the sums with one more sample and the parameters fitted to them. -/
structure PricingConfig where
  initial : ExecutionParameters
  fit : GPUExecutionCalibration → List Rat → Option (List Rat × ExecutionParameters)

def updateVRAMRequirement (record : GPUExecutionCalibration) (minVRAM : Nat) : GPUExecutionCalibration :=
  { record with
    minVRAMRequirement := if record.minVRAMRequirement = 0 ∨ minVRAM < record.minVRAMRequirement then minVRAM
      else record.minVRAMRequirement
    maxVRAMRequirement := if record.maxVRAMRequirement < minVRAM then minVRAM
      else record.maxVRAMRequirement }

namespace PricingConfig

variable (cfg : PricingConfig)

def createExactCalibration (key : GPUCalibrationKey) : GPUExecutionCalibration :=
  { key := key, parameters := cfg.initial }

/-- the record after a task with the measured `sample`, if the regression succeeds. -/
def calibrated (record : GPUExecutionCalibration) (sample : List Rat) (minVRAM : Nat) :
    Option GPUExecutionCalibration :=
  match record.key.taskType with
  | .sd => (cfg.fit record sample).map fun r =>
    updateVRAMRequirement { record with
      sdSums := r.1
      sdSuccessSamples := record.sdSuccessSamples + 1
      parameters := { record.parameters with sdOverhead := r.2.sdOverhead, sdRate := r.2.sdRate }
      sdFormulaVersion := CrynuxRelay.sdFormulaVersion } minVRAM
  | .llm => (cfg.fit record sample).map fun r =>
    updateVRAMRequirement { record with
      llmSums := r.1
      llmSuccessSamples := record.llmSuccessSamples + 1
      parameters := { record.parameters with llm := r.2.llm }
      llmFormulaVersion := CrynuxRelay.llmFormulaVersion } minVRAM
  | .sdFTLora => none

def resetSDCalibration (record : GPUExecutionCalibration) : GPUExecutionCalibration :=
  { record with
    parameters := { record.parameters with
      sdOverhead := cfg.initial.sdOverhead, sdRate := cfg.initial.sdRate }
    sdFormulaVersion := CrynuxRelay.sdFormulaVersion
    sdSums := []
    sdSuccessSamples := 0 }

def resetLLMCalibration (record : GPUExecutionCalibration) : GPUExecutionCalibration :=
  { record with
    parameters := { record.parameters with llm := cfg.initial.llm }
    llmFormulaVersion := CrynuxRelay.llmFormulaVersion
    llmSums := []
    llmSuccessSamples := 0 }

def loaded (row : GPUExecutionCalibration) : GPUExecutionCalibration :=
  let record := if row.sdFormulaVersion = CrynuxRelay.sdFormulaVersion then row else cfg.resetSDCalibration row
  if row.llmFormulaVersion = CrynuxRelay.llmFormulaVersion then record else cfg.resetLLMCalibration record

end PricingConfig

end CrynuxRelay
