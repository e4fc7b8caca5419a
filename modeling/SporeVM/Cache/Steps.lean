import SporeVM.Cache.Digests
import SporeVM.Lib.LittleEndian

/-!
# Build step keys

A build step is known by a key, the digest of everything that goes into it. The digest function is a
parameter.
-/

namespace SporeVM

open Lib (littleEndian)
open Lib.PathText (Text isAbsolute)
open Lib.Check (rejectIf)

inductive StepError
  | badBuildCacheInput
  deriving DecidableEq

inductive NetworkMode
  | spore | none
  deriving DecidableEq

def NetworkMode.tagName : NetworkMode → Text
  | spore => "spore".toList
  | none => "none".toList

inductive CopyDestinationPolicy
  | follow | link
  deriving DecidableEq

def CopyDestinationPolicy.tagName : CopyDestinationPolicy → Text
  | follow => "follow".toList
  | link => "link".toList

inductive Architecture
  | arm64 | amd64
  deriving DecidableEq

def Architecture.name : Architecture → Text
  | arm64 => "arm64".toList
  | amd64 => "amd64".toList

structure Platform where
  os : Text
  arch : Architecture
  deriving DecidableEq

structure RunOperation where
  envDigest : Text
  workdir : Text
  networkMode : NetworkMode
  memoryBytes : Option ℕ
  vcpus : Option ℕ
  nofileSoft : Option ℕ
  nofileHard : Option ℕ
  cacheMountDigest : Text
  contextBindDigest : Text
  sshDeclaredAbsent : Bool
  deriving DecidableEq

structure CopyOperation where
  inputDigest : Text
  envDigest : Text
  workdir : Text
  destinationPolicy : CopyDestinationPolicy
  deriving DecidableEq

inductive StepOperation
  | scratch (exactTarget : ℕ) (formatIdentity : Text)
  | prepare (exactTarget : ℕ) (producerIdentity : Text)
  | run (run : RunOperation)
  | copy (copy : CopyOperation)
  | add (add : CopyOperation)
  | workdir (target envDigest workdir : Text)
  deriving DecidableEq

structure StepInput where
  platform : Platform
  parentIndexDigest : Text
  canonicalInstruction : Text
  executorIdentity : Text
  operation : StepOperation
  deriving DecidableEq

structure FlatFields where
  instructionKind : Text
  inputDigest : Text := []
  envDigest : Text := []
  workdir : Text := []
  networkMode : Option NetworkMode := none
  memoryBytes : Option ℕ := none
  vcpus : Option ℕ := none
  nofileSoft : Option ℕ := none
  nofileHard : Option ℕ := none
  exactTarget : Option ℕ := none
  producerIdentity : Option Text := none
  executorIdentity : Text := []
  copyDestinationPolicy : Option CopyDestinationPolicy := none
  cacheMountDigest : Text := []
  sshDeclaredAbsent : Bool := false
  deriving DecidableEq

def StepInput.flatFields (input : StepInput) : FlatFields :=
  match input.operation with
  | .scratch exactTarget formatIdentity =>
    { instructionKind := "SCRATCH".toList
      inputDigest := formatIdentity
      exactTarget := some exactTarget }
  | .prepare exactTarget producerIdentity =>
    { instructionKind := "PREPARE".toList
      exactTarget := some exactTarget
      producerIdentity := some producerIdentity }
  | .run run =>
    { instructionKind := "RUN".toList
      inputDigest := run.contextBindDigest
      envDigest := run.envDigest
      workdir := run.workdir
      networkMode := some run.networkMode
      memoryBytes := run.memoryBytes
      vcpus := run.vcpus
      nofileSoft := run.nofileSoft
      nofileHard := run.nofileHard
      executorIdentity := input.executorIdentity
      cacheMountDigest := run.cacheMountDigest
      sshDeclaredAbsent := run.sshDeclaredAbsent }
  | .copy copy =>
    { instructionKind := "COPY".toList
      inputDigest := copy.inputDigest
      envDigest := copy.envDigest
      workdir := copy.workdir
      executorIdentity := input.executorIdentity
      copyDestinationPolicy := some copy.destinationPolicy }
  | .add add =>
    { instructionKind := "ADD".toList
      inputDigest := add.inputDigest
      envDigest := add.envDigest
      workdir := add.workdir
      executorIdentity := input.executorIdentity }
  | .workdir target envDigest workdir =>
    { instructionKind := "WORKDIR".toList
      inputDigest := target
      envDigest := envDigest
      workdir := workdir
      executorIdentity := input.executorIdentity }

-- ══ Checks of a step

def validateBlake3Identity (identity : Text) : Except StepError Unit :=
  rejectIf (identity.length ≠ digestPrefix.length + ChunkId.hexLen ∨
    ¬ digestPrefix.isPrefixOf identity ∨
    ¬ (identity.drop digestPrefix.length).all isLowerHex) .badBuildCacheInput

def validateOptionalIdentity (identity : Text) : Except StepError Unit :=
  if identity = [] then .ok () else validateBlake3Identity identity

def validateOperation (input : StepInput) (fields : FlatFields) : Except StepError Unit :=
  match input.operation with
  | .scratch exactTarget formatIdentity => do
    rejectIf (input.canonicalInstruction ≠ "SCRATCH".toList) .badBuildCacheInput
    rejectIf (input.executorIdentity ≠ [] ∨ exactTarget = 0 ∨ formatIdentity = [])
      .badBuildCacheInput
    rejectIf (fields.exactTarget ≠ some exactTarget ∨ fields.producerIdentity ≠ none)
      .badBuildCacheInput
  | .prepare exactTarget producerIdentity => do
    rejectIf (input.canonicalInstruction ≠ "PREPARE".toList) .badBuildCacheInput
    rejectIf (input.executorIdentity ≠ []) .badBuildCacheInput
    rejectIf (exactTarget = 0) .badBuildCacheInput
    validateBlake3Identity producerIdentity
    rejectIf (fields.exactTarget ≠ some exactTarget) .badBuildCacheInput
    rejectIf (fields.producerIdentity ≠ some producerIdentity) .badBuildCacheInput
  | .run run => do
    validateBlake3Identity input.executorIdentity
    rejectIf (¬ isAbsolute run.workdir) .badBuildCacheInput
    validateOptionalIdentity run.cacheMountDigest
    validateOptionalIdentity run.contextBindDigest
  | .copy copy => do
    validateBlake3Identity input.executorIdentity
    rejectIf (copy.inputDigest = [] ∨ ¬ isAbsolute copy.workdir) .badBuildCacheInput
  | .add add => do
    validateBlake3Identity input.executorIdentity
    rejectIf (add.inputDigest = [] ∨ ¬ isAbsolute add.workdir) .badBuildCacheInput
  | .workdir target _ workdir => do
    validateBlake3Identity input.executorIdentity
    rejectIf (¬ isAbsolute target ∨ ¬ isAbsolute workdir) .badBuildCacheInput

def validateInput (input : StepInput) (fields : FlatFields) : Except StepError Unit := do
  rejectIf (input.platform.os ≠ "linux".toList) .badBuildCacheInput
  validateBlake3Identity input.parentIndexDigest
  rejectIf (input.canonicalInstruction = []) .badBuildCacheInput
  validateOperation input fields

-- ══ The key of a step

def hashField (text : Text) : Bytes := littleEndian (textBytes text).length 8 ++ textBytes text

def hashOptionalField : Option Text → Bytes
  | some text => 1 :: hashField text
  | none => [0]

def hashOptionalU64 : Option ℕ → Bytes
  | some value => 1 :: littleEndian value 8
  | none => [0]

def hashOptionalU32 : Option ℕ → Bytes
  | some value => 1 :: littleEndian value 4
  | none => [0]

def builderVersionPrefix : Text := "sporevm-build-v".toList

def builderVersionNumber : ℕ := 9

def builderVersion : Text := builderVersionPrefix ++ (toString builderVersionNumber).toList

def stepKeyBytes (input : StepInput) : Bytes :=
  let fields := input.flatFields
  hashField builderVersion ++ hashField input.platform.os ++ hashField input.platform.arch.name ++
    hashField input.parentIndexDigest ++ hashField fields.instructionKind ++
    hashField input.canonicalInstruction ++ hashField fields.inputDigest ++
    hashField fields.envDigest ++ hashField fields.workdir ++
    hashOptionalField (fields.networkMode.map NetworkMode.tagName) ++
    hashOptionalU64 fields.memoryBytes ++ hashOptionalU32 fields.vcpus ++
    hashOptionalU64 fields.nofileSoft ++ hashOptionalU64 fields.nofileHard ++
    hashOptionalU64 fields.exactTarget ++ hashOptionalField fields.producerIdentity ++
    hashField fields.executorIdentity ++
    hashOptionalField (fields.copyDestinationPolicy.map CopyDestinationPolicy.tagName) ++
    hashField fields.cacheMountDigest ++
    if fields.sshDeclaredAbsent then hashField "spore-build-run-ssh-declared-absent-v1".toList
    else []

def stepKey (blake3 : Bytes → ChunkId) (input : StepInput) : Except StepError Text := do
  validateInput input input.flatFields
  pure (blake3 (stepKeyBytes input)).toHex

end SporeVM
