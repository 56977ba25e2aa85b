import RaibitServer.Lib.Regex
import RaibitServer.Lib.Text

/-!
# Core.Lifecycle — the status machines of deployments and workflow jobs

`packages/core/src/lifecycle-v1.json` and `lifecycle.ts`.  Rows written by older releases hold aliases
and other spellings of a status, so the terminal statuses a query excludes are the canonical ones, their
aliases, and both cases of each.
-/

namespace RaibitServer.Core

open Lib

structure LifecycleState where
  terminal : Bool
  next : List String
  deriving DecidableEq, Repr

structure LifecycleMachine where
  initial : String
  states : List (String × LifecycleState)
  aliases : List (String × String)

def deploymentMachine : LifecycleMachine where
  initial := "queued"
  states := [
    ("queued", ⟨false, ["BUILDING", "CANCELLED", "FAILED"]⟩),
    ("BUILDING", ⟨false, ["IMAGE_READY", "BUILD_FAILED", "FAILED", "CANCELLED"]⟩),
    ("IMAGE_READY", ⟨false, ["DEPLOYING", "READY", "FAILED", "CANCELLED"]⟩),
    ("DEPLOYING", ⟨false, ["READY", "FAILED", "CLEANED_UP"]⟩),
    ("READY", ⟨true, ["PREVIEW_CLEANUP_REQUESTED", "ROLLBACK_REQUESTED"]⟩),
    ("BUILD_FAILED", ⟨true, ["BUILDING", "PREVIEW_CLEANUP_REQUESTED"]⟩),
    ("FAILED", ⟨true, ["BUILDING", "PREVIEW_CLEANUP_REQUESTED", "ROLLBACK_REQUESTED"]⟩),
    ("CANCELLED", ⟨true, ["PREVIEW_CLEANUP_REQUESTED"]⟩),
    ("PREVIEW_CLEANUP_REQUESTED", ⟨false, ["DEPLOYING", "CLEANED_UP", "FAILED"]⟩),
    ("ROLLBACK_REQUESTED", ⟨false, ["DEPLOYING", "FAILED"]⟩),
    ("CLEANED_UP", ⟨true, []⟩)]
  aliases := [("pending", "queued"), ("build_queued", "queued"), ("build", "BUILDING"),
    ("imageready", "IMAGE_READY"), ("deploy_ready", "IMAGE_READY"), ("rollout", "DEPLOYING"),
    ("succeeded", "READY"), ("success", "READY"), ("buildfailed", "BUILD_FAILED"), ("error", "FAILED"),
    ("canceled", "CANCELLED"), ("cleanup_requested", "PREVIEW_CLEANUP_REQUESTED")]

def workflowMachine : LifecycleMachine where
  initial := "queued"
  states := [
    ("queued", ⟨false, ["running", "cancelled"]⟩),
    ("running", ⟨false, ["queued", "succeeded", "failed", "cancelled"]⟩),
    ("succeeded", ⟨true, []⟩),
    ("failed", ⟨true, []⟩),
    ("cancelled", ⟨true, []⟩)]
  aliases := [("completed", "succeeded"), ("complete", "succeeded"), ("success", "succeeded"),
    ("pending", "queued"), ("retrying", "queued")]

/-- `.replace(/[\s-]+/g, '_')`. -/
def underscored (s : String) : String :=
  String.ofList (Regex.replaceAll (Regex.plus (.cls fun c => Text.isJsSpace c || c = '-')) (fun _ => ['_']) s.toList)

/-- The canonical status; the error is the message of the `LifecycleStatusError`. -/
def parseDeploymentStatus (input : String) : Except String String :=
  let key := underscored (Text.jsLower (Text.jsTrim input))
  let value := (deploymentMachine.aliases.lookup key).getD
    (if key = "queued" ∨ key = "" then "queued" else Text.upper key)
  if (deploymentMachine.states.lookup value).isSome then .ok value
  else .error ("Invalid deployment status: " ++ value)

def terminalLifecycleInputs (machine : LifecycleMachine) : List String :=
  let canonical := (machine.states.filter fun s => s.2.terminal).map Prod.fst
  let legacy := (machine.aliases.filter fun a =>
    (machine.states.lookup a.2).any LifecycleState.terminal).map Prod.fst
  ((canonical ++ legacy).flatMap fun status => [status, Text.lower status, Text.upper status]).dedup

def terminalDeploymentStatuses : List String := terminalLifecycleInputs deploymentMachine

def terminalWorkflowStatuses : List String := terminalLifecycleInputs workflowMachine

/-- What cancelling writes is terminal. -/
theorem cancelled_mem_terminalDeploymentStatuses : "CANCELLED" ∈ terminalDeploymentStatuses := by
  decide +kernel

theorem cancelled_mem_terminalWorkflowStatuses : "cancelled" ∈ terminalWorkflowStatuses := by
  decide +kernel

end RaibitServer.Core
