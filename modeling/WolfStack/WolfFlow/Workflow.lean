import WolfStack.Cluster.Node

/-! Workflows, their steps and what these run. Of the actions, those with templated fields and the
one that branches are told apart. -/

namespace WolfFlow

inductive SqlStepPermission where
  | read
  | update
  | delete
deriving DecidableEq, Repr

inductive ActionType where
  | condition (expression compareTo operator : String)
  | aiInvoke (prompt : String) (systemPrompt model provider : Option String) (maxTokens : UInt32)
  | agentChat (agentId message : String) (timeoutSecs : UInt64)
  | sqlQuery (connectionId query : String) (permission : SqlStepPermission) (timeoutSecs : UInt64) (failOnEmpty : Bool)
  | sendEmail (recipients : List String) (subject body : String) (html : Bool)
  | other (action : String)
deriving DecidableEq, Repr

def ActionType.templated : ActionType → List String
  | aiInvoke prompt .. => [prompt]
  | agentChat _ message _ => [message]
  | sqlQuery _ query .. => [query]
  | sendEmail recipients subject body _ => recipients ++ [subject, body]
  | condition .. | other _ => []

inductive OnFailure where
  | continue_
  | abort
  | alert
  | notifyAndAbort
  | notifyAndContinue
deriving DecidableEq, Repr

def OnFailure.aborts : OnFailure → Bool
  | abort | notifyAndAbort => true
  | continue_ | alert | notifyAndContinue => false

structure ContainerTarget where
  nodeId : String
  runtime : String
  name : String
deriving DecidableEq, Repr

inductive Target where
  | local_
  | allNodes
  | cluster (clusterName : String)
  | nodes (nodeIds : List String)
  | containers (targets : List ContainerTarget)
  | everything
deriving DecidableEq, Repr

structure WorkflowStep where
  name : String
  action : ActionType
  onFailure : OnFailure
  targetOverride : Option Target
  onTrueStep : Option Nat
  onFalseStep : Option Nat
  retryCount : UInt32
deriving DecidableEq, Repr

structure Workflow where
  id : String
  steps : List WorkflowStep
  target : Target
  schedule : Option String
  enabled : Bool
  maxRuntimeSecs : Nat
deriving DecidableEq, Repr

open Cluster (Node)

def containerHosts (nodes : List Node) : List ContainerTarget → List String → List Node
  | [], _ => []
  | ct :: targets, seen =>
    if ct.nodeId ∈ seen then containerHosts nodes targets seen
    else match nodes.find? fun n => n.id = ct.nodeId && n.online with
      | some n => n :: containerHosts nodes targets (ct.nodeId :: seen)
      | none => containerHosts nodes targets seen

def resolveTargets (nodes : List Node) : Target → List Node
  | .local_ => nodes.filter (·.isSelf)
  | .allNodes | .everything => nodes.filter fun n => n.online && n.nodeType = "wolfstack"
  | .cluster clusterName => nodes.filter fun n => n.online && n.nodeType = "wolfstack" && n.clusterName.getD "WolfStack" = clusterName
  | .nodes nodeIds => nodes.filter fun n => n.online && n.id ∈ nodeIds
  | .containers targets => containerHosts nodes targets []

end WolfFlow
