import CertBroker.Json.Record
import CertBroker.Time
import CertBroker.Cluster.Metadata

namespace CertBroker

inductive ConditionStatus where
  | yes
  | no
  | unknown
deriving DecidableEq, Repr, Inhabited

namespace ConditionStatus

def text : ConditionStatus → String
  | .yes => "True"
  | .no => "False"
  | .unknown => "Unknown"

def ofText? (s : String) : Option ConditionStatus :=
  if s = "True" then some .yes
  else if s = "False" then some .no
  else if s = "Unknown" then some .unknown
  else none

def ofJson? (j : Json) : Option ConditionStatus := j.name?.bind ofText?

def toJson (s : ConditionStatus) : Json := .string s.text

end ConditionStatus

structure Condition where
  type : String
  status : ConditionStatus
  reason : Option String
  message : Option String
  lastTransitionTime : Option Time
deriving DecidableEq

namespace Condition

open Json

def isTrue (c : Condition) : Bool := c.status == .yes

/-- The reason, empty if unset. -/
def reasonText (c : Condition) : String := c.reason.getD ""

def ofJson? (j : Json) : Option Condition := do
  match ← record? ["type", "status", "reason", "message", "lastTransitionTime"] j with
  | [type, status, reason, message, lastTransitionTime] =>
    return {
      type := ← required text? type
      status := ← required ConditionStatus.ofJson? status
      reason := ← optional text? reason
      message := ← optional text? message
      lastTransitionTime := ← optional Time.ofJson? lastTransitionTime }
  | _ => none

def toJson (c : Condition) : Json :=
  .object (member "type" (.string c.type)
    ++ member "status" c.status.toJson
    ++ memberIf "reason" .string c.reason
    ++ memberIf "message" .string c.message
    ++ memberIf "lastTransitionTime" Time.toJson c.lastTransitionTime)

def find (type : String) (cs : List Condition) : Option Condition :=
  cs.find? (fun c => c.type = type)

/-- Sets the first condition of a type, or adds one at the end. The transition time moves only
when the status changes. -/
def set (type : String) (status : ConditionStatus) (reason message : String) (now : Time) :
    List Condition → List Condition
  | [] => [⟨type, status, some reason, some message, some now⟩]
  | c :: rest =>
    if c.type = type then
      { c with
        status
        reason := some reason
        message := some message
        lastTransitionTime := if c.status = status then c.lastTransitionTime else some now } :: rest
    else c :: set type status reason message now rest

theorem find_set_of_ne {type other : String} (h : other ≠ type) (status : ConditionStatus)
    (reason message : String) (now : Time) (cs : List Condition) :
    find other (set type status reason message now cs) = find other cs := by
  induction cs with
  | nil => simp [set, find, Ne.symm h]
  | cons c rest ih =>
    unfold set
    split
    next hc => simp [find, hc, Ne.symm h]
    next hc =>
      simp only [find, List.find?_cons] at ih ⊢
      split <;> simp_all

theorem find_set_same (type : String) (status : ConditionStatus) (reason message : String)
    (now : Time) (cs : List Condition) :
    find type (set type status reason message now cs) =
      some ⟨type, status, some reason, some message,
        match find type cs with
        | some c => if c.status = status then c.lastTransitionTime else some now
        | none => some now⟩ := by
  induction cs with
  | nil => simp [set, find]
  | cons c rest ih =>
    unfold set
    split
    next hc => simp [find, hc]
    next hc =>
      simp only [find, List.find?_cons] at ih ⊢
      simp [hc, ih]

end Condition

end CertBroker
