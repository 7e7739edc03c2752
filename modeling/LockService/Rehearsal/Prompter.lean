import LockService.Call.Basic

/-!
# Scripted answers

A prompter stands in for the lock service: it answers each request from a script, whatever the request says. It keeps
the requests it was sent and numbers the generated lock identifiers in the order in which they first appear.
-/

namespace LockService

/-- The lock identifier in a scripted answer. -/
inductive AnswerId where
  /-- The identifier of the request. -/
  | echo
  /-- The `n`-th generated identifier, counted from one. -/
  | numbered (n : Nat)
  | given (id : Ident)

/-- A scripted lock answer; what it leaves open is taken from the request. -/
structure LockAnswer where
  result : UInt8 := ResultCode.success
  id : AnswerId := .echo
  flag : Option UInt8 := none
  count : Option UInt16 := none
  reentry : Option UInt8 := none
  localCount : UInt16 := 0
  localReentry : UInt8 := 0

/-- What the prompter does with a request. -/
inductive ScriptedAnswer where
  /-- The request fails on the way. -/
  | fail (failure : Failure)
  /-- The request is answered with a given reply, which may be of the wrong type. -/
  | other (reply : Reply)
  | lock (answer : LockAnswer)

/-- The state of a rehearsal's other side. -/
structure Prompter where
  answers : List ScriptedAnswer
  /-- The answer given once the others are used up. -/
  fallback : ScriptedAnswer
  /-- The number of requests that are still answered; later ones find nobody connected. -/
  patience : Nat
  /-- The instant at which the rehearsal takes place, by which generated identifiers are recognised. -/
  now : Nat
  /-- The generated identifiers in order of first appearance. -/
  named : List Ident := []
  /-- The requests of the current call. -/
  sent : Array LockRequest := #[]
  requestIds : Array Ident := #[]

namespace Prompter

/-- Numbers an identifier if it is a generated one that has not appeared before. -/
def name (p : Prompter) (id : Ident) : Prompter :=
  if id.isRecent p.now && !p.named.contains id then { p with named := p.named ++ [id] } else p

/-- The text for an identifier: its number if it has one, and its digits otherwise. -/
def label (p : Prompter) (id : Ident) : String :=
  match p.named.idxOf? id with
  | some i => "#" ++ toString (i + 1)
  | none => id.text

/-- The identifier in a scripted answer; an unknown number stands for the zero identifier. -/
def answerId (p : Prompter) (request : LockRequest) : AnswerId → Ident
  | .echo => request.lockId
  | .numbered 0 => Ident.zero
  | .numbered (n + 1) => p.named.getD n Ident.zero
  | .given id => id

def outcome (p : Prompter) (request : LockRequest) : ScriptedAnswer → Outcome Reply
  | .fail failure => .error failure
  | .other reply => .ok reply
  | .lock answer => .ok (.lock {
      kind := request.kind
      requestId := request.requestId
      result := answer.result
      flag := answer.flag.getD request.flag
      dbId := request.dbId
      lockId := p.answerId request answer.id
      lockKey := request.lockKey
      localCount := answer.localCount
      count := answer.count.getD request.count
      localReentry := answer.localReentry
      reentry := answer.reentry.getD request.reentry })

/-- Answers a request. -/
def respond : Responder Prompter := fun p request =>
  let p := { p.name request.lockId with
    sent := p.sent.push request, requestIds := p.requestIds.push request.requestId }
  if p.patience = 0 then (.error .unconnected, p)
  else
    let p := { p with patience := p.patience - 1 }
    match p.answers with
    | [] => (p.outcome request p.fallback, p)
    | answer :: rest => (p.outcome request answer, { p with answers := rest })

/-- Whether all requests so far carried generated identifiers, each its own. -/
def freshRequests (p : Prompter) : Bool :=
  let ids := p.requestIds.toList
  let sorted := ids.mergeSort fun a b => compare a b != .gt
  ids.all (·.isRecent p.now) && (sorted.zip (sorted.drop 1)).all fun (a, b) => a != b

end Prompter

end LockService
