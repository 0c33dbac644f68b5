import FederatedTime.Wire.Message

/-!
# Scripted federates

A scripted federate has a list of tags at which it has something to do. Once it has joined, it
announces the first of them; whenever it is granted a tag it processes what it may, says so, and
announces the next. It leaves when its list is empty, or when an agreed stop has cut it short.
-/

namespace FederatedTime.Simulation

/-- How a federate leaves. -/
inductive Ending where
  /-- It resigns and closes its connection. -/
  | resign
  /-- It closes its connection without a word. -/
  | disconnect
deriving DecidableEq, Inhabited

/-- What a federate is going to do. -/
structure Script where
  /-- The tags at which it has something to do, in order. -/
  tags : List Tag
  ending : Ending := .resign
  /-- After how many tags it asks for a stop. -/
  stopAfter : Option Nat := none
deriving DecidableEq, Inhabited

/-- What a federate does in answer to a message. -/
inductive Output where
  | send (message : Message)
  /-- It closes its connection. -/
  | disconnect
deriving DecidableEq, Inhabited

/-- A federate that follows a script. -/
structure ScriptedFederate where
  id : FederateId
  /-- The tags that it has not processed. -/
  pending : List Tag
  ending : Ending
  stopAfter : Option Nat
  /-- The number of tags that it has processed. -/
  processed : Nat := 0
  completed : Tag := .never
  lastGrant : Tag := .never
  /-- The agreed stop. -/
  stop : Option Tag := none
  startTime : Option Int64 := none
  joined : Bool := false
  /-- Whether it has left. -/
  done : Bool := false
deriving DecidableEq, Inhabited

namespace ScriptedFederate

/-- The federate `f` before it starts. -/
def ofScript (f : FederateId) (s : Script) : ScriptedFederate where
  id := f
  pending := s.tags
  ending := s.ending
  stopAfter := s.stopAfter

/-- The message with which it joins. -/
def joinMessage (f : ScriptedFederate) (federationId : String) : Message :=
  .join f.id federationId

/-- It leaves, unless it has left. -/
def finish (f : ScriptedFederate) : ScriptedFederate × List Output :=
  if f.done then (f, [])
  else
    ({ f with done := true }, match f.ending with
      | .resign => [.send .resign, .disconnect]
      | .disconnect => [.disconnect])

/-- It announces its next tag, or leaves if there is none. -/
def announce (f : ScriptedFederate) : ScriptedFederate × List Output :=
  match f.pending with
  | next :: _ => (f, [.send (.nextEventTag next)])
  | [] => f.finish

/-- What it says when it has processed a tag, which is its `count`th. -/
def report (f : ScriptedFederate) (tag : Tag) (count : Nat) : List Output :=
  .send (.logicalTagComplete tag) ::
    if f.stop.isNone ∧ f.stopAfter = some count then [.send (.stopRequest (tag.time + 1))] else []

/-- It is granted a tag: it processes every tag in front of its list that is not above. -/
def onGrant (f : ScriptedFederate) (grant : Tag) : ScriptedFederate × List Output :=
  let ready := f.pending.takeWhile (· ≤ grant)
  let reports := (ready.zipIdx (f.processed + 1)).flatMap fun (tag, count) => f.report tag count
  let advanced := { f with
    lastGrant := grant
    pending := f.pending.drop ready.length
    processed := f.processed + ready.length
    completed := ready.getLast?.getD f.completed }
  let (f, last) :=
    if ready.isEmpty ∧ !advanced.pending.isEmpty then (advanced, []) else advanced.announce
  (f, reports ++ last)

/-- The time that it proposes for a stop that has been requested at `time`. -/
def stopProposal (f : ScriptedFederate) (time : Int64) : Int64 :=
  let own := (f.pending.head?.map (·.time)).getD f.completed.time
  if own ≤ time then time else own

/-- A stop is agreed: it gives up every tag behind it. -/
def onStop (f : ScriptedFederate) (stop : Tag) : ScriptedFederate × List Output :=
  let f := { f with stop := some stop, pending := f.pending.filter (· ≤ stop) }
  if f.pending.isEmpty then f.finish else (f, [])

/-- It receives a message when its own clock reads `now`. -/
def onMessage (f : ScriptedFederate) (message : Message) (now : Int64) :
    ScriptedFederate × List Output :=
  if f.done then (f, [])
  else match message with
    | .ack _ =>
      let (f, outputs) := { f with joined := true }.announce
      (f, .send (.timestamp now) :: outputs)
    | .timestamp start => ({ f with startTime := some start }, [])
    | .timeAdvanceGrant tag => f.onGrant tag
    | .stopRequest time => (f, [.send (.stopRequestReply (f.stopProposal time))])
    | .stopGranted time => f.onStop (.ofTime time)
    | _ => (f, [])

end ScriptedFederate

end FederatedTime.Simulation
