import CertBroker.Simulation.World
import CertBroker.Watch.Retry

namespace CertBroker.Simulation

/-- How many seconds an answer takes to arrive. -/
def duration : (q : Ask) → q.Answer → Nat
  | .lookUp _ _ timeout, .noAnswer => timeout
  | _, _ => 0

/-- A pass until it ends, or until it has to wait for an answer. -/
inductive Stretch where
  | ended (outcome : Except Failure Action)
  | waiting (seconds : Nat) (rest : Pass (Except Failure Action))

/-- Runs a pass until it ends or waits, and gives what it asked and the world afterwards. -/
def stretch : Pass (Except Failure Action) → World → Stretch × List Event × World
  | .done outcome, w => (.ended outcome, [], w)
  | .ask q next, w =>
    let (answer, w) := w.answer q
    match duration q answer with
    | 0 =>
      let (reached, events, w) := stretch (next answer) w
      (reached, ⟨q, answer⟩ :: events, w)
    | seconds + 1 => (.waiting (seconds + 1) (next answer), [⟨q, answer⟩], w)

/-- What is planned for an object. -/
inductive Task where
  | start (id : Identity)
  /-- The pass that was asked for during another one, which has ended now. -/
  | restart (id : Identity)
  | resume (id : Identity) (rest : Pass (Except Failure Action))

/-- Whether a task is the next pass over an object. -/
def Task.starts (id : Identity) : Task → Bool
  | .start other => other = id
  | _ => false

/-- What the API server tells about an object. -/
inductive Change where
  | put (o : Watched)
  | drop (id : Identity)

/-- The controller on a virtual clock that counts seconds. A watched object is passed over when it
appears or changes, and again when it is due. A pass takes no time, unless it waits for a lookup
that is never answered; a change of an object under way only has another pass follow. -/
structure Controller where
  settings : Settings
  world : World
  delays : BackoffTable := {}
  /-- The objects as they were last told of. -/
  watched : List Watched := []
  /-- The objects with a pass under way. -/
  running : List Identity := []
  /-- Those of them that were asked for again. -/
  again : List Identity := []
  /-- What is planned, each with its second; of each object at most one next pass. -/
  agenda : List (Nat × Task) := []
  /-- What was asked of the surroundings, each with its second. -/
  log : List (Nat × Event) := []

namespace Controller

def find? (c : Controller) (id : Identity) : Option Watched :=
  c.watched.find? fun o => o.identity = id

def forget (c : Controller) (id : Identity) : Controller :=
  { c with watched := c.watched.filter fun o => o.identity ≠ id }

def keep (c : Controller) (o : Watched) : Controller :=
  { c with watched := (c.forget o.identity).watched ++ [o] }

def cancel (c : Controller) (id : Identity) : Controller :=
  { c with agenda := c.agenda.filter fun e => !e.2.starts id }

/-- Plans the next pass over an object, unless one is planned that is due earlier. -/
def plan (c : Controller) (id : Identity) (time : Nat) : Controller :=
  if c.agenda.any fun e => e.2.starts id && e.1 < time then c
  else { c.cancel id with agenda := (c.cancel id).agenda ++ [(time, .start id)] }

/-- What follows the end of a pass. -/
def settle (c : Controller) (now : Nat) (id : Identity) (outcome : Except Failure Action) :
    Controller :=
  let (delay, delays) := c.delays.afterPass id outcome
  let c := { c with delays, running := c.running.filter (· ≠ id) }
  let c := match delay with
    | some seconds => c.plan id (now + seconds)
    | none => c
  if c.again.contains id then
    { c with again := c.again.filter (· ≠ id), agenda := c.agenda ++ [(now, .restart id)] }
  else c

/-- Goes on with a pass until it ends or waits. -/
def goOn (c : Controller) (now : Nat) (id : Identity) (pass : Pass (Except Failure Action)) :
    Controller :=
  let (reached, events, world) := stretch pass c.world
  let c := { c with world, log := c.log ++ events.map (now, ·) }
  match reached with
  | .ended outcome => c.settle now id outcome
  | .waiting seconds rest => { c with agenda := c.agenda ++ [(now + seconds, .resume id rest)] }

/-- Starts a pass over an object, if it is still there. If one is under way another will follow. -/
def start (c : Controller) (now : Nat) (id : Identity) : Controller :=
  if c.running.contains id then
    if c.again.contains id then c else { c with again := c.again ++ [id] }
  else match c.find? id with
    | some o =>
      { c with running := c.running ++ [id] }.goOn now id (o.reconcile c.settings).result
    | none => c

def perform (c : Controller) (now : Nat) : Task → Controller
  | .start id => c.start now id
  | .restart id => c.start now id
  | .resume id rest => c.goOn now id rest

def performDue (c : Controller) (now : Nat) : Controller :=
  let (due, later) := c.agenda.partition fun e => e.1 ≤ now
  (due.map (·.2)).foldl (fun c task => c.perform now task) { c with agenda := later }

/-- Takes notice of a change. An object that is put is passed over at once. -/
def notice (c : Controller) (now : Nat) : Change → Controller
  | .put o => ((c.keep o).cancel o.identity).start now o.identity
  | .drop id => c.forget id

/-- Takes notice of all objects there are at the start. -/
def begin (c : Controller) (listed : List Watched) : Controller :=
  let c := listed.foldl keep c
  c.watched.foldl (fun c o => c.start 0 o.identity) c

/-- One second: the changes, then what is due, and then the passes that were asked for meanwhile. -/
def second (c : Controller) (now : Nat) (changes : List Change) : Controller :=
  ((changes.foldl (fun c change => c.notice now change) c).performDue now).performDue now

/-- Runs the seconds from `now` on. What happens in the world besides may fail. -/
def seconds (surroundings : Nat → World → Except ε World) (changes : Nat → List Change) :
    (count now : Nat) → Controller → Except ε Controller
  | 0, _, c => .ok c
  | count + 1, now, c => do
    let world ← surroundings now c.world
    seconds surroundings changes count (now + 1) (second { c with world } now (changes now))

/-- Runs a controller for some seconds, from the listing of the objects on. -/
def run (surroundings : Nat → World → Except ε World) (listed : List Watched)
    (changes : Nat → List Change) (count : Nat) (c : Controller) : Except ε Controller :=
  match count with
  | 0 => .ok c
  | count + 1 => do
    let world ← surroundings 0 c.world
    let c := second (begin { c with world } listed) 0 (changes 0)
    seconds surroundings changes count 1 c

end Controller

end CertBroker.Simulation
