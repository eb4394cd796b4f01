import CodeAtlas.Graph.Request

/-! Transactions of a session. Outside of a transaction each statement stands by itself; in one, the
statements work on a graph of their own, which replaces the committed one in the end or is dropped.
A session knows by a flag that it is in a transaction, so that nested blocks join the outer one. -/

namespace CodeAtlas.Graph

/-- A connection to the store: what is committed, what an open transaction has made of it, and the
flag of the session. -/
structure Connection where
  committed : Graph
  working : Option Graph := none
  inTransaction : Bool := false
  deriving DecidableEq, Repr, Inhabited

namespace Connection

def visible (connection : Connection) : Graph := connection.working.getD connection.committed

/-- The connection after a statement left a graph: the open transaction takes it, else it is
committed at once. -/
def leave (connection : Connection) (graph : Graph) : Connection :=
  match connection.working with
  | none => { connection with committed := graph }
  | some _ => { connection with working := some graph }

def idle (graph : Graph) : Connection := ⟨graph, none, false⟩

end Connection

/-- How work on a connection ends early: by an error, or by an exception of the caller, who has
answers already. -/
inductive Interrupt where
  | failed (error : Error)
  | aborted (created : List Bool)
  deriving Inhabited

abbrev Transacted := ExceptT Interrupt (StateM Connection)

variable {α : Type}

/-- Performs a write, of which only the last statement changes anything. -/
def statement (write : Write α) : Transacted α := do
  let connection ← get
  match write connection.visible with
  | .ok (value, after) =>
    set (connection.leave after)
    return value
  | .error error => throw (.failed error)

def beginTransaction : Transacted Unit := do
  let connection ← get
  match connection.working with
  | none => set { connection with working := some connection.committed }
  | some _ => throw (.failed .statementRejected)

def commitTransaction : Transacted Unit := do
  let connection ← get
  match connection.working with
  | none => throw (.failed .statementRejected)
  | some graph => set { connection with committed := graph, working := none }

def rollBack : Transacted Unit := do
  let connection ← get
  match connection.working with
  | none => throw (.failed .statementRejected)
  | some _ => set { connection with working := none }

def setFlag (inTransaction : Bool) : Transacted Unit :=
  modify fun connection => { connection with inTransaction }

/-- Takes back what an interrupted transaction did, and goes on with the interrupt. That the store
refuses to roll back does not hide why it had to. -/
def recover (interrupt : Interrupt) : Transacted α := do
  setFlag false
  tryCatch rollBack fun _ => pure ()
  throw interrupt

/-- Does some work as one transaction; in a transaction it joins that one. -/
def transaction (work : Transacted α) : Transacted α := do
  if (← get).inTransaction then work
  else
    beginTransaction
    setFlag true
    let value ← tryCatch work recover
    setFlag false
    commitTransaction
    return value

def upsertOne (here : Conditions) (request : NodeRequest) : Transacted Bool :=
  transaction (return (← statement (request.upsert here)).2)

def upsertEach (here : Conditions) (requests : List NodeRequest) : Transacted (List Bool) :=
  requests.mapM fun request => transaction (upsertOne here request)

def upsertTransacted (here : Conditions) (requests : List NodeRequest) (abortAfter : Option Nat) :
    Transacted (List Bool) :=
  transaction do
    match abortAfter with
    | none => upsertEach here requests
    | some count =>
      let created ← upsertEach here (requests.take count)
      throw (.aborted created)

/-- Upserts in one transaction, in a session of their own. With `abort` the caller gives up after
the last one and keeps the answers. -/
def upsertInSession (here : Conditions) (requests : List NodeRequest) (abort : Bool) :
    Session (List Bool) := fun graph =>
  let abortAfter := if abort then some requests.length else none
  match upsertTransacted here requests abortAfter (.idle graph) with
  | (.ok created, connection) => (.ok created, connection.committed)
  | (.error (.aborted created), connection) => (.ok created, connection.committed)
  | (.error (.failed error), connection) => (.error error, connection.committed)

end CodeAtlas.Graph
