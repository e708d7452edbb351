import GovernedCatalog.Guard.Column
import GovernedCatalog.Model.Drop
import GovernedCatalog.Model.Reach
import GovernedCatalog.Rights.Context
import GovernedCatalog.Settings.Basic

/-!
# Sessions

A session edits a model in place and asks about it in one context.  An edit
keeps the model's stamp, so the context goes on remembering earlier decisions;
a model that is replaced as a whole gets a new stamp.
-/

namespace GovernedCatalog

/-- Why a session does not do what it is asked for. -/
inductive Refusal where
  | fault (f : Guard.Fault)
  /-- The entity is not of a kind that the request is for. -/
  | unsuitable

structure Session where
  settings : Settings
  snapshot : Snapshot
  context : Context

namespace Session

abbrev Run := ExceptT Refusal (StateM Session)

def start (settings : Settings) (m : Model) (roles : Roles) : Session :=
  ⟨settings, ⟨1, m⟩, .fresh roles⟩

def model (s : Session) : Model := s.snapshot.model

def attempt : Except Error α → Run α
  | .ok a => return a
  | .error e => throw (.fault (.failed e))

def attemptGuard : Except Guard.Fault α → Run α
  | .ok a => return a
  | .error f => throw (.fault f)

/-- What the kind of an entity has. -/
def suitable : Option α → Run α
  | some a => return a
  | none => throw .unsuitable

def currentModel : Run Model := return (← get).model

/-- Puts an edited model in the place of the one it was made of. -/
def editTo (m : Model) : Run Unit :=
  modify fun s => { s with snapshot := { s.snapshot with model := m } }

/-- Puts another model in the place of the present one. -/
def replaceBy (m : Model) : Run Unit :=
  modify fun s => { s with snapshot := ⟨s.snapshot.stamp + 1, m⟩ }

def change (f : Model → Except Error Model) : Run Unit := do
  editTo (← attempt (f (← currentModel)))

/-- Runs an edit, whose effects stay even if it fails. -/
def edit (e : Model.Edit α) : Run α := do
  let (result, m) := e.run.run (← currentModel)
  editTo m
  attempt result

/-- Runs an evaluation in the session's context. -/
def evaluate
    (f : Model → Roles → Ask (StateM Context) → StateM Context α) :
    Run α := do
  let s ← get
  let (a, ctx) := s.snapshot.evaluate s.context (f s.model s.context.roles)
  set { s with context := ctx }
  return a

def reach (a : Address) : Run Entity := do
  attempt ((← currentModel).reach a)

def changeAt (a : Address) (f : Model → Model) : Run Unit := do
  editTo ((← currentModel).changeAt a f)

/-- Forgets all decisions. -/
def forget : Run Unit :=
  modify fun s => { s with context := s.context.reset }

/-- Goes on in a new context. -/
def changeRoles (roles : Roles) : Run Unit :=
  modify fun s => { s with context := .fresh roles }

end Session

end GovernedCatalog
