import PhraseVault.Entropy
import PhraseVault.Vault.Event

/-!
# Programs of a vault

A vault operation is a tree of calls: on its store, on its source of random bytes, on whatever mints
owner ids, and on its log. The tree goes on from each call with the reply. Running it over a store
gives its result; cutting it short gives every state that a crash can leave.
-/
namespace PhraseVault.Vault

inductive Program (α : Type) where
  | done (value : α)
  | get (key : String) (next : Except IoFault (Option Bytes) → Program α)
  | set (key : String) (value : Bytes) (next : Except IoFault Unit → Program α)
  | delete (key : String) (next : Except IoFault Unit → Program α)
  | keys (next : Except IoFault (List String) → Program α)
  | draw (count : Nat) (next : Bytes → Program α)
  | mint (next : String → Program α)
  | log (event : Event) (next : Unit → Program α)

namespace Program
variable {α β : Type}

def bind : Program α → (α → Program β) → Program β
  | done a, f => f a
  | get key next, f => get key fun r => (next r).bind f
  | set key value next, f => set key value fun r => (next r).bind f
  | delete key next, f => delete key fun r => (next r).bind f
  | keys next, f => keys fun r => (next r).bind f
  | draw count next, f => draw count fun r => (next r).bind f
  | mint next, f => mint fun r => (next r).bind f
  | log event next, f => log event fun r => (next r).bind f

instance : Monad Program where
  pure := done
  bind := bind

end Program

/-- What a program runs on, and the events it has logged. -/
structure Session (σ : Type) where
  store : σ
  entropy : Entropy
  ids : List String
  log : List Event

namespace Session
variable {σ : Type}

def record (s : Session σ) (events : List Event) : Session σ := { s with log := s.log ++ events }

/-- The events of a listing that had to pass over names. -/
def listed (r : Except IoFault Listing) : List Event :=
  match r with
  | .ok l => l.ignored.map Event.unrecognisedFile
  | .error _ => []

end Session

namespace Program
variable {σ α : Type}

/-- Runs a program to its end. When the minted ids are used up, the empty one is handed out. -/
def run [RecordStore σ] : Program α → Session σ → α × Session σ
  | done a, s => (a, s)
  | get key next, s =>
    let (r, store) := RecordStore.get key s.store
    (next r).run { s with store }
  | set key value next, s =>
    let (r, store) := RecordStore.set key value s.store
    (next r).run { s with store }
  | delete key next, s =>
    let (r, store) := RecordStore.delete key s.store
    (next r).run { s with store }
  | keys next, s =>
    let (r, store) := RecordStore.keys s.store
    (next (r.map Listing.keys)).run ({ s with store }.record (Session.listed r))
  | draw count next, s =>
    (next (s.entropy.peek count)).run { s with entropy := s.entropy.advance count }
  | mint next, s => (next (s.ids.headD "")).run { s with ids := s.ids.tail }
  | log event next, s => (next ()).run (s.record [event])

end Program

/-- A program that may end in a fault. -/
abbrev Action (α : Type) := ExceptT Fault Program α

namespace Action

def onStore {α : Type} (p : Program (Except IoFault α)) : Action α :=
  ExceptT.mk (p.bind fun r => .done (r.mapError Fault.io))

def fetch (key : String) : Action (Option Bytes) := onStore (.get key .done)

def put (key : String) (value : Bytes) : Action Unit := onStore (.set key value .done)

def erase (key : String) : Action Unit := onStore (.delete key .done)

def listKeys : Action (List String) := onStore (.keys .done)

def draw (count : Nat) : Action Bytes := ExceptT.lift (.draw count .done)

def mint : Action String := ExceptT.lift (.mint .done)

def report (event : Event) : Action Unit := ExceptT.lift (.log event .done)

def outcome {α : Type} (r : Except Fault α) : Action α := ExceptT.mk (.done r)

/-- The outcome of an action, as a value for the action that goes on. -/
def attempt {α : Type} (act : Action α) : Action (Except Fault α) := ExceptT.lift act.run

end Action
end PhraseVault.Vault
