import PhraseVault.Store.Basic

/-!
# Stores that fail on purpose

A wrapper that lets chosen calls fail without any effect, for watching what becomes of an operation
cut short.
-/
namespace PhraseVault

/-- The next `after` calls pass and the `times` calls after them fail. -/
structure FaultRule where
  after : Nat
  times : Nat
  deriving DecidableEq

/-- Whether a call fails, and the rule for the next one. -/
def FaultRule.step : Option FaultRule → Bool × Option FaultRule
  | none => (false, none)
  | some ⟨0, 0⟩ => (false, none)
  | some ⟨0, times + 1⟩ => (true, some ⟨0, times⟩)
  | some ⟨after + 1, times⟩ => (false, some ⟨after, times⟩)

structure Faulty (σ : Type) where
  inner : σ
  onGet : Option FaultRule
  onSet : Option FaultRule
  onDelete : Option FaultRule
  onKeys : Option FaultRule

namespace Faulty
variable {σ : Type}

def sound (s : σ) : Faulty σ := ⟨s, none, none, none, none⟩

def heal (s : Faulty σ) : Faulty σ := sound s.inner

/-- One call on the store inside, or a failure in its place. -/
def call {α : Type} (fails : Bool) (act : σ → Except IoFault α × σ) (s : Faulty σ) :
    Except IoFault α × Faulty σ :=
  if fails then (.error .full, s)
  else
    let (r, inner) := act s.inner
    (r, { s with inner })

instance [RecordStore σ] : RecordStore (Faulty σ) where
  get key s :=
    let (fails, onGet) := FaultRule.step s.onGet
    call fails (RecordStore.get key) { s with onGet }
  set key value s :=
    let (fails, onSet) := FaultRule.step s.onSet
    call fails (RecordStore.set key value) { s with onSet }
  delete key s :=
    let (fails, onDelete) := FaultRule.step s.onDelete
    call fails (RecordStore.delete key) { s with onDelete }
  keys s :=
    let (fails, onKeys) := FaultRule.step s.onKeys
    call fails RecordStore.keys { s with onKeys }

end Faulty
end PhraseVault
