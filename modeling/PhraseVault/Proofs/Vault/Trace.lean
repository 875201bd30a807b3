import PhraseVault.Proofs.Key
import PhraseVault.Proofs.Vault.Interruption

/-!
# What a program does in a run

A run over any store draws random bytes, finds records and writes records. The bytes drawn are
consecutive stretches of the stream, so no two draws share a byte.
-/
namespace PhraseVault.Vault
variable {σ α β : Type}

/-- A stretch of the stream of random bytes. -/
structure Segment where
  start : Nat
  length : Nat

namespace Segment

def bytes (stream : Nat → UInt8) (g : Segment) : Bytes := (Entropy.mk stream g.start).peek g.length

/-- The first has ended where the second starts. -/
def Before (g h : Segment) : Prop := g.start + g.length ≤ h.start

/-- Each segment starts where the one before it has ended. -/
def InTurn : (start : Nat) → List Segment → (stop : Nat) → Prop
  | start, [], stop => start = stop
  | start, g :: gs, stop => g.start = start ∧ InTurn (start + g.length) gs stop

variable {start mid stop : Nat} {gs hs : List Segment}

theorem InTurn.append (hg : InTurn start gs mid) (hh : InTurn mid hs stop) :
    InTurn start (gs ++ hs) stop := by
  induction gs generalizing start with
  | nil =>
    obtain rfl : start = mid := hg
    exact hh
  | cons g gs ih => exact ⟨hg.1, ih hg.2⟩

theorem InTurn.le_start (h : InTurn start gs stop) {g : Segment} (hg : g ∈ gs) :
    start ≤ g.start := by
  induction gs generalizing start with
  | nil => cases hg
  | cons g' gs ih =>
    rcases List.mem_cons.mp hg with rfl | hm
    · exact h.1.ge
    · exact (Nat.le_add_right _ _).trans (ih h.2 hm)

theorem InTurn.le_stop (h : InTurn start gs stop) : start ≤ stop := by
  induction gs generalizing start with
  | nil => exact h.le
  | cons g gs ih => exact (Nat.le_add_right _ _).trans (ih h.2)

/-- Every segment has ended where the last one ends. -/
theorem InTurn.end_le_stop (h : InTurn start gs stop) {g : Segment} (hg : g ∈ gs) :
    g.start + g.length ≤ stop := by
  induction gs generalizing start with
  | nil => cases hg
  | cons g' gs ih =>
    rcases List.mem_cons.mp hg with rfl | hm
    · rw [h.1]
      exact h.2.le_stop
    · exact ih h.2 hm

theorem InTurn.pairwise (h : InTurn start gs stop) : gs.Pairwise Before := by
  induction gs generalizing start with
  | nil => exact .nil
  | cons g gs ih =>
    refine .cons (fun g' hg' => ?_) (ih h.2)
    rw [Before, h.1]
    exact h.2.le_start hg'

end Segment
open Segment

/-- What a run does. A record is found when the store hands it out, and written when it is given to
the store, whatever becomes of it there. -/
inductive Deed where
  | drew (g : Segment)
  | found (key : String) (value : Bytes)
  | wrote (key : String) (value : Bytes)

namespace Deed

def segment? : Deed → Option Segment
  | drew g => some g
  | _ => none

end Deed

/-- The segments drawn, in order. -/
def drawn (deeds : List Deed) : List Segment := deeds.filterMap Deed.segment?

theorem drawn_append (deeds deeds' : List Deed) :
    drawn (deeds ++ deeds') = drawn deeds ++ drawn deeds' := List.filterMap_append

theorem mem_drawn {deeds : List Deed} {g : Segment} : g ∈ drawn deeds ↔ .drew g ∈ deeds := by
  rw [drawn, List.mem_filterMap]
  constructor
  · rintro ⟨deed, hm, hg⟩
    cases deed with
    | drew g' =>
      obtain rfl := Option.some.inj hg
      exact hm
    | _ => cases hg
  · exact fun hm => ⟨_, hm, rfl⟩

/-- What is found in reply to a look. -/
def findings (key : String) : Except IoFault (Option Bytes) → List Deed
  | .ok (some value) => [.found key value]
  | _ => []

theorem drawn_findings (key : String) (r : Except IoFault (Option Bytes)) :
    drawn (findings key r) = [] := by
  unfold findings
  split <;> rfl

theorem mem_findings {key : String} {r : Except IoFault (Option Bytes)} {deed : Deed} :
    deed ∈ findings key r ↔ ∃ value, r = .ok (some value) ∧ deed = .found key value := by
  unfold findings
  split
  · simp
  · next hr => simpa using fun value h => (hr value h).elim

namespace Program
variable [RecordStore σ]

/-- What a program does when it is run. -/
def deeds : Program α → Session σ → List Deed
  | done _, _ => []
  | get key next, s =>
    let (r, store) := RecordStore.get key s.store
    findings key r ++ (next r).deeds { s with store }
  | set key value next, s =>
    let (r, store) := RecordStore.set key value s.store
    .wrote key value :: (next r).deeds { s with store }
  | delete key next, s =>
    let (r, store) := RecordStore.delete key s.store
    (next r).deeds { s with store }
  | keys next, s =>
    let (r, store) := RecordStore.keys s.store
    (next (r.map Listing.keys)).deeds ({ s with store }.record (Session.listed r))
  | draw count next, s =>
    .drew ⟨s.entropy.position, count⟩ ::
      (next (s.entropy.peek count)).deeds { s with entropy := s.entropy.advance count }
  | mint next, s => (next (s.ids.headD "")).deeds { s with ids := s.ids.tail }
  | log event next, s => (next ()).deeds (s.record [event])

theorem deeds_bind (p : Program α) (f : α → Program β) (s : Session σ) :
    (p.bind f).deeds s = p.deeds s ++ (f (p.run s).1).deeds (p.run s).2 := by
  induction p generalizing s with
  | done a => rfl
  | get key next ih => exact (congrArg (_ ++ ·) (ih _ _)).trans (List.append_assoc _ _ _).symm
  | set key value next ih => exact congrArg (_ :: ·) (ih _ _)
  | delete key next ih => exact ih _ _
  | keys next ih => exact ih _ _
  | draw count next ih => exact congrArg (_ :: ·) (ih _ _)
  | mint next ih => exact ih _ _
  | log event next ih => exact ih _ _

theorem stream_run (p : Program α) (s : Session σ) :
    (p.run s).2.entropy.stream = s.entropy.stream := by
  induction p generalizing s with
  | done a => rfl
  | get key next ih => exact ih _ _
  | set key value next ih => exact ih _ _
  | delete key next ih => exact ih _ _
  | keys next ih => exact ih _ _
  | draw count next ih => exact ih _ _
  | mint next ih => exact ih _ _
  | log event next ih => exact ih _ _

/-- What a run draws, it draws in turn, and nothing else moves its place in the stream. -/
theorem inTurn_drawn (p : Program α) (s : Session σ) :
    InTurn s.entropy.position (drawn (p.deeds s)) (p.run s).2.entropy.position := by
  induction p generalizing s with
  | done a => rfl
  | get key next ih =>
    simp only [deeds, drawn_append, drawn_findings, List.nil_append]
    exact ih _ { s with store := (RecordStore.get key s.store).2 }
  | set key value next ih => exact ih _ { s with store := (RecordStore.set key value s.store).2 }
  | delete key next ih => exact ih _ { s with store := (RecordStore.delete key s.store).2 }
  | keys next ih =>
    exact ih _ ({ s with store := (RecordStore.keys s.store).2 }.record
      (Session.listed (RecordStore.keys s.store).1))
  | draw count next ih => exact ⟨rfl, ih _ { s with entropy := s.entropy.advance count }⟩
  | mint next ih => exact ih _ { s with ids := s.ids.tail }
  | log event next ih => exact ih _ (s.record [event])

/-- A run that draws nothing leaves the random bytes as they were. -/
theorem entropy_run_of_drawn_eq_nil {p : Program α} {s : Session σ} (h : drawn (p.deeds s) = []) :
    (p.run s).2.entropy = s.entropy := by
  have hposition := p.inTurn_drawn s
  rw [h] at hposition
  have hstream := p.stream_run s
  generalize (p.run s).2.entropy = e at hposition hstream ⊢
  obtain ⟨stream, position⟩ := e
  obtain rfl : s.entropy.position = position := hposition
  obtain rfl : stream = s.entropy.stream := hstream
  rfl

end Program

namespace Records
variable {r : Records} {key other : String} {value content : Bytes}

theorem held_of_insert (h : (r.insert other content)[key]? = some value) :
    r[key]? = some value ∨ key = other ∧ value = content := by
  rw [Records.getElem?_insert] at h
  split at h
  · next he => exact .inr ⟨he.symm, (Option.some.inj h).symm⟩
  · exact .inl h

theorem held_of_erase (h : (r.erase other)[key]? = some value) : r[key]? = some value := by
  rw [Records.getElem?_erase] at h
  split at h
  · cases h
  · exact h

/-- Records in memory only hold what they held before or what has been written. -/
theorem held_or_wrote (p : Program α) (s : Session Records)
    (h : (p.run s).2.store[key]? = some value) :
    s.store[key]? = some value ∨ .wrote key value ∈ p.deeds s := by
  induction p generalizing s with
  | done a => exact .inl h
  | get k next ih => exact (ih _ _ h).imp id (List.mem_append_right _)
  | set k content next ih =>
    rcases ih _ _ h with hstore | hwrote
    · rcases held_of_insert hstore with hs | ⟨rfl, rfl⟩
      · exact .inl hs
      · exact .inr List.mem_cons_self
    · exact .inr (List.mem_cons_of_mem _ hwrote)
  | delete k next ih => exact (ih _ _ h).imp held_of_erase id
  | keys next ih => exact ih _ _ h
  | draw count next ih => exact (ih _ _ h).imp id (List.mem_cons_of_mem _)
  | mint next ih => exact ih _ _ h
  | log event next ih => exact ih _ _ h

theorem found_held_or_wrote (p : Program α) (s : Session Records)
    (h : .found key value ∈ p.deeds s) :
    s.store[key]? = some value ∨ .wrote key value ∈ p.deeds s := by
  induction p generalizing s with
  | done a => cases h
  | get k next ih =>
    rcases List.mem_append.mp h with hfound | hrest
    · obtain ⟨content, hr, hd⟩ := mem_findings.mp hfound
      cases hd
      exact .inl (Except.ok.inj hr)
    · exact (ih _ _ hrest).imp id (List.mem_append_right _)
  | set k content next ih =>
    rcases ih _ _ ((List.mem_cons.mp h).resolve_left nofun) with hstore | hwrote
    · rcases held_of_insert hstore with hs | ⟨rfl, rfl⟩
      · exact .inl hs
      · exact .inr List.mem_cons_self
    · exact .inr (List.mem_cons_of_mem _ hwrote)
  | delete k next ih => exact (ih _ _ h).imp held_of_erase id
  | keys next ih => exact ih _ _ h
  | draw count next ih =>
    exact (ih _ _ ((List.mem_cons.mp h).resolve_left nofun)).imp id (List.mem_cons_of_mem _)
  | mint next ih => exact ih _ _ h
  | log event next ih => exact ih _ _ h

end Records
end PhraseVault.Vault
