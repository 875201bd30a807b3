import PhraseVault.Proofs.Store.Map
import PhraseVault.Proofs.Vault.Guard

/-!
# Running over files

A program that guards its calls runs over a directory of files as it runs over records in memory that
refuse keys that do not fit; and where it assures that all keys fit, that is as over records that
refuse nothing.
-/
namespace PhraseVault.Vault
variable {α β : Type}

/-- A session over files whose records another session has in memory. -/
structure Filed (s : Session FileStore) (l : Session Limited) : Prop where
  holds : s.store.Holds l.store.records
  orderly : Orderly l.store.records
  entropy : s.entropy = l.entropy
  ids : s.ids = l.ids
  log : s.log = l.log

/-- The session over records that refuse nothing. -/
def Session.unlimited (s : Session Limited) : Session Records := { s with store := s.store.records }

namespace Filed
variable {s : Session FileStore} {l : Session Limited}

theorem record (h : Filed s l) (events : List Event) : Filed (s.record events) (l.record events) :=
  { h with log := congrArg (· ++ events) h.log }

theorem reopened (h : Filed s l) (entropy : Entropy) (ids : List String) :
    Filed (s.reopened entropy ids) (l.reopened entropy ids) where
  holds := h.holds
  orderly := h.orderly
  entropy := rfl
  ids := rfl
  log := rfl

end Filed

namespace Program

/-- A guarded program comes to the same over files, and leaves the same there. -/
theorem Guards.run_files {p : Program α} {post : α → Prop} (h : p.Guards post)
    {s : Session FileStore} {l : Session Limited} (hs : Filed s l) :
    (p.run s).1 = (p.run l).1 ∧ Filed (p.run s).2 (p.run l).2 := by
  induction p generalizing s l with
  | done a => exact ⟨rfl, hs⟩
  | get key next ih =>
    obtain ⟨hk, h⟩ := h
    simp only [run, RecordStore.get, hs.holds.get hk]
    refine ih _ (h _ fun value hv => ?_) hs
    exact hs.orderly key value (Except.ok.inj hv)
  | set key value next ih =>
    obtain ⟨hk, hl, h⟩ := h
    by_cases hf : Fits key
    · obtain ⟨files, hset, hholds⟩ := hs.holds.set_of_fits hk hf value
      simp only [run, RecordStore.set, hset, if_pos hf]
      exact ih _ (h _) { hs with holds := hholds, orderly := hs.orderly.insert hl }
    · obtain ⟨files, hset, hholds⟩ := hs.holds.set_of_not_fits hf value
      simp only [run, RecordStore.set, hset, if_neg hf]
      exact ih _ (h _) { hs with holds := hholds }
  | delete key next ih =>
    obtain ⟨hk, h⟩ := h
    obtain ⟨files, hdelete, hholds⟩ := hs.holds.delete hk
    simp only [run, RecordStore.delete, hdelete]
    exact ih _ (h _) { hs with holds := hholds, orderly := hs.orderly.erase key }
  | keys next ih =>
    simp only [run, RecordStore.keys, hs.holds.keys]
    exact ih _ (h _) (hs.record _)
  | draw count next ih =>
    simp only [run, hs.entropy]
    exact ih _ (h _ (Entropy.length_peek _ _)) { hs with entropy := rfl }
  | mint next ih =>
    simp only [run, hs.ids]
    exact ih _ (h _) { hs with ids := rfl }
  | log event next ih => exact ih _ h (hs.record _)

/-- A program that assures that all keys fit ends as assured. -/
theorem Assures.post_of_run_limited {p : Program α} {ok : Records → Prop}
    {post : α → Session Records → Prop} {l : Session Limited}
    (h : p.Assures False ok post l.unlimited) (hok : ∀ r, ok r → ∀ key ∈ r, Fits key) :
    post (p.run l).1 (p.run l).2.unlimited := by
  induction p generalizing l with
  | done a => exact h
  | get key next ih => exact ih _ h
  | set key value next ih =>
    obtain ⟨-, hset, h⟩ := h
    have hf : Fits key := hok _ hset key Std.ExtTreeMap.mem_insert_self
    simp only [run, RecordStore.set, if_pos hf]
    exact ih _ h
  | delete key next ih => exact ih _ h.2.2
  | keys next ih =>
    have hl : ({ l with store := Limited.mk l.store.records } : Session Limited).record
        (Session.listed (.ok ⟨l.store.records.keys, []⟩)) = l := by
      simp [Session.record, Session.listed]
    simp only [run, RecordStore.keys, Limited.keep]
    rw [hl]
    exact ih _ h
  | draw count next ih => exact ih _ h
  | mint next ih => exact ih _ h
  | log event next ih => exact ih _ h

end Program
end PhraseVault.Vault
