import PhraseVault.Proofs.Store.Tree

/-!
# Directories with nothing but files

Their entries are in order and have names that a file system can hold. Putting a file under a name
and taking a name away leaves them so.
-/
namespace PhraseVault

theorem Node.isFile_iff {n : Node} : n.IsFile ↔ ∃ content mode, n = .file content mode := by
  cases n <;> simp [Node.IsFile]

/-- What a file holds. -/
def Node.content? : Node → Option Bytes
  | .file content _ => some content
  | _ => none

namespace Entries
variable {es : Entries} {name : Bytes} {n : Node}

theorem mem_put {e : Bytes × Node} (h : e ∈ put name n es) : e = (name, n) ∨ e ∈ es := by
  induction es with
  | nil => exact .inl (List.mem_singleton.mp h)
  | cons first es ih =>
    obtain ⟨other, m⟩ := first
    rw [put] at h
    split at h
    · rcases List.mem_cons.mp h with h | h
      · exact .inl h
      · exact .inr (List.mem_cons_of_mem _ h)
    · split at h
      · exact List.mem_cons.mp h
      · rcases List.mem_cons.mp h with h | h
        · exact .inr (h ▸ List.mem_cons_self)
        · exact (ih h).imp_right (List.mem_cons_of_mem _)

/-- The names are in increasing order. -/
def Sorted (es : Entries) : Prop := es.Pairwise fun a b => a.1 < b.1

theorem Sorted.put (h : Sorted es) (name : Bytes) (n : Node) : Sorted (put name n es) := by
  induction es with
  | nil => exact List.pairwise_singleton _ _
  | cons first es ih =>
    obtain ⟨other, m⟩ := first
    have hc := List.pairwise_cons.mp h
    rw [Entries.put]
    by_cases he : other = name
    · subst he
      rw [if_pos rfl]
      exact List.pairwise_cons.mpr hc
    · rw [if_neg he]
      by_cases hl : name < other
      · rw [if_pos hl]
        refine List.pairwise_cons.mpr ⟨fun e hmem => ?_, h⟩
        rcases List.mem_cons.mp hmem with rfl | hmem
        · exact hl
        · exact List.lt_trans hl (hc.1 e hmem)
      · rw [if_neg hl]
        have ho : other < name := Std.lt_of_le_of_ne (List.not_lt.mp hl) he
        refine List.pairwise_cons.mpr ⟨fun e hmem => ?_, ih hc.2⟩
        rcases mem_put hmem with rfl | hmem
        · exact ho
        · exact hc.1 e hmem

theorem Sorted.without (h : Sorted es) (name : Bytes) : Sorted (without name es) := h.filter _

theorem Sorted.get?_of_mem (h : Sorted es) (hm : (name, n) ∈ es) : es.get? name = some n := by
  induction es with
  | nil => cases hm
  | cons first es ih =>
    obtain ⟨other, m⟩ := first
    have hc := List.pairwise_cons.mp h
    rw [get?_cons]
    rcases List.mem_cons.mp hm with hm | hm
    · cases hm
      rw [if_pos rfl]
    · have hne : name ≠ other := by
        intro he
        exact List.lt_irrefl other (he ▸ hc.1 _ hm)
      rw [if_neg hne, ih hc.2 hm]

/-- The entries of a directory without directories and links in it. -/
structure OnlyFiles (es : Entries) : Prop where
  sorted : Sorted es
  isFile : ∀ e ∈ es, e.2.IsFile
  ne_nil : ∀ e ∈ es, e.1 ≠ []
  short : ∀ e ∈ es, e.1.length ≤ FileSystem.maxNameLength

namespace OnlyFiles

theorem nil : OnlyFiles [] := ⟨List.Pairwise.nil, by simp, by simp, by simp⟩

theorem put (h : OnlyFiles es) (hn : name ≠ []) (hl : name.length ≤ FileSystem.maxNameLength)
    (content : Bytes) (mode : Nat) : OnlyFiles (Entries.put name (.file content mode) es) where
  sorted := h.sorted.put name _
  isFile e he := by
    rcases mem_put he with rfl | he
    · trivial
    · exact h.isFile e he
  ne_nil e he := by
    rcases mem_put he with rfl | he
    · exact hn
    · exact h.ne_nil e he
  short e he := by
    rcases mem_put he with rfl | he
    · exact hl
    · exact h.short e he

theorem without (h : OnlyFiles es) (name : Bytes) : OnlyFiles (Entries.without name es) where
  sorted := h.sorted.without name
  isFile e he := h.isFile e (List.mem_filter.mp he).1
  ne_nil e he := h.ne_nil e (List.mem_filter.mp he).1
  short e he := h.short e (List.mem_filter.mp he).1

theorem isFile_of_get? (h : OnlyFiles es) (hn : es.get? name = some n) : n.IsFile :=
  h.isFile _ (mem_of_get? hn)

theorem short_of_get? (h : OnlyFiles es) (hn : es.get? name = some n) :
    name.length ≤ FileSystem.maxNameLength :=
  h.short _ (mem_of_get? hn)

theorem get?_ne_link (h : OnlyFiles es) (target : Path) : es.get? name ≠ some (.link target) :=
  fun hn => h.isFile_of_get? hn

theorem get?_eq_none (h : OnlyFiles es) (hl : FileSystem.maxNameLength < name.length) :
    es.get? name = none := by
  cases hn : es.get? name with
  | none => rfl
  | some n => exact absurd (h.short_of_get? hn) (Nat.not_le.mpr hl)

end OnlyFiles
end Entries
end PhraseVault
