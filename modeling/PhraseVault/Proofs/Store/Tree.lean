import PhraseVault.Store.FileSystem

/-!
# What a change of one node leaves of the tree

An operation changes the entries or the mode of one node. As long as it touches no directory and no
link among those entries, every directory stays a directory and every link leads where it led, so
that walks to a directory are not disturbed.
-/
namespace PhraseVault

namespace Node

theorem find?_append (n : Node) (l rest : List Bytes) :
    n.find? (l ++ rest) = (n.find? l).bind (·.find? rest) := by
  induction l generalizing n with
  | nil => rfl
  | cons name l ih =>
    cases n with
    | file content mode => rfl
    | link target => rfl
    | directory mode es =>
      simp only [List.cons_append, find?]
      cases Entries.get? es name with
      | none => rfl
      | some m => exact ih m

theorem find?_modify_self (f : Node → Node) (n : Node) (l : List Bytes) :
    (n.modify f l).find? l = (n.find? l).map f := by
  induction l generalizing n with
  | nil => rfl
  | cons name l ih =>
    cases n with
    | file content mode => rfl
    | link target => rfl
    | directory mode es =>
      simp only [modify, find?]
      cases he : Entries.get? es name with
      | none => simp [he]
      | some m => simp only [Entries.get?_put_self, ih]

def IsFile : Node → Prop
  | file .. => True
  | _ => False

/-- What has become of a node: a directory is one still, and a link leads where it led. Of a file
nothing is said. -/
def Stays : Node → Option Node → Prop
  | file .., _ => True
  | link target, n => n = some (link target)
  | directory .., n => ∃ mode es, n = some (directory mode es)

theorem Stays.refl (n : Node) : n.Stays (some n) := by
  cases n with
  | file content mode => trivial
  | link target => rfl
  | directory mode es => exact ⟨mode, es, rfl⟩

/-- A change of one node keeps what stays below it, and all else. -/
theorem stays_find?_modify {f : Node → Node} {n : Node} {place l : List Bytes}
    (hf : ∀ m, n.find? place = some m →
      ∀ l k, m.find? l = some k → k.Stays ((f m).find? l))
    {k : Node} (hk : n.find? l = some k) : k.Stays ((n.modify f place).find? l) := by
  induction place generalizing n l with
  | nil => exact hf n rfl l k hk
  | cons name place ih =>
    cases n with
    | file content mode =>
      simp only [modify]
      rw [hk]
      exact .refl k
    | link target =>
      simp only [modify]
      rw [hk]
      exact .refl k
    | directory mode es =>
      simp only [modify]
      cases he : Entries.get? es name with
      | none =>
        simp only [hk]
        exact .refl k
      | some m =>
        cases l with
        | nil =>
          cases hk
          exact ⟨_, _, rfl⟩
        | cons other l =>
          by_cases ho : other = name
          · subst ho
            simp only [find?, he] at hk
            simp only [find?, Entries.get?_put_self]
            refine ih (fun m' hm' => hf m' ?_) hk
            simpa only [find?, he] using hm'
          · have hsame : (directory mode (Entries.put name (m.modify f place) es)).find? (other :: l) =
                (directory mode es).find? (other :: l) := by
              simp only [find?, Entries.get?_put_of_ne ho]
            rw [hsame, hk]
            exact .refl k

/-- Changing nothing but files among the entries of a directory keeps what stays. -/
theorem stays_find?_mapEntries {g : Entries → Entries} {mode : Nat} {es : Entries}
    (hg : ∀ name n, es.get? name = some n → n.IsFile ∨ (g es).get? name = some n)
    {l : List Bytes} {k : Node} (hk : (directory mode es).find? l = some k) :
    k.Stays (((directory mode es).mapEntries g).find? l) := by
  cases l with
  | nil =>
    cases hk
    exact ⟨_, _, rfl⟩
  | cons name l =>
    simp only [find?] at hk
    cases he : Entries.get? es name with
    | none => simp [he] at hk
    | some m =>
      simp only [he] at hk
      simp only [mapEntries, find?]
      rcases hg name m he with hm | hm
      · cases m with
        | file content mode =>
          cases l with
          | nil =>
            cases hk
            trivial
          | cons other l => cases hk
        | link target => exact hm.elim
        | directory mode inner => exact hm.elim
      · simp only [hm, hk]
        exact .refl k

theorem stays_find?_withMode (mode : Nat) {n : Node} {l : List Bytes} {k : Node}
    (hk : n.find? l = some k) : k.Stays ((n.withMode mode).find? l) := by
  cases l with
  | nil =>
    cases hk
    cases n with
    | file content mode => trivial
    | link target => rfl
    | directory mode es => exact ⟨_, _, rfl⟩
  | cons name l =>
    cases n with
    | file content mode => cases hk
    | link target => cases hk
    | directory _ es => exact hk ▸ Stays.refl k

end Node

namespace Entries

theorem mem_of_get? {name : Bytes} {n : Node} {es : Entries} (h : es.get? name = some n) :
    (name, n) ∈ es := by
  induction es with
  | nil => cases h
  | cons e es ih =>
    obtain ⟨other, m⟩ := e
    rw [get?_cons] at h
    by_cases he : name = other
    · rw [if_pos he] at h
      cases h
      rw [he]
      exact List.mem_cons_self
    · rw [if_neg he] at h
      exact List.mem_cons_of_mem _ (ih h)

end Entries

namespace FileSystem
variable {fs : FileSystem} {t : Trail}

theorem node?_cons (fs : FileSystem) (name : Bytes) (t : Trail) :
    fs.node? (name :: t) = (fs.entries t).get? name := by
  rw [node?, List.reverse_cons, Node.find?_append, entries, node?]
  cases fs.top.find? t.reverse with
  | none => rfl
  | some n =>
    cases n with
    | file content mode => rfl
    | link target => rfl
    | directory mode es =>
      simp only [Option.bind_some, Node.find?]
      cases Entries.get? es name <;> rfl

theorem entries_of_node? {mode : Nat} {es : Entries} (h : fs.node? t = some (.directory mode es)) :
    fs.entries t = es := by
  rw [entries, h]

/-- What holds an entry is a directory. -/
theorem exists_directory_of_node?_cons {name : Bytes} {n : Node}
    (h : fs.node? (name :: t) = some n) : ∃ mode es, fs.node? t = some (.directory mode es) := by
  rw [node?_cons, entries] at h
  split at h
  · next mode es he => exact ⟨mode, es, he⟩
  · cases h

theorem node?_modify_self (f : Node → Node) (t : Trail) (fs : FileSystem) :
    (fs.modify f t).node? t = (fs.node? t).map f :=
  Node.find?_modify_self f fs.top t.reverse

/-- Each directory is one still, and each link leads where it led. -/
structure Keeps (fs fs' : FileSystem) : Prop where
  working : fs'.working = fs.working
  stays : ∀ t n, fs.node? t = some n → n.Stays (fs'.node? t)

theorem Keeps.directory {fs' : FileSystem} (h : Keeps fs fs') {mode : Nat} {es : Entries}
    (hd : fs.node? t = some (.directory mode es)) :
    ∃ mode es, fs'.node? t = some (.directory mode es) :=
  h.stays t _ hd

theorem Keeps.link {fs' : FileSystem} (h : Keeps fs fs') {target : Path}
    (hl : fs.node? t = some (.link target)) : fs'.node? t = some (.link target) :=
  h.stays t _ hl

theorem keeps_mapEntries {g : Entries → Entries}
    (hg : ∀ name n, (fs.entries t).get? name = some n →
      n.IsFile ∨ (g (fs.entries t)).get? name = some n) :
    Keeps fs (fs.modify (.mapEntries g) t) := by
  refine ⟨rfl, fun l n hn => Node.stays_find?_modify (fun m hm l k hk => ?_) hn⟩
  cases m with
  | file content mode =>
    rw [show (Node.file content mode).mapEntries g = .file content mode from rfl, hk]
    exact .refl k
  | link target =>
    rw [show (Node.link target).mapEntries g = .link target from rfl, hk]
    exact .refl k
  | directory mode es =>
    rw [entries_of_node? hm] at hg
    exact Node.stays_find?_mapEntries hg hk

theorem keeps_withMode (mode : Nat) (t : Trail) (fs : FileSystem) :
    Keeps fs (fs.modify (.withMode mode) t) :=
  ⟨rfl, fun _ _ hn =>
    Node.stays_find?_modify (fun _ _ _ _ hk => Node.stays_find?_withMode mode hk) hn⟩

end FileSystem
end PhraseVault
