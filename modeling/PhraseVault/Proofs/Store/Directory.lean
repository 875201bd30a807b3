import PhraseVault.Proofs.Store.Path
import PhraseVault.Proofs.Store.Walk

/-!
# A directory that a path leads to

Reading and changing what stands under a name of a directory, by the path of the directory and that
name, comes down to looking the name up and to changing the entries. The path leads to the directory
still after such a change.
-/
namespace PhraseVault.FileSystem
variable {fs fs' : FileSystem} {follows : Bool → Bool} {p : Path} {t : Trail} {mode : Nat}
variable {es : Entries} {name : Bytes}

/-- Where the walk along a path begins. -/
def start (fs : FileSystem) (p : Path) : Trail := if p.isAbsolute then [] else fs.working

/-- A path that is walked at all. -/
structure Usable (p : Path) : Prop where
  ne_nil : p ≠ []
  zero_not_mem : 0 ∉ p
  length_le : p.length ≤ maxPathLength

theorem usable_of_spot {s : Spot} (h : fs.spot follows p = .ok s) : Usable p := by
  rw [spot] at h
  by_cases hp : p = []
  · rw [if_pos hp] at h
    cases h
  by_cases hz : 0 ∈ p
  · rw [if_neg hp, if_pos hz] at h
    cases h
  by_cases hl : maxPathLength < p.length
  · rw [if_neg hp, if_neg hz, if_pos hl] at h
    cases h
  exact ⟨hp, hz, Nat.not_lt.mp hl⟩

theorem Usable.spot (h : Usable p) : fs.spot follows p =
    fs.walkLinks follows maxLinks (fs.start p) (fs.entries (fs.start p)) p.names p.isClosed := by
  rw [FileSystem.spot, if_neg h.ne_nil, if_neg h.zero_not_mem, if_neg (Nat.not_lt.mpr h.length_le)]
  rfl

/-- A path that any name can be put behind. -/
def HasRoom (p : Path) : Prop := p.length + 1 + maxNameLength ≤ maxPathLength

/-- A path leads to a directory. -/
structure Stands (fs : FileSystem) (p : Path) (t : Trail) (mode : Nat) (es : Entries) : Prop where
  usable : Usable p
  leads : Leads fs maxLinks (fs.start p) p.names t
  node : fs.node? t = some (.directory mode es)

theorem find_eq_ok {n : Node} (h : fs.find p = .ok n) : ∃ s, fs.spot always p = .ok s ∧
    fs.node? s.trail = some n := by
  cases hs : fs.spot always p with
  | error e => simp [find, hs, bind, Except.bind] at h
  | ok s =>
    refine ⟨s, rfl, ?_⟩
    cases hn : fs.node? s.trail with
    | none => simp [find, hs, hn, bind, Except.bind, throw, throwThe, MonadExceptOf.throw] at h
    | some m =>
      simp only [find, hs, hn, bind, Except.bind] at h
      split at h
      · cases h
      · cases h
        rfl

theorem stands_of_find (h : fs.find p = .ok (.directory mode es)) : ∃ t, Stands fs p t mode es := by
  obtain ⟨s, hs, hn⟩ := find_eq_ok h
  have hp := usable_of_spot hs
  rw [hp.spot] at hs
  exact ⟨s.trail, hp, leads_of_walkLinks hs hn, hn⟩

namespace Stands

theorem exists_spot (h : Stands fs p t mode es) :
    ∃ s, fs.spot always p = .ok s ∧ s.trail = t := by
  rw [h.usable.spot]
  exact h.leads.exists_walkLinks _

theorem find (h : Stands fs p t mode es) : fs.find p = .ok (.directory mode es) := by
  obtain ⟨s, hs, rfl⟩ := h.exists_spot
  simp [FileSystem.find, hs, h.node, bind, Except.bind, Node.isDirectory, pure, Except.pure]

theorem holds (h : Stands fs p t mode es) : fs.holds p = true := by
  rw [FileSystem.holds, h.find]
  rfl

theorem list (h : Stands fs p t mode es) : fs.list p = .ok es := by
  rw [FileSystem.list, h.find]
  rfl

theorem entries (h : Stands fs p t mode es) : fs.entries t = es := entries_of_node? h.node

theorem start_eq_of_keeps (hk : Keeps fs fs') (p : Path) : fs'.start p = fs.start p := by
  rw [start, start, hk.working]

theorem keeps (h : Stands fs p t mode es) (hk : Keeps fs fs') {mode' : Nat} {es' : Entries}
    (hn : fs'.node? t = some (.directory mode' es')) : Stands fs' p t mode' es' := by
  refine ⟨h.usable, ?_, hn⟩
  rw [start_eq_of_keeps hk]
  exact h.leads.keeps hk h.node

/-- The path leads to the directory with its entries changed. -/
theorem mapEntries (h : Stands fs p t mode es) {g : Entries → Entries}
    (hg : ∀ name n, es.get? name = some n → n.IsFile ∨ (g es).get? name = some n) :
    Stands (fs.modify (.mapEntries g) t) p t mode (g es) := by
  refine h.keeps (keeps_mapEntries ?_) ?_
  · rwa [h.entries]
  · rw [node?_modify_self, h.node]
    rfl

theorem withMode (h : Stands fs p t mode es) (mode' : Nat) :
    Stands (fs.modify (.withMode mode') t) p t mode' es := by
  refine h.keeps (keeps_withMode mode' t fs) ?_
  rw [node?_modify_self, h.node]
  rfl

section Names
variable (h : Stands fs p t mode es) (hroom : HasRoom p)
variable (hname : Path.IsName name)
include h hroom hname

/-- A name in the directory is where the path with that name behind it ends. -/
theorem spot_join (hlink : ∀ target, es.get? name ≠ some (.link target)) :
    fs.spot follows (p.join name) = endAt t name false := by
  have hp := h.usable.ne_nil
  by_cases hl : maxPathLength < (p.join name).length
  · have hj := Path.length_join_le hp hname
    have hr : p.length + 1 + maxNameLength ≤ maxPathLength := hroom
    have hn : maxNameLength < name.length := by omega
    have hne : p.join name ≠ [] := by
      intro he
      rw [he] at hl
      exact absurd hl (Nat.not_lt_zero _)
    rw [FileSystem.spot, if_neg hne, if_neg (Path.zero_not_mem_join hp h.usable.zero_not_mem hname),
      if_pos hl, endAt, if_pos hn]
  · have hu : Usable (p.join name) := by
      refine ⟨?_, Path.zero_not_mem_join hp h.usable.zero_not_mem hname, Nat.not_lt.mp hl⟩
      intro he
      have hnames := Path.names_join hp hname
      rw [he] at hnames
      simp [Path.names, Path.pieces] at hnames
    have hs : fs.start (p.join name) = fs.start p := by
      rw [start, start, Path.isAbsolute_join hp hname]
    rw [hu.spot, hs, Path.names_join hp hname, Path.isClosed_join hp hname,
      h.leads.walkLinks_append h.node hname.ne_here hname.ne_up hlink]

theorem spot_join_of_length_le (hlink : ∀ target, es.get? name ≠ some (.link target))
    (hl : name.length ≤ maxNameLength) :
    fs.spot follows (p.join name) = .ok ⟨t, some name, false⟩ := by
  rw [h.spot_join hroom hname hlink, endAt, if_neg (Nat.not_lt.mpr hl)]

theorem find_join (hlink : ∀ target, es.get? name ≠ some (.link target))
    (hl : name.length ≤ maxNameLength) :
    fs.find (p.join name) = (es.get? name).elim (.error .notFound) .ok := by
  have hn : fs.node? (name :: t) = es.get? name := by rw [node?_cons, h.entries]
  simp only [FileSystem.find, h.spot_join_of_length_le hroom hname hlink hl, bind, Except.bind,
    Spot.trail, Option.elim_some, hn]
  cases es.get? name <;> rfl

theorem find_join_of_tooLong (hlink : ∀ target, es.get? name ≠ some (.link target))
    (hl : maxNameLength < name.length) : fs.find (p.join name) = .error .nameTooLong := by
  simp only [FileSystem.find, h.spot_join hroom hname hlink, endAt, if_pos hl, bind, Except.bind]

theorem writeFile_join (hfile : ∀ n, es.get? name = some n → n.IsFile)
    (hl : name.length ≤ maxNameLength) (content : Bytes) (fileMode : Nat) :
    fs.writeFile (p.join name) content (fun _ => fileMode) =
      .ok (fs.modify (.mapEntries (.put name (.file content fileMode))) t) := by
  have hn : fs.node? (name :: t) = es.get? name := by rw [node?_cons, h.entries]
  have hlink : ∀ target, es.get? name ≠ some (.link target) := fun target he => hfile _ he
  have hdir : (es.get? name).any Node.isDirectory = false := by
    cases he : es.get? name with
    | none => rfl
    | some n =>
      cases n with
      | directory m inner => exact (hfile _ he).elim
      | _ => rfl
  simp [FileSystem.writeFile, FileSystem.target, h.spot_join_of_length_le hroom hname hlink hl,
    bind, Except.bind, pure, Except.pure, Spot.trail, hn, hdir]

theorem writeFile_join_of_tooLong (hlink : ∀ target, es.get? name ≠ some (.link target))
    (hl : maxNameLength < name.length) (content : Bytes) (mode : Option Node → Nat) :
    fs.writeFile (p.join name) content mode = .error .nameTooLong := by
  simp only [FileSystem.writeFile, FileSystem.target, h.spot_join hroom hname hlink, endAt,
    if_pos hl, bind, Except.bind]

theorem remove_join {content : Bytes} {fileMode : Nat}
    (hfile : es.get? name = some (.file content fileMode)) (hl : name.length ≤ maxNameLength) :
    fs.remove (p.join name) = .ok (fs.modify (.mapEntries (.without name)) t) := by
  have hn : fs.node? (name :: t) = some (.file content fileMode) := by
    rw [node?_cons, h.entries, hfile]
  have hlink : ∀ target, es.get? name ≠ some (.link target) := by simp [hfile]
  simp [FileSystem.remove, h.spot_join_of_length_le hroom hname hlink hl, bind, Except.bind, pure,
    Except.pure, Spot.trail, hn]

/-- A file takes another name of the directory, in the place of the file of that name. -/
theorem rename_join {target content : Bytes} {fileMode : Nat} (htarget : Path.IsName target)
    (hfile : es.get? name = some (.file content fileMode))
    (hother : ∀ n, es.get? target = some n → n.IsFile)
    (hl : name.length ≤ maxNameLength) (hlt : target.length ≤ maxNameLength) :
    fs.rename (p.join name) (p.join target) =
      .ok ((fs.modify (.mapEntries (.without name)) t).modify
        (.mapEntries (.put target (.file content fileMode))) t) := by
  have hn : fs.node? (name :: t) = some (.file content fileMode) := by
    rw [node?_cons, h.entries, hfile]
  have hm : fs.node? (target :: t) = es.get? target := by rw [node?_cons, h.entries]
  have hlink : ∀ target, es.get? name ≠ some (.link target) := by simp [hfile]
  have hlinkt : ∀ other, es.get? target ≠ some (.link other) := fun other he => hother _ he
  have hdir : (es.get? target).any Node.isDirectory = false := by
    cases he : es.get? target with
    | none => rfl
    | some n =>
      cases n with
      | directory m inner => exact (hother _ he).elim
      | _ => rfl
  simp [FileSystem.rename, h.spot_join_of_length_le hroom hname hlink hl,
    h.spot_join_of_length_le hroom htarget hlinkt hlt, bind, Except.bind, pure, Except.pure,
    Spot.trail, hn, hm, hdir, Node.isDirectory]

end Names
end Stands

/-- Where a name is found behind a path, the path leads to a directory. -/
theorem exists_find_of_find_join {n : Node} (hp : Usable p) (hname : Path.IsName name)
    (h : fs.find (p.join name) = .ok n) : ∃ m, fs.find p = .ok m := by
  obtain ⟨s, hs, hn⟩ := find_eq_ok h
  have hstart : fs.start (p.join name) = fs.start p := by
    rw [start, start, Path.isAbsolute_join hp.ne_nil hname]
  rw [(usable_of_spot hs).spot, hstart, Path.names_join hp.ne_nil hname] at hs
  obtain ⟨top, m, hleads, hm⟩ :=
    (leads_of_walkLinks hs hn).exists_node_of_append hname.ne_here hname.ne_up
  obtain ⟨mode, es, hd⟩ := exists_directory_of_node?_cons hm
  exact ⟨_, Stands.find ⟨hp, hleads, hd⟩⟩

end PhraseVault.FileSystem
