import PhraseVault.Proofs.Store.Tree

/-!
# Walks to a directory and one name on

A walk through links is described by a relation that follows the names one by one. It agrees with
the walk that operations make, is not disturbed by what keeps directories and links, and goes on
from a directory to a name in it.
-/
namespace PhraseVault.FileSystem
variable {fs fs' : FileSystem} {follows : Bool → Bool} {links : Nat} {t top : Trail}
variable {name : Bytes} {names rest : List Bytes} {closed : Bool}

/-- A name that a node can have and that leads to no directory by itself. -/
structure Ordinary (name : Bytes) : Prop where
  ne_here : name ≠ Path.here
  ne_up : name ≠ Path.up
  length_le : name.length ≤ maxNameLength

/-- Where a link found at `t` starts. -/
def base (t : Trail) (target : Path) : Trail := if target.isAbsolute then [] else t

/-- Names lead from a directory to a file or a directory, through at most so many links. -/
inductive Leads (fs : FileSystem) : (links : Nat) → Trail → List Bytes → Trail → Prop
  | done (links : Nat) (t : Trail) : Leads fs links t [] t
  | here {links t rest last} (h : Leads fs links t rest last) :
    Leads fs links t (Path.here :: rest) last
  | up {links t rest last} (h : Leads fs links t.tail rest last) :
    Leads fs links t (Path.up :: rest) last
  | file {links t name content mode} (ho : Ordinary name)
    (hn : fs.node? (name :: t) = some (.file content mode)) :
    Leads fs links t [name] (name :: t)
  | down {links t name rest last mode es} (ho : Ordinary name)
    (hn : fs.node? (name :: t) = some (.directory mode es))
    (h : Leads fs links (name :: t) rest last) : Leads fs links t (name :: rest) last
  | link {links t name target rest last} (ho : Ordinary name)
    (hn : fs.node? (name :: t) = some (.link target))
    (h : Leads fs links (base t target) (target.names ++ rest) last) :
    Leads fs (links + 1) t (name :: rest) last

section Steps

/-- How a walk goes on from a link. -/
def detour (fs : FileSystem) (follows : Bool → Bool) :
    Nat → Trail → Entries → List Bytes → Bool → Except IoFault Spot
  | 0 => fun _ _ _ _ => .error .tooManyLinks
  | links + 1 => fs.walkLinks follows links

private theorem walkLinks_eq (links : Nat) :
    fs.walkLinks follows links = fs.walk follows (fs.detour follows links) := by
  cases links with
  | zero => rfl
  | succ links => rfl

private theorem walkLinks_ordinary (ho : Ordinary name) (es : Entries) :
    fs.walkLinks follows links t es (name :: rest) closed =
      match es.get? name, rest with
      | some (.link target), rest =>
        if rest = [] ∧ ¬follows closed then .ok ⟨t, some name, closed⟩
        else
          let closed := closed || (rest.isEmpty && target.isClosed)
          if target.isAbsolute then
            fs.detour follows links [] (fs.entries []) (target.names ++ rest) closed
          else fs.detour follows links t es (target.names ++ rest) closed
      | _, [] => .ok ⟨t, some name, closed⟩
      | some (.directory _ inner), rest => fs.walkLinks follows links (name :: t) inner rest closed
      | some (.file ..), _ => .error .notDirectory
      | none, _ => .error .notFound := by
  rw [walkLinks_eq, walk.eq_def]
  exact (if_neg ho.ne_here).trans ((if_neg ho.ne_up).trans
    (if_neg (Nat.not_lt.mpr ho.length_le)))

theorem walkLinks_nil :
    fs.walkLinks follows links t (fs.entries t) [] closed = .ok ⟨t, none, closed⟩ := by
  rw [walkLinks_eq]
  rfl

theorem walkLinks_here : fs.walkLinks follows links t (fs.entries t) (Path.here :: rest) closed =
    fs.walkLinks follows links t (fs.entries t) rest closed := by
  rw [walkLinks_eq, walk.eq_def]
  exact if_pos rfl

theorem walkLinks_up : fs.walkLinks follows links t (fs.entries t) (Path.up :: rest) closed =
    fs.walkLinks follows links t.tail (fs.entries t.tail) rest closed := by
  have hne : Path.up ≠ Path.here := by decide
  rw [walkLinks_eq, walk.eq_def]
  exact (if_neg hne).trans (if_pos rfl)

theorem walkLinks_tooLong (hh : name ≠ Path.here) (hu : name ≠ Path.up)
    (hl : maxNameLength < name.length) :
    fs.walkLinks follows links t (fs.entries t) (name :: rest) closed = .error .nameTooLong := by
  rw [walkLinks_eq, walk.eq_def]
  exact (if_neg hh).trans ((if_neg hu).trans (if_pos hl))

theorem walkLinks_down (ho : Ordinary name) {mode : Nat} {es : Entries}
    (hn : fs.node? (name :: t) = some (.directory mode es)) (hr : rest ≠ []) :
    fs.walkLinks follows links t (fs.entries t) (name :: rest) closed =
      fs.walkLinks follows links (name :: t) (fs.entries (name :: t)) rest closed := by
  obtain ⟨next, rest, rfl⟩ := List.exists_cons_of_ne_nil hr
  have he := entries_of_node? hn
  rw [node?_cons] at hn
  simp only [walkLinks_ordinary ho, hn, he]

theorem walkLinks_last (ho : Ordinary name)
    (hn : ∀ target, fs.node? (name :: t) = some (.link target) → follows closed = false) :
    fs.walkLinks follows links t (fs.entries t) [name] closed = .ok ⟨t, some name, closed⟩ := by
  cases hm : (fs.entries t).get? name with
  | none => simp only [walkLinks_ordinary ho, hm]
  | some m =>
    cases m with
    | link target =>
      have hf := hn target ((node?_cons fs name t).trans hm)
      simp [walkLinks_ordinary ho, hm, hf]
    | file content mode => simp only [walkLinks_ordinary ho, hm]
    | directory mode es => simp only [walkLinks_ordinary ho, hm]

/-- A link is followed unless it is the last of the names and is to be left alone. -/
private theorem walkLinks_detour (ho : Ordinary name) {target : Path}
    (hn : fs.node? (name :: t) = some (.link target)) (hr : rest ≠ [] ∨ follows closed = true) :
    fs.walkLinks follows links t (fs.entries t) (name :: rest) closed =
      fs.detour follows links (base t target) (fs.entries (base t target))
        (target.names ++ rest) (closed || (rest.isEmpty && target.isClosed)) := by
  have hc : ¬ (rest = [] ∧ ¬ follows closed = true) := by
    rintro ⟨rfl, hf⟩
    exact hr.elim (fun h => h rfl) hf
  rw [node?_cons] at hn
  simp only [walkLinks_ordinary ho, hn, if_neg hc, base]
  split <;> rfl

theorem walkLinks_link (ho : Ordinary name) {target : Path}
    (hn : fs.node? (name :: t) = some (.link target)) (hr : rest ≠ [] ∨ follows closed = true) :
    fs.walkLinks follows (links + 1) t (fs.entries t) (name :: rest) closed =
      fs.walkLinks follows links (base t target) (fs.entries (base t target))
        (target.names ++ rest) (closed || (rest.isEmpty && target.isClosed)) :=
  walkLinks_detour ho hn hr

theorem walkLinks_zero_link (ho : Ordinary name) {target : Path}
    (hn : fs.node? (name :: t) = some (.link target)) (hr : rest ≠ [] ∨ follows closed = true) :
    fs.walkLinks follows 0 t (fs.entries t) (name :: rest) closed = .error .tooManyLinks :=
  walkLinks_detour ho hn hr

/-- Only a directory or a link can be passed through. -/
theorem exists_walkLinks_eq_error (ho : Ordinary name)
    (hn : ∀ n, fs.node? (name :: t) = some n → n.IsFile) (hr : rest ≠ []) :
    ∃ e, fs.walkLinks follows links t (fs.entries t) (name :: rest) closed = .error e := by
  obtain ⟨next, rest, rfl⟩ := List.exists_cons_of_ne_nil hr
  simp only [node?_cons] at hn
  cases hm : (fs.entries t).get? name with
  | none => exact ⟨.notFound, by simp only [walkLinks_ordinary ho, hm]⟩
  | some m =>
    cases m with
    | file content mode => exact ⟨.notDirectory, by simp only [walkLinks_ordinary ho, hm]⟩
    | link target => exact (hn _ hm).elim
    | directory mode es => exact (hn _ hm).elim

end Steps

/-- The end of a walk whose last name is no link. -/
def endAt (t : Trail) (name : Bytes) (closed : Bool) : Except IoFault Spot :=
  if maxNameLength < name.length then .error .nameTooLong else .ok ⟨t, some name, closed⟩

theorem walkLinks_singleton (hh : name ≠ Path.here) (hu : name ≠ Path.up)
    (hn : ∀ target, fs.node? (name :: t) ≠ some (.link target)) :
    fs.walkLinks follows links t (fs.entries t) [name] closed = endAt t name closed := by
  by_cases hl : maxNameLength < name.length
  · rw [walkLinks_tooLong hh hu hl, endAt, if_pos hl]
  · rw [walkLinks_last ⟨hh, hu, Nat.not_lt.mp hl⟩ fun target h => absurd h (hn target), endAt,
      if_neg hl]

/-- What a walk does at an ordinary name: it ends there, takes a detour or goes down. -/
theorem walkLinks_cons_cases (ho : Ordinary name) {s : Spot}
    (h : fs.walkLinks follows links t (fs.entries t) (name :: rest) closed = .ok s) :
    (rest = [] ∧ s = ⟨t, some name, closed⟩ ∧
      ∀ target, fs.node? (name :: t) = some (.link target) → follows closed = false) ∨
    (∃ fewer target closed', links = fewer + 1 ∧ (rest ≠ [] ∨ follows closed = true) ∧
      fs.node? (name :: t) = some (.link target) ∧
      fs.walkLinks follows fewer (base t target) (fs.entries (base t target))
        (target.names ++ rest) closed' = .ok s) ∨
    ∃ mode es, rest ≠ [] ∧ fs.node? (name :: t) = some (.directory mode es) ∧
      fs.walkLinks follows links (name :: t) (fs.entries (name :: t)) rest closed = .ok s := by
  by_cases hlink : ∃ target, fs.node? (name :: t) = some (.link target) ∧
      (rest ≠ [] ∨ follows closed = true)
  · obtain ⟨target, hm, hr⟩ := hlink
    cases links with
    | zero =>
      rw [walkLinks_zero_link ho hm hr] at h
      cases h
    | succ fewer =>
      rw [walkLinks_link ho hm hr] at h
      exact .inr (.inl ⟨fewer, target, _, rfl, hr, hm, h⟩)
  by_cases hr : rest = []
  · subst hr
    have hleft : ∀ target, fs.node? (name :: t) = some (.link target) → follows closed = false := by
      intro target hm
      rw [Bool.eq_false_iff]
      exact fun hf => hlink ⟨target, hm, .inr hf⟩
    rw [walkLinks_last ho hleft] at h
    cases h
    exact .inl ⟨rfl, rfl, hleft⟩
  by_cases hd : ∃ mode es, fs.node? (name :: t) = some (.directory mode es)
  · obtain ⟨mode, es, hm⟩ := hd
    rw [walkLinks_down ho hm hr] at h
    exact .inr (.inr ⟨mode, es, hr, hm, h⟩)
  · have hf : ∀ n, fs.node? (name :: t) = some n → n.IsFile := by
      intro n hm
      cases n with
      | file content mode => trivial
      | link target => exact hlink ⟨target, hm, .inl hr⟩
      | directory mode es => exact hd ⟨mode, es, hm⟩
    obtain ⟨e, he⟩ := exists_walkLinks_eq_error ho hf hr
    cases he.symm.trans h

/-- A walk that ends at a node is one that its names lead. -/
theorem leads_of_walkLinks {fs : FileSystem} {links : Nat} {t : Trail} {names : List Bytes}
    {closed : Bool} {s : Spot} {n : Node}
    (h : fs.walkLinks always links t (fs.entries t) names closed = .ok s)
    (hn : fs.node? s.trail = some n) : Leads fs links t names s.trail := by
  cases names with
  | nil =>
    rw [walkLinks_nil] at h
    cases h
    exact .done links t
  | cons name rest =>
    by_cases hh : name = Path.here
    · subst hh
      rw [walkLinks_here] at h
      exact .here (leads_of_walkLinks h hn)
    by_cases hu : name = Path.up
    · subst hu
      rw [walkLinks_up] at h
      exact .up (leads_of_walkLinks h hn)
    by_cases hl : maxNameLength < name.length
    · rw [walkLinks_tooLong hh hu hl] at h
      cases h
    have ho : Ordinary name := ⟨hh, hu, Nat.not_lt.mp hl⟩
    rcases walkLinks_cons_cases ho h with
      ⟨rfl, rfl, hleft⟩ | ⟨fewer, target, closed, rfl, -, hm, h⟩ | ⟨mode, es, -, hm, h⟩
    · cases n with
      | file content mode => exact .file ho hn
      | link target => cases hleft target hn
      | directory mode es => exact .down ho hn (.done links _)
    · exact .link ho hm (leads_of_walkLinks h hn)
    · exact .down ho hm (leads_of_walkLinks h hn)
termination_by (links, names.length)

namespace Leads
variable {last : Trail}

theorem exists_walkLinks (h : Leads fs links t names last) (closed : Bool) :
    ∃ s, fs.walkLinks always links t (fs.entries t) names closed = .ok s ∧ s.trail = last := by
  induction h generalizing closed with
  | done links t => exact ⟨_, walkLinks_nil, rfl⟩
  | here h ih =>
    rw [walkLinks_here]
    exact ih closed
  | up h ih =>
    rw [walkLinks_up]
    exact ih closed
  | file ho hn => exact ⟨_, walkLinks_last ho (by simp [hn]), rfl⟩
  | @down links t name rest last mode es ho hn h ih =>
    by_cases hr : rest = []
    · subst hr
      cases h
      exact ⟨_, walkLinks_last ho (by simp [hn]), rfl⟩
    · rw [walkLinks_down ho hn hr]
      exact ih closed
  | link ho hn h ih =>
    rw [walkLinks_link ho hn (.inr rfl)]
    exact ih _

/-- From a directory a walk goes on to a name that is no link there. -/
theorem walkLinks_append (h : Leads fs links t names last) {mode : Nat} {es : Entries}
    (hd : fs.node? last = some (.directory mode es)) (hh : name ≠ Path.here) (hu : name ≠ Path.up)
    (hn : ∀ target, es.get? name ≠ some (.link target)) :
    fs.walkLinks follows links t (fs.entries t) (names ++ [name]) closed =
      endAt last name closed := by
  induction h with
  | done links t =>
    refine walkLinks_singleton hh hu ?_
    rwa [node?_cons, entries_of_node? hd]
  | here h ih => rw [List.cons_append, walkLinks_here, ih hd]
  | up h ih => rw [List.cons_append, walkLinks_up, ih hd]
  | file ho hm => cases hm.symm.trans hd
  | down ho hm h ih => rw [List.cons_append, walkLinks_down ho hm (by simp), ih hd]
  | link ho hm h ih =>
    have hr : ∀ rest : List Bytes, (rest ++ [name]).isEmpty = false := by simp
    rw [List.cons_append, walkLinks_link ho hm (.inl (by simp)), ← List.append_assoc, hr,
      Bool.false_and, Bool.or_false, ih hd]

theorem keeps (h : Leads fs links t names last) (hk : Keeps fs fs') {mode : Nat} {es : Entries}
    (hd : fs.node? last = some (.directory mode es)) : Leads fs' links t names last := by
  induction h with
  | done links t => exact .done links t
  | here h ih => exact .here (ih hd)
  | up h ih => exact .up (ih hd)
  | file ho hm => cases hm.symm.trans hd
  | down ho hm h ih =>
    obtain ⟨mode, es, hm⟩ := hk.directory hm
    exact .down ho hm (ih hd)
  | link ho hm h ih => exact .link ho (hk.link hm) (ih hd)

/-- Whatever names come after it, those before a name lead to where it is found. -/
theorem exists_node_of_append (h : Leads fs links t (names ++ name :: rest) last)
    (hh : name ≠ Path.here) (hu : name ≠ Path.up) :
    ∃ top n, Leads fs links t names top ∧ fs.node? (name :: top) = some n := by
  generalize hl : names ++ name :: rest = l at h
  induction h generalizing names with
  | done links t => simp at hl
  | here h ih =>
    cases names with
    | nil => exact absurd (List.head_eq_of_cons_eq hl) hh
    | cons first names =>
      obtain ⟨rfl, rfl⟩ := List.cons_eq_cons.mp hl
      obtain ⟨top, n, hnames, hn⟩ := ih rfl
      exact ⟨top, n, .here hnames, hn⟩
  | up h ih =>
    cases names with
    | nil => exact absurd (List.head_eq_of_cons_eq hl) hu
    | cons first names =>
      obtain ⟨rfl, rfl⟩ := List.cons_eq_cons.mp hl
      obtain ⟨top, n, hnames, hn⟩ := ih rfl
      exact ⟨top, n, .up hnames, hn⟩
  | @file links t _ _ _ ho hm =>
    cases names with
    | nil =>
      obtain ⟨rfl, -⟩ := List.cons_eq_cons.mp hl
      exact ⟨t, _, .done links t, hm⟩
    | cons first names => simp at hl
  | @down links t _ _ _ _ _ ho hm h ih =>
    cases names with
    | nil =>
      obtain ⟨rfl, -⟩ := List.cons_eq_cons.mp hl
      exact ⟨t, _, .done links t, hm⟩
    | cons first names =>
      obtain ⟨rfl, rfl⟩ := List.cons_eq_cons.mp hl
      obtain ⟨top, n, hnames, hn⟩ := ih rfl
      exact ⟨top, n, .down ho hm hnames, hn⟩
  | @link links t _ target _ _ ho hm h ih =>
    cases names with
    | nil =>
      obtain ⟨rfl, -⟩ := List.cons_eq_cons.mp hl
      exact ⟨t, _, .done (links + 1) t, hm⟩
    | cons first names =>
      obtain ⟨rfl, rfl⟩ := List.cons_eq_cons.mp hl
      obtain ⟨top, n, hnames, hn⟩ := ih (List.append_assoc target.names names (name :: rest))
      exact ⟨top, n, .link ho hm hnames, hn⟩

end Leads

end PhraseVault.FileSystem
