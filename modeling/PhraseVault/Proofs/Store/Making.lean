import PhraseVault.Proofs.Store.Directory
import Mathlib.Data.List.Range

/-!
# Making a directory and those above it

A directory that has just been made is empty. When a path leads nowhere and goes up only within
what is there, and its directory is made together with those above it, each of them is made in an
empty one, so the path leads to an empty directory afterwards. With `..` behind a name that is not
there this need not be so: once `b` is made, `b/..` is the directory that `b` is in.
-/
namespace PhraseVault.FileSystem
variable {fs fs' : FileSystem} {follows : Bool → Bool} {links : Nat} {t last : Trail} {p q : Path}
variable {name : Bytes} {names rest : List Bytes} {closed : Bool} {mode : Nat} {es : Entries}

/-- There is a directory at the end of a trail. -/
def HasDirectory (fs : FileSystem) (t : Trail) : Prop :=
  ∃ mode es, fs.node? t = some (.directory mode es)

theorem HasDirectory.tail (h : HasDirectory fs t) : HasDirectory fs t.tail := by
  cases t with
  | nil => exact h
  | cons name t =>
    obtain ⟨mode, es, hd⟩ := h
    exact exists_directory_of_node?_cons hd

theorem HasDirectory.top (h : HasDirectory fs t) : HasDirectory fs [] := by
  induction t with
  | nil => exact h
  | cons name t ih => exact ih h.tail

theorem HasDirectory.base (h : HasDirectory fs t) (target : Path) :
    HasDirectory fs (base t target) := by
  rw [FileSystem.base]
  split
  · exact h.top
  · exact h

/-- A walk begins at the top or in the working directory. -/
theorem HasDirectory.start (h : HasDirectory fs fs.working) (p : Path) :
    HasDirectory fs (fs.start p) := by
  rw [FileSystem.start]
  split
  · exact h.top
  · exact h

theorem HasDirectory.keeps (h : HasDirectory fs fs.working) (hk : Keeps fs fs') :
    HasDirectory fs' fs'.working := by
  obtain ⟨mode, es, hd⟩ := h
  rw [hk.working]
  exact hk.directory hd

/-- Where a walk that ends at a name has come through before that name, if a link at its end is
left alone. -/
theorem exists_leads_of_walkLinks_never {fs : FileSystem} {links : Nat} {t folder : Trail}
    {names : List Bytes} {name : Bytes} {closed closed' : Bool}
    (h : fs.walkLinks never links t (fs.entries t) names closed = .ok ⟨folder, some name, closed'⟩)
    (ht : HasDirectory fs t) : ∃ init, names = init ++ [name] ∧ Ordinary name ∧
      Leads fs links t init folder ∧ HasDirectory fs folder := by
  cases names with
  | nil =>
    rw [walkLinks_nil] at h
    cases h
  | cons first rest =>
    by_cases hh : first = Path.here
    · subst hh
      rw [walkLinks_here] at h
      obtain ⟨init, rfl, ho, hl, hd⟩ := exists_leads_of_walkLinks_never h ht
      exact ⟨Path.here :: init, rfl, ho, .here hl, hd⟩
    by_cases hu : first = Path.up
    · subst hu
      rw [walkLinks_up] at h
      obtain ⟨init, rfl, ho, hl, hd⟩ := exists_leads_of_walkLinks_never h ht.tail
      exact ⟨Path.up :: init, rfl, ho, .up hl, hd⟩
    by_cases hl : maxNameLength < first.length
    · rw [walkLinks_tooLong hh hu hl] at h
      cases h
    have hfirst : Ordinary first := ⟨hh, hu, Nat.not_lt.mp hl⟩
    rcases walkLinks_cons_cases hfirst h with
      ⟨rfl, hs, -⟩ | ⟨fewer, target, closed, rfl, hr, hm, h⟩ | ⟨mode, es, hr, hm, h⟩
    · cases hs
      exact ⟨[], rfl, hfirst, .done links _, ht⟩
    · have hr : rest ≠ [] := hr.resolve_right Bool.false_ne_true
      obtain ⟨init, hi, ho, hl, hd⟩ := exists_leads_of_walkLinks_never h (ht.base target)
      obtain ⟨most, final, rfl⟩ : ∃ most final, rest = most ++ [final] :=
        ⟨_, _, (List.dropLast_concat_getLast hr).symm⟩
      rw [← List.append_assoc] at hi
      obtain ⟨rfl, hf⟩ := List.append_inj' hi rfl
      cases hf
      exact ⟨first :: most, rfl, ho, .link hfirst hm hl, hd⟩
    · obtain ⟨init, rfl, ho, hl, hd⟩ := exists_leads_of_walkLinks_never h ⟨mode, es, hm⟩
      exact ⟨first :: init, rfl, ho, .down hfirst hm hl, hd⟩
termination_by (links, names.length)

theorem Leads.concat (h : Leads fs links t names last) (ho : Ordinary name)
    (hn : fs.node? (name :: last) = some (.directory mode es)) :
    Leads fs links t (names ++ [name]) (name :: last) := by
  induction h with
  | done links t => exact .down ho hn (.done links _)
  | here h ih => exact .here (ih hn)
  | up h ih => exact .up (ih hn)
  | file hf hm =>
    obtain ⟨mode, es, hd⟩ := exists_directory_of_node?_cons hn
    cases hm.symm.trans hd
  | down hf hm h ih => exact .down hf hm (ih hn)
  | link hf hm h ih =>
    have hi := ih hn
    rw [List.append_assoc] at hi
    exact .link hf hm hi

section Put
variable {folder : Trail} {n : Node}

theorem node?_put (hd : fs.node? folder = some (.directory mode es)) :
    (fs.modify (.mapEntries (.put name n)) folder).node? (name :: folder) = some n := by
  have hf : (fs.modify (.mapEntries (.put name n)) folder).node? folder =
      some (.directory mode (Entries.put name n es)) := by
    rw [node?_modify_self, hd]
    rfl
  rw [node?_cons, entries_of_node? hf, Entries.get?_put_self]

/-- A node under a new name leaves everything else as it is. -/
theorem keeps_put (hd : fs.node? folder = some (.directory mode es)) (hn : es.get? name = none) :
    Keeps fs (fs.modify (.mapEntries (.put name n)) folder) := by
  refine keeps_mapEntries fun other m hother => .inr ?_
  rw [entries_of_node? hd] at hother ⊢
  rw [Entries.get?_put_of_ne ?_, hother]
  rintro rfl
  cases hn.symm.trans hother

end Put

/-- A directory that has been made is there and empty. -/
theorem stands_of_makeDirectory (h : fs.makeDirectory p = .ok fs')
    (hw : HasDirectory fs fs.working) :
    ∃ t, Stands fs' p t publicDirectoryMode [] ∧ Keeps fs fs' := by
  cases hs : fs.spot never p with
  | error e => simp [makeDirectory, hs, bind, Except.bind] at h
  | ok s =>
    obtain ⟨folder, name?, closed⟩ := s
    cases name? with
    | none =>
      simp [makeDirectory, hs, bind, Except.bind, throw, throwThe, MonadExceptOf.throw] at h
    | some name =>
      simp only [makeDirectory, hs, bind, Except.bind, Spot.trail, Option.elim_some] at h
      have hp := usable_of_spot hs
      rw [hp.spot] at hs
      obtain ⟨init, hnames, ho, hl, mode, es, hd⟩ := exists_leads_of_walkLinks_never hs (hw.start p)
      cases hn : fs.node? (name :: folder) with
      | some n => simp [hn, throw, throwThe, MonadExceptOf.throw] at h
      | none =>
        simp only [hn, Option.isSome_none, Bool.false_eq_true, if_false, pure, Except.pure] at h
        cases h
        rw [node?_cons, entries_of_node? hd] at hn
        have hk := keeps_put (n := .directory publicDirectoryMode []) hd hn
        have hnew : (fs.modify (.mapEntries (.put name (.directory publicDirectoryMode [])))
            folder).node? (name :: folder) = some (.directory publicDirectoryMode []) :=
          node?_put hd
        refine ⟨name :: folder, ⟨hp, ?_, hnew⟩, hk⟩
        rw [hnames]
        exact (hl.keeps hk hd).concat ho hnew

/-- The names of a path that lead somewhere else. -/
def steps (p : Path) : List Bytes := p.names.filter (· ≠ Path.here)

theorem Leads.filter {l r : List Bytes} (h : Leads fs links t (l ++ r) last) :
    Leads fs links t (l ++ r.filter (· ≠ Path.here)) last := by
  generalize hl : l ++ r = names at h
  induction h generalizing l r with
  | done links t =>
    obtain ⟨rfl, rfl⟩ := List.append_eq_nil_iff.mp hl
    exact .done links t
  | @here links t rest last h ih =>
    cases l with
    | nil =>
      subst hl
      simpa using ih (l := []) rfl
    | cons first l =>
      obtain ⟨rfl, rfl⟩ := List.cons_eq_cons.mp hl
      exact .here (ih rfl)
  | @up links t rest last h ih =>
    cases l with
    | nil =>
      subst hl
      have hu : Path.up ≠ Path.here := by decide
      simpa [hu] using Leads.up (ih (l := []) rfl)
    | cons first l =>
      obtain ⟨rfl, rfl⟩ := List.cons_eq_cons.mp hl
      exact .up (ih rfl)
  | file ho hm =>
    cases l with
    | nil =>
      subst hl
      simpa [ho.ne_here] using Leads.file ho hm
    | cons first l =>
      obtain ⟨rfl, he⟩ := List.cons_eq_cons.mp hl
      obtain ⟨rfl, rfl⟩ := List.append_eq_nil_iff.mp he
      exact .file ho hm
  | down ho hm h ih =>
    cases l with
    | nil =>
      subst hl
      simpa [ho.ne_here] using Leads.down ho hm (ih (l := []) rfl)
    | cons first l =>
      obtain ⟨rfl, rfl⟩ := List.cons_eq_cons.mp hl
      exact .down ho hm (ih rfl)
  | @link links t name target rest last ho hm h ih =>
    cases l with
    | nil =>
      subst hl
      simpa [ho.ne_here] using Leads.link ho hm (ih (l := target.names) rfl)
    | cons first l =>
      obtain ⟨rfl, rfl⟩ := List.cons_eq_cons.mp hl
      have hi := ih (l := target.names ++ l) (List.append_assoc _ _ _)
      rw [List.append_assoc] at hi
      exact .link ho hm hi

theorem Leads.steps (h : Leads fs links t p.names last) : Leads fs links t (steps p) last :=
  Leads.filter (l := []) h

theorem Leads.unique {other : Trail} (h : Leads fs links t names last)
    (h' : Leads fs links t names other) : last = other := by
  induction h with
  | done links t =>
    cases h'
    rfl
  | here h ih =>
    cases h' with
    | here h' => exact ih h'
    | file ho => exact absurd rfl ho.ne_here
    | down ho => exact absurd rfl ho.ne_here
    | link ho => exact absurd rfl ho.ne_here
  | up h ih =>
    cases h' with
    | up h' => exact ih h'
    | file ho => exact absurd rfl ho.ne_up
    | down ho => exact absurd rfl ho.ne_up
    | link ho => exact absurd rfl ho.ne_up
  | file ho hm =>
    cases h' with
    | here h' => exact absurd rfl ho.ne_here
    | up h' => exact absurd rfl ho.ne_up
    | file => rfl
    | down _ hm' => cases hm.symm.trans hm'
    | link _ hm' => cases hm.symm.trans hm'
  | down ho hm h ih =>
    cases h' with
    | here h' => exact absurd rfl ho.ne_here
    | up h' => exact absurd rfl ho.ne_up
    | file _ hm' => cases hm.symm.trans hm'
    | down _ _ h' => exact ih h'
    | link _ hm' => cases hm.symm.trans hm'
  | link ho hm h ih =>
    cases h' with
    | here h' => exact absurd rfl ho.ne_here
    | up h' => exact absurd rfl ho.ne_up
    | file _ hm' => cases hm.symm.trans hm'
    | down _ hm' => cases hm.symm.trans hm'
    | link _ hm' h' =>
      cases hm.symm.trans hm'
      exact ih h'

/-- The second path is the first with one name more, which goes up only within the given names. -/
structure Below (there : List Bytes) (p q : Path) : Prop where
  isAbsolute : p.isAbsolute = q.isAbsolute
  steps : ∃ name, steps q = steps p ++ [name] ∧ (name = Path.up → steps q <+: there)

section Below
variable {there : List Bytes}

theorem Below.start_eq (h : Below there p q) : fs.start q = fs.start p := by
  rw [start, start, h.isAbsolute]

/-- What is below a path that goes on behind the given names does so too. -/
theorem Below.not_prefix (h : Below there p q) (hp : ¬ FileSystem.steps p <+: there) :
    ¬ FileSystem.steps q <+: there := by
  obtain ⟨name, hsteps, -⟩ := h.steps
  rw [hsteps]
  exact fun hq => hp ((List.prefix_append _ _).trans hq)

/-- What is there already is not made. -/
theorem not_prefix_of_makeDirectory (hl : Leads fs maxLinks (fs.start p) there t)
    (hw : HasDirectory fs fs.working) (h : fs.makeDirectory p = .ok fs') :
    ¬ steps p <+: there := by
  rintro ⟨rest, rfl⟩
  cases hs : fs.spot never p with
  | error e => simp [makeDirectory, hs, bind, Except.bind] at h
  | ok s =>
    obtain ⟨folder, name?, closed⟩ := s
    cases name? with
    | none => simp [makeDirectory, hs, bind, Except.bind, throw, throwThe, MonadExceptOf.throw] at h
    | some name =>
      simp only [makeDirectory, hs, bind, Except.bind, Spot.trail, Option.elim_some] at h
      rw [(usable_of_spot hs).spot] at hs
      obtain ⟨init, hnames, ho, hinit, -⟩ := exists_leads_of_walkLinks_never hs (hw.start p)
      rw [steps, hnames, List.filter_append, List.append_assoc] at hl
      simp only [List.filter_cons, ho.ne_here, ne_eq, not_false_eq_true, decide_true, if_true,
        List.filter_nil, List.singleton_append] at hl
      obtain ⟨top, n, htop, hn⟩ := hl.exists_node_of_append ho.ne_here ho.ne_up
      rw [htop.unique (Leads.filter (l := []) hinit)] at hn
      simp [hn, throw, throwThe, MonadExceptOf.throw] at h

/-- There is nothing in an empty directory. -/
theorem holdsDirectory_of_below (h : Stands fs p t mode []) (hb : Below there p q)
    (hp : ¬ steps p <+: there) : fs.holdsDirectory q = false := by
  rw [Bool.eq_false_iff]
  intro hq
  cases hf : fs.find q with
  | error e => simp [holdsDirectory, hf, Except.toOption] at hq
  | ok n =>
    obtain ⟨s, hs, hn⟩ := find_eq_ok hf
    obtain ⟨name, hsteps, hup⟩ := hb.steps
    rw [(usable_of_spot hs).spot, hb.start_eq] at hs
    have hl := (leads_of_walkLinks hs hn).steps
    have hh : name ≠ Path.here := by
      have hmem : name ∈ steps q := by simp [hsteps]
      simpa using (List.mem_filter.mp hmem).2
    have hu : name ≠ Path.up := fun hu => hb.not_prefix hp (hup hu)
    rw [hsteps] at hl
    obtain ⟨top, m, htop, hm⟩ := hl.exists_node_of_append hh hu
    rw [htop.unique h.leads.steps, node?_cons, h.entries] at hm
    cases hm

/-- Making directories one in the other, the first in an empty one. -/
theorem stands_of_makeEach {missing : List Path} (hp : Stands fs p t publicDirectoryMode [])
    (hnew : ¬ steps p <+: there) (hw : HasDirectory fs fs.working)
    (hchain : (p :: missing).IsChain (Below there)) (h : makeEach missing fs = (.ok (), fs')) :
    ∃ t, Stands fs' (missing.getLastD p) t publicDirectoryMode [] := by
  induction missing generalizing fs p t with
  | nil =>
    cases h
    exact ⟨t, hp⟩
  | cons q missing ih =>
    obtain ⟨hb, hchain⟩ := List.isChain_cons_cons.mp hchain
    rw [makeEach] at h
    cases hm : fs.makeDirectory q with
    | error e => simp [hm, holdsDirectory_of_below hp hb hnew] at h
    | ok made =>
      rw [hm] at h
      obtain ⟨t, hq, hk⟩ := stands_of_makeDirectory hm hw
      rw [List.getLastD_cons]
      exact ih hq (hb.not_prefix hnew) (hw.keeps hk) hchain h

theorem makeUpwards_of_error {ps missing : List Path} {e : IoFault}
    (hm : fs.makeDirectory p = .error e) (he : e ≠ .notFound) :
    makeUpwards (p :: ps) missing fs =
      if e = .alreadyThere ∧ fs.holdsDirectory p then makeEach missing fs else (.error e, fs) := by
  rw [makeUpwards, hm]
  cases e with
  | notFound => exact absurd rfl he
  | _ => rfl

/-- Going up to where a directory can be made, and making those below it. The `ps` are still to be
tried; of those tried before, the uppermost could not be made. -/
theorem stands_of_makeUpwards {root : Path} {ps missing : List Path}
    (hw : HasDirectory fs fs.working) (hroot : fs.holdsDirectory root = false)
    (hthere : ∀ p ∈ ps, Leads fs maxLinks (fs.start p) there t)
    (hchain : (ps.reverse ++ missing).IsChain (Below there))
    (hlast : (ps.reverse ++ missing).getLast? = some root)
    (hfirst : ∀ q ∈ missing.head?, fs.makeDirectory q = .error .notFound)
    (h : makeUpwards ps missing fs = (.ok (), fs')) :
    ∃ t, Stands fs' root t publicDirectoryMode [] := by
  induction ps generalizing missing with
  | nil =>
    cases missing with
    | nil => cases hlast
    | cons q rest => simp [makeUpwards, makeEach, hfirst q rfl] at h
  | cons p ps ih =>
    rw [List.reverse_cons, List.append_assoc, List.singleton_append] at hchain hlast
    have hend : missing.getLastD p = root := by
      rw [List.getLast?_append, List.getLast?_cons, Option.some_or] at hlast
      rw [List.getLastD_eq_getLast?]
      exact Option.some.inj hlast
    cases hm : fs.makeDirectory p with
    | ok made =>
      rw [makeUpwards, hm] at h
      have hnew := not_prefix_of_makeDirectory (hthere p List.mem_cons_self) hw hm
      obtain ⟨t, hp, hk⟩ := stands_of_makeDirectory hm hw
      rw [← hend]
      exact stands_of_makeEach hp hnew (hw.keeps hk) hchain.right_of_append h
    | error e =>
      by_cases he : e = .notFound
      · subst he
        rw [makeUpwards, hm] at h
        refine ih (fun q hq => hthere q (List.mem_cons_of_mem _ hq)) hchain hlast ?_ h
        rintro q hq
        cases hq
        exact hm
      · rw [makeUpwards_of_error hm he] at h
        split at h
        · next hp =>
          -- what could not be made before cannot be made now
          cases missing with
          | nil =>
            rw [← hend] at hroot
            cases hroot.symm.trans hp.2
          | cons q rest => simp [makeEach, hfirst q rfl] at h
        · cases h

end Below

section Ancestors
variable {there : List Bytes}

private theorem names_intercalate {l : List Bytes}
    (hl : ∀ name ∈ l, name ≠ [] ∧ Path.slash ∉ name) :
    Path.names ([Path.slash].intercalate l) = l := by
  induction l with
  | nil => rfl
  | cons name l ih =>
    obtain ⟨hn, hs⟩ := hl name List.mem_cons_self
    have hrest := ih fun other ho => hl other (List.mem_cons_of_mem _ ho)
    cases l with
    | nil =>
      have h1 : [Path.slash].intercalate [name] = name := by simp [List.intercalate]
      rw [h1, Path.names_of_slash_not_mem hn hs]
    | cons other l =>
      have hc : [Path.slash].intercalate (name :: other :: l) =
          name ++ Path.slash :: [Path.slash].intercalate (other :: l) := by
        simp [List.intercalate]
      rw [hc, Path.names_append_slash, Path.names_of_slash_not_mem hn hs, hrest]
      rfl

private theorem names_ofComponents (absolute : Bool) {l : List Bytes}
    (hl : ∀ name ∈ l, name ≠ [] ∧ Path.slash ∉ name) :
    Path.names (Path.ofComponents absolute l) = l := by
  cases absolute with
  | false => exact names_intercalate hl
  | true =>
    have hs := Path.names_append_slash [] ([Path.slash].intercalate l)
    rw [names_intercalate hl] at hs
    exact hs

private theorem isAbsolute_ofComponents (absolute : Bool) {l : List Bytes} (hne : l ≠ [])
    (hl : ∀ name ∈ l, name ≠ [] ∧ Path.slash ∉ name) :
    Path.isAbsolute (Path.ofComponents absolute l) = absolute := by
  cases absolute with
  | true => rfl
  | false =>
    obtain ⟨name, l, rfl⟩ := List.exists_cons_of_ne_nil hne
    obtain ⟨hn, hs⟩ := hl name List.mem_cons_self
    obtain ⟨b, name, rfl⟩ := List.exists_cons_of_ne_nil hn
    have hb : b ≠ Path.slash := fun h => hs (h ▸ List.mem_cons_self)
    cases l <;> simp [Path.ofComponents, List.intercalate, Path.isAbsolute, hb]

theorem mem_names_of_mem_components (h : name ∈ p.components) : name ∈ p.names := by
  rw [Path.components] at h
  split at h
  · next first rest hn =>
    rw [hn]
    rcases List.mem_cons.mp h with rfl | h
    · exact List.mem_cons_self
    · exact List.mem_cons_of_mem _ (List.mem_filter.mp h).1
  · exact (List.mem_filter.mp h).1

/-- Only the first component can be `.`. -/
theorem steps_eq (p : Path) : steps p = p.components.filter (· ≠ Path.here) := by
  rw [steps, Path.components]
  split
  · next first rest hn =>
    rw [hn, List.filter_cons, List.filter_cons, List.filter_filter]
    simp
  · rw [List.filter_filter]
    simp

theorem components_tail_ne_here : ∀ name ∈ p.components.tail, name ≠ Path.here := by
  intro name h
  rw [Path.components] at h
  split at h
  · simpa using (List.mem_filter.mp h).2
  · simpa using (List.mem_filter.mp (List.mem_of_mem_tail h)).2

/-- The path that ends with the component of the given number. -/
def upTo (p : Path) (k : Nat) : Path :=
  Path.ofComponents p.isAbsolute (p.components.take (k + 1))

private theorem mem_take_components (k : Nat) :
    ∀ name ∈ p.components.take k, name ≠ [] ∧ Path.slash ∉ name :=
  fun _ h => Path.mem_names (mem_names_of_mem_components (List.mem_of_mem_take h))

theorem isAbsolute_upTo {k : Nat} (hk : k < p.components.length) :
    (upTo p k).isAbsolute = p.isAbsolute := by
  refine isAbsolute_ofComponents _ ?_ (mem_take_components _)
  rw [← List.length_pos_iff, List.length_take]
  omega

theorem steps_upTo (p : Path) (k : Nat) :
    steps (upTo p k) = (p.components.take (k + 1)).filter (· ≠ Path.here) := by
  rw [steps, upTo, names_ofComponents _ (mem_take_components _)]

/-- Where a path goes up, it does so within the names of which the last `..` is one. -/
theorem prefix_of_goes_up {l there rest : List Bytes} (hu : Path.up ∉ rest)
    (h : l ++ [Path.up] <+: there ++ rest) : l ++ [Path.up] <+: there := by
  rcases List.prefix_or_prefix_of_prefix h (List.prefix_append there rest) with hp | ⟨tail, ht⟩
  · exact hp
  · rw [← ht, List.prefix_append_right_inj] at h
    rcases List.eq_nil_or_concat' tail with rfl | ⟨most, final, rfl⟩
    · exact ⟨[], by rw [← ht, List.append_nil, List.append_nil]⟩
    · rw [← List.append_assoc] at ht
      obtain ⟨-, hf⟩ := List.append_inj' ht rfl
      cases hf
      exact absurd (h.subset (List.mem_append_right _ (List.mem_singleton_self _))) hu

/-- With each component after the first a path goes one name on. -/
theorem below_upTo {rest : List Bytes} (hsteps : steps p = there ++ rest) (hu : Path.up ∉ rest)
    {k : Nat} (hk : k + 1 < p.components.length) (ha : q.isAbsolute = p.isAbsolute)
    (hs : steps q = steps (upTo p (k + 1))) : Below there (upTo p k) q := by
  have hm : p.components[k + 1] ∈ p.components.tail := by
    rw [List.mem_iff_getElem]
    exact ⟨k, by rw [List.length_tail]; omega, by rw [List.getElem_tail]⟩
  have hh := components_tail_ne_here _ hm
  have hq : steps q = steps (upTo p k) ++ [p.components[k + 1]] := by
    rw [hs, steps_upTo, steps_upTo, List.take_succ_eq_append_getElem hk, List.filter_append]
    simp [hh]
  refine ⟨(isAbsolute_upTo (by omega)).trans ha.symm, p.components[k + 1], hq, fun he => ?_⟩
  rw [hq, he]
  refine prefix_of_goes_up hu ?_
  rw [← he, ← hq, hs, steps_upTo, ← hsteps, steps_eq]
  exact (List.take_prefix _ _).filter _

/-- The paths above a path, from the uppermost down to the path itself. -/
theorem isChain_ancestors {rest : List Bytes} (hsteps : steps p = there ++ rest)
    (hu : Path.up ∉ rest) : ((p :: p.ancestors).reverse).IsChain (Below there) := by
  have hancestors : p.ancestors = (List.range (p.components.length - 1)).reverse.map (upTo p) := rfl
  rw [List.reverse_cons, hancestors, List.map_reverse, List.reverse_reverse, List.isChain_append,
    List.isChain_map, List.isChain_range]
  refine ⟨fun k hk => ?_, List.isChain_singleton p, fun q hq r hr => ?_⟩
  · exact below_upTo hsteps hu (by omega)
      (isAbsolute_upTo (by simp only [Nat.succ_eq_add_one]; omega)) rfl
  · cases hr
    cases hn : p.components.length - 1 with
    | zero =>
      rw [hn] at hq
      cases hq
    | succ n =>
      rw [hn, List.range_succ, List.map_append, List.map_singleton, List.getLast?_concat] at hq
      cases hq
      refine below_upTo hsteps hu (by omega) rfl ?_
      rw [steps_eq, steps_upTo, List.take_of_length_le (by omega)]

theorem isAbsolute_of_mem_ancestors (h : q ∈ p.ancestors) : q.isAbsolute = p.isAbsolute := by
  obtain ⟨k, hk, rfl⟩ := List.mem_map.mp h
  rw [List.mem_reverse, List.mem_range] at hk
  exact isAbsolute_upTo (by omega)

end Ancestors

/-- The path goes up only within names that lead somewhere. -/
def RisesWithin (fs : FileSystem) (p : Path) : Prop :=
  ∃ names rest t, p.names = names ++ rest ∧ Leads fs maxLinks (fs.start p) names t ∧
    Path.up ∉ rest

/-- When the directory at a path that led nowhere is made, it is empty. -/
theorem stands_of_makeDirectories (hw : HasDirectory fs fs.working) (hu : RisesWithin fs p)
    (hroot : fs.holdsDirectory p = false) (hc : p.components ≠ [])
    (h : makeDirectories p fs = (.ok (), fs')) : ∃ t, Stands fs' p t publicDirectoryMode [] := by
  obtain ⟨names, rest, t, hnames, hl, hu⟩ := hu
  have hsteps : steps p = names.filter (· ≠ Path.here) ++ rest.filter (· ≠ Path.here) := by
    rw [steps, hnames, List.filter_append]
  have hup : Path.up ∉ rest.filter (· ≠ Path.here) := fun hm => hu (List.mem_of_mem_filter hm)
  rw [makeDirectories, if_neg hc] at h
  have hthere : ∀ q ∈ p :: p.ancestors,
      Leads fs maxLinks (fs.start q) (names.filter (· ≠ Path.here)) t := by
    intro q hq
    have hstart : fs.start q = fs.start p := by
      rcases List.mem_cons.mp hq with rfl | hq
      · rfl
      · rw [start, start, isAbsolute_of_mem_ancestors hq]
    rw [hstart]
    exact Leads.filter (l := []) hl
  refine stands_of_makeUpwards hw hroot hthere ?_ ?_ (by simp) h
  · rw [List.append_nil]
    exact isChain_ancestors hsteps hup
  · rw [List.append_nil, List.reverse_cons, List.getLast?_concat]

end PhraseVault.FileSystem
