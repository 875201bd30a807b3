import PhraseVault.Proofs.Vault.Wiping
import PhraseVault.Proofs.Vault.Still

/-!
# What operations touch

Settling aside, each operation changes the records that it is about and no other. So over any run
the credential goes only with a wipe, and a sealed phrase is replaced only by a rotation.
-/
namespace PhraseVault.Vault
variable {x y z : Records}

/-- No staged phrase is left without its staged credential. -/
def Tidy (x : Records) : Prop := ∀ owner, Key.stagedPhrase owner ∈ x → Key.stagedCredential ∈ x

/-- Nothing is staged. -/
structure AtRest (y : Records) : Prop where
  stagedCredential : y[Key.stagedCredential]? = none
  stagedPhrase : ∀ owner, y[Key.stagedPhrase owner]? = none

theorem AtRest.tidy (h : AtRest y) : Tidy y :=
  fun owner ho => absurd ho (Records.getElem?_eq_none_iff.mp (h.stagedPhrase owner))

theorem AtRest.settles (h : AtRest y) : Settles y y := .refl h.stagedCredential h.stagedPhrase

theorem AtRest.not_committed (h : AtRest y) : ¬ Committed y :=
  fun hc => Records.getElem?_eq_none_iff.mp h.stagedCredential hc.mem

theorem Resolves.atRest (h : Resolves x y) (hx : Tidy x) : AtRest y := by
  refine ⟨h.stagedCredential, fun owner => ?_⟩
  by_cases hm : Key.stagedCredential ∈ x
  · exact (h.resolved hm).stagedPhrase owner
  · rw [← h.eq_of_unstaged hm, Records.getElem?_eq_none_iff]
    exact fun ho => hm (hx owner ho)

theorem Resolves.credential (h : Resolves x y) : y[Key.credential]? = x[Key.credential]? := by
  by_cases hm : Key.stagedCredential ∈ x
  · exact (h.resolved hm).plain _ Key.isPlain_credential
  · rw [h.eq_of_unstaged hm]

/-- Settling leaves a phrase as it was, or puts the staged one in its place. -/
theorem Resolves.phrase (h : Resolves x y) {owner : String} {bytes : Bytes}
    (hb : x[Key.phrase owner]? = some bytes) :
    y[Key.phrase owner]? = some bytes ∨
      Committed x ∧ ∃ new, x[Key.stagedPhrase owner]? = some new ∧
        y[Key.phrase owner]? = some new := by
  by_cases hm : Key.stagedCredential ∈ x
  · have hy := h.resolved hm
    by_cases hc : Committed x
    · rw [hy.phrase_of_committed hc, hb]
      cases x[Key.stagedPhrase owner]? with
      | none => exact .inl rfl
      | some new => exact .inr ⟨hc, new, rfl, rfl⟩
    · rw [hy.phrase_of_not_committed hc]
      exact .inl hb
  · rw [← h.eq_of_unstaged hm]
    exact .inl hb

namespace Operation

/-- The changes that an operation may make, each of one record. -/
inductive Changes : Operation → String → Option Bytes → Option Bytes → Prop
  | setCredential (password : String) (before : Option Bytes) (after : Bytes) :
    Changes (setPassword password) Key.credential before (some after)
  | replaceCredential (current password : String) (before after : Bytes) :
    Changes (changePassword current password) Key.credential (some before) (some after)
  | replacePhrase (current password owner : String) (before after : Bytes) :
    Changes (changePassword current password) (Key.phrase owner) (some before) (some after)
  | addPhrase (owner phrase password : String) (after : Bytes) :
    Changes (sealFor owner phrase password) (Key.phrase owner) none (some after)
  | removePhrase (owner : String) (before : Bytes) :
    Changes (remove owner) (Key.phrase owner) (some before) none
  | wipeCredential (before : Bytes) : Changes wipe Key.credential (some before) none
  | wipePhrase (owner : String) (before : Bytes) :
    Changes wipe (Key.phrase owner) (some before) none

/-- Every record is as before, but for those that the operation may change. -/
def Touches (op : Operation) (y z : Records) : Prop :=
  ∀ key, z[key]? = y[key]? ∨ op.Changes key y[key]? z[key]?

variable {op : Operation}

theorem Touches.refl (op : Operation) (y : Records) : op.Touches y y := fun _ => .inl rfl

theorem touches_insert {key : String} {value : Bytes} (h : op.Changes key y[key]? (some value)) :
    op.Touches y (y.insert key value) := by
  intro other
  rw [Records.getElem?_insert]
  by_cases ho : key = other
  · subst ho
    rw [if_pos rfl]
    exact .inr h
  · rw [if_neg ho]
    exact .inl rfl

theorem touches_erase {key : String} (h : op.Changes key y[key]? none) :
    op.Touches y (y.erase key) := by
  intro other
  rw [Records.getElem?_erase]
  by_cases ho : key = other
  · subst ho
    rw [if_pos rfl]
    exact .inr h
  · rw [if_neg ho]
    exact .inl rfl

/-- Where only the credential and phrases may change, it is enough to say how they do. -/
theorem touches_of_records
    (hcredential : z[Key.credential]? = y[Key.credential]? ∨
      op.Changes Key.credential y[Key.credential]? z[Key.credential]?)
    (hphrase : ∀ owner, z[Key.phrase owner]? = y[Key.phrase owner]? ∨
      op.Changes (Key.phrase owner) y[Key.phrase owner]? z[Key.phrase owner]?)
    (hother : ∀ key, key ≠ Key.credential → (∀ owner, key ≠ Key.phrase owner) →
      z[key]? = y[key]?) : op.Touches y z := by
  intro key
  by_cases hc : key = Key.credential
  · exact hc ▸ hcredential
  by_cases hp : ∃ owner, key = Key.phrase owner
  · obtain ⟨owner, rfl⟩ := hp
    exact hphrase owner
  · exact .inl (hother key hc (not_exists.mp hp))

/-- A rotation touches the credential and phrases that there are. -/
theorem touches_rotated {old next : Credential} {ps : List SealedPhrase} (hold : Stored y old)
    (hps : ∀ p ∈ ps, Key.phrase p.owner ∈ y) (current password : String) :
    (changePassword current password).Touches y (rotated y next ps) := by
  obtain ⟨bytes, hb, -⟩ := hold
  refine touches_of_records ?_ (fun owner => ?_) fun _ => rotated_other
  · rw [rotated_credential, hb]
    exact .inr (.replaceCredential current password bytes next.write)
  · rw [rotated_phrase]
    cases hw : written ps owner with
    | none => exact .inl rfl
    | some after =>
      have hwritten : written ps owner ≠ none := by simp [hw]
      obtain ⟨p, hmem, rfl⟩ := exists_of_written hwritten
      have hne := Records.getElem?_ne_none_iff.mpr (hps p hmem)
      obtain ⟨before, hbefore⟩ := Option.ne_none_iff_exists'.mp hne
      rw [hbefore]
      exact .inr (.replacePhrase current password p.owner before after)

theorem touches_emptied (y : Records) : wipe.Touches y (emptied y) := by
  refine touches_of_records ?_ (fun owner => ?_) fun _ => emptied_other y
  · rw [emptied_credential]
    cases y[Key.credential]? with
    | none => exact .inl rfl
    | some before => exact .inr (.wipeCredential before)
  · rw [emptied_phrase]
    cases y[Key.phrase owner]? with
    | none => exact .inl rfl
    | some before => exact .inr (.wipePhrase owner before)

/-- Only a wipe takes the credential away. -/
theorem Changes.eq_wipe {before : Option Bytes} (h : op.Changes Key.credential before none) :
    op = wipe := by
  generalize hkey : Key.credential = key at h
  generalize hafter : (none : Option Bytes) = after at h
  cases h with
  | removePhrase => exact absurd hkey (Key.credential_ne_phrase _)
  | wipeCredential => rfl
  | wipePhrase => rfl
  | _ => cases hafter

/-- Only a rotation replaces a phrase. -/
theorem Changes.eq_changePassword {owner : String} {before after : Bytes}
    (h : op.Changes (Key.phrase owner) (some before) (some after)) :
    ∃ current password, op = changePassword current password := by
  generalize hkey : Key.phrase owner = key at h
  cases h with
  | setCredential => exact absurd hkey (Key.phrase_ne_credential owner)
  | replaceCredential current password => exact ⟨current, password, rfl⟩
  | replacePhrase current password => exact ⟨current, password, rfl⟩

theorem Changes.ne_staged {key : String} {before after : Option Bytes}
    (h : op.Changes key before after) :
    key ≠ Key.stagedCredential ∧ ∀ owner, key ≠ Key.stagedPhrase owner := by
  cases h <;> simp

theorem Touches.atRest (h : op.Touches y z) (hy : AtRest y) : AtRest z where
  stagedCredential := by
    rcases h Key.stagedCredential with he | hchanges
    · rw [he, hy.stagedCredential]
    · exact absurd rfl hchanges.ne_staged.1
  stagedPhrase owner := by
    rcases h (Key.stagedPhrase owner) with he | hchanges
    · rw [he, hy.stagedPhrase]
    · exact absurd rfl (hchanges.ne_staged.2 owner)

end Operation

namespace Action
variable {α β : Type} {op : Operation} {act : Action α} {f : α → Action β} {s : Session Records}

/-- An operation that comes to an answer has touched only records of its own. -/
def Touched (op : Operation) (y : Records) (r : Except Fault α) (t : Session Records) : Prop :=
  ∀ a, r = .ok a → op.Touches y t.store

/-- From certain records on, the action changes only what the operation may. -/
def Confined (op : Operation) (y : Records) (act : Action α) : Prop :=
  ∀ s : Session Records, s.store = y → Assures False (fun _ => True) act (Touched op y) s

theorem touched_error {fault : Fault} {t : Session Records} :
    Touched (α := α) op y (.error fault) t := fun _ => nofun

/-- To look on changes nothing more. -/
theorem Still.touched (h : Still act) (htouches : op.Touches y s.store) :
    Assures False (fun _ => True) act (Touched op y) s := by
  refine Program.Assures.mono (Program.Still.assures h) (fun _ hr => hr) ?_
  intro r t ht a _
  rwa [ht]

theorem Still.confined (h : Still act) (op : Operation) (y : Records) : Confined op y act := by
  rintro s rfl
  exact h.touched (.refl op s.store)

theorem Still.bind_confined (h : Still act) (hf : ∀ a, Confined op y (f a)) :
    Confined op y (act >>= f) := by
  rintro s rfl
  exact assures_still_bind h (fun _ _ _ => touched_error) fun a t ht => hf a t ht

theorem Examines.bind_confined {why : Fault → Prop} {answers : α → Prop}
    (h : Examines y why answers act) (hf : ∀ a, answers a → Confined op y (f a)) :
    Confined op y (act >>= f) := by
  intro s hs
  refine assures_bind ((h s hs).mono (fun _ hr => hr) ?_)
  rintro (fault | a) t ⟨ht, ha⟩
  · exact touched_error
  · exact hf a ha t ht

theorem confined_fetch_bind (key : String) {g : Option Bytes → Action β}
    (hg : Confined op y (g y[key]?)) : Confined op y (fetch key >>= g) := by
  rintro s rfl
  exact (assures_fetch_bind _ _).mpr (hg s rfl)

theorem confined_sealedOwners_bind {g : List String → Action β}
    (hg : Confined op y (g (Records.owners y))) : Confined op y (sealedOwners >>= g) := by
  rintro s rfl
  exact (assures_sealedOwners _).mpr (hg s rfl)

theorem Confined.ite {p : Prop} [Decidable p] {act' : Action α} (h : p → Confined op y act)
    (h' : ¬ p → Confined op y act') : Confined op y (if p then act else act') := by
  split
  · exact h ‹p›
  · exact h' ‹¬ p›

theorem confined_throw_bind (fault : Fault) : Confined op y (throw fault >>= f) :=
  fun _ _ => touched_error

/-- One record is written, and then nothing more is changed. -/
theorem confined_put_bind {key : String} {value : Bytes} {g : Unit → Action β}
    (hchanges : op.Changes key y[key]? (some value)) (hg : Still (g ())) :
    Confined op y (put key value >>= g) := by
  rintro s rfl
  refine (assures_put_bind _ _ _).mpr ⟨False.elim, trivial, ?_⟩
  exact hg.touched (Operation.touches_insert hchanges)

/-- One record is deleted, and then nothing more is changed. -/
theorem confined_erase_bind {key : String} {g : Unit → Action β}
    (hchanges : op.Changes key y[key]? none) (hg : Still (g ())) :
    Confined op y (erase key >>= g) := by
  rintro s rfl
  refine (assures_erase_bind _ _).mpr ⟨False.elim, trivial, ?_⟩
  exact hg.touched (Operation.touches_erase hchanges)

theorem Still.examines (h : Still act) :
    Examines y (fun _ => True) (fun _ => True) act := by
  rintro s rfl
  refine Program.Assures.mono (Program.Still.assures h) (fun _ hr => hr) ?_
  rintro (fault | a) t ht <;> exact ⟨ht, trivial⟩

theorem examines_sealPhrase_owner (owner phrase : String) (c : Credential) (password : String) :
    Examines y (fun _ => True) (fun p => p.owner = owner)
      (sealPhrase owner phrase c password) := by
  rintro s rfl
  rw [← bind_pure (sealPhrase owner phrase c password), assures_sealPhrase]
  exact ⟨rfl, rfl⟩

/-- Every phrase sealed anew is for one of the owners. -/
theorem examines_resealAll_owners (old next : Credential) (current password : String)
    (owners : List String) :
    Examines y (fun _ => True) (fun ps => ∀ p ∈ ps, p.owner ∈ owners)
      (resealAll old current next password owners) := by
  induction owners with
  | nil => exact examines_pure nofun
  | cons owner owners ih =>
    refine (still_requirePhrase owner).examines.bind fun p _ => ?_
    refine (still_openPhrase p old current).examines.bind fun phrase _ => ?_
    refine (examines_sealPhrase_owner owner phrase next password).bind fun q hq => ?_
    refine ih.bind fun ps hps => examines_pure ?_
    refine List.forall_mem_cons.mpr ⟨?_, fun p hp => List.mem_cons_of_mem _ (hps p hp)⟩
    rw [hq]
    exact List.mem_cons_self

/-- Once a leftover rotation has been settled, the action changes only what the operation may. -/
def Framed (op : Operation) (act : Action α) : Prop :=
  ∀ s : Session Records, Tidy s.store → Assures False (fun _ => True) act
    (fun r t => ∀ a, r = .ok a → ∃ y, Resolves s.store y ∧ op.Touches y t.store) s

theorem framed_of_opened {opening : Action Unit} {g : Unit → Action β}
    (hopening : ∀ s, Assures False (fun _ => True) opening (Opened s.store) s)
    (hg : ∀ y, AtRest y → Confined op y (g ())) : Framed op (opening >>= g) := by
  intro s htidy
  refine assures_bind ((hopening s).mono (fun _ hr => hr) ?_)
  rintro r t (⟨rfl, hy⟩ | ⟨fault, -, rfl, -⟩)
  · refine (hg _ (hy.atRest htidy) t rfl).mono (fun _ hr => hr) ?_
    exact fun _ _ htouched a ha => ⟨_, hy, htouched a ha⟩
  · exact fun _ => nofun

theorem framed_throw_bind (fault : Fault) : Framed op (throw fault >>= f) := by
  intro s _ b hb
  cases hb

theorem Framed.map (h : Framed op act) (g : α → β) : Framed op (g <$> act) := by
  intro s htidy
  refine assures_map g ((h s htidy).mono (fun _ hr => hr) ?_)
  rintro (fault | a) t hr
  · exact fun _ => nofun
  · exact fun _ _ => hr a rfl

theorem Looks.framed (h : Looks act) (op : Operation) : Framed op act := by
  obtain ⟨g, rfl, hg⟩ := h
  exact framed_of_opened opened_shared fun y _ => (hg ()).confined op y

theorem framed_setPassword (password : String) :
    Framed (.setPassword password) (Vault.setPassword password) := by
  refine framed_of_opened opened_settle fun y _ => still_sealedOwners.bind_confined fun owners => ?_
  refine .ite (fun _ => confined_throw_bind _) fun _ => ?_
  refine still_loadCredential.bind_confined fun stored => ?_
  refine (still_newCredential password).bind_confined fun c => ?_
  exact confined_put_bind (.setCredential password _ c.write) (still_report _)

theorem framed_sealFor (owner phrase password : String) :
    Framed (.sealFor owner phrase password) (Vault.sealFor owner phrase password) := by
  rw [Vault.sealFor]
  by_cases ho : owner = ""
  · rw [if_pos ho]
    exact framed_throw_bind _
  rw [if_neg ho]
  by_cases hblank : isBlank phrase
  · rw [if_pos hblank]
    exact framed_throw_bind _
  rw [if_neg hblank]
  refine framed_of_opened opened_settle fun y _ => ?_
  refine still_requireCredential.bind_confined fun c => ?_
  refine (still_demand c password).bind_confined fun _ => ?_
  refine confined_fetch_bind _ (.ite (fun _ => confined_throw_bind _) fun hs => ?_)
  refine (examines_sealPhrase_owner owner phrase c password).bind_confined fun p hp => ?_
  refine confined_put_bind ?_ (still_bind (still_report _) fun _ => still_pure _)
  rw [hp, Option.not_isSome_iff_eq_none.mp hs]
  exact .addPhrase owner phrase password p.write

theorem framed_remove (owner : String) : Framed (.remove owner) (Vault.remove owner) := by
  refine framed_of_opened opened_settle fun y _ => ?_
  refine confined_fetch_bind _ (.ite (fun _ => confined_throw_bind _) fun hs => ?_)
  refine confined_erase_bind ?_ (still_report _)
  obtain ⟨before, hbefore⟩ := Option.ne_none_iff_exists'.mp (mt Option.isNone_iff_eq_none.mpr hs)
  rw [hbefore]
  exact .removePhrase owner before

theorem framed_changePassword (current password : String) :
    Framed (.changePassword current password) (Vault.changePassword current password) := by
  refine framed_of_opened opened_settle fun y hy => ?_
  have hop : (Operation.changePassword current password).readsCredential := rfl
  refine (examines_requireCredential hop).bind_confined fun old hold => ?_
  refine (still_demand old current).bind_confined fun _ => ?_
  refine (still_newCredential password).bind_confined fun next => ?_
  refine confined_sealedOwners_bind ?_
  refine (examines_resealAll_owners old next current password _).bind_confined fun ps hps => ?_
  have hmem : ∀ p ∈ ps, Key.phrase p.owner ∈ y := fun p hp => Records.mem_owners.mp (hps p hp)
  have htouches : (Operation.changePassword current password).Touches y (rotated y next ps) :=
    Operation.touches_rotated hold hmem current password
  -- all that is left is to stage and to settle, and neither fails on a store that does not
  rintro s rfl
  refine assures_attempt_bind ((assures_stage hy.settles hold False.elim hmem).mono
    (fun _ _ => trivial) ?_)
  rintro r t ⟨-, ⟨rfl, ht⟩ | ⟨hf, -⟩⟩
  · refine assures_attempt_bind ((assures_settle ht).mono (fun _ _ => trivial) ?_)
    rintro r u ⟨-, -, ⟨rfl, hu⟩ | ⟨hf, -⟩⟩
    · rw [← hu] at htouches
      exact fun _ _ => htouches
    · exact hf.elim
  · exact hf.elim

theorem framed_wipe : Framed .wipe Vault.wipe := by
  intro s _
  refine (assures_wipe s).mono (fun _ hr => hr) ?_
  rintro r t (⟨rfl, y, hy, ht⟩ | ⟨fault, -, rfl, -⟩)
  · refine fun _ _ => ⟨y, hy, ?_⟩
    rw [ht]
    exact Operation.touches_emptied y
  · exact fun _ => nofun

theorem framed_program (op : Operation) : Framed op op.program := by
  cases op with
  | hasPassword => exact (looks_hasPassword.framed _).map _
  | state => exact (looks_state.framed _).map _
  | setPassword password => exact (framed_setPassword password).map _
  | verifyPassword candidate => exact ((looks_verifyPassword candidate).framed _).map _
  | changePassword current password => exact (framed_changePassword current password).map _
  | sealFor owner phrase password => exact (framed_sealFor owner phrase password).map _
  | reveal owner password => exact ((looks_reveal owner password).framed _).map _
  | hasPhrase owner => exact ((looks_hasPhrase owner).framed _).map _
  | owners => exact (looks_owners.framed _).map _
  | remove owner => exact (framed_remove owner).map _
  | wipe => exact framed_wipe.map _

end Action

open Vault.Action
variable {q : Request} {s : Session Records}

theorem Request.framed (q : Request) (htidy : Tidy s.store) {a : Answer} {t : Session Records}
    (h : q.program.run.run s = (.ok a, t)) :
    ∃ y, Resolves s.store y ∧ (q.operation s.ids).Touches y t.store := by
  have hassures : Assures False (fun _ => True) q.program
      (fun r t => ∀ a, r = .ok a →
        ∃ y, Resolves s.store y ∧ (q.operation s.ids).Touches y t.store) s := by
    cases q with
    | perform op => exact framed_program op s htidy
    | sealNew phrase password =>
      refine assures_map _ ((assures_mint_bind _).mpr ?_)
      refine (framed_sealFor _ phrase password { s with ids := s.ids.tail } htidy).mono
        (fun _ hr => hr) ?_
      rintro (fault | b) u hr
      · exact fun _ => nofun
      · exact fun _ _ => hr b rfl
  have hend := Program.post_of_run_records hassures
  rw [h] at hend
  exact hend a rfl

/-- Nothing has been done for a request, not even to settle. -/
def Request.Undone (q : Request) (s t : Session Records) (r : Except Fault Answer) : Prop :=
  t.store = s.store ∧ ∃ fault, r = .error fault ∧
    ((q.operation s.ids).Unfit fault ∨ ∃ f, Blocked s.store f ∧ fault = .malformed f)

/-- The leftover rotation has been settled, and then only what the request is about has been
changed, and nothing if it was refused. -/
def Request.Done (q : Request) (s t : Session Records) (r : Except Fault Answer) : Prop :=
  ∃ u, settle.run.run s = (.ok (), u) ∧ (q.operation s.ids).Touches u.store t.store ∧
    ∀ fault, r = .error fault → t.store = u.store

theorem Request.undone_or_done (htidy : Tidy s.store) {r : Except Fault Answer}
    {t : Session Records} (h : q.program.run.run s = (r, t)) : q.Undone s t r ∨ q.Done s t r := by
  have hdone : ∀ y, Resolves s.store y → (q.operation s.ids).Touches y t.store →
      (∀ fault, r = .error fault → t.store = y) → q.Done s t r := by
    intro y hy htouches hrefused
    obtain ⟨hok, rfl⟩ := hy.run_settle rfl
    exact ⟨_, Prod.ext hok rfl, htouches, hrefused⟩
  cases r with
  | ok a =>
    obtain ⟨y, hy, htouches⟩ := q.framed htidy h
    exact .inr (hdone y hy htouches nofun)
  | error fault =>
    have hdue := q.due h
    generalize ht : t.store = z at hdue
    cases hdue with
    | unfit hunfit => exact .inl ⟨ht, fault, rfl, .inl hunfit⟩
    | blocked _ hblocked => exact .inl ⟨ht, _, rfl, .inr ⟨_, hblocked, rfl⟩⟩
    | objected _ hy _ =>
      refine .inr (hdone z hy ?_ fun _ _ => ht)
      rw [ht]
      exact .refl _ z

variable {t : Session Records} {r : Except Fault Answer}

/-- A request that is done leaves nothing staged. -/
theorem Request.Done.atRest (htidy : Tidy s.store) (h : q.Done s t r) : AtRest t.store := by
  obtain ⟨u, hu, htouches, -⟩ := h
  exact htouches.atRest ((resolves_of_run_settle hu).atRest htidy)

/-- Over a run the store stays as it is until nothing is staged, and from then on nothing is. -/
theorem after_eq_or_atRest (htidy : Tidy s.store) (qs : List Request) :
    (s.after qs).store = s.store ∨ AtRest (s.after qs).store := by
  induction qs generalizing s with
  | nil => exact .inl rfl
  | cons q qs ih =>
    rcases q.undone_or_done htidy rfl with ⟨hsame, -⟩ | hdone
    · rw [← hsame] at htidy ⊢
      exact ih htidy
    · -- nothing staged is tidy, so the induction goes on from there
      have hrest := hdone.atRest htidy
      rcases ih hrest.tidy with he | h
      · rw [← he] at hrest
        exact .inr hrest
      · exact .inr h

/-- Only a wipe takes the credential away. -/
theorem Request.eq_wipe (htidy : Tidy s.store) (h : q.program.run.run s = (r, t))
    (hbefore : Key.credential ∈ s.store) (hafter : Key.credential ∉ t.store) :
    q = .perform .wipe := by
  rw [← Records.getElem?_ne_none_iff] at hbefore
  rw [← Records.getElem?_eq_none_iff] at hafter
  rcases q.undone_or_done htidy h with ⟨hsame, -⟩ | ⟨u, hu, htouches, -⟩
  · rw [hsame] at hafter
    exact absurd hafter hbefore
  · have hcredential := (resolves_of_run_settle hu).credential
    rcases htouches Key.credential with he | hchanges
    · rw [← hcredential, ← he] at hbefore
      exact absurd hafter hbefore
    · rw [hafter] at hchanges
      have hop := hchanges.eq_wipe
      cases q with
      | perform op => exact congrArg perform hop
      | sealNew phrase password => cases hop

/-- Only a rotation replaces a sealed phrase, the one that is asked for or the one left over. -/
theorem Request.rotation_of_phrase_ne (htidy : Tidy s.store) (h : q.program.run.run s = (r, t))
    {owner : String} {before after : Bytes} (hbefore : s.store[Key.phrase owner]? = some before)
    (hafter : t.store[Key.phrase owner]? = some after) (hne : before ≠ after) :
    (∃ current password, q = .perform (.changePassword current password)) ∨
      Committed s.store ∧ s.store[Key.stagedPhrase owner]? = some after := by
  rcases q.undone_or_done htidy h with ⟨hsame, -⟩ | ⟨u, hu, htouches, -⟩
  · rw [hsame, hbefore] at hafter
    exact absurd (Option.some.inj hafter) hne
  have hsettled := (resolves_of_run_settle hu).phrase hbefore
  rcases htouches (Key.phrase owner) with he | hchanges
  · rw [← he, hafter] at hsettled
    rcases hsettled with hsame | ⟨hc, new, hnew, hsame⟩
    · exact absurd (Option.some.inj hsame).symm hne
    · rw [← hsame] at hnew
      exact .inr ⟨hc, hnew⟩
  · obtain ⟨old, hold⟩ : ∃ old, u.store[Key.phrase owner]? = some old := by
      rcases hsettled with hold | ⟨-, new, -, hnew⟩
      · exact ⟨_, hold⟩
      · exact ⟨_, hnew⟩
    rw [hold, hafter] at hchanges
    obtain ⟨current, password, hop⟩ := hchanges.eq_changePassword
    cases q with
    | perform op => exact .inl ⟨current, password, congrArg perform hop⟩
    | sealNew phrase _ => cases hop

/-- Settling aside, a request changes only the records that it is about, and none if it is refused.
So over any run the credential goes only with a wipe, and a sealed phrase is replaced only by a
rotation: one that is asked for, or the one that has been left over. -/
theorem own_records_touched {s : Session Records} (htidy : Tidy s.store) :
    (∀ (q : Request) (r : Except Fault Answer) (t : Session Records),
      q.program.run.run s = (r, t) → q.Undone s t r ∨ q.Done s t r) ∧
    ∀ (qs : List Request) (q : Request) (r : Except Fault Answer) (t : Session Records),
      q.program.run.run (s.after qs) = (r, t) →
      (Key.credential ∈ (s.after qs).store → Key.credential ∉ t.store → q = .perform .wipe) ∧
      ∀ (owner : String) (before after : Bytes),
        (s.after qs).store[Key.phrase owner]? = some before →
        t.store[Key.phrase owner]? = some after → before ≠ after →
        (∃ current password, q = .perform (.changePassword current password)) ∨
          (s.after qs).store = s.store ∧ Committed s.store ∧
            s.store[Key.stagedPhrase owner]? = some after := by
  refine ⟨fun q r t h => q.undone_or_done htidy h, fun qs q r t h => ?_⟩
  have hafter := after_eq_or_atRest htidy qs
  have htidy' : Tidy (s.after qs).store := by
    rcases hafter with he | hrest
    · rwa [he]
    · exact hrest.tidy
  refine ⟨q.eq_wipe htidy' h, fun owner before after hb ha hne => ?_⟩
  refine (q.rotation_of_phrase_ne htidy' h hb ha hne).imp_right fun ⟨hc, hs⟩ => ?_
  rcases hafter with he | hrest
  · rw [he] at hc hs
    exact ⟨he, hc, hs⟩
  · exact absurd hc hrest.not_committed

/-- A rotation that has taken effect, with a phrase still to be replaced. -/
def outdated : Records := (halfway ⟨"", "", ""⟩ "o" [1]).insert (Key.phrase "o") [0]

private theorem getElem?_outdated {key : String} (h : Key.phrase "o" ≠ key) :
    outdated[key]? = (halfway ⟨"", "", ""⟩ "o" [1])[key]? := by
  rw [outdated, Records.getElem?_insert, if_neg h]

/-- To ask whether there is a password settles what has been left, and changes nothing else. -/
theorem own_records_touched_outdated :
    ∃ (s t : Session Records) (r : Except Fault Answer), s.store = outdated ∧ Tidy s.store ∧
      (Request.perform .hasPassword).program.run.run s = (r, t) ∧
      (Request.perform .hasPassword).Done s t r ∧ s.store[Key.phrase "o"]? = some [0] ∧
      t.store[Key.phrase "o"]? = some [1] ∧ Committed s.store := by
  have hstaged : Staged outdated ⟨"", "", ""⟩ := by
    obtain ⟨bytes, hb, hr⟩ := staged_halfway ⟨"", "", ""⟩ "o" [1]
    exact ⟨bytes, by rwa [getElem?_outdated (by simp)], hr⟩
  have hstored : Stored outdated ⟨"", "", ""⟩ :=
    (stored_congr (getElem?_outdated (by simp)) _).mpr (stored_halfway ⟨"", "", ""⟩ "o" [1])
  have hnew : outdated[Key.stagedPhrase "o"]? = some [1] := by
    rw [getElem?_outdated (by simp), halfway_stagedPhrase]
  have hold : outdated[Key.phrase "o"]? = some [0] := by
    rw [outdated, Records.getElem?_insert, if_pos rfl]
  generalize outdated = records at *
  let s : Session Records := ⟨records, ⟨fun _ => 0, 0⟩, [], []⟩
  have htidy : Tidy s.store := fun _ _ => hstaged.mem
  obtain ⟨r, t, hrun⟩ : ∃ r t, (Request.perform .hasPassword).program.run.run s = (r, t) :=
    ⟨_, _, rfl⟩
  obtain ⟨hone, hafter⟩ := own_records_touched htidy
  obtain ⟨y, hy⟩ := exists_resolves fun _ => ⟨⟨_, hstaged⟩, fun _ => ⟨_, hstored⟩⟩
  rcases hone _ r t hrun with ⟨-, fault, -, hunfit | ⟨f, hblocked, -⟩⟩ | hdone
  · cases hunfit
  · exact absurd hblocked (hy.not_blocked f)
  · obtain ⟨u, hu, htouches, -⟩ := id hdone
    obtain rfl := hy.unique (resolves_of_run_settle hu)
    have hb := (htouches (Key.phrase "o")).resolve_right nofun
    rw [(hy.resolved hstaged.mem).phrase_of_committed ⟨_, hstaged, hstored⟩, hnew,
      Option.some_or] at hb
    have hleft := ((hafter [] _ r t hrun).2 "o" [0] [1] hold hb (by decide)).resolve_left nofun
    exact ⟨s, t, r, rfl, htidy, hrun, hdone, hold, hb, hleft.2.1⟩

end PhraseVault.Vault
