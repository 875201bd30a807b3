import PhraseVault.Proofs.Vault.Operations
import PhraseVault.Proofs.Vault.Restart
import PhraseVault.Proofs.Vault.Still

/-!
# What the records are seals of

Along with a vault whose changes may fail runs a note of the phrase that was last sealed for each
owner. However operations fare, and wherever they are cut short, every record of an owner, in place or
staged, is a seal of that phrase, under some key. A change of password keeps that up if the password
that it is asked for with derives the key that the phrases are sealed under.
-/
namespace PhraseVault.Vault
open Vault.Action

/-- A record is the seal of a text for an owner under a key. -/
def Seals (bytes : Bytes) (owner : String) (key : Bytes) (text : String) : Prop :=
  ∃ p : SealedPhrase, bytes = p.write ∧ p.owner = owner ∧ p.iv.sigBytes < Json.wordLimit ∧
    p.iv.Usable ∧ key.length = Sealing.keyLength ∧ Sealing.encrypt text key p.iv = .ok p.cipher

theorem Seals.opens {bytes key : Bytes} {owner text : String} (h : Seals bytes owner key text) :
    Opens bytes owner key text := by
  obtain ⟨p, rfl, ho, hsize, hiv, hk, hc⟩ := h
  exact ⟨p, SealedPhrase.read_write hsize, ho, Sealing.decrypt_of_encrypt hk hiv hc⟩

/-- A fresh seal. -/
theorem seals_freshPhrase (e : Entropy) (owner text : String) (c : Credential) (password : String) :
    Seals (freshPhrase e owner text (c.cipherKey password)).write owner (c.cipherKey password)
      text := by
  have hsize : (freshPhrase e owner text (c.cipherKey password)).iv.sigBytes < Json.wordLimit := by
    simp only [freshPhrase, Iv.pack, Entropy.length_peek]
    decide
  exact ⟨_, rfl, rfl, hsize, usable_fresh e, length_cipherKey c password,
    Sealing.encrypt_of_usable (length_cipherKey c password) (usable_fresh e) text⟩

/-- The phrase last sealed for each owner. -/
abbrev Notes := String → Option String

namespace Operation

/-- The notes after an operation, as the records before and after tell. -/
def noted (notes : Notes) (before after : Records) : Operation → Notes
  | sealFor owner phrase _ =>
    if Key.phrase owner ∈ after ∧ Key.phrase owner ∉ before then
      Function.update notes owner (some phrase)
    else notes
  | _ => notes

/-- A password that is to be changed, if it is accepted, derives the key that the phrases are sealed
under. -/
def Derives (notes : Notes) (x : Records) : Operation → Prop
  | changePassword current _ =>
    ∀ y d, Resolves x y → Stored y d → d.accepts current = .ok true →
      ∀ owner bytes text, y[Key.phrase owner]? = some bytes → notes owner = some text →
        Seals bytes owner (d.cipherKey current) text
  | _ => True

end Operation

/-- Every record of an owner is a seal of the phrase that is noted. -/
def Traced (notes : Notes) (x : Records) : Prop :=
  ∀ owner bytes, x[Key.phrase owner]? = some bytes ∨ x[Key.stagedPhrase owner]? = some bytes →
    ∃ key text, notes owner = some text ∧ Seals bytes owner key text

/-- Records that can be settled, and whose phrases are those noted. -/
structure Tracks (notes : Notes) (x : Records) : Prop where
  settles : ∃ y, Settles x y
  credential : Key.credential ∈ x → ∃ d, Stored x d
  traced : Traced notes x

section
variable {x y z : Records} {notes : Notes}

theorem exists_settles
    (hr : Key.stagedCredential ∈ x → (∃ c, Staged x c) ∧ ∃ d, Stored x d)
    (ht : ∀ owner, Key.stagedPhrase owner ∈ x → Key.stagedCredential ∈ x ∧ Key.phrase owner ∈ x) :
    ∃ y, Settles x y := by
  by_cases hm : Key.stagedCredential ∈ x
  · obtain ⟨y, hy⟩ := exists_resolves fun h => (hr h).imp_right fun hd _ => hd
    obtain ⟨h1, h2, h3, h4, h5⟩ := hy.resolved hm
    exact ⟨y, hr, ht, h1, h2, h3, h4, h5⟩
  · refine ⟨x, .refl (Records.getElem?_eq_none_iff.mpr hm) fun owner => ?_⟩
    exact Records.getElem?_eq_none_iff.mpr fun h => hm (ht owner h).1

theorem Tracks.empty : Tracks notes ∅ where
  settles := ⟨∅, .refl (getElem?_empty _) fun _ => getElem?_empty _⟩
  credential h := absurd h Std.ExtTreeMap.not_mem_empty
  traced owner bytes h := by simp at h

theorem Tracks.staged (h : Tracks notes x) (hm : Key.stagedCredential ∈ x) :
    (∃ c, Staged x c) ∧ ∃ d, Stored x d := by
  obtain ⟨y, hy⟩ := h.settles
  exact hy.readable hm

theorem Tracks.tidy (h : Tracks notes x) (owner : String) (hm : Key.stagedPhrase owner ∈ x) :
    Key.stagedCredential ∈ x ∧ Key.phrase owner ∈ x := by
  obtain ⟨y, hy⟩ := h.settles
  exact hy.tidy owner hm

/-- A rotation begins to be staged. -/
theorem Tracks.insert_stagedCredential (h : Tracks notes x) {old : Credential} (ho : Stored x old)
    (next : Credential) : Tracks notes (x.insert Key.stagedCredential next.write) := by
  have hold : Stored (x.insert Key.stagedCredential next.write) old := by
    rwa [stored_congr (Records.getElem?_insert .. ▸ if_neg Key.stagedCredential_ne_credential)]
  refine ⟨exists_settles (fun _ => ⟨⟨next, next.write, ?_, next.read_write⟩, old, hold⟩) ?_,
    fun _ => ⟨old, hold⟩, fun owner bytes hb => ?_⟩
  · rw [Records.getElem?_insert, if_pos rfl]
  · intro owner hm
    have hm : Key.stagedPhrase owner ∈ x := by simpa [Std.ExtTreeMap.mem_insert] using hm
    exact ⟨Std.ExtTreeMap.mem_insert_self,
      Std.ExtTreeMap.mem_insert.mpr (.inr (h.tidy owner hm).2)⟩
  · rw [Records.getElem?_insert, Records.getElem?_insert,
      if_neg (Key.stagedCredential_ne_phrase owner),
      if_neg (Key.stagedCredential_ne_stagedPhrase owner)] at hb
    exact h.traced owner bytes hb

/-- A phrase that is in place is staged as well. -/
theorem Tracks.insert_stagedPhrase (h : Tracks notes x) (hm : Key.stagedCredential ∈ x)
    {owner text : String} {bytes key : Bytes} (hp : Key.phrase owner ∈ x)
    (hn : notes owner = some text) (hb : Seals bytes owner key text) :
    Tracks notes (x.insert (Key.stagedPhrase owner) bytes) := by
  have hother : ∀ other, Key.stagedPhrase owner ≠ other →
      (x.insert (Key.stagedPhrase owner) bytes)[other]? = x[other]? := by
    intro other ho
    rw [Records.getElem?_insert, if_neg ho]
  obtain ⟨⟨c, hc⟩, d, hd⟩ := h.staged hm
  have hc : Staged (x.insert (Key.stagedPhrase owner) bytes) c := by
    rwa [Staged, hother _ (Key.stagedPhrase_ne_stagedCredential owner)]
  have hd : Stored (x.insert (Key.stagedPhrase owner) bytes) d := by
    rwa [Stored, hother _ (Key.stagedPhrase_ne_credential owner)]
  refine ⟨exists_settles (fun _ => ⟨⟨c, hc⟩, d, hd⟩) fun o ho => ⟨hc.mem, ?_⟩,
    fun _ => ⟨d, hd⟩, fun o content hb' => ?_⟩
  · rw [Std.ExtTreeMap.mem_insert, Std.compare_eq_iff_eq, Key.stagedPhrase_inj] at ho
    refine Std.ExtTreeMap.mem_insert.mpr (.inr ?_)
    rcases ho with rfl | ho
    · exact hp
    · exact (h.tidy o ho).2
  · rw [hother _ (Key.stagedPhrase_ne_phrase owner o), Records.getElem?_insert] at hb'
    by_cases he : owner = o
    · subst he
      rw [if_pos rfl] at hb'
      rcases hb' with hb' | hb'
      · exact h.traced owner content (.inl hb')
      · cases hb'
        exact ⟨key, text, hn, hb⟩
    · rw [if_neg (mt Key.stagedPhrase_inj.mp he)] at hb'
      exact h.traced o content hb'

/-- The credential is put in place, the first or another one. -/
theorem Tracks.insert_credential (h : Tracks notes x) (c : Credential) :
    Tracks notes (x.insert Key.credential c.write) := by
  have hother : ∀ other, Key.credential ≠ other →
      (x.insert Key.credential c.write)[other]? = x[other]? := by
    intro other ho
    rw [Records.getElem?_insert, if_neg ho]
  have hmem : ∀ other, Key.credential ≠ other →
      (other ∈ x.insert Key.credential c.write ↔ other ∈ x) := by
    intro other ho
    rw [← Records.getElem?_ne_none_iff, hother other ho, Records.getElem?_ne_none_iff]
  have hc : Stored (x.insert Key.credential c.write) c :=
    ⟨c.write, by rw [Records.getElem?_insert, if_pos rfl], c.read_write⟩
  refine ⟨exists_settles (fun hm => ⟨?_, c, hc⟩) fun owner hm => ?_, fun _ => ⟨c, hc⟩,
    fun owner bytes hb => ?_⟩
  · obtain ⟨d, hd⟩ := (h.staged ((hmem _ Key.credential_ne_stagedCredential).mp hm)).1
    rw [Staged, ← hother _ Key.credential_ne_stagedCredential] at hd
    exact ⟨d, hd⟩
  · have ht := h.tidy owner ((hmem _ (Key.credential_ne_stagedPhrase owner)).mp hm)
    exact ⟨(hmem _ Key.credential_ne_stagedCredential).mpr ht.1,
      (hmem _ (Key.credential_ne_phrase owner)).mpr ht.2⟩
  · rw [hother _ (Key.credential_ne_phrase owner), hother _ (Key.credential_ne_stagedPhrase owner)] at hb
    exact h.traced owner bytes hb

/-- Where nothing is staged, what holds of the credential and of each phrase is all there is. -/
theorem tracks_of_unstaged (hs : ∀ owner, Key.stagedPhrase owner ∉ x)
    (hn : Key.stagedCredential ∉ x) (hc : Key.credential ∈ x → ∃ d, Stored x d)
    (hp : ∀ owner bytes, x[Key.phrase owner]? = some bytes →
      ∃ key text, notes owner = some text ∧ Seals bytes owner key text) : Tracks notes x where
  settles := exists_settles (fun hm => absurd hm hn) fun owner hm => absurd hm (hs owner)
  credential := hc
  traced owner bytes h :=
    h.elim (hp owner bytes) fun hb => absurd (Records.mem_of_getElem? hb) (hs owner)

/-- A phrase is sealed while nothing is staged. -/
theorem Tracks.insert_phrase (h : Tracks notes x) (hn : Key.stagedCredential ∉ x)
    {owner text : String} {bytes key : Bytes} (hb : Seals bytes owner key text) :
    Tracks (Function.update notes owner (some text)) (x.insert (Key.phrase owner) bytes) := by
  have hother : ∀ other, Key.phrase owner ≠ other →
      (x.insert (Key.phrase owner) bytes)[other]? = x[other]? := by
    intro other ho
    rw [Records.getElem?_insert, if_neg ho]
  refine tracks_of_unstaged (fun o hm => ?_) (fun hm => ?_) (fun hm => ?_) fun o content ho => ?_
  · have hm : Key.stagedPhrase o ∈ x := by simpa [Std.ExtTreeMap.mem_insert] using hm
    exact hn (h.tidy o hm).1
  · exact hn (by simpa [Std.ExtTreeMap.mem_insert] using hm)
  · obtain ⟨d, hd⟩ := h.credential (by simpa [Std.ExtTreeMap.mem_insert] using hm)
    exact ⟨d, (stored_congr (hother _ (Key.phrase_ne_credential owner)) d).mpr hd⟩
  · by_cases he : owner = o
    · subst he
      rw [Records.getElem?_insert, if_pos rfl] at ho
      cases ho
      exact ⟨key, text, Function.update_self .., hb⟩
    · rw [hother _ (mt Key.phrase_inj.mp he)] at ho
      rw [Function.update_of_ne (Ne.symm he)]
      exact h.traced o content (.inl ho)

/-- A record that is not staged is removed while nothing is staged. -/
theorem Tracks.erase (h : Tracks notes x) (hn : Key.stagedCredential ∉ x) (key : String) :
    Tracks notes (x.erase key) := by
  have hmem : ∀ other, other ∈ x.erase key → other ∈ x :=
    fun other => Std.ExtTreeMap.mem_of_mem_erase
  refine tracks_of_unstaged (fun o hm => hn (h.tidy o (hmem _ hm)).1) (fun hm => hn (hmem _ hm))
    (fun hm => ?_) fun o content ho => ?_
  · obtain ⟨d, bytes, hb, hd⟩ := h.credential (hmem _ hm)
    refine ⟨d, bytes, ?_, hd⟩
    rw [Records.getElem?_erase, if_neg, hb]
    rintro rfl
    simp [Std.ExtTreeMap.mem_erase] at hm
  · rw [Records.getElem?_erase] at ho
    split at ho
    · cases ho
    · exact h.traced o content (.inl ho)

/-- Settling keeps to the notes. -/
theorem steady_traced (notes : Notes) : Steady (Traced notes) where
  place x owner bytes h hb o content ho := by
    rw [Records.getElem?_insert, Records.getElem?_insert,
      if_neg (Key.phrase_ne_stagedPhrase owner o)] at ho
    split at ho
    · next he =>
      obtain rfl := Key.phrase_inj.mp he
      rcases ho with ho | ho
      · cases ho
        exact h owner bytes (.inr hb)
      · exact h owner content (.inr ho)
    · exact h o content ho
  drop x owner h o content ho := by
    rw [Records.getElem?_erase, Records.getElem?_erase,
      if_neg (Key.stagedPhrase_ne_phrase owner o)] at ho
    refine h o content (ho.imp_right fun ho => ?_)
    split at ho
    · cases ho
    · exact ho
  finish x h o content ho := by
    rw [Records.getElem?_erase, Records.getElem?_erase,
      if_neg (Key.stagedCredential_ne_phrase o), if_neg (Key.stagedCredential_ne_stagedPhrase o)] at ho
    exact h o content ho

theorem Steady.and {ok ok' : Records → Prop} (h : Steady ok) (h' : Steady ok') :
    Steady fun x => ok x ∧ ok' x where
  place x owner bytes hx hb := ⟨h.place x owner bytes hx.1 hb, h'.place x owner bytes hx.2 hb⟩
  drop x owner hx := ⟨h.drop x owner hx.1, h'.drop x owner hx.2⟩
  finish x hx := ⟨h.finish x hx.1, h'.finish x hx.2⟩

/-- Records on the way to settled ones. -/
structure Passes (notes : Notes) (x z : Records) : Prop where
  tracks : Tracks notes z
  phrase : ∀ owner, Key.phrase owner ∈ z ↔ Key.phrase owner ∈ x

theorem Settles.passes (h : Settles x y) (hx : Tracks notes x) (hz : Resolves z y)
    (ha : Advances x z) (ht : Traced notes z) : Passes notes x z := by
  have hs : Settles z y := h.of_advances hz ha
  refine ⟨⟨⟨y, hs⟩, fun hm => ?_, ht⟩, fun owner => ?_⟩
  · have hmx : Key.credential ∈ x := by
      rwa [← Records.getElem?_ne_none_iff, ← ha.credential, Records.getElem?_ne_none_iff]
    obtain ⟨d, hd⟩ := hx.credential hmx
    exact ⟨d, (stored_congr ha.credential d).mpr hd⟩
  · rw [← hs.mem_phrase, ← h.mem_phrase]

end

namespace Action
variable {notes : Notes} {s : Session Records}

/-- An operation has been opened, or a change has failed. -/
def Entered (notes : Notes) (x : Records) (r : Except Fault Unit) (t : Session Records) : Prop :=
  Passes notes x t.store ∧ (r = .ok () → Resolves x t.store)

private theorem entered_of_resolves {act : Action Unit} (h : Tracks notes s.store)
    (hact : ∀ {y}, Resolves s.store y →
      Assures True (fun z => Resolves z y ∧ Advances s.store z ∧ Traced notes z) act
        (Resolving True (fun z => Advances s.store z ∧ Traced notes z) y s) s) :
    Assures True (Passes notes s.store) act (Entered notes s.store) s := by
  obtain ⟨y, hy⟩ := h.settles
  refine (hact hy.resolves).mono (fun z hz => hy.passes h hz.1 hz.2.1 hz.2.2) ?_
  rintro r t ⟨-, -, hz, ⟨ha, ht⟩, hr⟩
  refine ⟨hy.passes h hz ha ht, fun he => ?_⟩
  rcases hr with ⟨-, hst⟩ | ⟨-, fault, hf⟩
  · rw [hst]
    exact hy.resolves
  · cases he.symm.trans hf

theorem entered_settle (h : Tracks notes s.store) :
    Assures True (Passes notes s.store) settle (Entered notes s.store) s :=
  entered_of_resolves h fun hy =>
    assures_settle_of_resolves ((steady_advances s.store).and (steady_traced notes)) hy
      ⟨.refl s.store, h.traced⟩

theorem entered_shared (h : Tracks notes s.store) :
    Assures True (Passes notes s.store) shared (Entered notes s.store) s :=
  entered_of_resolves h fun hy =>
    assures_shared_of_resolves ((steady_advances s.store).and (steady_traced notes)) hy
      ⟨.refl s.store, h.traced⟩

section Operations
variable {α : Type}

/-- Nothing is said of how an action ends. -/
def Anyhow (_ : Except Fault α) (_ : Session Records) : Prop := True

/-- An operation that changes nothing once it has been opened. -/
private theorem tracks_of_looks {act : Action α} (h : Tracks notes s.store) (hact : Looks act) :
    Assures True (Tracks notes) act Anyhow s := by
  obtain ⟨g, rfl, hg⟩ := hact
  refine assures_bind ((entered_shared h).mono (fun _ hz => hz.tracks) ?_)
  rintro (fault | _) t ht
  · exact trivial
  · exact Program.Assures.mono (Program.Still.assures (hg ())) (fun _ hz => hz) fun _ _ _ => trivial

/-- An operation goes on where nothing is staged any more. -/
private theorem tracks_of_opened {ok : Records → Prop} {f : Unit → Action α}
    (h : Tracks notes s.store) (hok : ∀ z, Passes notes s.store z → ok z)
    (hf : ∀ t : Session Records, Passes notes s.store t.store → Resolves s.store t.store →
      Assures True ok (f ()) Anyhow t) :
    Assures True ok (exclusive >>= f) Anyhow s := by
  refine assures_bind ((entered_settle h).mono hok ?_)
  rintro (fault | _) t ⟨ht, hr⟩
  · exact trivial
  · exact hf t ht (hr rfl)

variable (h : Tracks notes s.store)
include h

theorem tracks_setPassword (password : String) :
    Assures True (Tracks notes) (setPassword password) Anyhow s := by
  refine tracks_of_opened h (fun _ hz => hz.tracks) fun t ht _ => ?_
  refine assures_still_bind still_sealedOwners (fun _ _ _ => trivial) fun owners u hu => ?_
  by_cases ho : owners = []
  · rw [if_neg (not_not.mpr ho)]
    refine assures_still_bind still_loadCredential (fun _ _ _ => trivial) fun stored v hv => ?_
    have hput : ∀ (c : Credential) (w : Session Records), w.store = v.store →
        Assures True (Tracks notes) (do saveCredential c; report (if stored.isSome then
          .credentialReplaced else .credentialCreated)) Anyhow w := by
      intro c w hw
      rw [saveCredential, assures_put_bind, assures_report, hw, hv, hu]
      exact ⟨fun _ _ => trivial, ht.tracks.insert_credential c, trivial⟩
    by_cases hp : password = ""
    · rw [hp, assures_newCredential_empty]
      exact trivial
    · rw [assures_newCredential hp]
      exact hput _ _ rfl
  · rw [if_pos ho]
    exact trivial

theorem tracks_sealFor (owner phrase password : String) :
    Assures True
      (fun z => Tracks ((Operation.sealFor owner phrase password).noted notes s.store z) z)
      (sealFor owner phrase password) Anyhow s := by
  have hkept : ∀ z, Passes notes s.store z →
      Tracks ((Operation.sealFor owner phrase password).noted notes s.store z) z := by
    intro z hz
    rw [Operation.noted, if_neg fun hm => hm.2 ((hz.phrase owner).mp hm.1)]
    exact hz.tracks
  rw [sealFor]
  by_cases ho : owner = ""
  · rw [if_pos ho]
    exact trivial
  rw [if_neg ho]
  by_cases hblank : isBlank phrase
  · rw [if_pos hblank]
    exact trivial
  rw [if_neg hblank]
  refine tracks_of_opened h hkept fun t ht hres => ?_
  refine assures_still_bind still_requireCredential (fun _ _ _ => trivial) fun c u hu => ?_
  refine assures_still_bind (still_demand c password) (fun _ _ _ => trivial) fun _ v hv => ?_
  rw [assures_fetch_bind]
  by_cases hm : Key.phrase owner ∈ v.store
  · rw [if_pos (Std.ExtTreeMap.mem_iff_isSome_getElem?.mp hm)]
    exact trivial
  · rw [if_neg (mt Std.ExtTreeMap.mem_iff_isSome_getElem?.mpr hm), assures_sealPhrase, savePhrase,
      assures_put_bind, assures_report_bind, assures_pure]
    refine ⟨fun _ _ => trivial, ?_, trivial⟩
    rw [hv, hu] at hm ⊢
    have hn : Key.stagedCredential ∉ t.store := Records.getElem?_eq_none_iff.mp hres.stagedCredential
    rw [Operation.noted, if_pos ⟨Std.ExtTreeMap.mem_insert_self, fun hs => hm ((ht.phrase owner).mpr hs)⟩]
    exact ht.tracks.insert_phrase hn (seals_freshPhrase v.entropy owner phrase c password)

theorem tracks_remove (owner : String) : Assures True (Tracks notes) (remove owner) Anyhow s := by
  refine tracks_of_opened h (fun _ hz => hz.tracks) fun t ht hres => ?_
  have hn : Key.stagedCredential ∉ t.store := Records.getElem?_eq_none_iff.mp hres.stagedCredential
  rw [assures_fetch_bind]
  split
  · exact trivial
  · rw [assures_erase_bind, assures_report]
    exact ⟨fun _ _ => trivial, ht.tracks.erase hn _, trivial⟩

theorem tracks_wipe : Assures True (Tracks notes) wipe Anyhow s := by
  refine tracks_of_opened h (fun _ hz => hz.tracks) fun t ht hres => ?_
  have hn : Key.stagedCredential ∉ t.store := Records.getElem?_eq_none_iff.mp hres.stagedCredential
  rw [assures_sealedOwners]
  generalize Records.owners t.store = owners
  suffices hdelete : ∀ (rest : List String) (u : Session Records), Tracks notes u.store →
      Key.stagedCredential ∉ u.store → Assures True (Tracks notes) (do
        deletePhrases rest; erase Key.credential; report (.wiped owners.length)) Anyhow u from
    hdelete owners t ht.tracks hn
  intro rest
  induction rest with
  | nil =>
    intro u hu hnu
    rw [deletePhrases, pure_bind, assures_erase_bind, assures_report]
    exact ⟨fun _ _ => trivial, hu.erase hnu _, trivial⟩
  | cons owner rest ih =>
    intro u hu hnu
    rw [deletePhrases, bind_assoc, assures_erase_bind]
    refine ⟨fun _ _ => trivial, hu.erase hnu _, ih _ (hu.erase hnu _) fun hm => ?_⟩
    exact hnu (Std.ExtTreeMap.mem_of_mem_erase hm)

omit h in
/-- Each phrase that is in place is sealed again as what it is noted to be. -/
private theorem tracks_resealAll {ok : Records → Prop} {old next : Credential}
    {current password : String} {owners : List String} {f : List SealedPhrase → Action α}
    (hseals : ∀ owner ∈ owners, ∃ bytes text, s.store[Key.phrase owner]? = some bytes ∧
      notes owner = some text ∧ Seals bytes owner (old.cipherKey current) text)
    (hf : ∀ (ps : List SealedPhrase) (t : Session Records), t.store = s.store →
      (∀ p ∈ ps, Key.phrase p.owner ∈ s.store ∧ ∃ text, notes p.owner = some text ∧
        Seals p.write p.owner (next.cipherKey password) text) →
      Assures True ok (f ps) Anyhow t) :
    Assures True ok (resealAll old current next password owners >>= f) Anyhow s := by
  induction owners generalizing s f with
  | nil => exact hf [] s rfl (by simp)
  | cons owner owners ih =>
    obtain ⟨hfirst, hrest⟩ := List.forall_mem_cons.mp hseals
    obtain ⟨bytes, text, hb, hn, hseal⟩ := hfirst
    rw [resealAll]
    simp only [bind_assoc]
    rw [assures_openPhrase hb hseal.opens, assures_sealPhrase]
    refine ih (s := { s with entropy := s.entropy.advance Iv.freshLength }) hrest
      fun ps t ht hps => hf _ t ht (List.forall_mem_cons.mpr ⟨⟨Records.mem_of_getElem? hb, text, hn, ?_⟩, hps⟩)
    exact seals_freshPhrase s.entropy owner text next password

omit h in
private theorem tracks_stagePhrases {ps : List SealedPhrase}
    {f : Unit → Action Unit} (h : Tracks notes s.store) (hm : Key.stagedCredential ∈ s.store)
    (hps : ∀ p ∈ ps, Key.phrase p.owner ∈ s.store ∧ ∃ key text, notes p.owner = some text ∧
      Seals p.write p.owner key text)
    {post : Except Fault Unit → Session Records → Prop}
    (hpost : ∀ fault t, Tracks notes t.store → post (.error fault) t)
    (hf : ∀ t : Session Records, Tracks notes t.store → Assures True (Tracks notes) (f ()) post t) :
    Assures True (Tracks notes) (stagePhrases ps >>= f) post s := by
  induction ps generalizing s with
  | nil => exact hf s h
  | cons p ps ih =>
    obtain ⟨⟨hp, key, text, hn, hseal⟩, hrest⟩ := List.forall_mem_cons.mp hps
    have hstage := h.insert_stagedPhrase hm hp hn hseal
    rw [stagePhrases, bind_assoc, assures_put_bind]
    refine ⟨fun _ _ => hpost _ _ h, hstage, ?_⟩
    refine ih (s := { s with store := s.store.insert (Key.stagedPhrase p.owner) p.write }) hstage
      (Std.ExtTreeMap.mem_insert.mpr (.inr hm)) fun q hq => ?_
    exact (hrest q hq).imp_left fun hm => Std.ExtTreeMap.mem_insert.mpr (.inr hm)

omit h in
private theorem tracks_stage {old next : Credential} {ps : List SealedPhrase}
    (h : Tracks notes s.store) (hold : Stored s.store old)
    (hps : ∀ p ∈ ps, Key.phrase p.owner ∈ s.store ∧ ∃ key text, notes p.owner = some text ∧
      Seals p.write p.owner key text) :
    Assures True (Tracks notes) (stage next ps) (fun _ t => Tracks notes t.store) s := by
  have hstaged := h.insert_stagedCredential hold next
  rw [stage, assures_put_bind]
  refine ⟨fun _ _ => h, hstaged, ?_⟩
  refine tracks_stagePhrases (s := { s with store := s.store.insert Key.stagedCredential next.write })
    hstaged Std.ExtTreeMap.mem_insert_self (fun p hp => ?_) (fun _ _ ht => ht) fun t ht => ?_
  · exact (hps p hp).imp_left fun hm => Std.ExtTreeMap.mem_insert.mpr (.inr hm)
  · rw [saveCredential, assures_put]
    exact ⟨fun _ _ => ht, ht.insert_credential next, ht.insert_credential next⟩

/-- Settling may be attempted at any time. -/
private theorem tracks_attempt_settle {f : Except Fault Unit → Action Unit}
    (hf : ∀ r (t : Session Records), Tracks notes t.store →
      Assures True (Tracks notes) (f r) Anyhow t) :
    Assures True (Tracks notes) (attempt settle >>= f) Anyhow s := by
  refine assures_attempt_bind ((entered_settle h).mono (fun _ hz => hz.tracks) ?_)
  exact fun r t ht => hf r t ht.1.tracks

theorem tracks_changePassword (current password : String)
    (hderives : (Operation.changePassword current password).Derives notes s.store) :
    Assures True (Tracks notes) (changePassword current password) Anyhow s := by
  refine tracks_of_opened h (fun _ hz => hz.tracks) fun t ht hres => ?_
  by_cases hc : Key.credential ∈ t.store
  case neg =>
    rw [assures_requireCredential_none (Records.getElem?_eq_none_iff.mpr hc)]
    exact trivial
  obtain ⟨old, hold⟩ := ht.tracks.credential hc
  rw [assures_requireCredential hold]
  by_cases ha : old.accepts current = .ok true
  case neg =>
    -- refused, or the stored hash cannot be compared with
    rw [demand, matching]
    generalize old.accepts current = accepted at ha
    rcases accepted with fault | _ | _
    · exact trivial
    · exact trivial
    · exact absurd rfl ha
  rw [assures_demand ha]
  by_cases hp : password = ""
  · rw [hp, assures_newCredential_empty]
    exact trivial
  rw [assures_newCredential hp, assures_sealedOwners]
  have hseals : ∀ owner ∈ Records.owners t.store, ∃ bytes text,
      t.store[Key.phrase owner]? = some bytes ∧ notes owner = some text ∧
      Seals bytes owner (old.cipherKey current) text := by
    intro owner ho
    obtain ⟨bytes, hb⟩ := Option.ne_none_iff_exists'.mp
      (Records.getElem?_ne_none_iff.mpr (Records.mem_owners.mp ho))
    obtain ⟨-, text, hn, -⟩ := ht.tracks.traced owner bytes (.inl hb)
    exact ⟨bytes, text, hb, hn, hderives _ old hres hold ha owner bytes text hb hn⟩
  refine tracks_resealAll hseals fun ps u hu hps => ?_
  have hstage : Assures True (Tracks notes) (stage (freshCredential t.entropy password) ps)
      (fun _ z => Tracks notes z.store) u := by
    refine tracks_stage (hu ▸ ht.tracks) (hu ▸ hold) fun p hp => ?_
    obtain ⟨hm, text, hn, hseal⟩ := hps p hp
    exact ⟨hu ▸ hm, _, text, hn, hseal⟩
  refine assures_attempt_bind (hstage.mono (fun _ hz => hz) fun r v hv => ?_)
  cases r with
  | error fault =>
    refine tracks_attempt_settle hv fun r w _ => ?_
    cases r <;> exact trivial
  | ok _ =>
    refine tracks_attempt_settle hv fun r w _ => ?_
    cases r <;> exact trivial

end Operations

/-- What becomes of an answer makes no difference. -/
private theorem tracks_map {α β : Type} {ok : Records → Prop} {act : Action α} (g : α → β)
    (h : Assures True ok act Anyhow s) : Assures True ok (g <$> act) Anyhow s :=
  assures_map g (h.mono (fun _ hz => hz) fun _ _ _ => trivial)

end Action

variable {notes : Notes} {s : Session Records}

/-- Every operation, wherever it is cut short. -/
theorem Operation.tracks_program {op : Operation} (h : Tracks notes s.store)
    (hd : op.Derives notes s.store) :
    Assures True (fun z => Tracks (op.noted notes s.store z) z) op.program Anyhow s := by
  cases op with
  | hasPassword => exact tracks_map _ (tracks_of_looks h looks_hasPassword)
  | state => exact tracks_map _ (tracks_of_looks h looks_state)
  | setPassword password => exact tracks_map _ (tracks_setPassword h password)
  | verifyPassword candidate =>
    exact tracks_map _ (tracks_of_looks h (looks_verifyPassword candidate))
  | changePassword current password =>
    exact tracks_map _ (tracks_changePassword h current password hd)
  | sealFor owner phrase password => exact tracks_map _ (tracks_sealFor h owner phrase password)
  | reveal owner password => exact tracks_map _ (tracks_of_looks h (looks_reveal owner password))
  | hasPhrase owner => exact tracks_map _ (tracks_of_looks h (looks_hasPhrase owner))
  | owners => exact tracks_map _ (tracks_of_looks h looks_owners)
  | remove owner => exact tracks_map _ (tracks_remove h owner)
  | wipe => exact tracks_map _ (tracks_wipe h)

/-- Every request, wherever it is cut short. -/
theorem Request.tracks_program {q : Request} (h : Tracks notes s.store)
    (hd : (q.operation s.ids).Derives notes s.store) :
    Assures True (fun z => Tracks ((q.operation s.ids).noted notes s.store z) z) q.program Anyhow
      s := by
  cases q with
  | perform op => exact op.tracks_program h hd
  | sealNew phrase password =>
    exact tracks_map _ ((assures_mint_bind _).mpr
      (tracks_sealFor (s := { s with ids := s.ids.tail }) h _ phrase password))

/-- Wherever a request is cut short, the records are those of the phrases noted. -/
theorem Request.tracks_of_calls {s : Session Unreliable} {q : Request}
    (h : Tracks notes s.store.records) (hd : (q.operation s.ids).Derives notes s.store.records)
    (n : ℕ) :
    Tracks ((q.operation s.ids).noted notes s.store.records (q.program.run.calls n s).2.store.records)
      (q.program.run.calls n s).2.store.records := by
  have hnow : (q.operation s.ids).noted notes s.store.records s.store.records = notes := by
    cases q.operation s.ids with
    | sealFor owner phrase password => exact if_neg fun hm => hm.2 hm.1
    | _ => rfl
  have hassures : Assures True _ q.program Anyhow s.bare := Request.tracks_program h hd
  exact (Program.assures_calls hassures (fun _ => trivial) (hnow.symm ▸ h) n).2

end PhraseVault.Vault
