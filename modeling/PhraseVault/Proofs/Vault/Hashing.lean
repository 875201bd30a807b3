import PhraseVault.Proofs.Store.Name
import PhraseVault.Proofs.Vault.Filing
import PhraseVault.Proofs.Vault.Still
import PhraseVault.Proofs.Vault.Trace

/-!
# Hashes are read back as they were derived

Whatever a store replies, a credential that an operation writes is made of the password that the
operation is to set. Its hash is written in hexadecimal digits, as the names of record files are, and
these lose nothing.
-/
namespace PhraseVault.Vault
variable {α β : Type}

namespace Program
variable {may : String → Bytes → Prop}

/-- Whatever is replied, the program writes nothing but what it may. -/
def Writes (may : String → Bytes → Prop) : Program α → Prop
  | done _ => True
  | get _ next => ∀ r, (next r).Writes may
  | set key value next => may key value ∧ ∀ r, (next r).Writes may
  | delete _ next => ∀ r, (next r).Writes may
  | keys next => ∀ r, (next r).Writes may
  | draw _ next => ∀ bytes, (next bytes).Writes may
  | mint next => ∀ id, (next id).Writes may
  | log _ next => (next ()).Writes may

theorem Writes.bind {p : Program α} {f : α → Program β} (h : p.Writes may)
    (hf : ∀ a, (f a).Writes may) : (p.bind f).Writes may := by
  induction p with
  | done a => exact hf a
  | get key next ih => exact fun r => ih r (h r)
  | set key value next ih => exact ⟨h.1, fun r => ih r (h.2 r)⟩
  | delete key next ih => exact fun r => ih r (h r)
  | keys next ih => exact fun r => ih r (h r)
  | draw count next ih => exact fun bytes => ih bytes (h bytes)
  | mint next ih => exact fun id => ih id (h id)
  | log event next ih => exact ih () h

/-- A program that only looks writes nothing. -/
theorem Still.writes {p : Program α} (h : p.Still) : p.Writes may := by
  induction p with
  | done a => trivial
  | get key next ih => exact fun r => ih r (h r)
  | set key value next ih => exact h.elim
  | delete key next ih => exact h.elim
  | keys next ih => exact fun r => ih r (h r)
  | draw count next ih => exact fun bytes => ih bytes (h bytes)
  | mint next ih => exact fun id => ih id (h id)
  | log event next ih => exact ih () h

/-- What is written in a run is what the program may write, over any store. -/
theorem Writes.of_wrote {σ : Type} [RecordStore σ] {p : Program α} (h : p.Writes may)
    {s : Session σ} {key : String} {value : Bytes} (hw : .wrote key value ∈ p.deeds s) :
    may key value := by
  induction p generalizing s with
  | done a => cases hw
  | get k next ih =>
    rcases List.mem_append.mp hw with hfound | hrest
    · obtain ⟨_, -, hd⟩ := mem_findings.mp hfound
      cases hd
    · exact ih _ (h _) hrest
  | set k content next ih =>
    rcases List.mem_cons.mp hw with hd | hrest
    · cases hd
      exact h.1
    · exact ih _ (h.2 _) hrest
  | delete k next ih => exact ih _ (h _) hw
  | keys next ih => exact ih _ (h _) hw
  | draw count next ih => exact ih _ (h _) ((List.mem_cons.mp hw).resolve_left nofun)
  | mint next ih => exact ih _ (h _) hw
  | log event next ih => exact ih _ h hw

end Program

/-- A credential is made of the password that is given. -/
def Renews (given : Option String) (key : String) (value : Bytes) : Prop :=
  key = Key.credential ∨ key = Key.stagedCredential → ∃ password salt keySalt,
    given = some password ∧ value = (Credential.create password salt keySalt).write

theorem renews_create (password salt keySalt key : String) :
    Renews (some password) key (Credential.create password salt keySalt).write :=
  fun _ => ⟨password, salt, keySalt, rfl, rfl⟩

theorem renews_phrase (given : Option String) (owner : String) (value : Bytes) :
    Renews given (Key.phrase owner) value := by
  rintro (h | h) <;> simp at h

theorem renews_stagedPhrase (given : Option String) (owner : String) (value : Bytes) :
    Renews given (Key.stagedPhrase owner) value := by
  rintro (h | h) <;> simp at h

namespace Action

/-- Whatever is replied, a credential that the action writes is made of the password given. -/
def Renewing (given : Option String) (act : Action α) : Prop := Program.Writes (Renews given) act.run

variable {given : Option String} {act : Action α} {f : α → Action β}

theorem renewing_bind (h : Renewing given act) (hf : ∀ a, Renewing given (f a)) :
    Renewing given (act >>= f) := by
  refine Program.Writes.bind h fun r => ?_
  cases r with
  | ok a => exact hf a
  | error fault => exact trivial

theorem Still.renewing (h : Still act) : Renewing given act := Program.Still.writes h

theorem Still.bind_renewing (h : Still act) (hf : ∀ a, Renewing given (f a)) :
    Renewing given (act >>= f) :=
  renewing_bind h.renewing hf

theorem renewing_throw (fault : Fault) : Renewing given (throw fault : Action α) := trivial

theorem renewing_map (g : α → β) (h : Renewing given act) : Renewing given (g <$> act) := by
  rw [map_eq_pure_bind]
  exact renewing_bind h fun _ => (still_pure _).renewing

theorem renewing_ite {c : Prop} [Decidable c] {act other : Action β} (h : Renewing given act)
    (ho : Renewing given other) : Renewing given (if c then act else other) := by
  split
  · exact h
  · exact ho

theorem renewing_put {key : String} {value : Bytes} (h : Renews given key value) :
    Renewing given (put key value) :=
  ⟨h, fun _ => trivial⟩

theorem renewing_erase (key : String) : Renewing given (erase key) := fun _ => trivial

theorem renewing_attempt (h : Renewing given act) : Renewing given (attempt act) :=
  Program.Writes.bind h fun _ => trivial

section Parts

theorem renewing_unstage (committed : Bool) (owners : List String) :
    Renewing given (unstage committed owners) := by
  induction owners with
  | nil => exact (still_pure _).renewing
  | cons owner owners ih =>
    have hrest : Renewing given (do erase (Key.stagedPhrase owner); unstage committed owners) :=
      renewing_bind (renewing_erase _) fun _ => ih
    rw [unstage]
    refine renewing_ite ((still_fetch _).bind_renewing fun v => ?_) hrest
    cases v with
    | none => exact hrest
    | some bytes => exact renewing_bind (renewing_put (renews_phrase _ _ _)) fun _ => hrest

theorem renewing_settle : Renewing given settle := by
  refine (still_fetch _).bind_renewing fun v => ?_
  cases v with
  | none => exact (still_pure _).renewing
  | some bytes =>
    refine (still_outcome _).bind_renewing fun staged => ?_
    refine still_loadCredential.bind_renewing fun stored => ?_
    refine still_listKeys.bind_renewing fun keys => ?_
    refine renewing_bind (renewing_unstage _ _) fun _ => ?_
    exact renewing_bind (renewing_erase _) fun _ => (still_report _).renewing

theorem renewing_shared : Renewing given shared := by
  have hrounds : ∀ rounds, Renewing given (sharedFor rounds) := by
    intro rounds
    induction rounds with
    | zero => exact renewing_throw _
    | succ rounds ih =>
      refine (still_fetch _).bind_renewing fun v => ?_
      cases v with
      | none => exact (still_pure _).renewing
      | some bytes => exact renewing_bind renewing_settle fun _ => ih
  exact hrounds 2

/-- What follows a new credential only has to write what is made of its password. -/
theorem renewing_newCredential_bind (password : String) {f : Credential → Action β}
    (hf : ∀ salt keySalt, Renewing given (f (Credential.create password salt keySalt))) :
    Renewing given (newCredential password >>= f) := by
  by_cases hp : password = ""
  · rw [hp, newCredential, if_pos rfl]
    exact trivial
  · rw [newCredential, if_neg hp]
    exact fun bytes bytes' => hf _ _

theorem renewing_stagePhrases (ps : List SealedPhrase) : Renewing given (stagePhrases ps) := by
  induction ps with
  | nil => exact (still_pure _).renewing
  | cons p ps ih => exact renewing_bind (renewing_put (renews_stagedPhrase _ _ _)) fun _ => ih

theorem renewing_deletePhrases (owners : List String) : Renewing given (deletePhrases owners) := by
  induction owners with
  | nil => exact (still_pure _).renewing
  | cons owner owners ih => exact renewing_bind (renewing_erase _) fun _ => ih

end Parts

section Operations

theorem renewing_setPassword (password : String) :
    Renewing (some password) (setPassword password) := by
  refine renewing_bind renewing_settle fun _ => ?_
  refine still_sealedOwners.bind_renewing fun owners => ?_
  refine renewing_ite (renewing_throw _) ?_
  refine still_loadCredential.bind_renewing fun stored => ?_
  refine renewing_newCredential_bind password fun salt keySalt => ?_
  refine renewing_bind (renewing_put (renews_create _ _ _ _)) fun _ => ?_
  exact (still_report _).renewing

theorem renewing_changePassword (current password : String) :
    Renewing (some password) (changePassword current password) := by
  have hsettle : Renewing (some password) (attempt settle) := renewing_attempt renewing_settle
  refine renewing_bind renewing_settle fun _ => ?_
  refine still_requireCredential.bind_renewing fun old => ?_
  refine (still_demand old current).bind_renewing fun _ => ?_
  refine renewing_newCredential_bind password fun salt keySalt => ?_
  refine still_sealedOwners.bind_renewing fun owners => ?_
  refine (still_resealAll old current _ password owners).bind_renewing fun resealed => ?_
  have hstage : Renewing (some password)
      (stage (Credential.create password salt keySalt) resealed) :=
    renewing_bind (renewing_put (renews_create _ _ _ _)) fun _ =>
      renewing_bind (renewing_stagePhrases resealed) fun _ =>
        renewing_put (renews_create _ _ _ _)
  refine renewing_bind (renewing_attempt hstage) fun r => ?_
  cases r with
  | error fault =>
    refine renewing_bind hsettle fun r => ?_
    cases r with
    | error cleanup => exact (still_report _).bind_renewing fun _ => renewing_throw fault
    | ok _ => exact renewing_throw fault
  | ok _ =>
    refine renewing_bind hsettle fun r => ?_
    cases r with
    | error fault => exact (still_report _).bind_renewing fun _ => (still_report _).renewing
    | ok _ => exact (still_report _).renewing

theorem renewing_sealFor (owner phrase password : String) :
    Renewing given (sealFor owner phrase password) := by
  refine renewing_ite (renewing_throw _) ?_
  refine renewing_ite (renewing_throw _) ?_
  refine renewing_bind renewing_settle fun _ => ?_
  refine still_requireCredential.bind_renewing fun c => ?_
  refine (still_demand c password).bind_renewing fun _ => ?_
  refine (still_fetch _).bind_renewing fun found => ?_
  refine renewing_ite (renewing_throw _) ?_
  refine (still_sealPhrase owner phrase c password).bind_renewing fun p => ?_
  refine renewing_bind (renewing_put (renews_phrase _ _ _)) fun _ => ?_
  exact (still_report _).bind_renewing fun _ => (still_pure _).renewing

theorem renewing_remove (owner : String) : Renewing given (remove owner) := by
  refine renewing_bind renewing_settle fun _ => ?_
  refine (still_fetch _).bind_renewing fun found => ?_
  refine renewing_ite (renewing_throw _) ?_
  exact renewing_bind (renewing_erase _) fun _ => (still_report _).renewing

theorem renewing_wipe : Renewing given wipe := by
  refine renewing_bind renewing_settle fun _ => ?_
  refine still_sealedOwners.bind_renewing fun owners => ?_
  refine renewing_bind (renewing_deletePhrases owners) fun _ => ?_
  exact renewing_bind (renewing_erase _) fun _ => (still_report _).renewing

/-- What only looks is opened by settling, which writes no credential. -/
theorem Looks.renewing (h : Looks act) : Renewing given act := by
  obtain ⟨g, rfl, hg⟩ := h
  exact renewing_bind renewing_shared fun u => (hg u).renewing

end Operations

end Action
open Vault.Action

/-- Whatever is replied, the credentials that an operation writes are made of its new password. -/
theorem Operation.renewing_program (op : Operation) : Renewing op.renewal? op.program := by
  cases op with
  | hasPassword => exact renewing_map _ looks_hasPassword.renewing
  | state => exact renewing_map _ looks_state.renewing
  | setPassword password => exact renewing_map _ (renewing_setPassword password)
  | verifyPassword candidate => exact renewing_map _ (looks_verifyPassword candidate).renewing
  | changePassword current password =>
    exact renewing_map _ (renewing_changePassword current password)
  | sealFor owner phrase password => exact renewing_map _ (renewing_sealFor owner phrase password)
  | reveal owner password => exact renewing_map _ (looks_reveal owner password).renewing
  | hasPhrase owner => exact renewing_map _ (looks_hasPhrase owner).renewing
  | owners => exact renewing_map _ looks_owners.renewing
  | remove owner => exact renewing_map _ (renewing_remove owner)
  | wipe => exact renewing_map _ renewing_wipe

theorem Request.renewing_program (q : Request) (ids : List String) :
    Renewing (q.operation ids).renewal? q.program := by
  cases q with
  | perform op => exact op.renewing_program
  | sealNew phrase password =>
    refine renewing_map _ (renewing_bind (fun _ => trivial) fun owner => ?_)
    exact renewing_sealFor owner phrase password

/-- The hash of a credential that a request writes reads back as what its password derives. -/
theorem Request.exists_hashBytes_of_wrote {σ : Type} [RecordStore σ] {q : Request} {s : Session σ}
    {key : String} {value : Bytes} (hkey : key = Key.credential ∨ key = Key.stagedCredential)
    (hw : .wrote key value ∈ q.program.run.deeds s) :
    ∃ password c, (q.operation s.ids).renewal? = some password ∧
      Credential.read value = .ok c ∧
      c.hashBytes = .ok (Password.derive password (Utf8.encode c.salt)) := by
  obtain ⟨password, salt, keySalt, hgiven, rfl⟩ :=
    (q.renewing_program s.ids).of_wrote hw hkey
  exact ⟨password, Credential.create password salt keySalt, hgiven, Credential.read_write _,
    Credential.hashBytes_create password salt keySalt⟩

/-- What is written in hexadecimal digits reads back, two lower-case digits to a byte. A text is read
exactly if it is pairs of digits of either case, and in lower case it is then what is written of the
bytes; of any other the odd length is reported, or its first byte that is no digit. So different keys
have different files, and the hash of a credential that is written is what the password derives. -/
theorem hex_reads_back :
    (∀ b : Bytes, Hex.decode (Hex.encode b) = .ok b ∧
      (Utf8.encode (Hex.encode b)).length = 2 * b.length ∧
      ∀ c ∈ (Hex.encode b).toList, c ∈ Hex.lowerDigits) ∧
    (∀ s : String,
      ((∃ b, Hex.decode s = .ok b) ↔
        (Utf8.encode s).length % 2 = 0 ∧ ∀ x ∈ Utf8.encode s, Hex.IsDigit x) ∧
      (∀ b, Hex.decode s = .ok b → Hex.encode b = s.toLower) ∧
      ∀ fault, Hex.decode s = .error fault ↔
        (Utf8.encode s).length % 2 = 1 ∧ fault = .oddLength ∨
          (Utf8.encode s).length % 2 = 0 ∧
            ∃ x i, Hex.FirstStray (Utf8.encode s) x i ∧ fault = .invalidDigit x i) ∧
    Function.Injective Hex.encode ∧
    (∀ f : FileStore, Function.Injective FileStore.fileName ∧
      Function.Injective fun key => f.path (FileStore.fileName key)) ∧
    ∀ (σ : Type) [RecordStore σ] (s : Session σ) (q : Request) (key : String) (value : Bytes),
      key = Key.credential ∨ key = Key.stagedCredential →
      .wrote key value ∈ q.program.run.deeds s →
      ∃ password c, (q.operation s.ids).renewal? = some password ∧
        Credential.read value = .ok c ∧
        c.hashBytes = .ok (Password.derive password (Utf8.encode c.salt)) := by
  refine ⟨fun b => ⟨Hex.decode_encode b, Hex.length_encode b, fun c hc => ?_⟩,
    fun s => ⟨Hex.exists_decode_iff s, fun b => Hex.encode_of_decode, Hex.decode_eq_error_iff s⟩,
    Hex.encode_injective,
    fun f => ⟨fun _ _ => FileStore.fileName_injective, f.path_fileName_injective⟩,
    fun σ _ s q key value => Request.exists_hashBytes_of_wrote⟩
  rw [Hex.encode, String.toList_ofList] at hc
  exact Hex.mem_lowerDigits_of_mem hc

/-- A name in both cases, a text of two characters and three bytes, one with a stray byte in the
second pair, and a first password. -/
theorem hex_reads_back_mixed :
    Hex.encode [0x4B, 0xC3] = "4Bc3".toLower ∧
    Hex.decode "4é" = .error .oddLength ∧
    Hex.decode "0aé" = .error (.invalidDigit 0xC3 2) ∧
    ∃ value c,
      .wrote Key.credential value ∈ (Request.perform (.setPassword "a")).program.run.deeds
        (⟨∅, ⟨fun _ => 0, 0⟩, [], []⟩ : Session Records) ∧
      Credential.read value = .ok c ∧
      c.hashBytes = .ok (Password.derive "a" (Utf8.encode c.salt)) := by
  obtain ⟨-, hread, -, -, hwritten⟩ := hex_reads_back
  have hstray : Hex.FirstStray (Utf8.encode "0aé") 0xC3 2 := by
    refine ⟨rfl, by decide, fun y hy => ?_⟩
    rcases List.mem_pair.mp hy with rfl | rfl <;> decide
  refine ⟨(hread "4Bc3").2.1 _ rfl, ((hread "4é").2.2 _).mpr (.inl ⟨by decide, rfl⟩),
    ((hread "0aé").2.2 _).mpr (.inr ⟨by decide, 0xC3, 2, hstray, rfl⟩), ?_⟩
  have hset : Assures False Filable (Operation.setPassword "a").program
      (fun _ t => t.store[Key.credential]? = some (freshCredential ⟨fun _ => 0, 0⟩ "a").write)
      (⟨∅, ⟨fun _ => 0, 0⟩, [], []⟩ : Session Records) := by
    refine assures_map _ ((assures_setPassword_of_empty rfl (by decide)).mono (fun _ hz => hz) ?_)
    rintro r t ⟨-, ht, -⟩
    rw [ht, Records.getElem?_insert, if_pos rfl]
  have hw := (Records.held_or_wrote _ _ (Program.post_of_run_records hset)).resolve_left
    (by simp)
  obtain ⟨password, c, hgiven, hc, hhash⟩ := hwritten Records _
    (.perform (.setPassword "a")) _ _ (.inl rfl) hw
  cases hgiven
  exact ⟨_, c, hw, hc, hhash⟩

end PhraseVault.Vault
