import PhraseVault.Proofs.Vault.Operations
import PhraseVault.Proofs.Vault.Simulation
import PhraseVault.Proofs.Vault.Trace

/-!
# What random bytes are spent on

Whatever a store replies, every draw goes into one product, a credential or a sealed phrase, and what
is written is such a product, or has been found staged and is moved into place. A refusal comes before
any draw.
-/
namespace PhraseVault.Vault
variable {α β : Type}

/-- What has been made with random bytes, and the bytes it has been made with. -/
inductive Product where
  | credential (c : Credential) (salt keySalt : Segment)
  | phrase (p : SealedPhrase) (iv : Segment)

namespace Product

def segments : Product → List Segment
  | credential _ salt keySalt => [salt, keySalt]
  | phrase _ iv => [iv]

/-- The product carries its segments of the stream: as salts, or as the vector it is sealed with. -/
def MadeFrom (stream : Nat → UInt8) : Product → Prop
  | credential c salt keySalt =>
    salt.length = Entropy.saltLength ∧ keySalt.length = Entropy.saltLength ∧ ∃ password,
      c = Credential.create password (Hex.encode (salt.bytes stream))
        (Hex.encode (keySalt.bytes stream))
  | phrase p iv =>
    iv.length = Iv.freshLength ∧ p.iv = Iv.pack (iv.bytes stream) ∧ ∃ text key,
      Sealing.encrypt text key p.iv = .ok p.cipher

/-- The records that are written of a product. -/
def Files (key : String) (value : Bytes) : Product → Prop
  | credential c _ _ => (key = Key.credential ∨ key = Key.stagedCredential) ∧ value = c.write
  | phrase p _ => (key = Key.phrase p.owner ∨ key = Key.stagedPhrase p.owner) ∧ value = p.write

/-- A phrase that is moved into place still is the product it was when it was staged. -/
theorem Files.moved {m : Product} {owner : String} {value : Bytes}
    (h : m.Files (Key.stagedPhrase owner) value) : m.Files (Key.phrase owner) value := by
  cases m with
  | credential c salt keySalt => exact absurd h.1 (by simp)
  | phrase p iv =>
    obtain ⟨hkey, hvalue⟩ := h
    have ho : owner = p.owner := by simpa using hkey
    exact ⟨.inl (congrArg Key.phrase ho), hvalue⟩

theorem Files.exists_credential {m : Product} {value : Bytes} (h : m.Files Key.credential value) :
    ∃ c salt keySalt, m = credential c salt keySalt ∧ value = c.write := by
  cases m with
  | credential c salt keySalt => exact ⟨c, salt, keySalt, rfl, h.2⟩
  | phrase p iv => exact absurd h.1 (by simp)

theorem Files.exists_phrase {m : Product} {owner : String} {value : Bytes}
    (h : m.Files (Key.phrase owner) value) :
    ∃ p iv, m = phrase p iv ∧ p.owner = owner ∧ value = p.write := by
  cases m with
  | credential c salt keySalt => exact absurd h.1 (by simp)
  | phrase p iv =>
    obtain ⟨hkey, hvalue⟩ := h
    have ho : owner = p.owner := by simpa using hkey
    exact ⟨p, iv, rfl, ho.symm, hvalue⟩

end Product

/-- A staged phrase has been found, and is what is put in its place. -/
def Moved (deeds : List Deed) (key : String) (value : Bytes) : Prop :=
  ∃ owner, key = Key.phrase owner ∧ .found (Key.stagedPhrase owner) value ∈ deeds

/-- What may be written once products have been made. -/
def allowed (may : String → Bytes → Prop) (made : List Product) (key : String) (value : Bytes) : Prop :=
  may key value ∨ ∃ m ∈ made, m.Files key value

/-- Products account for what has been done: each draw went into one of them, and nothing else has
been written but what might be anyway and what has been moved. -/
structure Accounts (stream : Nat → UInt8) (may : String → Bytes → Prop) (deeds : List Deed)
    (made : List Product) : Prop where
  carry : ∀ m ∈ made, m.MadeFrom stream
  spend : drawn deeds = made.flatMap Product.segments
  wrote : ∀ key value, .wrote key value ∈ deeds → allowed may made key value ∨ Moved deeds key value

/-- A fault that tells the caller what is wrong with a request, or with its time. -/
def Fault.isRefusal : Fault → Bool
  | .input .emptyPassword | .input .emptyPhrase | .invalidOwner _ | .credentialNotSet
  | .wrongPassword | .phraseExists _ | .phrasesSealed _ => true
  | _ => false

section
variable {stream : Nat → UInt8} {may may' : String → Bytes → Prop} {made made' : List Product}
variable {deeds deeds' : List Deed}

theorem Moved.mono (h : deeds ⊆ deeds') {key : String} {value : Bytes} (hm : Moved deeds key value) :
    Moved deeds' key value := by
  obtain ⟨owner, hkey, hfound⟩ := hm
  exact ⟨owner, hkey, h hfound⟩

theorem allowed_nil : allowed may [] = may := by
  funext key value
  simp [allowed]

theorem allowed_append : allowed (allowed may made) made' = allowed may (made ++ made') := by
  funext key value
  simp only [allowed, List.mem_append, or_and_right, exists_or, or_assoc]

theorem allowed_mono (h : ∀ key value, may key value → may' key value) {key : String} {value : Bytes}
    (ha : allowed may made key value) : allowed may' made key value :=
  ha.imp_left (h key value)

theorem Accounts.nil : Accounts stream may [] [] where
  carry := by simp
  spend := rfl
  wrote := by simp

theorem Accounts.append (h : Accounts stream may deeds made)
    (h' : Accounts stream (allowed may made) deeds' made') :
    Accounts stream may (deeds ++ deeds') (made ++ made') where
  carry m hm := (List.mem_append.mp hm).elim (h.carry m) (h'.carry m)
  spend := by rw [drawn_append, h.spend, h'.spend, List.flatMap_append]
  wrote key value hw := by
    rcases List.mem_append.mp hw with hw | hw
    · refine (h.wrote key value hw).imp (fun ha => ?_) (Moved.mono (List.subset_append_left _ _))
      exact allowed_append ▸ .inl ha
    · rw [← allowed_append]
      exact (h'.wrote key value hw).imp_right (Moved.mono (List.subset_append_right _ _))

theorem Accounts.mono (h : Accounts stream may deeds made)
    (hmay : ∀ key value, may key value → may' key value) : Accounts stream may' deeds made :=
  { h with wrote := fun key value hw => (h.wrote key value hw).imp_left (allowed_mono hmay) }

/-- Looking for a record draws and writes nothing. -/
theorem accounts_findings (key : String) (r : Except IoFault (Option Bytes)) :
    Accounts stream may (findings key r) [] where
  carry := by simp
  spend := drawn_findings key r
  wrote other value hw := by
    obtain ⟨_, -, hd⟩ := mem_findings.mp hw
    cases hd

end

namespace Action

/-- How an action ends that may be refused: with an answer that goes with what it has made, or with a
fault, and with one that refuses it only before it has made anything. -/
def Ending (refuses : Prop) (post : α → List Product → Prop) (r : Except Fault α)
    (made : List Product) : Prop :=
  match r with
  | .ok a => post a made
  | .error fault => fault.isRefusal = true → refuses ∧ made = []

/-- Over any store, an action makes products that account for what it does. -/
def Spends (refuses : Prop) (may : String → Bytes → Prop) (act : Action α)
    (post : α → List Product → Prop) : Prop :=
  ∀ (σ : Type) [RecordStore σ] (s : Session σ), ∃ made,
    Accounts s.entropy.stream may (act.run.deeds s) made ∧
      Ending refuses post (act.run.run s).1 made

variable {refuses refuses' : Prop} {may may' : String → Bytes → Prop}
variable {mid : α → List Product → Prop} {post post' : β → List Product → Prop}
variable {act : Action α} {f : α → Action β}

/-- Nothing has been made. -/
def Nothing (_ : α) (made : List Product) : Prop := made = []

theorem Spends.mono {act : Action β} (h : Spends refuses may act post) (hr : refuses → refuses')
    (hmay : ∀ key value, may key value → may' key value)
    (hpost : ∀ b made, post b made → post' b made) : Spends refuses' may' act post' := by
  intro σ _ s
  obtain ⟨made, haccounts, hend⟩ := h σ s
  refine ⟨made, haccounts.mono hmay, ?_⟩
  generalize (act.run.run s).1 = r at hend ⊢
  cases r with
  | ok b => exact hpost b made hend
  | error fault => exact fun hf => (hend hf).imp_left hr

/-- What follows may also write what has been made, and may only refuse if nothing has. -/
theorem spends_bind (h : Spends refuses may act mid)
    (hf : ∀ a made, mid a made → Spends (refuses ∧ made = []) (allowed may made) (f a)
      fun b made' => post b (made ++ made')) :
    Spends refuses may (act >>= f) post := by
  intro σ _ s
  obtain ⟨made, haccounts, hend⟩ := h σ s
  have hdeeds : (act >>= f).run.deeds s = act.run.deeds s ++ _ := Program.deeds_bind act.run _ s
  have hstream := act.run.stream_run s
  rcases hrun : act.run.run s with ⟨_ | a, t⟩
  · rw [hrun] at hend hdeeds
    refine ⟨made, ?_, ?_⟩
    · rw [hdeeds]
      exact (List.append_nil _).symm ▸ haccounts
    · rw [run_bind_error hrun]
      exact hend
  · rw [hrun] at hend hdeeds hstream
    obtain ⟨made', haccounts', hend'⟩ := hf a made hend σ t
    refine ⟨made ++ made', ?_, ?_⟩
    · rw [hdeeds]
      exact haccounts.append (hstream ▸ haccounts')
    · rw [run_bind_ok hrun]
      generalize ((f a).run.run t).1 = r at hend' ⊢
      cases r with
      | ok b => exact hend'
      | error fault =>
        intro hfault
        obtain ⟨⟨hr, rfl⟩, rfl⟩ := hend' hfault
        exact ⟨hr, rfl⟩

/-- An action that makes nothing is followed as if it were not there. -/
theorem spends_quiet_bind (h : Spends refuses may act Nothing)
    (hf : ∀ a, Spends refuses may (f a) post) : Spends refuses may (act >>= f) post := by
  refine spends_bind h fun a made hmade => ?_
  obtain rfl : made = [] := hmade
  rw [allowed_nil]
  exact (hf a).mono (fun hr => ⟨hr, rfl⟩) (fun _ _ h => h) fun _ _ h => h

/-- What is done once something has been made is not refused. -/
theorem spends_made_bind (h : Spends refuses may act mid)
    (hf : ∀ a made, mid a made → Spends False (allowed may made) (f a)
      fun b made' => post b (made ++ made')) :
    Spends refuses may (act >>= f) post :=
  spends_bind h fun a made hmade =>
    (hf a made hmade).mono False.elim (fun _ _ h => h) fun _ _ h => h

theorem spends_pure {b : β} (h : post b []) : Spends refuses may (pure b) post :=
  fun _ _ _ => ⟨[], .nil, h⟩

theorem spends_throw {fault : Fault} (h : fault.isRefusal = true → refuses) :
    Spends refuses may (throw fault : Action β) post :=
  fun _ _ _ => ⟨[], .nil, fun hf => ⟨h hf, rfl⟩⟩

theorem spends_outcome {ε : Type} {r : Except ε α} {g : ε → Fault}
    (h : ∀ fault, (g fault).isRefusal = false) :
    Spends refuses may (outcome (r.mapError g)) Nothing := by
  intro σ _ s
  refine ⟨[], .nil, ?_⟩
  cases r with
  | ok a => exact rfl
  | error fault =>
    intro hf
    cases hf.symm.trans (h fault)

/-- What becomes of an answer makes no difference. -/
theorem spends_map (g : α → β) (h : Spends refuses may act mid) :
    Spends refuses may (g <$> act) fun _ _ => True := by
  rw [map_eq_pure_bind]
  refine spends_bind h fun a made _ => ?_
  exact spends_pure trivial

theorem spends_ite {c : Prop} [Decidable c] {act other : Action β} (h : Spends refuses may act post)
    (ho : Spends refuses may other post) : Spends refuses may (if c then act else other) post := by
  split
  · exact h
  · exact ho

/-- What becomes of the outcome of an attempt is left to what follows. -/
theorem spends_attempt (h : Spends refuses may act mid) :
    Spends refuses' may (attempt act) (Ending refuses mid) := by
  intro σ _ s
  obtain ⟨made, haccounts, hend⟩ := h σ s
  have hdeeds : (attempt act).run.deeds s = act.run.deeds s ++ [] := Program.deeds_bind act.run _ s
  refine ⟨made, ?_, ?_⟩
  · rw [hdeeds, List.append_nil]
    exact haccounts
  · rw [run_attempt]
    exact hend

section Calls

theorem ending_ofStore (r : Except IoFault α) :
    Ending refuses Nothing (r.mapError Fault.io) [] := by
  cases r with
  | ok a => exact rfl
  | error fault => exact nofun

theorem spends_fetch (key : String) : Spends refuses may (fetch key) Nothing := by
  intro σ _ s
  refine ⟨[], ?_, ending_ofStore _⟩
  have hdeeds : (fetch key).run.deeds s = findings key (RecordStore.get key s.store).1 ++ [] := rfl
  rw [hdeeds, List.append_nil]
  exact accounts_findings key _

/-- A phrase that has been found staged may be put in place. -/
theorem spends_fetch_staged_bind (owner : String) {f : Option Bytes → Action β}
    (hf : ∀ v, Spends refuses (fun key value => may key value ∨ key = Key.phrase owner ∧ v = some value)
      (f v) post) :
    Spends refuses may (fetch (Key.stagedPhrase owner) >>= f) post := by
  intro σ _ s
  have hdeeds : (fetch (Key.stagedPhrase owner) >>= f).run.deeds s =
      (fetch (Key.stagedPhrase owner)).run.deeds s ++ _ :=
    Program.deeds_bind (fetch (Key.stagedPhrase owner)).run _ s
  have hfetch : (fetch (Key.stagedPhrase owner)).run.deeds s =
      findings (Key.stagedPhrase owner) (RecordStore.get (Key.stagedPhrase owner) s.store).1 ++ [] :=
    rfl
  have hrun : (fetch (Key.stagedPhrase owner)).run.run s =
      ((RecordStore.get (Key.stagedPhrase owner) s.store).1.mapError Fault.io,
        { s with store := (RecordStore.get (Key.stagedPhrase owner) s.store).2 }) := rfl
  rw [hfetch, List.append_nil] at hdeeds
  generalize RecordStore.get (Key.stagedPhrase owner) s.store = reply at hdeeds hrun
  obtain ⟨_ | v, store⟩ := reply
  · refine ⟨[], ?_, ?_⟩
    · rw [hdeeds, hrun]
      exact .nil
    · rw [run_bind_error hrun]
      exact nofun
  · obtain ⟨made, haccounts, hend⟩ := hf v σ { s with store }
    refine ⟨made, ⟨haccounts.carry, ?_, ?_⟩, ?_⟩
    · rw [hdeeds, drawn_append, drawn_findings, hrun]
      exact haccounts.spend
    · rw [hdeeds, hrun]
      intro key value hw
      rcases List.mem_append.mp hw with hw | hw
      · obtain ⟨_, -, hd⟩ := mem_findings.mp hw
        cases hd
      · rcases haccounts.wrote key value hw with ((ha | ⟨hkey, hv⟩) | hm) | hmoved
        · exact .inl (.inl ha)
        · refine .inr ⟨owner, hkey, List.mem_append_left _ (mem_findings.mpr ⟨value, ?_, rfl⟩)⟩
          rw [hv]
        · exact .inl (.inr hm)
        · exact .inr (hmoved.mono (List.subset_append_right _ _))
    · rw [run_bind_ok hrun]
      exact hend

theorem spends_put {key : String} {value : Bytes} (h : may key value) :
    Spends refuses may (put key value) Nothing := by
  intro σ _ s
  refine ⟨[], ⟨by simp, rfl, ?_⟩, ending_ofStore _⟩
  rintro k content hw
  obtain ⟨rfl, rfl⟩ : k = key ∧ content = value := by
    have hdeeds : (put key value).run.deeds s = [.wrote key value] := rfl
    simpa [hdeeds] using hw
  exact .inl (.inl h)

theorem spends_erase (key : String) : Spends refuses may (erase key) Nothing :=
  fun _ _ _ => ⟨[], .nil, ending_ofStore _⟩

theorem spends_listKeys : Spends refuses may listKeys Nothing :=
  fun _ _ _ => ⟨[], .nil, ending_ofStore _⟩

theorem spends_mint : Spends refuses may mint Nothing := fun _ _ _ => ⟨[], .nil, rfl⟩

theorem spends_report (event : Event) : Spends refuses may (report event) Nothing :=
  fun _ _ _ => ⟨[], .nil, rfl⟩

end Calls

section Parts

theorem spends_readCredential (bytes : Bytes) :
    Spends refuses may (readCredential bytes) Nothing :=
  spends_outcome fun _ => rfl

theorem spends_readPhrase (bytes : Bytes) : Spends refuses may (readPhrase bytes) Nothing :=
  spends_outcome fun _ => rfl

theorem spends_loadCredential : Spends refuses may loadCredential Nothing := by
  refine spends_quiet_bind (spends_fetch _) fun v => ?_
  cases v with
  | none => exact spends_pure rfl
  | some bytes => exact spends_quiet_bind (spends_readCredential bytes) fun _ => spends_pure rfl

theorem spends_requireCredential : Spends True may requireCredential Nothing := by
  refine spends_quiet_bind spends_loadCredential fun c => ?_
  cases c with
  | none => exact spends_throw fun _ => trivial
  | some c => exact spends_pure rfl

theorem spends_unstage (committed : Bool) (owners : List String) :
    Spends refuses may (unstage committed owners) Nothing := by
  induction owners generalizing may with
  | nil => exact spends_pure rfl
  | cons owner owners ih =>
    have hrest : ∀ may, Spends refuses may
        (do erase (Key.stagedPhrase owner); unstage committed owners) Nothing :=
      fun _ => spends_quiet_bind (spends_erase _) fun _ => ih
    rw [unstage]
    refine spends_ite (spends_fetch_staged_bind owner fun v => ?_) (hrest _)
    cases v with
    | none => exact hrest _
    | some bytes => exact spends_quiet_bind (spends_put (.inr ⟨rfl, rfl⟩)) fun _ => hrest _

theorem spends_settle : Spends refuses may settle Nothing := by
  refine spends_quiet_bind (spends_fetch _) fun v => ?_
  cases v with
  | none => exact spends_pure rfl
  | some bytes =>
    refine spends_quiet_bind (spends_readCredential bytes) fun staged => ?_
    refine spends_quiet_bind spends_loadCredential fun stored => ?_
    refine spends_quiet_bind spends_listKeys fun keys => ?_
    refine spends_quiet_bind (spends_unstage _ _) fun _ => ?_
    exact spends_quiet_bind (spends_erase _) fun _ => spends_report _

theorem spends_sharedFor (rounds : Nat) : Spends refuses may (sharedFor rounds) Nothing := by
  induction rounds with
  | zero => exact spends_throw nofun
  | succ rounds ih =>
    refine spends_quiet_bind (spends_fetch _) fun v => ?_
    cases v with
    | none => exact spends_pure rfl
    | some bytes => exact spends_quiet_bind spends_settle fun _ => ih

theorem spends_sealedOwners : Spends refuses may sealedOwners Nothing :=
  spends_quiet_bind spends_listKeys fun _ => spends_pure rfl

theorem spends_matching (c : Credential) (password : String) :
    Spends refuses may (matching c password) Nothing :=
  spends_outcome fun _ => rfl

theorem spends_demand (c : Credential) (password : String) :
    Spends True may (demand c password) Nothing :=
  spends_quiet_bind (spends_matching c password) fun _ =>
    spends_ite (spends_pure rfl) (spends_throw fun _ => trivial)

theorem spends_openPhrase (p : SealedPhrase) (c : Credential) (password : String) :
    Spends refuses may (openPhrase p c password) Nothing :=
  spends_outcome fun fault => by cases fault <;> rfl

theorem spends_requirePhrase (owner : String) : Spends refuses may (requirePhrase owner) Nothing := by
  have hload : Spends refuses may (loadPhrase owner) Nothing := by
    refine spends_quiet_bind (spends_fetch _) fun v => ?_
    cases v with
    | none => exact spends_pure rfl
    | some bytes =>
      refine spends_quiet_bind (spends_readPhrase bytes) fun p => ?_
      exact spends_ite (spends_throw nofun) (spends_pure rfl)
  refine spends_quiet_bind hload fun p => ?_
  cases p with
  | none => exact spends_throw nofun
  | some p => exact spends_pure rfl

/-- A credential takes two draws, none if it is refused. -/
theorem spends_newCredential (password : String) :
    Spends True may (newCredential password)
      fun c made => ∃ salt keySalt, made = [.credential c salt keySalt] := by
  rw [newCredential]
  refine spends_ite (spends_throw fun _ => trivial) fun σ _ s => ?_
  let salt : Segment := ⟨s.entropy.position, Entropy.saltLength⟩
  let keySalt : Segment := ⟨s.entropy.position + Entropy.saltLength, Entropy.saltLength⟩
  refine ⟨[.credential (freshCredential s.entropy password) salt keySalt], ⟨?_, rfl, ?_⟩,
    salt, keySalt, rfl⟩
  · exact List.forall_mem_singleton.mpr ⟨rfl, rfl, password, rfl⟩
  · intro key value hw
    have hw : .wrote key value ∈ [Deed.drew salt, Deed.drew keySalt] := hw
    simp at hw

/-- A sealed phrase takes one draw. -/
theorem spends_sealPhrase (owner phrase : String) (c : Credential) (password : String) :
    Spends refuses may (sealPhrase owner phrase c password)
      fun p made => p.owner = owner ∧ ∃ iv, made = [.phrase p iv] := by
  intro σ _ s
  let iv : Segment := ⟨s.entropy.position, Iv.freshLength⟩
  have hseal := Sealing.encrypt_of_usable (length_cipherKey c password) (usable_fresh s.entropy) phrase
  have hdraw : (sealPhrase owner phrase c password).run =
      .draw Iv.freshLength fun bytes =>
        (do let cipher ← outcome ((Sealing.encrypt phrase (c.cipherKey password)
              (Iv.pack bytes)).mapError .ofPrimitive)
            return ⟨owner, cipher, Iv.pack bytes⟩ : Action SealedPhrase).run := rfl
  rw [hdraw]
  simp only [Program.deeds, Program.run, hseal]
  refine ⟨[.phrase (freshPhrase s.entropy owner phrase (c.cipherKey password)) iv], ⟨?_, rfl, ?_⟩,
    rfl, iv, rfl⟩
  · exact List.forall_mem_singleton.mpr ⟨rfl, rfl, phrase, c.cipherKey password, hseal⟩
  · intro key value hw
    have hw : .wrote key value ∈ [Deed.drew iv] := hw
    simp at hw

/-- Each phrase is sealed again with a draw of its own. -/
theorem spends_resealAll (old : Credential) (current : String) (next : Credential) (password : String)
    (owners : List String) :
    Spends refuses may (resealAll old current next password owners)
      fun ps made => ∀ p ∈ ps, ∃ iv, .phrase p iv ∈ made := by
  induction owners generalizing refuses may with
  | nil => exact spends_pure (by simp)
  | cons owner owners ih =>
    refine spends_quiet_bind (spends_requirePhrase owner) fun p => ?_
    refine spends_quiet_bind (spends_openPhrase p old current) fun phrase => ?_
    refine spends_made_bind (spends_sealPhrase owner phrase next password) ?_
    rintro q _ ⟨-, iv, rfl⟩
    refine spends_made_bind ih fun ps made hps => spends_pure ?_
    refine List.forall_mem_cons.mpr ⟨⟨iv, List.mem_cons_self⟩, fun p hp => ?_⟩
    obtain ⟨iv', hm⟩ := hps p hp
    exact ⟨iv', by simp [hm]⟩

theorem spends_stagePhrases {ps : List SealedPhrase}
    (h : ∀ p ∈ ps, may (Key.stagedPhrase p.owner) p.write) :
    Spends refuses may (stagePhrases ps) Nothing := by
  induction ps with
  | nil => exact spends_pure rfl
  | cons p ps ih =>
    obtain ⟨hp, hps⟩ := List.forall_mem_cons.mp h
    exact spends_quiet_bind (spends_put hp) fun _ => ih hps

theorem spends_stage {next : Credential} {ps : List SealedPhrase}
    (hstaged : may Key.stagedCredential next.write) (hnext : may Key.credential next.write)
    (hps : ∀ p ∈ ps, may (Key.stagedPhrase p.owner) p.write) :
    Spends refuses may (stage next ps) Nothing :=
  spends_quiet_bind (spends_put hstaged) fun _ =>
    spends_quiet_bind (spends_stagePhrases hps) fun _ => spends_put hnext

end Parts

section Operations

/-- Anything may have been made. -/
def Anything (_ : α) (_ : List Product) : Prop := True

theorem Spends.anything {mid : α → List Product → Prop} {act : Action α}
    (h : Spends refuses may act mid) : Spends refuses may act Anything :=
  h.mono id (fun _ _ h => h) fun _ _ _ => trivial

theorem spends_attempt_settle : Spends refuses may (attempt settle) Anything := by
  have hsettle : Spends False may settle Nothing := spends_settle
  exact (spends_attempt hsettle).anything

/-- Nothing may be written but what is made on the way. -/
def Unwritten (_ : String) (_ : Bytes) : Prop := False

theorem spends_hasPassword : Spends True may hasPassword Nothing :=
  spends_quiet_bind (spends_sharedFor 2) fun _ =>
    spends_quiet_bind (spends_fetch _) fun _ => spends_pure rfl

theorem spends_state : Spends True may state Nothing := by
  refine spends_quiet_bind (spends_sharedFor 2) fun _ => ?_
  refine spends_quiet_bind spends_loadCredential fun c => ?_
  cases c with
  | none => exact spends_pure rfl
  | some c => exact spends_quiet_bind spends_sealedOwners fun _ => spends_pure rfl

theorem spends_setPassword (password : String) :
    Spends True Unwritten (setPassword password) Anything := by
  refine spends_quiet_bind spends_settle fun _ => ?_
  refine spends_quiet_bind spends_sealedOwners fun owners => ?_
  refine spends_ite (spends_throw fun _ => trivial) ?_
  refine spends_quiet_bind spends_loadCredential fun stored => ?_
  refine spends_made_bind (spends_newCredential password) ?_
  rintro c _ ⟨salt, keySalt, rfl⟩
  refine spends_made_bind (spends_put ?_) fun _ _ _ => ?_
  · exact .inr ⟨_, List.mem_singleton_self _, .inl rfl, rfl⟩
  · exact (spends_report _).anything

theorem spends_verifyPassword (candidate : String) :
    Spends True may (verifyPassword candidate) Nothing := by
  refine spends_quiet_bind (spends_sharedFor 2) fun _ => ?_
  refine spends_quiet_bind spends_requireCredential fun c => ?_
  refine spends_quiet_bind (spends_matching c candidate) fun verified => ?_
  refine spends_ite ?_ (spends_pure rfl)
  exact spends_quiet_bind (spends_report _) fun _ => spends_pure rfl

theorem spends_changePassword (current password : String) :
    Spends True Unwritten (changePassword current password) Anything := by
  refine spends_quiet_bind spends_settle fun _ => ?_
  refine spends_quiet_bind spends_requireCredential fun old => ?_
  refine spends_quiet_bind (spends_demand old current) fun _ => ?_
  refine spends_made_bind (spends_newCredential password) ?_
  rintro next _ ⟨salt, keySalt, rfl⟩
  refine spends_quiet_bind spends_sealedOwners fun owners => ?_
  refine spends_made_bind (spends_resealAll old current next password owners) fun ps made hps => ?_
  have hnext : ∀ key, key = Key.credential ∨ key = Key.stagedCredential →
      allowed (allowed Unwritten [.credential next salt keySalt]) made key next.write :=
    fun key hkey => .inl (.inr ⟨_, List.mem_singleton_self _, hkey, rfl⟩)
  have hstage : Spends False (allowed (allowed Unwritten [.credential next salt keySalt]) made)
      (stage next ps) Nothing := by
    refine spends_stage (hnext _ (.inr rfl)) (hnext _ (.inl rfl)) fun p hp => ?_
    obtain ⟨iv, hm⟩ := hps p hp
    exact .inr ⟨_, hm, .inr rfl, rfl⟩
  refine spends_made_bind (spends_attempt hstage) ?_
  rintro (fault | _) made' hend
  · refine spends_made_bind spends_attempt_settle fun r _ _ => ?_
    -- a write that fails is not a refusal
    have hfault : fault.isRefusal = true → False := fun hf => (hend hf).1
    cases r with
    | error cleanup => exact spends_quiet_bind (spends_report _) fun _ => spends_throw hfault
    | ok _ => exact spends_throw hfault
  · refine spends_made_bind spends_attempt_settle fun r _ _ => ?_
    cases r with
    | error fault =>
      exact spends_quiet_bind (spends_report _) fun _ => (spends_report _).anything
    | ok _ => exact (spends_report _).anything

theorem spends_sealFor (owner phrase password : String) :
    Spends True Unwritten (sealFor owner phrase password) Anything := by
  refine spends_ite (spends_throw fun _ => trivial) ?_
  refine spends_ite (spends_throw fun _ => trivial) ?_
  refine spends_quiet_bind spends_settle fun _ => ?_
  refine spends_quiet_bind spends_requireCredential fun c => ?_
  refine spends_quiet_bind (spends_demand c password) fun _ => ?_
  refine spends_quiet_bind (spends_fetch _) fun found => ?_
  refine spends_ite (spends_throw fun _ => trivial) ?_
  refine spends_made_bind (spends_sealPhrase owner phrase c password) ?_
  rintro p _ ⟨-, iv, rfl⟩
  refine spends_quiet_bind (spends_put ?_) fun _ => ?_
  · exact .inr ⟨_, List.mem_singleton_self _, .inl rfl, rfl⟩
  · exact spends_quiet_bind (spends_report _) fun _ => spends_pure trivial

theorem spends_sealNew (phrase password : String) :
    Spends True Unwritten (sealNew phrase password) Anything :=
  spends_quiet_bind spends_mint fun owner => spends_sealFor owner phrase password

theorem spends_reveal (owner password : String) : Spends True may (reveal owner password) Nothing := by
  refine spends_quiet_bind (spends_sharedFor 2) fun _ => ?_
  refine spends_quiet_bind spends_requireCredential fun c => ?_
  exact spends_quiet_bind (spends_requirePhrase owner) fun p => spends_openPhrase p c password

theorem spends_hasPhrase (owner : String) : Spends True may (hasPhrase owner) Nothing :=
  spends_quiet_bind (spends_sharedFor 2) fun _ =>
    spends_quiet_bind (spends_fetch _) fun _ => spends_pure rfl

theorem spends_owners : Spends True may owners Nothing :=
  spends_quiet_bind (spends_sharedFor 2) fun _ => spends_sealedOwners

theorem spends_remove (owner : String) : Spends True may (remove owner) Nothing := by
  refine spends_quiet_bind spends_settle fun _ => ?_
  refine spends_quiet_bind (spends_fetch _) fun _ => ?_
  refine spends_ite (spends_throw nofun) ?_
  exact spends_quiet_bind (spends_erase _) fun _ => spends_report _

theorem spends_deletePhrases (owners : List String) :
    Spends refuses may (deletePhrases owners) Nothing := by
  induction owners with
  | nil => exact spends_pure rfl
  | cons owner owners ih => exact spends_quiet_bind (spends_erase _) fun _ => ih

theorem spends_wipe : Spends True may wipe Nothing := by
  refine spends_quiet_bind spends_settle fun _ => ?_
  refine spends_quiet_bind spends_sealedOwners fun owners => ?_
  refine spends_quiet_bind (spends_deletePhrases owners) fun _ => ?_
  exact spends_quiet_bind (spends_erase _) fun _ => spends_report _

end Operations

end Action
open Vault.Action

theorem Operation.spends_program (op : Operation) : Spends True Unwritten op.program Anything := by
  cases op with
  | hasPassword => exact spends_map _ spends_hasPassword
  | state => exact spends_map _ spends_state
  | setPassword password => exact spends_map _ (spends_setPassword password)
  | verifyPassword candidate => exact spends_map _ (spends_verifyPassword candidate)
  | changePassword current password => exact spends_map _ (spends_changePassword current password)
  | sealFor owner phrase password => exact spends_map _ (spends_sealFor owner phrase password)
  | reveal owner password => exact spends_map _ (spends_reveal owner password)
  | hasPhrase owner => exact spends_map _ (spends_hasPhrase owner)
  | owners => exact spends_map _ spends_owners
  | remove owner => exact spends_map _ (spends_remove owner)
  | wipe => exact spends_map _ spends_wipe

/-- Every request, over any store. -/
theorem Request.spends_program (q : Request) : Spends True Unwritten q.program Anything := by
  cases q with
  | perform op => exact op.spends_program
  | sealNew phrase password => exact spends_map _ (spends_sealNew phrase password)

end PhraseVault.Vault
