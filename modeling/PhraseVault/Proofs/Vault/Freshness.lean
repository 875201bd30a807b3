import PhraseVault.Proofs.Vault.Filing
import PhraseVault.Proofs.Vault.Spending

/-!
# Random bytes are used once

Over a sequence of requests, every draw takes the next bytes of the stream and goes into one product
of one request. So two sealed phrases start counting at the same block exactly if the stream has the
same bytes in the two places that were drawn for them.
-/
namespace PhraseVault.Vault
open Segment
variable {σ : Type} [RecordStore σ]

/-- What each request of a sequence does. -/
def history (s : Session σ) : List Request → List (List Deed)
  | [] => []
  | q :: qs => q.program.run.deeds s :: history (q.program.run.run s).2 qs

/-- All that is found has been written before or after. -/
def Faithful (deeds : List Deed) : Prop :=
  ∀ key value, .found key value ∈ deeds → .wrote key value ∈ deeds

/-- The vector of the first sealed phrase was drawn before that of the second, and they start counting
at one block exactly if the stream has the same bytes in both places. -/
def Apart (stream : Nat → UInt8) : Product → Product → Prop
  | .phrase p iv, .phrase q iv' =>
    iv.Before iv' ∧ (Sealing.counterBlock p.iv = Sealing.counterBlock q.iv ↔
      ∀ k < Counter.blockLength, stream (iv.start + k) = stream (iv'.start + k))
  | _, _ => True

/-- The products of each request account for what it does. -/
theorem exists_accounts (s : Session σ) (qs : List Request) :
    ∃ made, List.Forall₂ (Accounts s.entropy.stream Action.Unwritten) (history s qs) made := by
  induction qs generalizing s with
  | nil => exact ⟨[], .nil⟩
  | cons q qs ih =>
    obtain ⟨made, haccounts, -⟩ := q.spends_program σ s
    obtain ⟨rest, hrest⟩ := ih (q.program.run.run s).2
    rw [Program.stream_run] at hrest
    exact ⟨made :: rest, .cons haccounts hrest⟩

/-- A sequence of requests draws in turn. -/
theorem inTurn_history (s : Session σ) (qs : List Request) :
    InTurn s.entropy.position (drawn (history s qs).flatten) (s.after qs).entropy.position := by
  induction qs generalizing s with
  | nil => rfl
  | cons q qs ih =>
    rw [history, List.flatten_cons, drawn_append]
    exact (q.program.run.inTurn_drawn s).append (ih _)

section
variable {stream : Nat → UInt8} {deeds : List (List Deed)} {made : List (List Product)}

theorem carry_of_accounts (h : List.Forall₂ (Accounts stream Action.Unwritten) deeds made) :
    ∀ m ∈ made.flatten, m.MadeFrom stream := by
  induction h with
  | nil => simp
  | cons haccounts _ ih =>
    rw [List.flatten_cons]
    exact List.forall_mem_append.mpr ⟨haccounts.carry, ih⟩

theorem drawn_of_accounts (h : List.Forall₂ (Accounts stream Action.Unwritten) deeds made) :
    drawn deeds.flatten = made.flatten.flatMap Product.segments := by
  induction h with
  | nil => rfl
  | cons haccounts _ ih =>
    rw [List.flatten_cons, List.flatten_cons, drawn_append, List.flatMap_append, haccounts.spend, ih]

theorem files_or_moved_of_accounts
    (h : List.Forall₂ (Accounts stream Action.Unwritten) deeds made) {key : String} {value : Bytes}
    (hw : .wrote key value ∈ deeds.flatten) :
    (∃ m ∈ made.flatten, m.Files key value) ∨ Moved deeds.flatten key value := by
  induction h with
  | nil => simp at hw
  | cons haccounts _ ih =>
    rw [List.flatten_cons] at hw ⊢
    rw [List.flatten_cons]
    rcases List.mem_append.mp hw with hw | hw
    · rcases haccounts.wrote key value hw with (hf | ⟨m, hm, hf⟩) | hmoved
      · exact hf.elim
      · exact .inl ⟨m, List.mem_append_left _ hm, hf⟩
      · exact .inr (hmoved.mono (List.subset_append_left _ _))
    · refine (ih hw).imp ?_ (Moved.mono (List.subset_append_right _ _))
      rintro ⟨m, hm, hf⟩
      exact ⟨m, List.mem_append_right _ hm, hf⟩

/-- What has been staged is a product, and still is when it has been moved. -/
theorem files_of_faithful (h : List.Forall₂ (Accounts stream Action.Unwritten) deeds made)
    (hfaithful : Faithful deeds.flatten) {key : String} {value : Bytes}
    (hw : .wrote key value ∈ deeds.flatten) : ∃ m ∈ made.flatten, m.Files key value := by
  rcases files_or_moved_of_accounts h hw with hm | ⟨owner, rfl, hfound⟩
  · exact hm
  · rcases files_or_moved_of_accounts h (hfaithful _ _ hfound) with ⟨m, hm, hf⟩ | ⟨o, ho, -⟩
    · exact ⟨m, hm, hf.moved⟩
    · exact absurd ho (Key.stagedPhrase_ne_phrase owner o)

/-- A fresh vector starts counting at the first bytes that were drawn for it. -/
theorem counterBlock_fresh {g : Segment} (hg : g.length = Iv.freshLength) :
    Sealing.counterBlock (Iv.pack (g.bytes stream)) =
      .ok ((Entropy.mk stream g.start).peek Counter.blockLength) := by
  have hlong : Counter.blockLength ≤ (g.bytes stream).length := by
    rw [Segment.bytes, Entropy.length_peek, hg]
    decide
  rw [Sealing.counterBlock_of_usable (Iv.usable_pack hlong), Sealing.firstBlock_pack hlong,
    Segment.bytes, Entropy.peek, Entropy.peek, ← List.map_take, List.range'_eq_map_range,
    List.range'_eq_map_range, ← List.map_take, List.take_range, hg]
  rfl

theorem peek_eq_peek_iff {i j count : Nat} :
    (Entropy.mk stream i).peek count = (Entropy.mk stream j).peek count ↔
      ∀ k < count, stream (i + k) = stream (j + k) := by
  simp only [Entropy.peek, List.range'_eq_map_range, List.map_map, List.map_inj_left,
    List.mem_range, Function.comp_apply]

/-- Products are apart if their segments are. -/
theorem pairwise_apart {products : List Product} (hmade : ∀ m ∈ products, m.MadeFrom stream)
    (hbefore : (products.flatMap Product.segments).Pairwise Before) :
    products.Pairwise (Apart stream) := by
  rw [List.pairwise_flatMap] at hbefore
  refine hbefore.2.imp_of_mem fun {m m'} hm hm' hsegments => ?_
  cases m with
  | credential c salt keySalt => trivial
  | phrase p iv =>
    cases m' with
    | credential c salt keySalt => trivial
    | phrase q iv' =>
      obtain ⟨hl, hp, -⟩ := hmade _ hm
      obtain ⟨hl', hq, -⟩ := hmade _ hm'
      refine ⟨hsegments iv (List.mem_singleton_self _) iv' (List.mem_singleton_self _), ?_⟩
      rw [hp, hq, counterBlock_fresh hl, counterBlock_fresh hl', Except.ok.injEq, peek_eq_peek_iff]

/-- Of two products one has been made first. -/
theorem apart_or_apart {products : List Product} (h : products.Pairwise (Apart stream))
    {m m' : Product} (hm : m ∈ products) (hm' : m' ∈ products) (hne : m ≠ m') :
    Apart stream m m' ∨ Apart stream m' m := by
  have hsymm : Std.Symm fun m m' => Apart stream m m' ∨ Apart stream m' m := ⟨fun _ _ => Or.symm⟩
  have hpairwise : products.Pairwise fun m m' => Apart stream m m' ∨ Apart stream m' m :=
    h.imp Or.inl
  exact hpairwise.forall hm hm' hne

end

/-- Records that are empty at first only hold what has been written. -/
theorem faithful_history (e : Entropy) (ids : List String) (qs : List Request) :
    Faithful (history (⟨∅, e, ids, []⟩ : Session Records) qs).flatten := by
  have hheld : ∀ (s : Session Records) key value,
      .found key value ∈ (history s qs).flatten →
        s.store[key]? = some value ∨ .wrote key value ∈ (history s qs).flatten := by
    intro s key value h
    induction qs generalizing s with
    | nil => simp [history] at h
    | cons q qs ih =>
      rw [history, List.flatten_cons] at h ⊢
      rcases List.mem_append.mp h with h | h
      · exact (Records.found_held_or_wrote q.program.run s h).imp_right (List.mem_append_left _)
      · rcases ih _ h with hs | hw
        · exact (Records.held_or_wrote q.program.run s hs).imp_right (List.mem_append_left _)
        · exact .inr (List.mem_append_right _ hw)
  intro key value h
  refine (hheld _ key value h).resolve_left fun hs => ?_
  rw [getElem?_empty] at hs
  cases hs

/-- Over any store and any stream of random bytes, each draw of a sequence of requests takes bytes of
its own, and they are carried by one product of one request. A refusal takes none. -/
theorem randomness_never_reused (s : Session σ) :
    (∀ qs : List Request, ∃ made : List (List Product),
      List.Forall₂ (Accounts s.entropy.stream Action.Unwritten) (history s qs) made ∧
      InTurn s.entropy.position (made.flatten.flatMap Product.segments)
        (s.after qs).entropy.position ∧
      (made.flatten.flatMap Product.segments).Pairwise Before ∧
      made.flatten.Pairwise (Apart s.entropy.stream) ∧
      (Faithful (history s qs).flatten → ∀ key value,
        .wrote key value ∈ (history s qs).flatten → ∃ m ∈ made.flatten, m.Files key value)) ∧
    ∀ (q : Request) (t : Session σ) (fault : Fault), q.program.run.run s = (.error fault, t) →
      fault.isRefusal = true → drawn (q.program.run.deeds s) = [] ∧ t.entropy = s.entropy := by
  refine ⟨fun qs => ?_, fun q t fault hrun hrefusal => ?_⟩
  · obtain ⟨made, haccounts⟩ := exists_accounts s qs
    have hturn := inTurn_history s qs
    rw [drawn_of_accounts haccounts] at hturn
    exact ⟨made, haccounts, hturn, hturn.pairwise,
      pairwise_apart (carry_of_accounts haccounts) hturn.pairwise,
      fun hfaithful _ _ => files_of_faithful haccounts hfaithful⟩
  · obtain ⟨made, haccounts, hend⟩ := q.spends_program σ s
    rw [hrun] at hend
    obtain ⟨-, rfl⟩ := hend hrefusal
    have hdrawn : drawn (q.program.run.deeds s) = [] := haccounts.spend
    have hentropy := Program.entropy_run_of_drawn_eq_nil hdrawn
    rw [hrun] at hentropy
    exact ⟨hdrawn, hentropy⟩

/-- Settled records with a credential that accepts a password. -/
structure Unlocks (r : Records) (c : Credential) (password : String) : Prop where
  filable : Filable r
  unstaged : Key.stagedCredential ∉ r
  stored : Stored r c
  accepts : c.accepts password = .ok true

theorem Unlocks.insert {r : Records} {c : Credential} {password owner : String} {value : Bytes}
    (h : Unlocks r c password) (hf : Fits (Key.phrase owner)) (hl : Legible (Key.phrase owner) value) :
    Unlocks (r.insert (Key.phrase owner) value) c password where
  filable := h.filable.insert hf hl
  unstaged := by
    rw [← Records.getElem?_eq_none_iff, Records.getElem?_insert,
      if_neg (Key.stagedCredential_ne_phrase owner).symm]
    exact Records.getElem?_eq_none_iff.mpr h.unstaged
  stored := by
    obtain ⟨bytes, hb, hr⟩ := h.stored
    refine ⟨bytes, ?_, hr⟩
    rw [Records.getElem?_insert, if_neg (Key.phrase_ne_credential owner), hb]
  accepts := h.accepts

/-- The next owner gets a phrase that is sealed with the next random bytes. -/
theorem Unlocks.run_sealNew {s : Session Records} {c : Credential} {owner phrase password : String}
    {ids : List String} (h : Unlocks s.store c password) (hids : s.ids = owner :: ids)
    (ho : owner ≠ "") (hb : ¬ isBlank phrase) (hn : Key.phrase owner ∉ s.store)
    (hf : Fits (Key.phrase owner)) :
    ∃ (p : SealedPhrase) (t : Session Records),
      ((Request.sealNew phrase password).program.run.run s).2 = t ∧
      .wrote (Key.phrase owner) p.write ∈ (Request.sealNew phrase password).program.run.deeds s ∧
      t.store = s.store.insert (Key.phrase owner) p.write ∧ Unlocks t.store c password ∧
      t.entropy = s.entropy.advance Iv.freshLength ∧ t.ids = ids := by
  have hassures : Action.Assures False Filable (Request.sealNew phrase password).program
      (fun _ t => t.store = s.store.insert (Key.phrase owner)
          (freshPhrase s.entropy owner phrase (c.cipherKey password)).write ∧
        t.entropy = s.entropy.advance Iv.freshLength ∧ t.ids = ids) s := by
    refine Action.assures_map _ ?_
    rw [sealNew, Action.assures_mint_bind, hids]
    exact (Action.assures_sealFor (s := { s with ids := ids }) h.filable (.refl h.unstaged) ho hb
      h.stored h.accepts hn hf).mono (fun _ hz => hz) fun _ _ ht => ht.2
  obtain ⟨hstore, hentropy, hrest⟩ := Program.post_of_run_records hassures
  have hheld := congrArg (·[Key.phrase owner]?) hstore
  simp only [Records.getElem?_insert, if_pos] at hheld
  have hk := length_cipherKey c password
  have hlegible : Legible (Key.phrase owner) (freshPhrase s.entropy owner phrase _).write :=
    .of_opens (.inl rfl) hk (opens_freshPhrase s.entropy owner phrase hk)
  refine ⟨_, _, rfl, (Records.held_or_wrote _ s hheld).resolve_left ?_, hstore, ?_, hentropy, hrest⟩
  · rw [Records.getElem?_eq_none_iff.mpr hn]
    exact nofun
  · rw [hstore]
    exact h.insert hf hlegible

/-- An empty vault with two owners to come. The stream does not repeat for a while. -/
def unset : Session Records := ⟨∅, ⟨UInt8.ofNat, 0⟩, ["o", "p"], []⟩

def sealings : List Request :=
  [.perform (.setPassword "a"), .sealNew "word" "a", .sealNew "word" "a"]

theorem exists_sealings :
    ∃ credential phrase phrase' : Bytes,
      .wrote Key.credential credential ∈ (history unset sealings).flatten ∧
      .wrote (Key.phrase "o") phrase ∈ (history unset sealings).flatten ∧
      .wrote (Key.phrase "p") phrase' ∈ (history unset sealings).flatten ∧
      (unset.after sealings).entropy.position = 176 := by
  let c : Credential := freshCredential unset.entropy "a"
  have hset : Action.Assures False Filable (Request.perform (.setPassword "a")).program
      (fun _ t => t.store = (∅ : Records).insert Key.credential c.write ∧
        t.entropy = afterCredential unset.entropy ∧ t.ids = unset.ids) unset :=
    Action.assures_map _ ((Action.assures_setPassword_of_empty rfl (by decide)).mono
      (fun _ hz => hz) fun _ _ ht => ht.2)
  obtain ⟨hstore, hentropy, hids⟩ := Program.post_of_run_records hset
  generalize hs : ((Request.perform (.setPassword "a")).program.run.run unset).2 = s at *
  have hheld : s.store[Key.credential]? = some c.write := by
    rw [hstore, Records.getElem?_insert, if_pos rfl]
  have hwrote : .wrote Key.credential c.write ∈
      (Request.perform (.setPassword "a")).program.run.deeds unset := by
    rw [← hs] at hheld
    exact (Records.held_or_wrote _ _ hheld).resolve_left nofun
  have hmem : ∀ key, key ∈ s.store ↔ Key.credential = key := by
    intro key
    simp [hstore, Std.ExtTreeMap.mem_insert]
  have hopen : Unlocks s.store c "a" := by
    refine ⟨?_, by simp [hmem], ⟨_, hheld, c.read_write⟩, ?_⟩
    · rw [hstore]
      exact Filable.empty.insert (by decide) (.of_credential c (.inl rfl))
    · exact Credential.accepts_create_of_normalize_eq rfl _ _
  have hword : ¬ isBlank "word" := by decide
  obtain ⟨p, t, ht, hp, hstore', hopen', hentropy', hids'⟩ :=
    hopen.run_sealNew hids (by decide) hword (by simp [hmem]) (by decide)
  obtain ⟨q, u, hu, hq, -, -, hentropy'', -⟩ :=
    hopen'.run_sealNew hids' (by decide) hword
      (by simp [hstore', hmem, Std.ExtTreeMap.mem_insert]) (by decide)
  have hhistory : (history unset sealings).flatten =
      (Request.perform (.setPassword "a")).program.run.deeds unset ++
        ((Request.sealNew "word" "a").program.run.deeds s ++
          ((Request.sealNew "word" "a").program.run.deeds t ++ [])) := by
    simp only [sealings, history, hs, ht, List.flatten_cons, List.flatten_nil]
  have hafter : unset.after sealings = u := by
    rw [sealings, Session.after, hs, Session.after, ht, Session.after, hu, Session.after]
  rw [hhistory]
  refine ⟨_, _, _, List.mem_append_left _ hwrote, List.mem_append_right _ (List.mem_append_left _ hp),
    List.mem_append_right _ (List.mem_append_right _ (List.mem_append_left _ hq)), ?_⟩
  rw [hafter, hentropy'', hentropy', hentropy]
  rfl

/-- A password is set and two phrases are sealed, with random bytes of their own. Before that a phrase
for no owner is refused, and no random bytes are drawn. -/
theorem randomness_never_reused_sealed :
    ∃ (made : List (List Product)) (c : Credential) (p q : SealedPhrase)
      (salt keySalt iv iv' : Segment),
      (∀ m ∈ [.credential c salt keySalt, .phrase p iv, .phrase q iv'],
        m ∈ made.flatten ∧ m.MadeFrom UInt8.ofNat ∧
          ∀ g ∈ m.segments, .drew g ∈ (history unset sealings).flatten) ∧
      .wrote Key.credential c.write ∈ (history unset sealings).flatten ∧
      .wrote (Key.phrase "o") p.write ∈ (history unset sealings).flatten ∧
      .wrote (Key.phrase "p") q.write ∈ (history unset sealings).flatten ∧
      Sealing.counterBlock p.iv ≠ Sealing.counterBlock q.iv ∧
      drawn ((Request.perform (.sealFor "" "word" "a")).program.run.deeds unset) = [] := by
  obtain ⟨hruns, hrefused⟩ := randomness_never_reused unset
  obtain ⟨made, haccounts, hturn, -, hapart, hfiles⟩ := hruns sealings
  have hfiled := hfiles (faithful_history _ _ _)
  obtain ⟨_, _, _, hwrote, hwrote', hwrote'', hposition⟩ := exists_sealings
  obtain ⟨_, hc, hf⟩ := hfiled _ _ hwrote
  obtain ⟨c, salt, keySalt, rfl, rfl⟩ := hf.exists_credential
  obtain ⟨_, hp, hf⟩ := hfiled _ _ hwrote'
  obtain ⟨p, iv, rfl, hpo, rfl⟩ := hf.exists_phrase
  obtain ⟨_, hq, hf⟩ := hfiled _ _ hwrote''
  obtain ⟨q, iv', rfl, hqo, rfl⟩ := hf.exists_phrase
  have hmade : ∀ m ∈ made.flatten, m ∈ made.flatten ∧ m.MadeFrom UInt8.ofNat ∧
      ∀ g ∈ m.segments, .drew g ∈ (history unset sealings).flatten := by
    refine fun m hm => ⟨hm, carry_of_accounts haccounts m hm, fun g hg => ?_⟩
    rw [← mem_drawn, drawn_of_accounts haccounts]
    exact List.mem_flatMap.mpr ⟨m, hm, hg⟩
  have hbound : ∀ p iv, .phrase p iv ∈ made.flatten → iv.start < 256 := by
    intro p iv hm
    have hend := hturn.end_le_stop (List.mem_flatMap.mpr ⟨_, hm, List.mem_singleton_self iv⟩)
    rw [hposition] at hend
    omega
  have hne : Product.phrase p iv ≠ .phrase q iv' := by
    intro h
    cases h
    exact absurd (hpo.symm.trans hqo) (by decide)
  refine ⟨made, c, p, q, salt, keySalt, iv, iv', ?_, hwrote, hwrote', hwrote'', fun hblock => ?_, ?_⟩
  · simp only [List.forall_mem_cons]
    exact ⟨hmade _ hc, hmade _ hp, hmade _ hq, by simp⟩
  · have hstart : UInt8.ofNat iv.start = UInt8.ofNat iv'.start → iv.start = iv'.start := fun h => by
      have hnat := congrArg UInt8.toNat h
      rwa [UInt8.toNat_ofNat_of_lt' (hbound p iv hp), UInt8.toNat_ofNat_of_lt' (hbound q iv' hq)]
        at hnat
    have hlength : iv.length = 24 := (carry_of_accounts haccounts _ hp).1
    have hlength' : iv'.length = 24 := (carry_of_accounts haccounts _ hq).1
    rcases apart_or_apart hapart hp hq hne with ⟨hbefore, hiff⟩ | ⟨hbefore, hiff⟩
    · have hsame := hstart (hiff.mp hblock 0 (by decide))
      simp only [Before] at hbefore
      omega
    · have hsame := hstart (hiff.mp hblock.symm 0 (by decide)).symm
      simp only [Before] at hbefore
      omega
  · exact (hrefused (.perform (.sealFor "" "word" "a")) _ (.invalidOwner "") rfl rfl).1

end PhraseVault.Vault
