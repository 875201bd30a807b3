import PhraseVault.Proofs.Vault.Objections

/-!
# What a refusal means

A refused request has changed nothing but to settle a leftover rotation, and the fault it reports is
borne out by the records: those that cannot be used are never held against the caller.
-/
namespace PhraseVault.Vault
variable {q : Request} {s t : Session Records} {fault : Fault}

theorem Request.due (h : q.program.run.run s = (.error fault, t)) :
    (q.operation s.ids).Due s.store fault t.store := by
  have haccounted := q.accounted s
  rw [h] at haccounted
  exact haccounted

/-- Settling that fails is blocked, and has changed nothing. -/
theorem blocked_of_run_settle (h : settle.run.run s = (.error fault, t)) :
    (∃ f, Blocked s.store f ∧ fault = .malformed f) ∧ t.store = s.store := by
  have hopened : Action.Opened s.store (settle.run.run s).1 (settle.run.run s).2 :=
    Program.post_of_run_records (Action.opened_settle s)
  rw [h] at hopened
  rcases hopened with ⟨hr, -⟩ | ⟨f, hblocked, hr, ht⟩
  · cases hr
  · exact ⟨⟨f, hblocked, Except.error.inj hr⟩, ht⟩

theorem resolves_of_run_settle (h : settle.run.run s = (.ok (), t)) :
    Resolves s.store t.store := by
  have hopened : Action.Opened s.store (settle.run.run s).1 (settle.run.run s).2 :=
    Program.post_of_run_records (Action.opened_settle s)
  rw [h] at hopened
  rcases hopened with ⟨-, hy⟩ | ⟨f, -, hr, -⟩
  · exact hy
  · cases hr

/-- A refused request leaves the records as they were if it is unfit or settling is blocked, and
otherwise leaves what settling alone would have left. -/
theorem refused_unchanged :
    (∀ (q : Request) (s t : Session Records) (fault : Fault),
      q.program.run.run s = (.error fault, t) →
      ((∃ f, (q.operation s.ids).Unfit f) ∨ (∃ f, Blocked s.store f) → t.store = s.store) ∧
      ((∀ f, ¬ (q.operation s.ids).Unfit f) → (∀ f, ¬ Blocked s.store f) →
        Resolves s.store t.store ∧ t.store = (settle.run.run s).2.store)) ∧
    ∀ (s t : Session Records) (fault : Fault), settle.run.run s = (.error fault, t) →
      (∃ f, Blocked s.store f ∧ fault = .malformed f) ∧ t.store = s.store := by
  refine ⟨fun q s t fault h => ?_, fun _ _ _ => blocked_of_run_settle⟩
  have hdue := q.due h
  generalize ht : t.store = z at hdue ⊢
  cases hdue with
  | unfit hunfit => exact ⟨fun _ => rfl, fun hfit => absurd hunfit (hfit fault)⟩
  | blocked _ hblocked => exact ⟨fun _ => rfl, fun _ hn => absurd hblocked (hn _)⟩
  | objected hfit hy _ =>
    refine ⟨?_, fun _ _ => ⟨hy, (hy.run_settle rfl).2.symm⟩⟩
    rintro (⟨f, hunfit⟩ | ⟨f, hblocked⟩)
    · exact absurd hunfit (hfit f)
    · exact absurd hblocked (hy.not_blocked f)

/-- A phrase that can be opened and sealed again, and after it a record that cannot be read. -/
def halfSpoilt : Records :=
  (single ⟨fun _ => 0, 0⟩ (.create "old" "" "") "old" "a" "word").insert (Key.phrase "b") []

private theorem getElem?_halfSpoilt {key : String} (h : Key.phrase "b" ≠ key) :
    halfSpoilt[key]? = (single ⟨fun _ => 0, 0⟩ (.create "old" "" "") "old" "a" "word")[key]? := by
  rw [halfSpoilt, Records.getElem?_insert, if_neg h]

private theorem owners_halfSpoilt : Records.owners halfSpoilt = ["a", "b"] := by
  refine (Records.pairwise_owners _).eq_of_mem_iff (by decide) fun owner => ?_
  have hmem : owner ∈ Records.owners halfSpoilt ↔ "b" = owner ∨ "a" = owner := by
    simp [halfSpoilt, Records.mem_owners, mem_single, Std.ExtTreeMap.mem_insert]
  rw [hmem, List.mem_pair]
  exact or_comm.trans (or_congr eq_comm eq_comm)

private theorem stagedCredential_not_mem_halfSpoilt : Key.stagedCredential ∉ halfSpoilt := by
  simp [halfSpoilt, mem_single, Std.ExtTreeMap.mem_insert]

private theorem exists_run_halfSpoilt (e : Entropy) :
    ∃ t fault, (Request.perform (.changePassword "old" "new")).program.run.run
      ⟨halfSpoilt, e, [], []⟩ = (.error (.malformed fault), t) := by
  have hread := rotatable_single ⟨fun _ => 0, 0⟩ "old" "" "" "a" "word"
  have hstored := (stored_congr (getElem?_halfSpoilt (Key.phrase_ne_credential "b")) _).mpr
    hread.stored
  obtain ⟨bytes, text, hb, hopens⟩ :=
    hread.opens "a" (Records.mem_owners.mpr (mem_single.mpr (.inl rfl)))
  rw [← getElem?_halfSpoilt (by simp)] at hb
  have hb' : halfSpoilt[Key.phrase "b"]? = some [] := by
    rw [halfSpoilt, Records.getElem?_insert, if_pos rfl]
  have hnone : halfSpoilt[Key.stagedCredential]? = none :=
    Records.getElem?_eq_none_iff.mpr stagedCredential_not_mem_halfSpoilt
  have howners := owners_halfSpoilt
  generalize halfSpoilt = records at *
  have h : Action.Assures False (fun _ => True) (Operation.changePassword "old" "new").program
      (fun r _ => ∃ fault, r = .error (.malformed fault)) ⟨records, e, [], []⟩ := by
    rw [Operation.program, map_eq_pure_bind, changePassword, exclusive, settle]
    simp only [bind_assoc]
    rw [Action.assures_fetch_bind, hnone]
    simp only [pure_bind]
    rw [Action.assures_requireCredential hstored, Action.assures_demand hread.accepted,
      Action.assures_newCredential (by decide), Action.assures_sealedOwners, howners, resealAll]
    simp only [bind_assoc]
    rw [Action.assures_openPhrase hb hopens, Action.assures_sealPhrase, resealAll, requirePhrase,
      loadPhrase]
    simp only [bind_assoc]
    rw [Action.assures_fetch_bind, hb']
    exact ⟨_, rfl⟩
  obtain ⟨fault, hr⟩ := Program.post_of_run_records h
  exact ⟨_, fault, Prod.ext hr rfl⟩

/-- The first phrase has been sealed again when the second cannot be read. -/
theorem refused_unchanged_halfway :
    ∃ (s t : Session Records) (fault : Json.Fault), s.store = halfSpoilt ∧
      (Request.perform (.changePassword "old" "new")).program.run.run s =
        (.error (.malformed fault), t) ∧ t.store = s.store := by
  obtain ⟨t, fault, h⟩ := exists_run_halfSpoilt ⟨fun _ => 0, 0⟩
  have hstaged := stagedCredential_not_mem_halfSpoilt
  have hend := (refused_unchanged.1 _ _ t _ h).2 (fun _ => nofun) fun _ hb => hstaged hb.staged
  exact ⟨_, t, fault, rfl, h, (hend.1.eq_of_unstaged hstaged).symm⟩

/-- The store is blamed for records that cannot be read or used, and for nothing else. Where the
caller is blamed, the records bear it out; and what succeeds has read no record that is of no use. -/
theorem faults_borne_out (q : Request) (s : Session Records) :
    (∀ fault t, q.program.run.run s = (.error fault, t) →
      (fault.isStorage = true ∧
        ((t.store = s.store ∧ ∃ f, Blocked s.store f ∧ fault = .malformed f) ∨
          Resolves s.store t.store ∧ (q.operation s.ids).Finds t.store fault)) ∨
      (fault.isStorage = false ∧
        ((t.store = s.store ∧ (q.operation s.ids).Unfit fault) ∨
          Resolves s.store t.store ∧ (q.operation s.ids).Objects t.store fault))) ∧
    ∀ answer t, q.program.run.run s = (.ok answer, t) →
      ∃ y, Resolves s.store y ∧ ∀ fault, ¬ (q.operation s.ids).Finds y fault := by
  refine ⟨fun fault t h => ?_, fun answer t h => ?_⟩
  · have hdue := q.due h
    generalize t.store = z at hdue ⊢
    cases hdue with
    | unfit hunfit =>
      refine .inr ⟨?_, .inl ⟨rfl, hunfit⟩⟩
      generalize q.operation s.ids = op at hunfit
      cases hunfit <;> rfl
    | blocked _ hblocked => exact .inl ⟨rfl, .inl ⟨rfl, _, hblocked, rfl⟩⟩
    | objected _ hy hreason =>
      rcases hreason with hfinds | hobjects
      · refine .inl ⟨?_, .inr ⟨hy, hfinds⟩⟩
        cases hfinds <;> rfl
      · refine .inr ⟨?_, .inr ⟨hy, hobjects⟩⟩
        cases hobjects <;> rfl
  · have haccounted := q.accounted s
    rw [h] at haccounted
    exact haccounted.sound

/-- No candidate is held against a stored hash of two bytes. -/
theorem faults_borne_out_short :
    ∃ s t : Session Records,
      s.store = (∅ : Records).insert Key.credential (Credential.mk "abcd" "" "").write ∧
      (Request.perform (.verifyPassword "a")).program.run.run s =
        (.error (.corrupt Key.credential (.hash (.length 2))), t) ∧
      (Operation.verifyPassword "a").Finds t.store (.corrupt Key.credential (.hash (.length 2))) := by
  have hc : Stored ((∅ : Records).insert Key.credential (Credential.mk "abcd" "" "").write)
      ⟨"abcd", "", ""⟩ := by
    refine ⟨_, ?_, Credential.read_write _⟩
    rw [Records.getElem?_insert, if_pos rfl]
  have hnone : ((∅ : Records).insert Key.credential (Credential.mk "abcd" "" "").write)[
      Key.stagedCredential]? = none := by
    rw [Records.getElem?_insert, if_neg Key.credential_ne_stagedCredential, getElem?_empty]
  generalize (∅ : Records).insert Key.credential (Credential.mk "abcd" "" "").write = records at *
  have haccepts : (Credential.mk "abcd" "" "").accepts "a" = .error (.length 2) := rfl
  have h : Action.Assures False (fun _ => True) (Operation.verifyPassword "a").program
      (fun r _ => r = .error (.corrupt Key.credential (.hash (.length 2))))
      ⟨records, ⟨fun _ => 0, 0⟩, [], []⟩ := by
    rw [Operation.program, map_eq_pure_bind, verifyPassword]
    simp only [bind_assoc]
    rw [Action.assures_shared_bind hnone, Action.assures_requireCredential hc, matching, haccepts]
    exact rfl
  obtain ⟨t, hrun⟩ : ∃ t, (Request.perform (.verifyPassword "a")).program.run.run
      ⟨records, ⟨fun _ => 0, 0⟩, [], []⟩ =
        (.error (.corrupt Key.credential (.hash (.length 2))), t) :=
    ⟨_, Prod.ext (Program.post_of_run_records h) rfl⟩
  refine ⟨_, t, rfl, hrun, ?_⟩
  rcases (faults_borne_out (.perform (.verifyPassword "a")) _).1 _ t hrun with
    ⟨-, ⟨-, f, -, hf⟩ | ⟨-, hfinds⟩⟩ | ⟨hf, -⟩
  · cases hf
  · exact hfinds
  · cases hf

end PhraseVault.Vault
