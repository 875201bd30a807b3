import PhraseVault.Proofs.Vault.Simulation

/-!
# Records in any layout are loaded

Whoever has written a stored record and however it is laid out, it is loaded as the same record as
long as every known member is given exactly once.
-/
namespace PhraseVault.Vault
open Json Vault.Action

theorem run_loadCredential {s : Session Records} {bytes : Bytes}
    (h : s.store[Key.credential]? = some bytes) :
    loadCredential.run.run s = (((Credential.read bytes).mapError .malformed).map some, s) := by
  have hfetch : (fetch Key.credential).run.run s = (.ok (some bytes), s) := by
    rw [← h]
    rfl
  rw [loadCredential, run_bind_ok hfetch]
  simp only [readCredential]
  cases Credential.read bytes <;> rfl

theorem run_loadPhrase {s : Session Records} {owner : String} {bytes : Bytes}
    (h : s.store[Key.phrase owner]? = some bytes)
    (ho : ∀ p, SealedPhrase.read bytes = .ok p → p.owner = owner) :
    (loadPhrase owner).run.run s =
      (((SealedPhrase.read bytes).mapError .malformed).map some, s) := by
  have hfetch : (fetch (Key.phrase owner)).run.run s = (.ok (some bytes), s) := by
    rw [← h]
    rfl
  rw [loadPhrase, run_bind_ok hfetch]
  simp only [readPhrase]
  cases hr : SealedPhrase.read bytes with
  | error fault => rfl
  | ok p =>
    have hread : (outcome (.ok p) : Action _).run.run s = (.ok p, s) := rfl
    have howner : ¬ p.owner ≠ owner := not_not_intro (ho p hr)
    simp only [Except.mapError]
    rw [run_bind_ok hread, if_neg howner]
    rfl

/-- Whoever wrote a record, in whatever layout: it is read and loaded exactly if every known member
is given once, there and in its vector. Otherwise the fault tells which is missing or repeated. -/
theorem known_members_decide :
    (∀ (c : Credential) (names : List String) (s : Spaced),
      Object Credential.known c.Right names s.body →
      (Complete Credential.known names → Credential.read s.text = .ok c ∧
        ∀ t : Session Records, t.store[Key.credential]? = some s.text →
          loadCredential.run.run t = (.ok (some c), t)) ∧
      (¬ Complete Credential.known names → ∃ fault, Amiss Credential.known names fault ∧
        Credential.read s.text = .error fault ∧
        ∀ t : Session Records, t.store[Key.credential]? = some s.text →
          loadCredential.run.run t = (.error (.malformed fault), t))) ∧
    ∀ (p : SealedPhrase) (names inner : List String) (s : Spaced), p.iv.sigBytes < wordLimit →
      Object SealedPhrase.known (p.Right inner) names s.body →
      (Complete SealedPhrase.known names ∧ Complete Iv.known inner →
        SealedPhrase.read s.text = .ok p ∧
        ∀ t : Session Records, t.store[Key.phrase p.owner]? = some s.text →
          (loadPhrase p.owner).run.run t = (.ok (some p), t)) ∧
      (¬ (Complete SealedPhrase.known names ∧ Complete Iv.known inner) →
        ∃ fault, (Amiss SealedPhrase.known names fault ∨ Amiss Iv.known inner fault) ∧
          SealedPhrase.read s.text = .error fault ∧
          ∀ t : Session Records, t.store[Key.phrase p.owner]? = some s.text →
            (loadPhrase p.owner).run.run t = (.error (.malformed fault), t)) := by
  refine ⟨fun c names s h => ?_, fun p names inner s hp h => ?_⟩
  · rcases Credential.read_cases h with ⟨hc, hread⟩ | ⟨fault, ha, hread⟩
    · refine ⟨fun _ => ⟨hread, fun t ht => ?_⟩, fun hn => absurd hc hn⟩
      rw [run_loadCredential ht, hread]
      rfl
    · refine ⟨fun hc => absurd hc ha.not_complete, fun _ => ⟨fault, ha, hread, fun t ht => ?_⟩⟩
      rw [run_loadCredential ht, hread]
      rfl
  · rcases SealedPhrase.read_cases hp h with ⟨hc, hread⟩ | ⟨fault, ha, hread⟩
    · refine ⟨fun _ => ⟨hread, fun t ht => ?_⟩, fun hn => absurd hc hn⟩
      rw [run_loadPhrase ht (fun q hq => by cases hread.symm.trans hq; rfl), hread]
      rfl
    · refine ⟨fun hc => ?_, fun _ => ⟨fault, ha, hread, fun t ht => ?_⟩⟩
      · exact absurd hc fun hc => ha.elim (·.not_complete hc.1) (·.not_complete hc.2)
      · rw [run_loadPhrase ht (fun q hq => by cases hread.symm.trans hq), hread]
        rfl

/-- A phrase that others have written down, its vector first, with a note of theirs. -/
def foreign : SealedPhrase := ⟨"é😀", "AA==", ⟨[-1], 4⟩⟩

def foreignOwner : Bytes :=
  quoted ([['\\', 'u', '0', '0', 'E', '9'],
    ['\\', 'u', 'D', '8', '3', 'd', '\\', 'u', 'd', 'e', '0', '0']].map (·.map ascii))

def foreignIv : Bytes :=
  objectText [] [writtenMember "sigBytes" (writeNat 4),
    ⟨.bare (writeText "words"),
      ⟨[0x20], listText [] [.bare (writeInt (-1))], [], by decide, by decide⟩⟩]

def foreignNote : Bytes :=
  listText [] [.bare (objectText [] [writtenMember "a" (['1', 'e', '9'].map ascii)]),
    .bare (['n', 'u', 'l', 'l'].map ascii)]

def foreignText : Spaced :=
  ⟨[0x20], objectText [] [writtenMember "iv" foreignIv, writtenMember "note" foreignNote,
    writtenMember "cipher" (writeText "AA=="), writtenMember "ownerId" foreignOwner], [0x0A],
    by decide, by decide⟩

private theorem spellsText_foreignOwner : SpellsText foreign.owner foreignOwner := by
  refine ⟨_, ?_, rfl⟩
  have haccent : HexUnit 'é'.toNat (['0', '0', 'E', '9'].map ascii) :=
    ⟨by decide, .cons (.inl rfl) (.cons (.inl rfl) (.cons (.inr rfl) (.cons (.inl rfl) .nil)))⟩
  have hhigh : HexUnit 0xD83D (['D', '8', '3', 'd'].map ascii) :=
    ⟨by decide, .cons (.inr rfl) (.cons (.inl rfl) (.cons (.inl rfl) (.cons (.inl rfl) .nil)))⟩
  have hlow : HexUnit 0xDE00 (['d', 'e', '0', '0'].map ascii) :=
    ⟨by decide, .cons (.inl rfl) (.cons (.inl rfl) (.cons (.inl rfl) (.cons (.inl rfl) .nil)))⟩
  have hh : 0xD83D = 0xD800 + ('😀'.toNat - 0x10000) / 1024 := by decide
  have hl : 0xDE00 = 0xDC00 + ('😀'.toNat - 0x10000) % 1024 := by decide
  rw [hh] at hhigh
  rw [hl] at hlow
  have hlist : foreign.owner.toList = ['é', '😀'] := by decide
  rw [hlist]
  exact .cons (.unit haccent) (.cons (.pair (by decide) hhigh hlow) .nil)

private theorem isDigits_digit {d : UInt8} (h : Json.isDigit d = true) : IsDigits [d] :=
  ⟨by simp, by simpa using h⟩

private theorem isValue_foreignNote : IsValue foreignNote := by
  have hnumber : IsNumber (['1', 'e', '9'].map ascii) :=
    ⟨[], [ascii '1'], [], [ascii 'e', ascii '9'], .inl rfl, ⟨isDigits_digit (by decide), by decide⟩,
      .inl rfl, .inr ⟨_, [], [ascii '9'], .inl rfl, .inl rfl, isDigits_digit (by decide), rfl⟩, rfl⟩
  have hname : IsText (writeText "a") :=
    ⟨[[ascii 'a']], by simpa using Chunk.plain ⟨by decide, by decide, by decide⟩, by decide⟩
  refine .list isBlank_nil ?_
  simp only [List.mem_cons, List.not_mem_nil, or_false, forall_eq_or_imp, forall_eq]
  refine ⟨.object isBlank_nil ?_ ?_, .word (by decide)⟩
  · simp only [List.mem_cons, List.not_mem_nil, or_false, forall_eq]
    exact hname
  · simp only [List.mem_cons, List.not_mem_nil, or_false, forall_eq]
    exact .number hnumber

private theorem object_foreign :
    Object SealedPhrase.known (foreign.Right ["sigBytes", "words"])
      ["iv", "note", "cipher", "ownerId"] foreignText.body := by
  have hiv : Object Iv.known foreign.iv.Right ["sigBytes", "words"] foreignIv := by
    refine ⟨[], _, isBlank_nil, ?_, rfl⟩
    refine .cons (spellsText_writeText _) (.first (by decide) (by decide) .sigBytes)
      (.cons (spellsText_writeText _) (.first (by decide) (by decide) ?_) .nil)
    exact .words isBlank_nil (.cons rfl .nil)
  refine ⟨[], _, isBlank_nil, ?_, rfl⟩
  exact .cons (spellsText_writeText _) (.first (by decide) (by decide) (.iv hiv))
    (.cons (spellsText_writeText _) (.other (by decide) isValue_foreignNote)
      (.cons (spellsText_writeText _)
        (.first (by decide) (by decide) (.cipher (spellsText_writeText _)))
        (.cons (spellsText_writeText _)
          (.first (by decide) (by decide) (.owner spellsText_foreignOwner)) .nil)))

/-- A credential with two hashes and no salt for the key. -/
def doubledText : Spaced :=
  .bare (objectText [] [writtenMember "hash" (writeText "h"), writtenMember "salt" (writeText "s"),
    writtenMember "hash" (writeText "i")])

private theorem object_doubled :
    Object Credential.known (Credential.Right ⟨"h", "s", "k"⟩) ["hash", "salt", "hash"]
      doubledText.body := by
  refine ⟨[], _, isBlank_nil, ?_, rfl⟩
  exact .cons (spellsText_writeText _)
    (.first (by decide) (by decide) (.hash (spellsText_writeText _)))
    (.cons (spellsText_writeText _)
      (.first (by decide) (by decide) (.salt (spellsText_writeText _)))
      (.cons (spellsText_writeText _) (.again (by decide) (by decide)) .nil))

theorem known_members_decide_foreign :
    foreignText.text = Utf8.encode (" \x7b\"iv\":\x7b\"sigBytes\":4,\"words\": [-1]\x7d," ++
      "\"note\":[\x7b\"a\":1e9\x7d,null],\"cipher\":\"AA==\"," ++
      "\"ownerId\":\"\\u00E9\\uD83d\\ude00\"\x7d\n") ∧
    SealedPhrase.read foreignText.text = .ok foreign ∧
    ∃ fault, Amiss Credential.known ["hash", "salt", "hash"] fault ∧
      Credential.read doubledText.text = .error fault := by
  obtain ⟨hcredential, hphrase⟩ := known_members_decide
  refine ⟨by decide +kernel, ?_, ?_⟩
  · exact ((hphrase foreign _ _ foreignText (by decide) object_foreign).1
      ⟨by decide, by decide⟩).1
  · obtain ⟨fault, ha, hread, -⟩ := (hcredential _ _ doubledText object_doubled).2 (by decide)
    exact ⟨fault, ha, hread⟩

end PhraseVault.Vault
