import PhraseVault.Record.Credential
import PhraseVault.Record.SealedPhrase
import PhraseVault.Proofs.Json.Members
import PhraseVault.Proofs.Bytes
import PhraseVault.Proofs.Hex

/-!
# Stored records are read in any layout

A stored record may have been written by others: its members in any order and among others, in any
spelling, with space between them. How it is read depends on the names of the members alone. A record
the vault has written is one of these layouts, and so is read back.
-/
namespace PhraseVault
open Json

namespace Iv

def known : List String := ["words", "sigBytes"]

/-- The values that stand for the parts of a vector. -/
inductive Right (iv : Iv) : String → Bytes → Prop
  | words {gap : Bytes} {items : List Spaced} (hg : IsBlank gap)
    (hi : List.Forall₂ (fun w i => i.body = writeInt w.toInt) iv.words items) :
    Right iv "words" (listText gap items)
  | sigBytes : Right iv "sigBytes" (writeNat iv.sigBytes)

/-- What is known of the vector after the names seen. -/
def draftOf (iv : Iv) (seen : List String) : Draft where
  words := if "words" ∈ seen then some iv.words else none
  sigBytes := if "sigBytes" ∈ seen then some iv.sigBytes else none

private theorem element_word {w : Int32} {i : Spaced} (h : i.body = writeInt w.toInt) :
    Element int32 w i where
  starts := by
    rw [h]
    exact exists_cons_writeInt w.toInt
  yields := by
    rw [h]
    exact yields_int32 w

theorem fields {iv : Iv} (h : iv.sigBytes < wordLimit) :
    Fields known iv.Right (fun _ => .ok ()) member finish iv.draftOf iv where
  first := by
    intro name seen v gap _ hs hv hg
    cases hv with
    | words hgap hi =>
      refine yields_once "words" (.ok ()) (fun x => { iv.draftOf seen with words := some x })
        (yields_list hgap (hi.imp fun _ _ => element_word)) hg (fun bytes => ?_) (by simp [draftOf])
      simp only [member, if_true, draftOf, if_neg hs]
    | sigBytes =>
      refine yields_once "sigBytes" (.ok ())
        (fun x => { iv.draftOf seen with sigBytes := some x }) (yields_size h) hg (fun bytes => ?_)
        (by simp [draftOf])
      simp only [member, String.reduceEq, if_false, if_true, draftOf, if_neg hs]
  again := by
    intro name seen bytes hk hs
    simp only [known, List.mem_cons, List.not_mem_nil, or_false] at hk
    rcases hk with rfl | rfl <;> simp [member, once, draftOf, hs, Except.map]
  other := by
    intro name seen hk
    simp only [known, List.mem_cons, List.not_mem_nil, or_false, not_or] at hk
    funext bytes
    simp [member, draftOf, hk, Ne.symm hk.1, Ne.symm hk.2]
  finish := by
    intro seen
    by_cases hw : "words" ∈ seen <;> by_cases hb : "sigBytes" ∈ seen <;>
      simp [finish, required, draftOf, checkComplete, known, hw, hb] <;> rfl

theorem yields_reader {iv : Iv} (h : iv.sigBytes < wordLimit) {names : List String} {b : Bytes}
    (hb : Object known iv.Right names b) :
    Yields reader b ((verdict known (fun _ => .ok ()) names).map fun _ => iv) := by
  intro space rest hs _
  have hread := record_object_given (fields h) hb recordName inOrder hs rest
  have hblank : iv.draftOf [] = ⟨none, none⟩ := by simp [draftOf]
  rw [hblank] at hread
  rw [reader, hread]
  cases verdict known (fun _ => .ok ()) names <;> rfl

private theorem joined_words (ws : List Int32) :
    joined true (ws.map (Spaced.text ∘ fun w => .bare (writeInt w.toInt))) = writeWords ws := by
  induction ws with
  | nil => rfl
  | cons w ws ih =>
    cases ws with
    | nil => simp [joined, comma, writeWords]
    | cons v ws =>
      simp only [joined, comma, writeWords, List.map_cons, Function.comp_apply, Spaced.text_bare,
        List.nil_append, List.singleton_append] at ih ⊢
      rw [ih]

/-- A written vector is laid out like that. -/
theorem object_write (iv : Iv) : Object known iv.Right known iv.write := by
  refine ⟨[], [writtenMember "words" (listText [] (iv.words.map fun w => .bare (writeInt w.toInt))),
    writtenMember "sigBytes" (writeNat iv.sigBytes)], isBlank_nil, ?_, ?_⟩
  · refine .cons (spellsText_writeText _) (.first (by decide) (by decide) (.words isBlank_nil ?_))
      (.cons (spellsText_writeText _) (.first (by decide) (by decide) .sigBytes) .nil)
    rw [List.forall₂_map_right_iff, List.forall₂_same]
    exact fun _ _ => rfl
  · simp [objectText, inside, joined, comma, text_writtenMember, listText, joined_words, write]

end Iv

namespace Credential

def known : List String := ["hash", "salt", "keySalt"]

/-- The values that stand for the parts of a credential. -/
inductive Right (c : Credential) : String → Bytes → Prop
  | hash {v : Bytes} (h : SpellsText c.hash v) : Right c "hash" v
  | salt {v : Bytes} (h : SpellsText c.salt v) : Right c "salt" v
  | keySalt {v : Bytes} (h : SpellsText c.keySalt v) : Right c "keySalt" v

/-- What is known of the credential after the names seen. -/
def draftOf (c : Credential) (seen : List String) : Draft where
  hash := if "hash" ∈ seen then some c.hash else none
  salt := if "salt" ∈ seen then some c.salt else none
  keySalt := if "keySalt" ∈ seen then some c.keySalt else none

theorem fields (c : Credential) :
    Fields known c.Right (fun _ => .ok ()) member finish c.draftOf c where
  first := by
    intro name seen v gap _ hs hv hg
    cases hv with
    | hash h =>
      refine yields_once "hash" (.ok ()) (fun x => { c.draftOf seen with hash := some x })
        (yields_text h) hg (fun bytes => ?_) (by simp [draftOf])
      simp only [member, if_true, draftOf, if_neg hs]
    | salt h =>
      refine yields_once "salt" (.ok ()) (fun x => { c.draftOf seen with salt := some x })
        (yields_text h) hg (fun bytes => ?_) (by simp [draftOf])
      simp only [member, String.reduceEq, if_false, if_true, draftOf, if_neg hs]
    | keySalt h =>
      refine yields_once "keySalt" (.ok ())
        (fun x => { c.draftOf seen with keySalt := some x }) (yields_text h) hg (fun bytes => ?_)
        (by simp [draftOf])
      simp only [member, String.reduceEq, if_false, if_true, draftOf, if_neg hs]
  again := by
    intro name seen bytes hk hs
    simp only [known, List.mem_cons, List.not_mem_nil, or_false] at hk
    rcases hk with rfl | rfl | rfl <;> simp [member, once, draftOf, hs, Except.map]
  other := by
    intro name seen hk
    simp only [known, List.mem_cons, List.not_mem_nil, or_false, not_or] at hk
    funext bytes
    simp [member, draftOf, hk, Ne.symm hk.1, Ne.symm hk.2.1, Ne.symm hk.2.2]
  finish := by
    intro seen
    by_cases hh : "hash" ∈ seen <;> by_cases hs : "salt" ∈ seen <;>
      by_cases hk : "keySalt" ∈ seen <;>
      simp [finish, required, draftOf, checkComplete, known, hh, hs, hk] <;> rfl

/-- Reading a credential, by the names of the members given. -/
theorem read_object (c : Credential) {names : List String} {s : Spaced}
    (h : Object known c.Right names s.body) :
    read s.text = (verdict known (fun _ => .ok ()) names).map fun _ => c := by
  have hread := record_object_given c.fields h recordName inOrder s.blank_before s.after
  have hblank : c.draftOf [] = ⟨none, none, none⟩ := by simp [draftOf]
  rw [hblank] at hread
  exact whole_of_map hread s.blank_after

theorem read_cases {c : Credential} {names : List String} {s : Spaced}
    (h : Object known c.Right names s.body) :
    Complete known names ∧ read s.text = .ok c ∨
      ∃ fault, Amiss known names fault ∧ read s.text = .error fault := by
  rw [c.read_object h]
  cases hv : verdict known (fun _ => .ok ()) names with
  | ok u => exact .inl ⟨(verdict_eq_ok_iff.mp hv).1, rfl⟩
  | error fault =>
    rcases amiss_of_verdict hv with ha | ⟨_, _, hf⟩
    · exact .inr ⟨fault, ha, rfl⟩
    · cases hf

/-- A written credential is laid out like that. -/
theorem object_write (c : Credential) : Object known c.Right known c.write := by
  refine ⟨[], [writtenMember "hash" (writeText c.hash), writtenMember "salt" (writeText c.salt),
    writtenMember "keySalt" (writeText c.keySalt)], isBlank_nil, ?_, ?_⟩
  · exact .cons (spellsText_writeText _)
      (.first (by decide) (by decide) (.hash (spellsText_writeText _)))
      (.cons (spellsText_writeText _)
        (.first (by decide) (by decide) (.salt (spellsText_writeText _)))
        (.cons (spellsText_writeText _)
          (.first (by decide) (by decide) (.keySalt (spellsText_writeText _))) .nil))
  · simp [objectText, inside, joined, comma, text_writtenMember, write]

@[simp] theorem read_write (c : Credential) : read c.write = .ok c := by
  have hread := c.read_object (s := .bare c.write) c.object_write
  rw [Spaced.text_bare] at hread
  exact hread

theorem write_injective {c d : Credential} (h : c.write = d.write) : c = d := by
  have hr := read_write c
  rw [h, read_write] at hr
  exact (Except.ok.inj hr).symm

/-- The hash of a credential reads back as what its password derives. -/
theorem hashBytes_create (password salt keySalt : String) :
    (create password salt keySalt).hashBytes = .ok (Password.derive password (Utf8.encode salt)) := by
  rw [hashBytes, create, Hex.decode_encode]
  simp

/-- A credential accepts the passwords that derive what its own did. -/
theorem accepts_create (password salt keySalt candidate : String) :
    (create password salt keySalt).accepts candidate =
      .ok (decide (Password.derive candidate (Utf8.encode salt) =
        Password.derive password (Utf8.encode salt))) := by
  rw [accepts, hashBytes_create]
  refine congrArg Except.ok ?_
  rw [Bool.eq_iff_iff, decide_eq_true_iff]
  exact Bytes.sameBytes_iff

theorem accepts_create_of_normalize_eq {password candidate : String}
    (h : Unicode.normalize candidate = Unicode.normalize password) (salt keySalt : String) :
    (create password salt keySalt).accepts candidate = .ok true := by
  rw [accepts_create, Password.derive_congr h, decide_eq_true rfl]

/-- What can be wrong with the hash of a credential: it is not hex text, or not of that many bytes. -/
inductive Unusable (c : Credential) : HashFault → Prop
  | hex {fault : Hex.Fault} (h : Hex.decode c.hash = .error fault) : Unusable c (.hex fault)
  | length {hash : Bytes} (h : Hex.decode c.hash = .ok hash)
    (hl : hash.length ≠ Password.derivedLength) : Unusable c (.length hash.length)

theorem unusable_of_accepts {c : Credential} {candidate : String} {fault : HashFault}
    (h : c.accepts candidate = .error fault) : c.Unusable fault := by
  rw [accepts, hashBytes] at h
  cases hd : Hex.decode c.hash with
  | error decodeFault =>
    rw [hd] at h
    cases h
    exact .hex hd
  | ok hash =>
    rw [hd] at h
    simp only [] at h
    by_cases hl : hash.length = Password.derivedLength
    · rw [if_pos hl] at h
      cases h
    · rw [if_neg hl] at h
      cases h
      exact .length hd hl

/-- A candidate is held against the bytes that the hash spells. -/
theorem exists_hash_of_accepts {c : Credential} {candidate : String} {accepted : Bool}
    (h : c.accepts candidate = .ok accepted) :
    ∃ hash, Hex.decode c.hash = .ok hash ∧ hash.length = Password.derivedLength ∧
      (accepted = true ↔ Password.derive candidate (Utf8.encode c.salt) = hash) := by
  rw [accepts, hashBytes] at h
  cases hd : Hex.decode c.hash with
  | error decodeFault =>
    rw [hd] at h
    cases h
  | ok hash =>
    rw [hd] at h
    simp only [] at h
    by_cases hl : hash.length = Password.derivedLength
    · rw [if_pos hl] at h
      cases h
      exact ⟨hash, rfl, hl, Bytes.sameBytes_iff⟩
    · rw [if_neg hl] at h
      cases h

theorem not_unusable_of_accepts {c : Credential} {candidate : String} {accepted : Bool}
    (h : c.accepts candidate = .ok accepted) (fault : HashFault) : ¬ c.Unusable fault := by
  obtain ⟨hash, hd, hl, -⟩ := exists_hash_of_accepts h
  rintro (hhex | ⟨hdecode, hlength⟩)
  · cases hd.symm.trans hhex
  · cases hd.symm.trans hdecode
    exact hlength hl

end Credential

namespace SealedPhrase

def known : List String := ["ownerId", "cipher", "iv"]

/-- The values that stand for the parts of a sealed phrase; its vector has members of these names. -/
inductive Right (p : SealedPhrase) (inner : List String) : String → Bytes → Prop
  | owner {v : Bytes} (h : SpellsText p.owner v) : Right p inner "ownerId" v
  | cipher {v : Bytes} (h : SpellsText p.cipher v) : Right p inner "cipher" v
  | iv {v : Bytes} (h : Object Iv.known p.iv.Right inner v) : Right p inner "iv" v

/-- What is known of the phrase after the names seen. -/
def draftOf (p : SealedPhrase) (seen : List String) : Draft where
  owner := if "ownerId" ∈ seen then some p.owner else none
  cipher := if "cipher" ∈ seen then some p.cipher else none
  iv := if "iv" ∈ seen then some p.iv else none

/-- How reading the value of a member ends, by the names inside of the vector. -/
def outcome (inner : List String) (name : String) : Except Json.Fault Unit :=
  if name = "iv" then verdict Iv.known (fun _ => .ok ()) inner else .ok ()

theorem fields {p : SealedPhrase} (hp : p.iv.sigBytes < wordLimit) (inner : List String) :
    Fields known (p.Right inner) (outcome inner) member finish p.draftOf p where
  first := by
    intro name seen v gap _ hs hv hg
    cases hv with
    | owner h =>
      refine yields_once "ownerId" (.ok ())
        (fun x => { p.draftOf seen with owner := some x }) (yields_text h) hg (fun bytes => ?_)
        (by simp [draftOf])
      simp only [member, if_true, draftOf, if_neg hs]
    | cipher h =>
      refine yields_once "cipher" (.ok ())
        (fun x => { p.draftOf seen with cipher := some x }) (yields_text h) hg (fun bytes => ?_)
        (by simp [draftOf])
      simp only [member, String.reduceEq, if_false, if_true, draftOf, if_neg hs]
    | iv h =>
      rw [outcome, if_pos rfl]
      refine yields_once "iv" _ (fun x => { p.draftOf seen with iv := some x })
        (Iv.yields_reader hp h) hg (fun bytes => ?_) (by simp [draftOf])
      simp only [member, String.reduceEq, if_false, if_true, draftOf, if_neg hs]
  again := by
    intro name seen bytes hk hs
    simp only [known, List.mem_cons, List.not_mem_nil, or_false] at hk
    rcases hk with rfl | rfl | rfl <;> simp [member, once, draftOf, hs, Except.map]
  other := by
    intro name seen hk
    simp only [known, List.mem_cons, List.not_mem_nil, or_false, not_or] at hk
    funext bytes
    simp [member, draftOf, hk, Ne.symm hk.1, Ne.symm hk.2.1, Ne.symm hk.2.2]
  finish := by
    intro seen
    by_cases ho : "ownerId" ∈ seen <;> by_cases hc : "cipher" ∈ seen <;>
      by_cases hi : "iv" ∈ seen <;>
      simp [finish, required, draftOf, checkComplete, known, ho, hc, hi] <;> rfl

/-- Reading a sealed phrase, by the names of the members given and of those of its vector. -/
theorem read_object {p : SealedPhrase} (hp : p.iv.sigBytes < wordLimit) {names inner : List String}
    {s : Spaced} (h : Object known (p.Right inner) names s.body) :
    read s.text = (verdict known (outcome inner) names).map fun _ => p := by
  have hread := record_object_given (fields hp inner) h recordName inOrder s.blank_before s.after
  have hblank : p.draftOf [] = ⟨none, none, none⟩ := by simp [draftOf]
  rw [hblank] at hread
  exact whole_of_map hread s.blank_after

theorem read_cases {p : SealedPhrase} (hp : p.iv.sigBytes < wordLimit) {names inner : List String}
    {s : Spaced} (h : Object known (p.Right inner) names s.body) :
    (Complete known names ∧ Complete Iv.known inner) ∧ read s.text = .ok p ∨
      ∃ fault, (Amiss known names fault ∨ Amiss Iv.known inner fault) ∧
        read s.text = .error fault := by
  rw [read_object hp h]
  cases hv : verdict known (outcome inner) names with
  | ok u =>
    obtain ⟨hnames, hvalues⟩ := verdict_eq_ok_iff.mp hv
    have hiv : verdict Iv.known (fun _ => .ok ()) inner = .ok () := hvalues "iv" (by decide)
    exact .inl ⟨⟨hnames, (verdict_eq_ok_iff.mp hiv).1⟩, rfl⟩
  | error fault =>
    refine .inr ⟨fault, ?_, rfl⟩
    rcases amiss_of_verdict hv with ha | ⟨name, _, hf⟩
    · exact .inl ha
    · rw [outcome] at hf
      by_cases hi : name = "iv"
      · rw [if_pos hi] at hf
        rcases amiss_of_verdict hf with ha | ⟨_, _, hf⟩
        · exact .inr ha
        · cases hf
      · rw [if_neg hi] at hf
        cases hf

/-- A written phrase is laid out like that. -/
theorem object_write (p : SealedPhrase) : Object known (p.Right Iv.known) known p.write := by
  refine ⟨[], [writtenMember "ownerId" (writeText p.owner),
    writtenMember "cipher" (writeText p.cipher), writtenMember "iv" p.iv.write], isBlank_nil, ?_, ?_⟩
  · exact .cons (spellsText_writeText _)
      (.first (by decide) (by decide) (.owner (spellsText_writeText _)))
      (.cons (spellsText_writeText _)
        (.first (by decide) (by decide) (.cipher (spellsText_writeText _)))
        (.cons (spellsText_writeText _)
          (.first (by decide) (by decide) (.iv p.iv.object_write)) .nil))
  · simp [objectText, inside, joined, comma, text_writtenMember, write]

theorem read_write {p : SealedPhrase} (h : p.iv.sigBytes < wordLimit) : read p.write = .ok p := by
  have hread := read_object h (s := .bare p.write) p.object_write
  rw [Spaced.text_bare] at hread
  exact hread

end SealedPhrase
end PhraseVault
