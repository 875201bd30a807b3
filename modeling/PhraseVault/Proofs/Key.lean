import PhraseVault.Record.Key
import PhraseVault.Store.Basic
import Mathlib.Data.List.Sort
import Mathlib.Data.String.Basic

/-!
# Keys of different kinds are different, and owners are listed in order
-/
namespace PhraseVault.Key

theorem phraseOwner?_eq_some {key owner : String} :
    phraseOwner? key = some owner ↔ key = phrase owner := by
  constructor
  · intro h
    obtain ⟨cs, hcs, rfl⟩ := Option.map_eq_some_iff.mp h
    rw [phrase, String.toList_ofList, ← after?_eq_some_iff.mp hcs, String.ofList_toList]
  · rintro rfl
    exact phraseOwner?_phrase owner

theorem stagedOwner?_eq_some {key owner : String} :
    stagedOwner? key = some owner ↔ key = stagedPhrase owner := by
  constructor
  · intro h
    obtain ⟨cs, hcs, rfl⟩ := Option.map_eq_some_iff.mp h
    rw [stagedPhrase, String.toList_ofList, ← after?_eq_some_iff.mp hcs, String.ofList_toList]
  · rintro rfl
    exact stagedOwner?_stagedPhrase owner

private theorem phraseMark_eq : phraseMark = ['s', 'e', 'c', 'r', 'e', 't', ':'] := rfl

private theorem stagedPhraseMark_eq : stagedPhraseMark =
    ['p', 'e', 'n', 'd', 'i', 'n', 'g', ':', 's', 'e', 'c', 'r', 'e', 't', ':'] := rfl

private theorem credential_toList :
    credential.toList = ['c', 'r', 'e', 'd', 'e', 'n', 't', 'i', 'a', 'l'] := rfl

private theorem stagedCredential_toList : stagedCredential.toList = ['p', 'e', 'n', 'd', 'i', 'n',
    'g', ':', 'c', 'r', 'e', 'd', 'e', 'n', 't', 'i', 'a', 'l'] := rfl

@[simp] theorem phraseOwner?_credential : phraseOwner? credential = none := by
  rw [phraseOwner?, credential_toList, phraseMark_eq]
  rfl

@[simp] theorem phraseOwner?_stagedCredential : phraseOwner? stagedCredential = none := by
  rw [phraseOwner?, stagedCredential_toList, phraseMark_eq]
  rfl

@[simp] theorem phraseOwner?_stagedPhrase (owner : String) :
    phraseOwner? (stagedPhrase owner) = none := by
  simp [phraseOwner?, stagedPhrase, phraseMark_eq, stagedPhraseMark_eq, after?]

@[simp] theorem stagedOwner?_credential : stagedOwner? credential = none := by
  rw [stagedOwner?, credential_toList, stagedPhraseMark_eq]
  rfl

@[simp] theorem stagedOwner?_stagedCredential : stagedOwner? stagedCredential = none := by
  rw [stagedOwner?, stagedCredential_toList, stagedPhraseMark_eq]
  rfl

@[simp] theorem stagedOwner?_phrase (owner : String) : stagedOwner? (phrase owner) = none := by
  simp [stagedOwner?, phrase, phraseMark_eq, stagedPhraseMark_eq, after?]

@[simp] theorem phrase_inj {a b : String} : phrase a = phrase b ↔ a = b := by
  constructor
  · intro h
    exact Option.some.inj (by rw [← phraseOwner?_phrase a, h, phraseOwner?_phrase])
  · rintro rfl
    rfl

@[simp] theorem stagedPhrase_inj {a b : String} : stagedPhrase a = stagedPhrase b ↔ a = b := by
  constructor
  · intro h
    exact Option.some.inj (by rw [← stagedOwner?_stagedPhrase a, h, stagedOwner?_stagedPhrase])
  · rintro rfl
    rfl

@[simp] theorem credential_ne_stagedCredential : credential ≠ stagedCredential := by decide

@[simp] theorem stagedCredential_ne_credential : stagedCredential ≠ credential := by decide

@[simp] theorem phrase_ne_credential (owner : String) : phrase owner ≠ credential := by
  intro h
  have := phraseOwner?_phrase owner
  simp [h] at this

@[simp] theorem credential_ne_phrase (owner : String) : credential ≠ phrase owner :=
  (phrase_ne_credential owner).symm

@[simp] theorem phrase_ne_stagedCredential (owner : String) : phrase owner ≠ stagedCredential := by
  intro h
  have := phraseOwner?_phrase owner
  simp [h] at this

@[simp] theorem stagedCredential_ne_phrase (owner : String) : stagedCredential ≠ phrase owner :=
  (phrase_ne_stagedCredential owner).symm

@[simp] theorem stagedPhrase_ne_credential (owner : String) : stagedPhrase owner ≠ credential := by
  intro h
  have := stagedOwner?_stagedPhrase owner
  simp [h] at this

@[simp] theorem credential_ne_stagedPhrase (owner : String) : credential ≠ stagedPhrase owner :=
  (stagedPhrase_ne_credential owner).symm

@[simp] theorem stagedPhrase_ne_stagedCredential (owner : String) :
    stagedPhrase owner ≠ stagedCredential := by
  intro h
  have := stagedOwner?_stagedPhrase owner
  simp [h] at this

@[simp] theorem stagedCredential_ne_stagedPhrase (owner : String) :
    stagedCredential ≠ stagedPhrase owner :=
  (stagedPhrase_ne_stagedCredential owner).symm

@[simp] theorem phrase_ne_stagedPhrase (a b : String) : phrase a ≠ stagedPhrase b := by
  intro h
  have := phraseOwner?_phrase a
  simp [h] at this

@[simp] theorem stagedPhrase_ne_phrase (a b : String) : stagedPhrase a ≠ phrase b :=
  (phrase_ne_stagedPhrase b a).symm

theorem phrase_ne_empty (owner : String) : phrase owner ≠ "" := by
  intro h
  have := congrArg String.toList h
  simp [phrase, phraseMark_eq] at this

theorem stagedPhrase_ne_empty (owner : String) : stagedPhrase owner ≠ "" := by
  intro h
  have := congrArg String.toList h
  simp [stagedPhrase, stagedPhraseMark_eq] at this

/-- The key of a record of a rotation in progress. -/
def IsPending (key : String) : Prop := "pending:".toList <+: key.toList

private theorem pendingMark_eq :
    "pending:".toList = ['p', 'e', 'n', 'd', 'i', 'n', 'g', ':'] := rfl

theorem isPending_stagedCredential : IsPending stagedCredential := by
  rw [IsPending, pendingMark_eq, stagedCredential_toList]
  exact ⟨['c', 'r', 'e', 'd', 'e', 'n', 't', 'i', 'a', 'l'], rfl⟩

theorem isPending_stagedPhrase (owner : String) : IsPending (stagedPhrase owner) := by
  rw [IsPending, pendingMark_eq, stagedPhrase, String.toList_ofList, stagedPhraseMark_eq]
  exact ⟨['s', 'e', 'c', 'r', 'e', 't', ':'] ++ owner.toList, rfl⟩

theorem not_isPending_credential : ¬ IsPending credential := by
  rw [IsPending, pendingMark_eq, credential_toList]
  decide

theorem not_isPending_phrase (owner : String) : ¬ IsPending (phrase owner) := by
  rw [IsPending, pendingMark_eq, phrase, String.toList_ofList, phraseMark_eq, List.cons_append,
    List.cons_prefix_cons]
  exact fun h => absurd h.1 (by decide)

/-- A key that settling a rotation leaves alone. -/
def IsPlain (key : String) : Prop :=
  key ≠ stagedCredential ∧ (∀ owner, key ≠ phrase owner) ∧ ∀ owner, key ≠ stagedPhrase owner

theorem isPlain_credential : IsPlain credential := by simp [IsPlain]

inductive Kind : String → Prop where
  | stagedCredential : Kind stagedCredential
  | stagedPhrase (owner : String) : Kind (stagedPhrase owner)
  | phrase (owner : String) : Kind (phrase owner)
  | plain {key : String} (h : IsPlain key) : Kind key

theorem kind (key : String) : Kind key := by
  by_cases hc : key = stagedCredential
  · rw [hc]
    exact .stagedCredential
  by_cases hp : ∃ owner, key = phrase owner
  · obtain ⟨owner, rfl⟩ := hp
    exact .phrase owner
  by_cases hs : ∃ owner, key = stagedPhrase owner
  · obtain ⟨owner, rfl⟩ := hs
    exact .stagedPhrase owner
  exact .plain ⟨hc, not_exists.mp hp, not_exists.mp hs⟩

theorem phrase_lt_phrase {a b : String} : phrase a < phrase b ↔ a < b := by
  rw [String.lt_iff_toList_lt, String.lt_iff_toList_lt, phrase, phrase, String.toList_ofList,
    String.toList_ofList]
  simp [phraseMark_eq]

end PhraseVault.Key

namespace PhraseVault.Records
variable {β : Type}

theorem getElem?_insert (r : Std.ExtTreeMap String β) (key other : String) (value : β) :
    (r.insert key value)[other]? = if key = other then some value else r[other]? := by
  rw [Std.ExtTreeMap.getElem?_insert]
  simp only [Std.compare_eq_iff_eq]

theorem getElem?_insertIfNew (r : Std.ExtTreeMap String β) (key other : String) (value : β) :
    (r.insertIfNew key value)[other]? = if key = other ∧ key ∉ r then some value else r[other]? := by
  rw [Std.ExtTreeMap.getElem?_insertIfNew]
  simp only [Std.compare_eq_iff_eq]

theorem getElem?_erase (r : Std.ExtTreeMap String β) (key other : String) :
    (r.erase key)[other]? = if key = other then none else r[other]? := by
  rw [Std.ExtTreeMap.getElem?_erase]
  simp only [Std.compare_eq_iff_eq]

theorem getElem?_eq_none_iff {r : Std.ExtTreeMap String β} {key : String} : r[key]? = none ↔ key ∉ r := by
  rw [Std.ExtTreeMap.mem_iff_isSome_getElem?, Bool.not_eq_true, Option.isSome_eq_false_iff,
    Option.isNone_iff_eq_none]

theorem getElem?_ne_none_iff {r : Std.ExtTreeMap String β} {key : String} : r[key]? ≠ none ↔ key ∈ r := by
  rw [ne_eq, getElem?_eq_none_iff, not_not]

theorem mem_of_getElem? {r : Std.ExtTreeMap String β} {key : String} {value : β}
    (h : r[key]? = some value) : key ∈ r := by
  rw [← getElem?_ne_none_iff, h]
  exact Option.some_ne_none value

theorem erase_eq_self {r : Std.ExtTreeMap String β} {key : String} (h : key ∉ r) :
    r.erase key = r := by
  refine Std.ExtTreeMap.ext_getElem? fun other => ?_
  rw [getElem?_erase]
  split
  · next he => rw [← he, getElem?_eq_none_iff.mpr h]
  · rfl

/-- The owners whose phrases are in the records, as they are listed. -/
def owners (r : Records) : List String := r.keys.filterMap Key.phraseOwner?

theorem mem_owners {r : Records} {owner : String} : owner ∈ owners r ↔ Key.phrase owner ∈ r := by
  simp only [owners, List.mem_filterMap, Std.ExtTreeMap.mem_keys, Key.phraseOwner?_eq_some]
  constructor
  · rintro ⟨key, hk, rfl⟩
    exact hk
  · intro h
    exact ⟨_, h, rfl⟩

theorem pairwise_keys (r : Std.ExtTreeMap String β) : r.keys.Pairwise (· < ·) := by
  refine r.ordered_keys.imp ?_
  intro a b h
  exact (compareOfLessAndEq_eq_lt).mp h

theorem pairwise_owners (r : Records) : (owners r).Pairwise (· < ·) := by
  refine (pairwise_keys r).filterMap _ ?_
  intro a b hab x hx y hy
  rw [Key.phraseOwner?_eq_some.mp hx, Key.phraseOwner?_eq_some.mp hy] at hab
  exact Key.phrase_lt_phrase.mp hab

/-- Which phrases there are decides how their owners are listed. -/
theorem owners_congr {r r' : Records} (h : ∀ owner, Key.phrase owner ∈ r ↔ Key.phrase owner ∈ r') :
    owners r = owners r' := by
  refine (pairwise_owners r).eq_of_mem_iff (pairwise_owners r') fun owner => ?_
  rw [mem_owners, mem_owners, h]

end PhraseVault.Records
