/-!
# Record keys

The credential has one key and every owner's phrase has one. A password rotation stages its records
under the same keys behind a mark.
-/
namespace PhraseVault.Key

def credential : String := "credential"

def phraseMark : List Char := "secret:".toList

def stagedCredential : String := "pending:credential"

def stagedPhraseMark : List Char := "pending:secret:".toList

def phrase (owner : String) : String := String.ofList (phraseMark ++ owner.toList)

def stagedPhrase (owner : String) : String := String.ofList (stagedPhraseMark ++ owner.toList)

/-- What follows a mark at the front of a text. -/
def after? : (mark : List Char) → List Char → Option (List Char)
  | [], cs => some cs
  | _ :: _, [] => none
  | m :: mark, c :: cs => if m = c then after? mark cs else none

def phraseOwner? (key : String) : Option String := (after? phraseMark key.toList).map String.ofList

def stagedOwner? (key : String) : Option String :=
  (after? stagedPhraseMark key.toList).map String.ofList

theorem after?_append (mark cs : List Char) : after? mark (mark ++ cs) = some cs := by
  induction mark with
  | nil => rfl
  | cons m mark ih => simp [after?, ih]

theorem after?_eq_some_iff {mark s cs : List Char} : after? mark s = some cs ↔ s = mark ++ cs := by
  constructor
  · intro h
    induction mark generalizing s with
    | nil => simpa [after?] using h
    | cons m mark ih =>
      cases s with
      | nil => simp [after?] at h
      | cons c s =>
        simp only [after?] at h
        split at h
        · next hm => rw [hm, ih h]; rfl
        · cases h
  · rintro rfl
    exact after?_append mark cs

@[simp] theorem phraseOwner?_phrase (owner : String) :
    phraseOwner? (phrase owner) = some owner := by
  simp [phraseOwner?, phrase, after?_append]

@[simp] theorem stagedOwner?_stagedPhrase (owner : String) :
    stagedOwner? (stagedPhrase owner) = some owner := by
  simp [stagedOwner?, stagedPhrase, after?_append]

end PhraseVault.Key
