import PhraseVault.Command.Dialogue
import PhraseVault.Proofs.Vault.Crowding

/-!
# How a dialogue comes out

A talk is gone through from question to question, with the lines that are typed. Over a directory that
houses a vault every command then ends with what it is for, or it fails and the vault keeps what it
had.
-/
namespace PhraseVault

namespace Dialogue
variable {α β γ : Type}

theorem bind_finished (d : Dialogue α) : d.bind finished = d := by
  induction d with
  | finished a => rfl
  | ask question next ih => simp only [bind, ih]

theorem bind_bind (d : Dialogue α) (f : α → Dialogue β) (g : β → Dialogue γ) :
    (d.bind f).bind g = d.bind fun a => (f a).bind g := by
  induction d with
  | finished a => rfl
  | ask question next ih => simp only [bind, ih]

instance : LawfulMonad Dialogue :=
  LawfulMonad.mk' Dialogue bind_finished (fun _ _ => rfl) bind_bind

end Dialogue

namespace Command
open Vault

section
variable {σ α β : Type} {s t : Session σ} {lines : List String}

/-- What a talk comes to when the given lines are typed. -/
def ending (talk : Talk σ α) (lines : List String) (s : Session σ) :
    Except Failure α × Session σ :=
  (talk.run.run s).answered lines

theorem ending_ask_cons (question line : String) (f : String → Talk σ β) :
    ending (ask question >>= f) (line :: lines) s = ending (f line) lines s := rfl

/-- A new password is asked for twice. -/
theorem ending_askNewPassword_bind (f : String → Talk σ β) :
    ending (askNewPassword >>= f) lines s =
      match lines with
      | password :: again :: rest =>
        if password = again then ending (f password) rest s else (.error .confirmationDiffers, s)
      | _ => (.error .unanswered, s) := by
  rw [askNewPassword]
  simp only [bind_assoc]
  match lines with
  | [] => rfl
  | [_] => rfl
  | password :: again :: rest =>
    rw [ending_ask_cons, ending_ask_cons]
    by_cases h : password = again
    · simp only [ne_eq, h, not_true_eq_false, if_true, if_false, pure_bind]
    · simp only [ne_eq, h, not_false_eq_true, if_true, if_false]
      rfl

variable [RecordStore σ] {act : Action α}

theorem ending_onVault_bind (f : α → Talk σ β) :
    ending (onVault act >>= f) lines s =
      match act.run.run s with
      | (.ok a, t) => ending (f a) lines t
      | (.error fault, t) => (.error (.vault fault), t) := by
  have hbind : (onVault act >>= f).run.run s =
      ExceptT.bindCont f ((act.run.run s).1.mapError Failure.vault) (act.run.run s).2 := rfl
  rw [ending, hbind]
  generalize act.run.run s = after
  obtain ⟨r, t⟩ := after
  cases r <;> rfl

end

/-- The lines that a command holds against the credential, or makes one of. -/
def entered (lines : List String) : Command → List String
  | verify | reveal _ | sealPhrase _ => lines.take 1
  | changePassword => lines.take 2
  | _ => []

/-- What a vault keeps once a command has been carried out. -/
def kept (lines ids : List String) (v : Option Contents) : Command → Option Contents
  | setPassword => some ⟨lines.headD "", phrasesOf v⟩
  | changePassword => v.map fun c => { c with password := lines.getD 1 "" }
  | sealPhrase owner => v.map fun c =>
    { c with phrases := c.phrases.insert (owner.getD (ids.headD "")) (lines.getD 1 "") }
  | remove owner => v.map fun c => { c with phrases := c.phrases.erase owner }
  | wipe true => none
  | _ => v

/-- The commands that take an owner's phrase away. -/
def Removes (owner : String) : Command → Prop
  | remove o => o = owner
  | wipe true => True
  | _ => False

/-- The commands that hold the first line against the credential. -/
def Demands : Command → Prop
  | verify | changePassword | sealPhrase _ | reveal _ => True
  | _ => False

/-- The commands that come to nothing: the password is set already, or the second entry differs from
the first, or the password that is demanded is not accepted, or wiping is not confirmed. -/
inductive Futile (f : FileStore) : Command → List String → Prop
  | passwordSet {lines : List String} {bytes : Bytes} (h : f.get Key.credential = .ok (some bytes)) :
    Futile f setPassword lines
  | settingDiffers {password again : String} {rest : List String} (h : password ≠ again) :
    Futile f setPassword (password :: again :: rest)
  | changingDiffers {current password again : String} {rest : List String} (h : password ≠ again) :
    Futile f changePassword (current :: password :: again :: rest)
  | notAccepted {c : Command} {password : String} {rest : List String} (hc : c.Demands)
    (h : f.accepts password = false) : Futile f c (password :: rest)
  | notConfirmed {lines : List String} : Futile f (wipe false) lines

/-- How a command ends over files: the vault keeps what it is to keep, or the command has failed and
the vault keeps what it had. -/
def Ends (c : Command) (lines : List String) (v : Option Contents) (s : Session FileStore)
    (r : Except Failure (List String)) (f : FileStore) : Prop :=
  match r with
  | .ok _ => Houses s.store.root f (c.kept lines s.ids v)
  | .error failure =>
    f = s.store ∨ failure = .vault (.io .nameTooLong) ∧ Houses s.store.root f v

section
variable {α : Type} {root : Path} {v : Option Contents} {s : Session FileStore} {c : Command}
variable {lines rest : List String} {act : Action α} {op : Operation} {g : α → Answer}

/-- A command that fails before it comes to the vault. -/
theorem ends_error (failure : Failure) : c.Ends lines v s (.error failure) s.store := .inl rfl

/-- A command that only looks. -/
theorem ends_of_sees (h : Houses root s.store v)
    (hop : op.Sees v s.store ((act.run.run s).1.map g) (act.run.run s).2.store)
    (hc : c.kept lines s.ids v = v) (out : α → List String) :
    c.Ends lines v s (ending (onVault act >>= fun a => pure (out a)) rest s).1
      (ending (onVault act >>= fun a => pure (out a)) rest s).2.store := by
  have hstore := hop.1
  rw [ending_onVault_bind]
  generalize act.run.run s = after at hstore
  obtain ⟨r, t⟩ := after
  cases r with
  | ok a =>
    show Houses s.store.root t.store (c.kept lines s.ids v)
    rw [hc, show t.store = s.store from hstore, h.root_eq]
    exact h
  | error fault => exact .inl hstore

/-- A command that comes down to one operation. -/
theorem ends_of_ends
    (hop : op.Ends v s.store ((act.run.run s).1.map g) (act.run.run s).2.store)
    (hc : op.refusal s.store.accepts v = none → op.effect v = c.kept lines s.ids v)
    (out : α → List String) :
    c.Ends lines v s (ending (onVault act >>= fun a => pure (out a)) rest s).1
      (ending (onVault act >>= fun a => pure (out a)) rest s).2.store := by
  rw [ending_onVault_bind]
  generalize act.run.run s = after at hop
  obtain ⟨r, t⟩ := after
  cases r with
  | ok a =>
    obtain ⟨hr, -, hhouses⟩ := hop.ok
    rw [hc hr] at hhouses
    exact hhouses
  | error fault =>
    refine hop.error.imp_right ?_
    rintro ⟨rfl, hhouses⟩
    exact ⟨rfl, hhouses⟩

section
variable (hop : op.Ends v s.store ((act.run.run s).1.map g) (act.run.run s).2.store)
include hop

theorem ending_of_refused {fault : Fault} (hr : op.refusal s.store.accepts v = some fault)
    (f : α → Talk FileStore (List String)) :
    ∃ t, ending (onVault act >>= f) rest s = (.error (.vault fault), t) ∧ t.store = s.store := by
  obtain ⟨he, hstore⟩ := hop.refused hr
  rw [ending_onVault_bind]
  generalize act.run.run s = after at he hstore
  obtain ⟨r, t⟩ := after
  cases r with
  | ok a => cases he
  | error fault' =>
    cases he
    exact ⟨t, rfl, hstore⟩

theorem not_refused_of_ending_ok {f : α → Talk FileStore (List String)} {out : List String}
    (hok : (ending (onVault act >>= f) rest s).1 = .ok out) :
    op.refusal s.store.accepts v = none := by
  cases hr : op.refusal s.store.accepts v with
  | none => rfl
  | some fault =>
    obtain ⟨t, he, -⟩ := ending_of_refused hop hr f
    rw [he] at hok
    cases hok

/-- With room for what it writes, an operation that is not refused succeeds. -/
theorem ending_of_room (hr : op.refusal s.store.accepts v = none) (hroom : ¬ op.Crowded v)
    (out : α → List String) :
    ∃ a, (ending (onVault act >>= fun a => pure (out a)) rest s).1 = .ok (out a) := by
  obtain ⟨a, ha⟩ := hop.of_room hr hroom
  rw [ending_onVault_bind]
  generalize act.run.run s = after at ha
  obtain ⟨r, t⟩ := after
  cases r with
  | ok b => exact ⟨b, rfl⟩
  | error fault => cases ha

end

/-- What comes after a password is verified. -/
theorem ending_demandVerified_bind {β : Type} (h : Houses root s.store v) (password : String)
    (f : Unit → Talk FileStore β) :
    ending (demandVerified password >>= f) lines s =
      if v.isNone then (.error (.vault .credentialNotSet), s)
      else if s.store.accepts password then ending (f ()) lines s
      else (.error .notVerified, s.record [.verificationFailed]) := by
  rw [demandVerified]
  simp only [bind_assoc]
  rw [ending_onVault_bind, h.run_verifyPassword]
  cases v with
  | none => rfl
  | some c =>
    cases s.store.accepts password with
    | false => rfl
    | true => rfl

theorem outcome_status : status.outcome lines s =
    ending (onVault Vault.state >>= fun state => pure [showState state]) lines s := rfl

theorem outcome_list : list.outcome lines s =
    ending (onVault Vault.owners >>= fun owners => pure owners) lines s := by
  rw [bind_pure]
  rfl

theorem outcome_remove (owner : String) : (remove owner).outcome lines s =
    ending (onVault (Vault.remove owner) >>= fun _ => pure [s!"removed {owner}"]) lines s := rfl

theorem outcome_wipe : (wipe true).outcome lines s =
    ending (onVault Vault.wipe >>= fun _ => pure ["vault wiped"]) lines s := rfl

theorem outcome_setPassword (h : Houses root s.store v) : setPassword.outcome lines s =
    if v.isSome then (.error .passwordAlreadySet, s)
    else match lines with
      | password :: again :: rest =>
        if password = again then
          ending (onVault (Vault.setPassword password) >>= fun _ => pure ["password set"]) rest s
        else (.error .confirmationDiffers, s)
      | _ => (.error .unanswered, s) := by
  have houtcome : setPassword.outcome lines s =
      ending Command.setPassword.perform lines s := rfl
  rw [houtcome, perform, ending_onVault_bind, h.run_hasPassword]
  cases v with
  | some c => rfl
  | none => exact ending_askNewPassword_bind _

theorem outcome_verify (h : Houses root s.store v) (password : String) :
    verify.outcome (password :: lines) s =
      if v.isNone then (.error (.vault .credentialNotSet), s)
      else if s.store.accepts password then (.ok ["password ok"], s)
      else (.error .notVerified, s.record [.verificationFailed]) :=
  ending_demandVerified_bind h password fun _ => pure ["password ok"]

theorem outcome_reveal (h : Houses root s.store v) (owner password : String) :
    (reveal owner).outcome (password :: lines) s =
      if v.isNone then (.error (.vault .credentialNotSet), s)
      else if s.store.accepts password then
        ending (onVault (Vault.reveal owner password) >>= fun text => pure [text]) lines s
      else (.error .notVerified, s.record [.verificationFailed]) :=
  ending_demandVerified_bind h password fun _ =>
    onVault (Vault.reveal owner password) >>= fun text => pure [text]

theorem outcome_changePassword : changePassword.outcome lines s =
    match lines with
    | current :: password :: again :: rest =>
      if password = again then
        ending (onVault (Vault.changePassword current password) >>= fun _ =>
          pure ["password changed"]) rest s
      else (.error .confirmationDiffers, s)
    | _ => (.error .unanswered, s) := by
  match lines with
  | [] => rfl
  | current :: lines =>
    have hask : changePassword.outcome (current :: lines) s =
        ending (askNewPassword >>= fun password =>
          onVault (Vault.changePassword current password) >>= fun _ =>
            pure ["password changed"]) lines s := rfl
    rw [hask, ending_askNewPassword_bind]
    match lines with
    | [] => rfl
    | [_] => rfl
    | _ :: _ :: _ => rfl

theorem outcome_sealPhrase (owner : Option String) : (sealPhrase owner).outcome lines s =
    match lines with
    | password :: phrase :: rest =>
      ending (onVault (match owner with
        | some owner => Vault.sealFor owner phrase password
        | none => Vault.sealNew phrase password) >>= fun p =>
          pure [s!"sealed phrase for {p.owner}"]) rest s
    | _ => (.error .unanswered, s) := by
  match lines with
  | [] => rfl
  | [_] => rfl
  | _ :: _ :: _ => rfl

theorem kept_eq_of_sealFor {owner phrase password : String} {lines ids : List String}
    {agrees : String → Bool} (o : Option String) (ho : o.getD (ids.headD "") = owner)
    (hr : (Operation.sealFor owner phrase password).refusal agrees v = none) :
    (Operation.sealFor owner phrase password).effect v =
      (Command.sealPhrase o).kept (password :: phrase :: lines) ids v := by
  obtain ⟨c, rfl, -, hn⟩ := Operation.sealFor_of_not_refused hr
  have hphrases : c.phrases.insertIfNew owner phrase = c.phrases.insert owner phrase := by
    refine Std.ExtTreeMap.ext_getElem? fun other => ?_
    rw [Records.getElem?_insertIfNew, Records.getElem?_insert]
    by_cases he : owner = other
    · rw [if_pos ⟨he, hn⟩, if_pos he]
    · rw [if_neg fun hi => he hi.1, if_neg he]
  subst ho
  simp only [Operation.effect, kept, Option.map_some, hphrases]
  rfl

/-- Whatever is typed, a command ends with what it is for or keeps what the vault had. -/
theorem ends_outcome (h : Houses root s.store v) (hf : Fair s.store v (c.entered lines)) :
    c.Ends lines v s (c.outcome lines s).1 (c.outcome lines s).2.store := by
  cases c with
  | status =>
    rw [outcome_status]
    exact ends_of_sees h h.sees_state rfl fun state => [showState state]
  | list =>
    rw [outcome_list]
    exact ends_of_sees h h.sees_owners rfl id
  | setPassword =>
    rw [outcome_setPassword h]
    cases v with
    | some c => exact ends_error _
    | none =>
      match lines with
      | [] | [_] => exact ends_error _
      | password :: again :: rest =>
        simp only [Option.isSome_none, Bool.false_eq_true, if_false]
        split
        · exact ends_of_ends (h.ends_setPassword password) (fun _ => rfl) fun _ => ["password set"]
        · exact ends_error _
  | verify =>
    match lines with
    | [] => exact ends_error _
    | password :: rest =>
      rw [outcome_verify h]
      split
      · exact ends_error _
      · split
        · show Houses s.store.root s.store v
          rw [h.root_eq]
          exact h
        · exact ends_error _
  | changePassword =>
    rw [outcome_changePassword]
    match lines, hf with
    | [], _ | [_], _ | [_, _], _ => exact ends_error _
    | current :: password :: again :: rest, hf =>
      simp only []
      split
      · exact ends_of_ends (h.ends_changePassword hf) (fun _ => rfl) fun _ => ["password changed"]
      · exact ends_error _
  | sealPhrase owner =>
    rw [outcome_sealPhrase]
    match lines, hf with
    | [], _ | [_], _ => exact ends_error _
    | password :: phrase :: rest, hf =>
      cases owner with
      | none =>
        exact ends_of_ends (h.ends_sealNew hf) (kept_eq_of_sealFor none rfl)
          fun p => [s!"sealed phrase for {p.owner}"]
      | some owner =>
        exact ends_of_ends (h.ends_sealFor hf) (kept_eq_of_sealFor (some owner) rfl)
          fun p => [s!"sealed phrase for {p.owner}"]
  | reveal owner =>
    match lines, hf with
    | [], _ => exact ends_error _
    | password :: rest, hf =>
      rw [outcome_reveal h]
      split
      · exact ends_error _
      · split
        · exact ends_of_sees h (h.sees_reveal hf) rfl fun text => [text]
        · exact ends_error _
  | remove owner =>
    rw [outcome_remove]
    exact ends_of_ends (h.ends_remove owner) (fun _ => rfl) fun _ => [s!"removed {owner}"]
  | wipe confirmed =>
    cases confirmed with
    | false => exact ends_error _
    | true =>
      rw [outcome_wipe]
      exact ends_of_ends h.ends_wipe (fun _ => rfl) fun _ => ["vault wiped"]

/-- Where the password that is demanded is not accepted, a command fails and changes no file. -/
theorem outcome_of_not_accepts {password : String} (h : Houses root s.store v)
    (hf : Fair s.store v (c.entered (password :: rest))) (hc : c.Demands)
    (ha : s.store.accepts password = false) :
    ∃ failure t, c.outcome (password :: rest) s = (.error failure, t) ∧ t.store = s.store := by
  cases c with
  | verify =>
    rw [outcome_verify h, if_neg (Bool.eq_false_iff.mp ha)]
    split <;> exact ⟨_, _, rfl, rfl⟩
  | reveal owner =>
    rw [outcome_reveal h, if_neg (Bool.eq_false_iff.mp ha)]
    split <;> exact ⟨_, _, rfl, rfl⟩
  | changePassword =>
    rw [outcome_changePassword]
    match rest, hf with
    | [], _ | [_], _ => exact ⟨_, _, rfl, rfl⟩
    | new :: again :: rest, hf =>
      simp only []
      split
      · obtain ⟨fault, hr⟩ := Operation.changePassword_refused ha v new
        exact ⟨_, ending_of_refused (h.ends_changePassword hf) hr _⟩
      · exact ⟨_, _, rfl, rfl⟩
  | sealPhrase owner =>
    rw [outcome_sealPhrase]
    match rest, hf with
    | [], _ => exact ⟨_, _, rfl, rfl⟩
    | phrase :: rest, hf =>
      cases owner with
      | none =>
        obtain ⟨fault, hr⟩ := Operation.sealFor_refused ha v (s.ids.headD "") phrase
        exact ⟨_, ending_of_refused (h.ends_sealNew hf) hr _⟩
      | some owner =>
        obtain ⟨fault, hr⟩ := Operation.sealFor_refused ha v owner phrase
        exact ⟨_, ending_of_refused (h.ends_sealFor hf) hr _⟩
  | status | list | setPassword | remove _ | wipe _ => exact hc.elim

/-- A command that comes to nothing fails and changes no file. -/
theorem outcome_of_futile (h : Houses root s.store v) (hf : Fair s.store v (c.entered lines))
    (hc : Futile s.store c lines) :
    ∃ failure t, c.outcome lines s = (.error failure, t) ∧ t.store = s.store := by
  cases hc with
  | passwordSet hget =>
    have hv : v.isSome := by
      obtain ⟨-, y, hholds, -, hv⟩ := h
      rw [← hv.isSome_credential, Except.ok.inj ((hholds.get (by decide)).symm.trans hget)]
      rfl
    rw [outcome_setPassword h, if_pos hv]
    exact ⟨_, _, rfl, rfl⟩
  | settingDiffers hne =>
    rw [outcome_setPassword h]
    split
    · exact ⟨_, _, rfl, rfl⟩
    · simp only [if_neg hne]
      exact ⟨_, _, rfl, rfl⟩
  | changingDiffers hne =>
    rw [outcome_changePassword]
    simp only [if_neg hne]
    exact ⟨_, _, rfl, rfl⟩
  | notAccepted hdemands ha => exact outcome_of_not_accepts h hf hdemands ha
  | notConfirmed => exact ⟨_, _, rfl, rfl⟩

/-- A phrase is sealed only for an owner that has none. -/
theorem of_outcome_sealPhrase_ok {o : Option String} {out : List String}
    (h : Houses root s.store v) (hf : Fair s.store v ((sealPhrase o).entered lines))
    (hok : ((sealPhrase o).outcome lines s).1 = .ok out) :
    ∃ password text rest c, lines = password :: text :: rest ∧ v = some c ∧
      o.getD (s.ids.headD "") ∉ c.phrases := by
  rw [outcome_sealPhrase] at hok
  match lines, hf with
  | [], _ | [_], _ => cases hok
  | password :: text :: rest, hf =>
    have hr : (Operation.sealFor (o.getD (s.ids.headD "")) text password).refusal
        s.store.accepts v = none := by
      cases o with
      | none => exact not_refused_of_ending_ok (h.ends_sealNew hf) hok
      | some owner => exact not_refused_of_ending_ok (h.ends_sealFor hf) hok
    obtain ⟨c, hv, -, hn⟩ := Operation.sealFor_of_not_refused hr
    exact ⟨password, text, rest, c, rfl, hv, hn⟩

/-- A phrase that is kept stays until its owner is removed or the vault is wiped. -/
theorem phrase_kept {owner text : String} {out : List String} (h : Houses root s.store v)
    (hf : Fair s.store v (c.entered lines)) (hok : (c.outcome lines s).1 = .ok out)
    (ht : (phrasesOf v)[owner]? = some text) (hc : ¬ c.Removes owner) :
    (phrasesOf (c.kept lines s.ids v))[owner]? = some text := by
  cases c with
  | sealPhrase o =>
    obtain ⟨password, phrase, rest, c, rfl, rfl, hn⟩ := of_outcome_sealPhrase_ok h hf hok
    -- the owner of a phrase that is kept is not one that could be sealed for
    have hne : o.getD (s.ids.headD "") ≠ owner := by
      rintro rfl
      exact hn (Std.ExtTreeMap.mem_iff_isSome_getElem?.mpr (Option.isSome_of_eq_some ht))
    simp only [kept, Option.map_some, phrasesOf]
    rw [Records.getElem?_insert, if_neg hne]
    exact ht
  | remove o =>
    cases v with
    | none => exact ht
    | some c =>
      simp only [kept, Option.map_some, phrasesOf]
      rw [Records.getElem?_erase, if_neg (show ¬ o = owner from hc)]
      exact ht
  | changePassword =>
    cases v <;> exact ht
  | wipe confirmed =>
    cases confirmed with
    | false => exact ht
    | true => exact absurd trivial hc
  | status | setPassword | verify | reveal _ | list => exact ht

/-- A first password is set when it is typed twice and is not empty. -/
theorem outcome_setPassword_ok {password : String} (h : Houses root s.store none)
    (hp : password ≠ "") :
    (setPassword.outcome (password :: password :: rest) s).1 = .ok ["password set"] := by
  have hr : (Operation.setPassword password).refusal s.store.accepts none = none := by
    simp [Operation.refusal, phrasesOf, hp]
  rw [outcome_setPassword h]
  simp only [Option.isSome_none, Bool.false_eq_true, if_false, if_true]
  obtain ⟨_, hok⟩ :=
    ending_of_room (h.ends_setPassword password) hr (fun hc => hc) fun _ => ["password set"]
  exact hok

/-- A phrase is sealed for an owner that has none and takes no more room than there is. -/
theorem outcome_sealPhrase_ok {owner phrase password : String} {c : Contents}
    (h : Houses root s.store (some c)) (hf : Fair s.store (some c) [password]) (ho : owner ≠ "")
    (hb : isBlank phrase = false) (ha : s.store.accepts password = true) (hn : owner ∉ c.phrases)
    (hfits : Fits (Key.phrase owner)) :
    ∃ out, ((sealPhrase (some owner)).outcome (password :: phrase :: rest) s).1 = .ok out := by
  have hr : (Operation.sealFor owner phrase password).refusal s.store.accepts (some c) = none := by
    simp [Operation.refusal, phrasesOf, ho, hb, ha, hn]
  obtain ⟨p, hok⟩ := ending_of_room (h.ends_sealFor hf) hr (not_not_intro hfits)
    fun p => [s!"sealed phrase for {p.owner}"]
  exact ⟨_, hok⟩

/-- Whoever has a password that is accepted is shown the phrase. -/
theorem outcome_reveal_of_accepts {owner password text : String} (h : Houses root s.store v)
    (hf : Fair s.store v [password]) (ht : (phrasesOf v)[owner]? = some text)
    (ha : s.store.accepts password = true) :
    ((reveal owner).outcome (password :: lines) s).1 = .ok [text] := by
  obtain ⟨t, hrun, -⟩ := h.run_reveal_of_accepts hf ht ha
  rw [outcome_reveal h, if_pos ha, ending_onVault_bind, hrun]
  cases v with
  | none => simp [phrasesOf] at ht
  | some c => rfl

theorem outcome_reveal_of_not_accepts {owner password text : String} (h : Houses root s.store v)
    (ht : (phrasesOf v)[owner]? = some text) (ha : s.store.accepts password = false) :
    (reveal owner).outcome (password :: lines) s =
      (.error .notVerified, s.record [.verificationFailed]) := by
  rw [outcome_reveal h, if_neg (Bool.eq_false_iff.mp ha)]
  cases v with
  | none => simp [phrasesOf] at ht
  | some c => rfl

end

end Command
end PhraseVault
