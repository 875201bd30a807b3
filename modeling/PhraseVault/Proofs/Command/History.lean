import PhraseVault.Command.Invocation
import PhraseVault.Proofs.Command.Talking

/-!
# Histories of a directory

The program is run again and again over one directory of records, empty at first. What the runs that
have succeeded sealed is what a later one reveals.
-/
namespace PhraseVault.Command
open Vault

/-- All that a run depends on besides the files. -/
structure Invocation where
  surroundings : Surroundings
  arguments : List String
  lines : List String
  entropy : Entropy
  ids : List String

/-- What a run prints, each line with a newline. -/
def Report.printed (r : Report) : String := String.join (r.output.map (· ++ "\n"))

namespace Invocation
variable (i : Invocation) (files : FileSystem)

def run : Report × FileSystem :=
  let (report, w) := invoke i.surroundings i.arguments i.lines ⟨files, i.entropy, i.ids⟩
  (report, w.files)

def command? : Option Command :=
  match readArguments i.surroundings.fallbacks i.arguments with
  | .ok (.run _ c) => some c
  | _ => none

/-- The settings of a run, if they can be read. -/
def settings? : Option Settings :=
  match readArguments i.surroundings.fallbacks i.arguments with
  | .ok (.run options _) =>
    (settings i.surroundings options
      ((settingsPath i.surroundings options).bind files.content?)).toOption
  | _ => none

/-- A command begins over the directory that the settings name. -/
def opening (st : Settings) : Session FileStore :=
  session st (FileStore.mk st.dataDir files) i.entropy i.ids

def entered : List String := (i.command?.map fun c => c.entered i.lines).getD []

/-- What a vault keeps after a run. -/
def keeps (v : Option Contents) (report : Report) : Option Contents :=
  match i.command? with
  | some c => if report.exitCode = 0 then c.kept i.lines i.ids v else v
  | none => v

/-- An invocation whose settings can be read and name the directory. What is entered and accepted by
the credential derives the key of the phrases. -/
structure Proper (root : Path) (files : FileSystem) (v : Option Contents) : Prop where
  loads : ∀ c, i.command? = some c → ∃ st, i.settings? files = some st ∧ st.dataDir = root
  fair : Fair (FileStore.mk root files) v i.entered

variable {i files} {root : Path} {v : Option Contents} {c : Command} {st : Settings}

theorem run_of_no_command (h : i.command? = none) : (i.run files).2 = files := by
  rw [command?] at h
  rw [run, invoke]
  generalize readArguments i.surroundings.fallbacks i.arguments = request at h
  match request with
  | .error _ | .ok .help | .ok .version => rfl
  | .ok (.run _ _) => cases h

theorem run_of_command (hc : i.command? = some c) (hs : i.settings? files = some st) :
    i.run files = (reportOf (filterOf i.surroundings st) (c.outcome i.lines (i.opening files st)).2.log
      (c.outcome i.lines (i.opening files st)).1,
        (c.outcome i.lines (i.opening files st)).2.store.files) := by
  rw [command?] at hc
  rw [settings?] at hs
  rw [run, invoke]
  generalize readArguments i.surroundings.fallbacks i.arguments = request at hc hs
  match request with
  | .error _ | .ok .help | .ok .version => cases hc
  | .ok (.run options _) =>
    cases hc
    simp only [] at hs ⊢
    generalize settings i.surroundings options _ = loaded at hs
    cases loaded with
    | error _ => cases hs
    | ok _ =>
      cases hs
      rfl

/-- A run succeeds when its command does. -/
theorem exists_ok_of_exitCode (hc : i.command? = some c) (hs : i.settings? files = some st)
    (h : (i.run files).1.exitCode = 0) :
    ∃ out, (c.outcome i.lines (i.opening files st)).1 = .ok out := by
  rw [run_of_command hc hs] at h
  generalize (c.outcome i.lines (i.opening files st)).1 = r at h
  cases r with
  | ok out => exact ⟨out, rfl⟩
  | error _ => cases h

theorem exitCode_of_ok (hc : i.command? = some c) (hs : i.settings? files = some st)
    {out : List String} (h : (c.outcome i.lines (i.opening files st)).1 = .ok out) :
    (i.run files).1.exitCode = 0 := by
  rw [run_of_command hc hs, h]
  rfl

theorem keeps_of_ok (hc : i.command? = some c) {report : Report} (h : report.exitCode = 0) :
    i.keeps v report = c.kept i.lines i.ids v := by
  rw [keeps, hc]
  exact if_pos h

theorem keeps_of_not_ok {report : Report} (h : report.exitCode ≠ 0) : i.keeps v report = v := by
  rw [keeps]
  cases i.command? with
  | none => rfl
  | some c => exact if_neg h

theorem Proper.fair_entered (hi : i.Proper root files v) (hc : i.command? = some c) :
    Fair (FileStore.mk root files) v (c.entered i.lines) := by
  have hfair := hi.fair
  rwa [entered, hc] at hfair

/-- A run leaves the directory with what the vault is to keep after it. -/
theorem houses_run (h : Houses root (FileStore.mk root files) v) (hi : i.Proper root files v) :
    Houses root (FileStore.mk root (i.run files).2) (i.keeps v (i.run files).1) := by
  cases hc : i.command? with
  | none =>
    rw [run_of_no_command hc, keeps, hc]
    exact h
  | some c =>
    obtain ⟨st, hs, rfl⟩ := hi.loads c hc
    have hends := ends_outcome (s := i.opening files st) h (hi.fair_entered hc)
    -- the files that are left are those of a store with the same root
    have hroot : ∀ {f : FileStore} {v}, Houses st.dataDir f v →
        Houses st.dataDir (FileStore.mk st.dataDir f.files) v := by
      intro f v hf
      have he : FileStore.mk st.dataDir f.files = f := by rw [← hf.root_eq]
      rwa [he]
    rw [run_of_command hc hs]
    generalize c.outcome i.lines (i.opening files st) = after at hends ⊢
    obtain ⟨r, t⟩ := after
    cases r with
    | ok out =>
      rw [keeps_of_ok hc rfl]
      exact hroot hends
    | error failure =>
      rw [keeps_of_not_ok (show (1 : Nat) ≠ 0 from one_ne_zero)]
      rcases hends with hstore | ⟨-, hhouses⟩
      · exact hroot (hstore ▸ h)
      · exact hroot hhouses

end Invocation

/-- The files that runs over a directory at first empty can leave, and what the vault then keeps. -/
inductive History (root : Path) : FileSystem → Option Contents → Prop
  | start {files : FileSystem} (h : (FileStore.mk root files).Holds ∅) : History root files none
  | step {files : FileSystem} {v : Option Contents} (h : History root files v) (i : Invocation)
    (hi : i.Proper root files v) : History root (i.run files).2 (i.keeps v (i.run files).1)

theorem History.houses {root : Path} {files : FileSystem} {v : Option Contents}
    (h : History root files v) : Houses root (FileStore.mk root files) v := by
  induction h with
  | start h => exact .empty h
  | step _ i hi ih => exact i.houses_run ih hi

namespace Invocation
variable {i : Invocation} {files : FileSystem} {root : Path} {v : Option Contents}

theorem phrase_keeps (h : Houses root (FileStore.mk root files) v) (hi : i.Proper root files v)
    {owner text : String} (ht : (phrasesOf v)[owner]? = some text)
    (hremoves : ∀ c, i.command? = some c → ¬ c.Removes owner) :
    (phrasesOf (i.keeps v (i.run files).1))[owner]? = some text := by
  by_cases hexit : (i.run files).1.exitCode = 0
  · cases hc : i.command? with
    | none =>
      rw [keeps, hc]
      exact ht
    | some c =>
      obtain ⟨st, hs, rfl⟩ := hi.loads c hc
      obtain ⟨out, hok⟩ := exists_ok_of_exitCode hc hs hexit
      rw [keeps_of_ok hc hexit]
      exact phrase_kept (s := i.opening files st) h (hi.fair_entered hc) hok ht (hremoves c hc)
  · rwa [keeps_of_not_ok hexit]

theorem phrase_sealed (h : Houses root (FileStore.mk root files) v) (hi : i.Proper root files v)
    {owner : Option String} (hc : i.command? = some (.sealPhrase owner))
    (hexit : (i.run files).1.exitCode = 0) :
    ∃ password text rest, i.lines = password :: text :: rest ∧
      (phrasesOf (i.keeps v (i.run files).1))[owner.getD (i.ids.headD "")]? = some text := by
  obtain ⟨st, hs, rfl⟩ := hi.loads _ hc
  obtain ⟨out, hok⟩ := exists_ok_of_exitCode hc hs hexit
  obtain ⟨password, text, rest, c, hlines, rfl, -⟩ :=
    of_outcome_sealPhrase_ok (s := i.opening files st) h (hi.fair_entered hc) hok
  refine ⟨password, text, rest, hlines, ?_⟩
  rw [keeps_of_ok hc hexit, hlines]
  simp only [kept, Option.map_some, phrasesOf]
  rw [Records.getElem?_insert, if_pos rfl]
  rfl

section Reveal
variable {owner text line : String} {rest : List String}
variable (h : Houses root (FileStore.mk root files) v) (hi : i.Proper root files v)
variable (hc : i.command? = some (.reveal owner)) (ht : (phrasesOf v)[owner]? = some text)
include h hi hc ht

theorem run_reveal_of_accepts (hl : i.lines = line :: rest)
    (ha : (FileStore.mk root files).accepts line = true) :
    (i.run files).1.exitCode = 0 ∧ (i.run files).1.printed = text ++ "\n" := by
  obtain ⟨st, hs, rfl⟩ := hi.loads _ hc
  have hfair := hi.fair_entered hc
  rw [hl] at hfair
  have hok : ((reveal owner).outcome (line :: rest) (i.opening files st)).1 = .ok [text] :=
    outcome_reveal_of_accepts h hfair ht ha
  rw [run_of_command hc hs, hl, hok]
  exact ⟨rfl, rfl⟩

theorem run_reveal_of_not_accepts (hl : i.lines = line :: rest)
    (ha : (FileStore.mk root files).accepts line = false) :
    ∃ st, i.settings? files = some st ∧ (i.run files).1 = ⟨1, [],
      logLines (filterOf i.surroundings st) [.usingDirectory (Utf8.decodeLossy root),
        .verificationFailed] ++ [Failure.notVerified.report]⟩ := by
  obtain ⟨st, hs, rfl⟩ := hi.loads _ hc
  refine ⟨st, hs, ?_⟩
  have houtcome : (reveal owner).outcome (line :: rest) (i.opening files st) =
      (.error .notVerified, (i.opening files st).record [.verificationFailed]) :=
    outcome_reveal_of_not_accepts h ht ha
  rw [run_of_command hc hs, hl, houtcome]
  rfl

theorem of_run_reveal_ok (hexit : (i.run files).1.exitCode = 0) :
    (i.run files).1.printed = text ++ "\n" := by
  cases hl : i.lines with
  | nil =>
    obtain ⟨st, hs, rfl⟩ := hi.loads _ hc
    rw [run_of_command hc hs, hl] at hexit
    cases hexit
  | cons line rest =>
    cases ha : (FileStore.mk root files).accepts line with
    | true => exact (run_reveal_of_accepts h hi hc ht hl ha).2
    | false =>
      obtain ⟨st, -, hreport⟩ := run_reveal_of_not_accepts h hi hc ht hl ha
      rw [hreport] at hexit
      cases hexit

end Reveal

theorem run_of_futile {c : Command} (h : Houses root (FileStore.mk root files) v)
    (hi : i.Proper root files v) (hc : i.command? = some c)
    (hf : Futile (FileStore.mk root files) c i.lines) :
    (i.run files).1.exitCode = 1 ∧ (i.run files).2 = files := by
  obtain ⟨st, hs, rfl⟩ := hi.loads c hc
  obtain ⟨failure, t, houtcome, hstore⟩ :=
    outcome_of_futile (s := i.opening files st) h (hi.fair_entered hc) hf
  rw [run_of_command hc hs, houtcome]
  exact ⟨rfl, congrArg FileStore.files hstore⟩

end Invocation

/-- Over a directory at first empty, a phrase that was sealed stays until its owner is removed or the
vault is wiped. Revealing it prints just the phrase, succeeds with the password that was set last, and
with one that is not accepted tells no more than that. What comes to nothing changes no file. -/
theorem sealed_phrases_revealed {root : Path} {files : FileSystem} {v : Option Contents}
    {i : Invocation} (h : History root files v) (hi : i.Proper root files v) :
    (∀ owner text, (phrasesOf v)[owner]? = some text →
      (∀ c, i.command? = some c → ¬ c.Removes owner) →
        (phrasesOf (i.keeps v (i.run files).1))[owner]? = some text) ∧
    (∀ owner, i.command? = some (.sealPhrase owner) → (i.run files).1.exitCode = 0 →
      ∃ password text rest, i.lines = password :: text :: rest ∧
        (phrasesOf (i.keeps v (i.run files).1))[owner.getD (i.ids.headD "")]? = some text) ∧
    (∀ owner text, i.command? = some (.reveal owner) → (phrasesOf v)[owner]? = some text →
      ((i.run files).1.exitCode = 0 → (i.run files).1.printed = text ++ "\n") ∧
      (∀ line rest, i.lines = line :: rest →
        (v.map Contents.password = some line → (i.run files).1.exitCode = 0) ∧
        ((FileStore.mk root files).accepts line = false →
          ∃ st, i.settings? files = some st ∧ (i.run files).1 = ⟨1, [],
            logLines (filterOf i.surroundings st) [.usingDirectory (Utf8.decodeLossy root),
              .verificationFailed] ++ [Failure.notVerified.report]⟩))) ∧
    (∀ c, i.command? = some c → Futile (FileStore.mk root files) c i.lines →
      (i.run files).1.exitCode = 1 ∧ (i.run files).2 = files) := by
  have hhouses := h.houses
  refine ⟨fun owner text => Invocation.phrase_keeps hhouses hi,
    fun owner => Invocation.phrase_sealed hhouses hi, fun owner text hc ht => ?_,
    fun c => Invocation.run_of_futile hhouses hi⟩
  refine ⟨Invocation.of_run_reveal_ok hhouses hi hc ht, fun line rest hl => ⟨fun hp => ?_,
    Invocation.run_reveal_of_not_accepts hhouses hi hc ht hl⟩⟩
  obtain ⟨c, rfl, rfl⟩ := Option.map_eq_some_iff.mp hp
  have ha := Houses.accepts_password (s := ⟨⟨root, files⟩, i.entropy, i.ids, []⟩) hhouses
  exact (Invocation.run_reveal_of_accepts hhouses hi hc ht hl ha).1

/-- An invocation that finds the directory `r` named in the environment. -/
def Invocation.plain (arguments lines : List String) : Invocation :=
  ⟨⟨⟨none, some (FileStore.directory []).root⟩, none, ⟨none, none, none, none⟩⟩, arguments, lines,
    ⟨fun _ => 0, 0⟩, []⟩

/-- The password that was set last is fair. -/
theorem fair_password {f : FileStore} {c : Contents} : Fair f (some c) [c.password] := by
  rintro c' hc d - line hm -
  cases hc
  rw [List.mem_singleton.mp hm]

/-- A password is set in an empty directory, and then a phrase is sealed. -/
theorem exists_history : ∃ files, History (FileStore.directory []).root files
    (some ⟨"a", (∅ : Phrases).insert "o" "word"⟩) := by
  let st : Settings := ⟨(FileStore.directory []).root, "warn"⟩
  let setting := Invocation.plain ["set-password"] ["a", "a"]
  let sealing := Invocation.plain ["seal", "--owner", "o"] ["a", "word"]
  obtain ⟨trail, ho⟩ := FileStore.open_of_find (FileStore.find_directory [])
    (FileStore.hasRoom_directory []) .nil
  have hstart : History st.dataDir (FileStore.directory []).files none := .start (.present ho .nil)
  generalize (FileStore.directory []).files = files at hstart
  have hproper : setting.Proper st.dataDir files none := ⟨fun _ _ => ⟨st, rfl, rfl⟩, nofun⟩
  have hset : (setting.run files).1.exitCode = 0 :=
    Invocation.exitCode_of_ok (c := .setPassword) rfl rfl
      (outcome_setPassword_ok (s := setting.opening files st) hstart.houses (by decide))
  have hpassword : History st.dataDir (setting.run files).2 (some ⟨"a", ∅⟩) := by
    have hstep := History.step hstart setting hproper
    rwa [Invocation.keeps_of_ok (c := .setPassword) rfl hset] at hstep
  generalize (setting.run files).2 = files at hpassword
  have hproper : sealing.Proper st.dataDir files (some ⟨"a", ∅⟩) :=
    ⟨fun _ _ => ⟨st, rfl, rfl⟩, fair_password⟩
  have hhouses : Houses st.dataDir (sealing.opening files st).store (some ⟨"a", ∅⟩) :=
    hpassword.houses
  have hfits : Fits (Key.phrase "o") := by decide
  obtain ⟨out, hok⟩ :
      ∃ out, ((sealPhrase (some "o")).outcome ["a", "word"] (sealing.opening files st)).1 = .ok out :=
    outcome_sealPhrase_ok hhouses hproper.fair (by decide) (by decide) hhouses.accepts_password
      Std.ExtTreeMap.not_mem_empty hfits
  have hseal : (sealing.run files).1.exitCode = 0 :=
    Invocation.exitCode_of_ok (c := .sealPhrase (some "o")) rfl rfl hok
  have hstep := History.step hpassword sealing hproper
  rw [Invocation.keeps_of_ok (c := .sealPhrase (some "o")) rfl hseal] at hstep
  exact ⟨_, hstep⟩

theorem sealed_phrases_revealed_word :
    ∃ (root : Path) (files : FileSystem) (v : Option Contents) (i : Invocation),
      History root files v ∧ i.Proper root files v ∧ i.command? = some (.reveal "o") ∧
        i.lines = ["a"] ∧ (phrasesOf v)["o"]? = some "word" ∧ (i.run files).1.exitCode = 0 ∧
          (i.run files).1.printed = "word\n" := by
  obtain ⟨files, h⟩ := exists_history
  let revealing := Invocation.plain ["reveal", "--owner", "o"] ["a"]
  have hproper : revealing.Proper (FileStore.directory []).root files
      (some ⟨"a", (∅ : Phrases).insert "o" "word"⟩) :=
    ⟨fun _ _ => ⟨⟨_, "warn"⟩, rfl, rfl⟩, fair_password⟩
  have htext : ((∅ : Phrases).insert "o" "word")["o"]? = some "word" := by
    rw [Records.getElem?_insert, if_pos rfl]
  obtain ⟨hprinted, hrevealed⟩ := (sealed_phrases_revealed h hproper).2.2.1 "o" "word" rfl htext
  have hexit := (hrevealed "a" [] rfl).1 rfl
  exact ⟨_, files, _, revealing, h, hproper, rfl, rfl, htext, hexit, hprinted hexit⟩

end PhraseVault.Command
