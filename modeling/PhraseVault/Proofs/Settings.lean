import PhraseVault.Settings
import PhraseVault.Proofs.Toml.Text
import PhraseVault.Proofs.Utf8

/-!
# Settings survive being written and read

A document of settings has two lines, and each line reads back as the entry it was written for.
Whatever the texts hold, the settings read are the settings written; only a directory that is not
UTF-8 cannot be written.
-/
namespace PhraseVault

namespace Toml

/-- A bare character begins neither a blank, a line end, a comment, a heading nor a quoted key. -/
private theorem isBare_facts {c : Char} (h : isBare c = true) :
    isSpace c = false ∧ c ≠ '\n' ∧ c ≠ '\r' ∧ c ≠ '#' ∧ c ≠ '[' ∧ c ≠ '"' ∧ c ≠ '\'' := by
  refine ⟨?_, ?_, ?_, ?_, ?_, ?_, ?_⟩
  · rw [Bool.eq_false_iff]
    intro hs
    have hs' : c = ' ' ∨ c = '\t' := by simpa [isSpace] using hs
    rcases hs' with rfl | rfl <;> exact absurd h (by decide)
  all_goals
    rintro rfl
    exact absurd h (by decide)

variable {c : Char} {cs : List Char}

private theorem dropSpace_cons (h : isSpace c = false) (rest : List Char) :
    dropSpace (c :: rest) = c :: rest := by
  rw [dropSpace, List.dropWhile_cons_of_neg (by simp [h])]

private theorem dropSpace_space (h : isSpace c = false) (rest : List Char) :
    dropSpace (' ' :: c :: rest) = c :: rest := by
  rw [dropSpace, List.dropWhile_cons_of_pos (by decide), List.dropWhile_cons_of_neg (by simp [h])]

private theorem key_bare (hb : ∀ x ∈ c :: cs, isBare x = true) (rest : List Char) :
    key (c :: cs ++ ' ' :: rest) = some (String.ofList (c :: cs), ' ' :: rest) := by
  obtain ⟨-, -, -, -, -, hq, ha⟩ := isBare_facts (hb c (by simp))
  have ht : (c :: cs ++ ' ' :: rest).takeWhile isBare = c :: cs := by
    rw [List.takeWhile_append_of_pos hb, List.takeWhile_cons_of_neg (by decide), List.append_nil]
  have hd : (c :: cs ++ ' ' :: rest).dropWhile isBare = ' ' :: rest := by
    rw [List.dropWhile_append_of_pos hb, List.dropWhile_cons_of_neg (by decide)]
  rw [key.eq_def]
  split
  · next h => exact absurd (List.cons.inj h).1 hq
  · next h => exact absurd (List.cons.inj h).1 ha
  · rw [ht, hd]
    rfl

private theorem path_bare (hb : ∀ x ∈ c :: cs, isBare x = true) (rest : List Char) :
    path (c :: cs ++ ' ' :: '=' :: rest) = some ([String.ofList (c :: cs)], '=' :: rest) := by
  have hs := (isBare_facts (hb c (by simp))).1
  have hk := key_bare hb ('=' :: rest)
  rw [List.cons_append] at hk ⊢
  simp only [path, keys, dropSpace_cons hs, hk, dropSpace_space (c := '=') (by decide),
    bind, Option.bind, pure]
  rfl

private theorem readValue_quoted {quote : Char} {body rest : List Char} {s : String}
    (hq : quote = '"' ∨ quote = '\'') (h : quoted quote body = some (s, rest)) :
    readValue (quote :: body) = some (.text s, rest) := by
  rw [readValue, List.length_cons]
  rcases hq with rfl | rfl
  · simp only [valueWithin, h, Option.map_some]
  · simp only [valueWithin, h, Option.map_some]

theorem isSpace_quote {quote : Char} (h : quote = '"' ∨ quote = '\'') : isSpace quote = false := by
  rcases h with rfl | rfl <;> decide

private theorem readLine_setting (hb : ∀ x ∈ c :: cs, isBare x = true) (v : String)
    (rest : List Char) : readLine (c :: cs ++ ' ' :: '=' :: ' ' :: (writeText v ++ '\n' :: rest)) =
      some (.entry [String.ofList (c :: cs)] (.text v), '\n' :: rest) := by
  obtain ⟨-, -, -, -, hh, -, -⟩ := isBare_facts (hb c (by simp))
  obtain ⟨quote, body, hq, hw, hread⟩ := exists_quoted_writeText v rest
  have hentry : readEntry (c :: cs ++ ' ' :: '=' :: ' ' :: quote :: body) =
      some (.entry [String.ofList (c :: cs)] (.text v), '\n' :: rest) := by
    simp only [readEntry, path_bare hb, expect?, if_true, dropSpace_space (isSpace_quote hq),
      readValue_quoted hq hread, bind, Option.bind, pure]
  rw [hw, readLine.eq_def]
  split
  · next h => exact absurd (List.cons.inj h).1 hh
  · next h => exact absurd (List.cons.inj h).1 hh
  · exact hentry

/-- A line with a setting is one entry. -/
theorem readLines_setting {k : String} (hk : k.toList = c :: cs)
    (hall : (c :: cs).all isBare = true) (v : String) (rest : List Char) (budget : Nat) :
    readLines (budget + 1) (Settings.writeSetting k v ++ rest) =
      (readLines budget rest).map (.entry [k] (.text v) :: ·) := by
  have hb := List.all_eq_true.mp hall
  obtain ⟨hs, hn, hr, hc, -⟩ := isBare_facts (hb c (by simp))
  have hw : Settings.writeSetting k v ++ rest =
      c :: cs ++ ' ' :: '=' :: ' ' :: (writeText v ++ '\n' :: rest) := by
    simp [Settings.writeSetting, hk]
  have hline := readLine_setting hb v rest
  have hend : endLine? ('\n' :: rest) = some rest := rfl
  rw [← hk, String.ofList_toList, hk, List.cons_append] at hline
  rw [hw, readLines, List.cons_append]
  simp only [dropSpace_cons hs, newline?_eq_none hn hr, List.head?_cons, Option.some.injEq, hc,
    hline, hend, bind, Option.bind, pure]
  cases readLines budget rest <;> simp

end Toml

namespace Settings

/-- The two lines of a document of settings. -/
def lines (dataDir logLevel : String) : List Toml.Line :=
  [.entry ["data_dir"] (.text dataDir), .entry ["log_level"] (.text logLevel)]

theorem document_written (dataDir logLevel : String) :
    Toml.document (String.ofList
      (writeSetting "data_dir" dataDir ++ writeSetting "log_level" logLevel)) =
      some (lines dataDir logLevel) := by
  have hlog : ∀ budget, Toml.readLines (budget + 2) (writeSetting "log_level" logLevel) =
      some [.entry ["log_level"] (.text logLevel)] := fun budget => by
    have h := Toml.readLines_setting (k := "log_level") rfl (by decide) logLevel [] (budget + 1)
    rwa [List.append_nil] at h
  have hdir : ∀ budget, Toml.readLines (budget + 3)
      (writeSetting "data_dir" dataDir ++ writeSetting "log_level" logLevel) =
        some (lines dataDir logLevel) := fun budget => by
    rw [Toml.readLines_setting (k := "data_dir") rfl (by decide), hlog]
    rfl
  obtain ⟨rest, hrest⟩ : ∃ rest, writeSetting "data_dir" dataDir ++
      writeSetting "log_level" logLevel = 'd' :: 'a' :: rest := ⟨_, rfl⟩
  rw [hrest] at hdir
  rw [hrest, Toml.document, String.toList_ofList]
  exact hdir rest.length

/-- Two entries under different keys make a table of both. -/
theorem gather_lines (dataDir logLevel : String) :
    ∃ t, Toml.gather [] Toml.Table.empty (lines dataDir logLevel) = some t ∧
      setting t "data_dir" = .ok (some dataDir) ∧ setting t "log_level" = .ok (some logLevel) :=
  ⟨_, rfl, rfl, rfl⟩

theorem ofDocument_written (base : Settings) (dataDir logLevel : String) :
    ofDocument base (String.ofList
      (writeSetting "data_dir" dataDir ++ writeSetting "log_level" logLevel)) =
      .ok ⟨Utf8.encode dataDir, logLevel⟩ := by
  obtain ⟨t, ht, hdir, hlog⟩ := gather_lines dataDir logLevel
  have hread : Toml.read (String.ofList
      (writeSetting "data_dir" dataDir ++ writeSetting "log_level" logLevel)) = some t := by
    rw [Toml.read, document_written]
    exact ht
  rw [ofDocument, hread]
  simp only [hdir, hlog]
  rfl

theorem toDocument_encode (dataDir logLevel : String) :
    toDocument ⟨Utf8.encode dataDir, logLevel⟩ = .ok (String.ofList
      (writeSetting "data_dir" dataDir ++ writeSetting "log_level" logLevel)) := by
  simp only [toDocument, Utf8.decode_encode]

/-- Settings with a directory in UTF-8 can be written, and what is written reads back, whatever the
defaults are. Any other directory is refused. -/
theorem written_settings_read :
    (∀ (dataDir logLevel : String) (base : Settings),
      ∃ document, toDocument ⟨Utf8.encode dataDir, logLevel⟩ = .ok document ∧
        ofDocument base document = .ok ⟨Utf8.encode dataDir, logLevel⟩) ∧
    ∀ s : Settings, (∀ dataDir, s.dataDir ≠ Utf8.encode dataDir) →
      toDocument s = .error .pathNotText := by
  constructor
  · intro dataDir logLevel base
    exact ⟨_, toDocument_encode dataDir logLevel, ofDocument_written base dataDir logLevel⟩
  · intro s hs
    rw [toDocument]
    cases hd : Utf8.decode s.dataDir with
    | error fault => rfl
    | ok dataDir => exact absurd (Utf8.eq_encode_of_decode hd) (hs dataDir)

/-- A lone byte FF is no text. -/
theorem written_settings_read_foreign :
    (∀ dataDir, (⟨[0xFF], "warn"⟩ : Settings).dataDir ≠ Utf8.encode dataDir) ∧
    toDocument ⟨[0xFF], "warn"⟩ = .error .pathNotText := by
  have hs : ∀ dataDir, (⟨[0xFF], "warn"⟩ : Settings).dataDir ≠ Utf8.encode dataDir := by
    intro dataDir h
    have hd := Utf8.decode_encode dataDir
    rw [← h] at hd
    cases hd
  exact ⟨hs, written_settings_read.2 _ hs⟩

end Settings
end PhraseVault
