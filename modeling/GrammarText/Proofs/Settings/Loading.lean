import GrammarText.Proofs.Files.Contents
import GrammarText.Settings.Load
import Mathlib.Data.List.Infix

/-!
# What loading settings ends with

Settings are sound if their width is not below the least one and their start rule is not blank. Whatever value is read,
settings that pass are sound (`Settings.sound_of_validate`). Callers of loading are ready for sound settings and for an
error about the configuration (`Orderly`). Loading ends with something else in two cases only
(`orderly_loadSettings_iff`): the path that the user names is too long for the disk, or the tools of a project file that
is looked at are a value other than a table.
-/

namespace GrammarText

/-! ### Sound settings -/

theorem map_eq_ok_iff {ε α β : Type} {x : Except ε α} {b : β} {f : α → β} :
    x.map f = .ok b ↔ ∃ a, x = .ok a ∧ f a = b := by
  cases x <;> simp [Except.map]

/-- No width is below the least one. -/
theorem minWidth_le_widthOfValue {v : Value} {w : Int} (h : widthOfValue v = .ok w) : minWidth ≤ w := by
  obtain ⟨n, -, rfl⟩ := map_eq_ok_iff.1 h
  exact Int.le_max_left minWidth n

theorem strip_ne_nil_of_mem_nonBlank {t u : Text} (h : u ∈ nonBlank t) : strip u ≠ [] := by
  unfold nonBlank at h
  split at h
  · cases h
  · rename_i hblank
    cases h
    rwa [List.isEmpty_iff] at hblank

/-- No start rule is blank. -/
theorem strip_ne_nil_of_startRuleOfValue {v : Value} {o : Option Text} (h : startRuleOfValue v = .ok o) :
    ∀ t ∈ o, strip t ≠ [] := by
  intro t ht
  cases v with
  | null => cases h; cases ht
  | string s => cases h; exact strip_ne_nil_of_mem_nonBlank ht
  | _ => cases h

namespace Settings

variable {s : Settings} {v : Value} {key : String} {table : List (String × Value)}

/-- Settings that the commands can work with. -/
structure Sound (s : Settings) : Prop where
  width : minWidth ≤ s.width
  startRule : ∀ t ∈ s.startRule, strip t ≠ []

theorem sound_default : Sound {} :=
  ⟨by decide, by simp⟩

/-- What holds of the default and of everything that can be read holds of an entry. -/
theorem of_readEntry {α : Type} {P : α → Prop} {read : Value → Except SettingFault α} {default a : α}
    (h : readEntry table key read default = .ok a) (hdefault : P default) (hread : ∀ v b, read v = .ok b → P b) :
    P a := by
  unfold readEntry at h
  split at h
  · cases h
    exact hdefault
  · exact hread _ a (mapError_eq_ok_iff.1 h)

theorem sound_of_ofEntries (h : ofEntries table = .ok s) : s.Sound := by
  unfold ofEntries at h
  simp only at h
  split at h
  · rename_i width start join hwidth hstart _ _
    cases h
    constructor
    · exact of_readEntry hwidth (by decide) fun _ _ => minWidth_le_widthOfValue
    · exact of_readEntry hstart (by simp) fun _ _ => strip_ne_nil_of_startRuleOfValue
  · cases h

theorem sound_of_validate (h : validate v = .ok s) : s.Sound := by
  unfold validate at h
  split at h
  · exact sound_of_ofEntries h
  · cases h

end Settings

/-! ### The section of the settings -/

variable {d : Disk} {p : Path} {data : Value} {e : LoadError}

/-- A value that stands where a table should, and is not empty. -/
def Value.Stray (v : Value) : Prop :=
  v.isEmpty = false ∧ ∀ entries, v ≠ .table entries

/-- The tools of the project file at a path are no table. -/
def StrayTools (d : Disk) (p : Path) : Prop :=
  p.name = projectFile ∧ ∃ data v, readTomlFile d p = .ok data ∧ data.get? "tool" = some v ∧ v.Stray

theorem projectSection_eq_error_iff :
    projectSection data = .error e ↔ ∃ v, data.get? "tool" = some v ∧ v.Stray ∧ e = .notSection v.typeName := by
  unfold projectSection Value.Stray
  split
  · rename_i hnone
    rw [Option.filter_eq_none_iff] at hnone
    refine iff_of_false (by simp) ?_
    rintro ⟨v, hv, ⟨hempty, -⟩, -⟩
    exact hnone v hv (by rw [hempty]; rfl)
  · rename_i tools hsome
    obtain ⟨htools, -⟩ := Option.filter_eq_some_iff.1 hsome
    refine iff_of_false (by split <;> simp) ?_
    rintro ⟨v, hv, ⟨-, htable⟩, -⟩
    rw [htools, Option.some.injEq] at hv
    exact htable tools hv.symm
  · rename_i v htable hsome
    obtain ⟨hv, hempty⟩ := Option.filter_eq_some_iff.1 hsome
    rw [Bool.not_eq_true'] at hempty
    constructor
    · intro h
      cases h
      exact ⟨v, hv, ⟨hempty, fun entries heq => htable entries heq⟩, rfl⟩
    · rintro ⟨u, hu, -, rfl⟩
      rw [hv, Option.some.injEq] at hu
      rw [hu]

/-- The section of the settings is not to be had for two reasons: the data are no table, or the tools of a project file
are none. -/
theorem settingsSection_eq_error_iff :
    settingsSection p data = .error e ↔ (e = .config (.notTable p) ∧ ∀ entries, data ≠ .table entries) ∨
      (p.name = projectFile ∧ ∃ v, data.get? "tool" = some v ∧ v.Stray ∧ e = .notSection v.typeName) := by
  unfold settingsSection
  split
  · rename_i entries
    by_cases hp : p.name = projectFile
    · rw [if_pos hp, projectSection_eq_error_iff]
      simp [hp]
    · rw [if_neg hp]
      simp [hp]
  · rename_i htable
    have hget : data.get? "tool" = none := by
      cases data with
      | table entries => exact absurd rfl (htable entries)
      | _ => rfl
    simpa [hget, eq_comm] using fun _ => htable

/-- The data of a project file are read as TOML. -/
theorem readConfigFile_projectFile (hp : p.name = projectFile) : readConfigFile d p = readTomlFile d p := by
  have hsuffix : p.suffix = ".toml" := by
    unfold Path.suffix
    rw [hp]
    decide
  unfold readConfigFile
  rw [if_pos hsuffix]

/-- Once the data of a file are read, its tools are no table exactly if the section is not to be had for that reason. -/
theorem strayTools_iff (h : readConfigFile d p = .ok data) :
    StrayTools d p ↔ ∃ t, settingsSection p data = .error (.notSection t) := by
  constructor
  · rintro ⟨hp, data', v, hread, hv, hstray⟩
    rw [readConfigFile_projectFile hp, hread, Except.ok.injEq] at h
    subst h
    exact ⟨v.typeName, settingsSection_eq_error_iff.2 (.inr ⟨hp, v, hv, hstray, rfl⟩)⟩
  · rintro ⟨t, ht⟩
    rcases settingsSection_eq_error_iff.1 ht with ⟨hconfig, -⟩ | ⟨hp, v, hv, hstray, -⟩
    · cases hconfig
    · rw [readConfigFile_projectFile hp] at h
      exact ⟨hp, data, v, h, hv, hstray⟩

/-- A file with stray tools exists. -/
theorem StrayTools.contains (h : StrayTools d p) : d.contains p = .ok true := by
  obtain ⟨-, data, v, hdata, -⟩ := h
  unfold readTomlFile readText at hdata
  cases hread : d.read p with
  | error e => rw [hread] at hdata; cases hdata
  | ok bytes => exact Disk.contains_of_read hread

/-! ### The file at a path -/

/-- What loading ends with, if nothing happens that its callers are not ready for. -/
def Orderly (outcome : Except LoadError Settings) : Prop :=
  (∃ s, outcome = .ok s ∧ s.Sound) ∨ ∃ e, outcome = .error (.config e)

theorem orderly_config (e : ConfigError) : Orderly (.error (.config e)) :=
  .inr ⟨e, rfl⟩

/-- Entries at fault are an error about the configuration, and others give sound settings. -/
theorem orderly_validate (v : Value) (p : Path) :
    Orderly ((Settings.validate v).mapError fun problems => .config (.invalid problems p)) := by
  cases hv : Settings.validate v with
  | error problems => exact orderly_config (.invalid problems p)
  | ok s => exact .inl ⟨s, rfl, Settings.sound_of_validate hv⟩

theorem orderly_settingsOfFile_iff (d : Disk) (searched p : Path) :
    Orderly (settingsOfFile d searched p) ↔ ¬StrayTools d p := by
  unfold settingsOfFile
  cases hdata : readConfigFile d p with
  | error e =>
    -- a file that cannot be read has no tools
    refine iff_of_true (orderly_config _) ?_
    rintro ⟨hp, data, v, hread, -⟩
    rw [readConfigFile_projectFile hp, hread] at hdata
    cases hdata
  | ok data =>
    rw [strayTools_iff hdata]
    simp only
    cases hv : settingsSection p data with
    | error e =>
      rcases settingsSection_eq_error_iff.1 hv with ⟨rfl, -⟩ | ⟨-, v, -, -, rfl⟩
      · exact iff_of_true (orderly_config _) (by simp)
      · exact iff_of_false (by simp [Orderly]) (by simp)
    | ok v => exact iff_of_true (orderly_validate v p) (by simp)

/-! ### The search in a folder -/

theorem firstConfigFile_cons (d : Disk) (p : Path) (ps : List Path) :
    firstConfigFile d (p :: ps) =
      match d.contains p with
      | .error e => .error (.refused e)
      | .ok false => firstConfigFile d ps
      | .ok true =>
        match isConfigFile d p with
        | .error e => .error e
        | .ok false => firstConfigFile d ps
        | .ok true => .ok (some p) := by
  rw [firstConfigFile, pathExists]
  rcases d.contains p with e | (_ | _)
  · rfl
  · rfl
  · rcases isConfigFile d p with e | (_ | _) <;> rfl

/-- A settings file of its own counts as soon as it exists. -/
theorem isConfigFile_of_ne (hp : p.name ≠ projectFile) : isConfigFile d p = .ok true := by
  unfold isConfigFile
  rw [if_neg hp]

/-- Looking at a project file stumbles over stray tools, and over nothing else about the section. -/
theorem strayTools_iff_isConfigFile : StrayTools d p ↔ ∃ t, isConfigFile d p = .error (.notSection t) := by
  by_cases hp : p.name = projectFile
  · unfold isConfigFile
    rw [if_pos hp]
    cases hdata : readTomlFile d p with
    | error e => simp [StrayTools, hdata]
    | ok data =>
      rw [strayTools_iff (by rw [readConfigFile_projectFile hp, hdata])]
      simp only
      cases settingsSection p data <;> simp [Except.map]
  · rw [isConfigFile_of_ne hp]
    exact iff_of_false (fun h => hp h.1) (by simp)

/-- The file that the search finds has no stray tools. -/
theorem not_strayTools_of_firstConfigFile {ps : List Path} (h : firstConfigFile d ps = .ok (some p)) :
    ¬StrayTools d p := by
  induction ps with
  | nil => cases h
  | cons q ps ih =>
    rw [firstConfigFile_cons] at h
    split at h
    · cases h
    · exact ih h
    · split at h
      · cases h
      · exact ih h
      · rename_i hq
        cases h
        simp [strayTools_iff_isConfigFile, hq]

/-- One step of the search: it stumbles over the first path, or passes it over and stumbles over the others. -/
theorem firstConfigFile_stumbles_cons (d : Disk) (p : Path) (ps : List Path) :
    (∃ t, firstConfigFile d (p :: ps) = .error (.notSection t)) ↔ StrayTools d p ∨
      (d.contains p = .ok false ∨ d.contains p = .ok true ∧ isConfigFile d p = .ok false) ∧
        ∃ t, firstConfigFile d ps = .error (.notSection t) := by
  have hexists : StrayTools d p → d.contains p = .ok true := StrayTools.contains
  rw [firstConfigFile_cons]
  cases hp : d.contains p with
  | error e => simp_all
  | ok found =>
    cases found with
    | false => simp_all
    | true =>
      rw [strayTools_iff_isConfigFile]
      rcases isConfigFile d p with e | (_ | _) <;> simp

/-- The search through names of which a project file is the last stumbles over stray tools there, if no file has a name
before it. -/
theorem firstConfigFile_stumbles_iff (d : Disk) (folder : Path) {names : List String} (hnames : projectFile ∉ names) :
    (∃ t, firstConfigFile d ((names ++ [projectFile]).map folder.child) = .error (.notSection t)) ↔
      (∀ n ∈ names, d.contains (folder.child n) = .ok false) ∧ StrayTools d (folder.child projectFile) := by
  -- a file in front of the project file ends the search as soon as it exists
  induction names with
  | nil =>
    rw [List.nil_append, List.map_singleton, firstConfigFile_stumbles_cons]
    simp [firstConfigFile]
  | cons n names ih =>
    rw [List.mem_cons, not_or] at hnames
    have hn : (folder.child n).name ≠ projectFile := by
      simpa [Path.child, Path.name, eq_comm] using hnames.1
    have hstray : ¬StrayTools d (folder.child n) := fun h => hn h.1
    rw [List.cons_append, List.map_cons, firstConfigFile_stumbles_cons, ih hnames.2, isConfigFile_of_ne hn,
      List.forall_mem_cons]
    simp [hstray, and_assoc]

/-! ### Loading -/

/-- The files whose tools loading looks at. -/
inductive LooksAt (d : Disk) (folder : Path) : Option Path → Path → Prop
  /-- The file that the user names. -/
  | named (p : Path) : LooksAt d folder (some p) p
  /-- The project file of the folder, if none of the files that are preferred to it is there. -/
  | found (h : ∀ n ∈ configNames, n ≠ projectFile → d.contains (folder.child n) = .ok false) :
    LooksAt d folder none (folder.child projectFile)

theorem exists_looksAt_none_iff (d : Disk) (folder : Path) :
    (∃ p, LooksAt d folder none p ∧ StrayTools d p) ↔ ∃ t, locateConfig d folder none = .error (.notSection t) := by
  have hnames : configNames = configNames.dropLast ++ [projectFile] := rfl
  have hlast : projectFile ∉ configNames.dropLast := by decide
  rw [locateConfig, hnames, firstConfigFile_stumbles_iff d folder hlast]
  constructor
  · rintro ⟨p, hlooks, hstray⟩
    cases hlooks with
    | found h =>
      refine ⟨fun n hn => h n (List.mem_of_mem_dropLast hn) ?_, hstray⟩
      rintro rfl
      exact hlast hn
  · rintro ⟨h, hstray⟩
    refine ⟨_, .found fun n hn hne => h n ?_, hstray⟩
    rw [hnames, List.mem_append, List.mem_singleton] at hn
    exact hn.resolve_right hne

theorem orderly_loadSettings_some_iff (d : Disk) (folder p : Path) :
    Orderly (loadSettings d folder (some p)) ↔ d.resolve p ≠ .error .nameTooLong ∧ ¬StrayTools d p := by
  rw [← Disk.exists_contains_iff]
  unfold loadSettings
  simp only [pathExists]
  cases hp : d.contains p with
  | error e => simp [Except.mapError, Orderly]
  | ok found =>
    cases found with
    | true => simpa [Except.mapError] using orderly_settingsOfFile_iff d p p
    | false =>
      refine iff_of_true (orderly_config _) ⟨⟨false, rfl⟩, fun hstray => ?_⟩
      rw [hstray.contains] at hp
      cases hp

/-- Whatever else goes wrong in the search is told as an error about the configuration. -/
theorem orderly_loadSettings_none_iff (d : Disk) (folder : Path) :
    Orderly (loadSettings d folder none) ↔ ¬∃ t, locateConfig d folder none = .error (.notSection t) := by
  unfold loadSettings
  cases hlocate : locateConfig d folder none with
  | error e =>
    cases e with
    | notSection t => simp [Orderly]
    | _ => exact iff_of_true (orderly_config _) (by simp)
  | ok found =>
    refine iff_of_true ?_ (by simp)
    cases found with
    | none => exact .inl ⟨{}, rfl, Settings.sound_default⟩
    | some p => exact (orderly_settingsOfFile_iff d folder p).2 (not_strayTools_of_firstConfigFile hlocate)

/-- Whatever is on the disk, loading ends with sound settings or with an error about the configuration exactly if the
disk does not refuse the path that the user names as too long, and no file that is looked at has stray tools. -/
theorem orderly_loadSettings_iff (d : Disk) (folder : Path) (named : Option Path) :
    Orderly (loadSettings d folder named) ↔
      (∀ p ∈ named, d.resolve p ≠ .error .nameTooLong) ∧ ∀ p, LooksAt d folder named p → ¬StrayTools d p := by
  cases named with
  | none =>
    rw [orderly_loadSettings_none_iff, ← exists_looksAt_none_iff]
    simp
  | some p =>
    rw [orderly_loadSettings_some_iff]
    constructor
    · rintro ⟨hp, hstray⟩
      refine ⟨by simpa using hp, fun q hq => ?_⟩
      cases hq
      exact hstray
    · rintro ⟨hp, hstray⟩
      exact ⟨hp p rfl, hstray p (.named p)⟩

/-- A folder without a settings file has the settings that are used by default. -/
theorem loadSettings_of_missing {d : Disk} {folder : Path}
    (h : ∀ n ∈ configNames, d.contains (folder.child n) = .ok false) : loadSettings d folder none = .ok {} := by
  have hnone : ∀ ps : List Path, (∀ p ∈ ps, d.contains p = .ok false) → firstConfigFile d ps = .ok none := by
    intro ps
    induction ps with
    | nil => exact fun _ => rfl
    | cons p ps ih =>
      intro hps
      rw [firstConfigFile_cons, hps p List.mem_cons_self]
      exact ih fun q hq => hps q (List.mem_cons_of_mem _ hq)
  have hlocate : locateConfig d folder none = .ok none := hnone _ (by simpa using h)
  unfold loadSettings
  rw [hlocate]

/-- A project file in which a number stands for the table of tools. -/
def numberedProject : Text :=
  "tool = 5".toList

theorem settingsSection_numberedProject : (readToml numberedProject).toOption.map (fun data =>
    (settingsSection ⟨.working, [projectFile]⟩ data).map fun v => !v.isEmpty) = some (.error (.notSection "int")) := by
  decide +kernel

/-- A folder whose only file is the project file. -/
def numberedTools : Disk :=
  ⟨.folder [(projectFile, .file (encodeUtf8 numberedProject))], []⟩

theorem contains_numberedTools {n : String} (hn : n ∈ configNames) :
    numberedTools.contains ⟨.working, [n]⟩ = .ok (n == projectFile) := by
  have hname : ∀ n ∈ configNames, Disk.IsName n := by decide +kernel
  refine (Disk.contains_name (hname n hn) _ _).trans ?_
  rw [DiskEntry.lookup_cons_eq_if]
  by_cases hp : n = projectFile <;> simp [hp]

theorem isConfigFile_numberedTools : isConfigFile numberedTools ⟨.working, [projectFile]⟩ = .error (.notSection "int") := by
  have htext : readText numberedTools ⟨.working, [projectFile]⟩ = .ok numberedProject :=
    readText_name (by decide +kernel) _ rfl
  have hproject : Path.name ⟨.working, [projectFile]⟩ = projectFile := rfl
  have hsection := settingsSection_numberedProject
  unfold isConfigFile readTomlFile
  rw [if_pos hproject, htext]
  dsimp only
  cases hdata : readToml numberedProject with
  | error e =>
    rw [hdata] at hsection
    cases hsection
  | ok data =>
    rw [hdata] at hsection
    exact Option.some.inj hsection

/-- The error is none about the configuration. -/
theorem numberedTools_stumbles :
    loadSettings numberedTools { parts := [] } none = .error (.notSection "int") ∧
      ¬Orderly (loadSettings numberedTools { parts := [] } none) := by
  have hlocate : locateConfig numberedTools { parts := [] } none = .error (.notSection "int") := by
    change firstConfigFile numberedTools (configNames.map fun n => ⟨.working, [n]⟩) = _
    simp only [configNames, List.map_cons, firstConfigFile_cons]
    rw [contains_numberedTools (by decide), contains_numberedTools (by decide), contains_numberedTools (by decide),
      isConfigFile_numberedTools]
    rfl
  have hload : loadSettings numberedTools { parts := [] } none = .error (.notSection "int") := by
    unfold loadSettings
    rw [hlocate]
  refine ⟨hload, ?_⟩
  rw [hload]
  simp [Orderly]

end GrammarText
