import GrammarText.Command.Run
import GrammarText.Proofs.Files.Contents
import GrammarText.Proofs.Layout.Characters
import GrammarText.Proofs.Settings.Loading

/-!
# Checking and rewriting a file

Formatting can be asked only whether it would change a file, and asked to rewrite the file. Checking writes nothing
(`disk_run_of_check`). What it compares is the text after line ends have become line feeds, what is written is a text
with line feeds only (`return_not_mem_formatDocument`): so rewriting keeps a file exactly if checking finds nothing to
change and the file has no carriage return (`rewrite_keeps_iff`).
-/

namespace GrammarText

/-! ### Formatting a document -/

section Document

variable {o : LayoutOptions}

theorem changed_formatDocument (o : LayoutOptions) (source : Text) :
    (formatDocument o source).changed = ((formatDocument o source).text != source) := by
  unfold formatDocument
  split
  · rfl
  · split
    · rfl
    · exact (bne_self_eq_false source).symm

theorem success_formatDocument (ho : o.GapInRange) (source : Text) : (formatDocument o source).success = true := by
  unfold formatDocument
  split
  · rfl
  · rw [if_pos ho]
    rfl

end Document

/-! ### The command -/

namespace Workbench

variable {w : Workbench} {r : FormatRequest}

/-- Every layout that can be asked for has a number of line feeds between rules that a text can have. -/
theorem exists_layout (w : Workbench) (hr : r.width ≠ .empty) : ∃ o, w.layout r = .ok o ∧ o.GapInRange := by
  obtain ⟨s, hs⟩ : ∃ s, w.settingsWith r.width = .ok s := by
    cases hwidth : r.width with
    | unset => exact ⟨_, rfl⟩
    | given n => exact ⟨_, rfl⟩
    | empty => exact absurd hwidth hr
  have hstyle : ∀ style : Style, style.options.GapInRange := by
    intro style
    cases style <;> decide
  unfold layout
  rw [hs]
  refine ⟨_, rfl, ?_⟩
  simp only
  split
  · exact hstyle _
  · exact hstyle _
  · exact (by decide : LayoutOptions.GapInRange {})

/-- Whoever only checks writes nothing. -/
theorem disk_format (hr : r.check = true) : (w.format r).disk = w.disk := by
  have hdeliver : ∀ f err, (w.deliver r f err).disk = w.disk := by
    intro f err
    unfold deliver
    simp only [hr, if_true]
    split
    · rfl
    · split <;> rfl
  unfold format
  split
  · rfl
  · split
    · rfl
    · split
      · rfl
      · exact hdeliver _ _

variable {o : LayoutOptions} {source : Antlr.GrammarSource}

/-- A grammar that can be read is formatted, and the outcome delivered. -/
theorem exists_format_eq_deliver (hmode : (r.inplace && r.check) = false)
    (hread : readNamedSource w.disk r.file = .ok source) (ho : w.layout r = .ok o) :
    ∃ err, w.format r = w.deliver r (formatDocument o source.text) err := by
  unfold format
  rw [hmode, hread]
  simp only [ho]
  exact ⟨_, rfl⟩

/-- The status of a check says whether the text would be another one. -/
theorem result_deliver_of_check {f : Formatted} (hf : f.success = true) (hc : r.check = true) (err : String) :
    (w.deliver r f err).result = .ok (if f.changed then 1 else 0) := by
  unfold deliver
  rw [hf, hc]
  cases f.changed <;> rfl

/-- Rewriting puts the formatted text into the file. -/
theorem deliver_of_inplace {f : Formatted} {d : Disk} (hf : f.success = true) (hc : r.check = false)
    (hi : r.inplace = true) (hwrite : writeText w.disk (Path.ofString r.file) f.text = .ok d) (err : String) :
    (w.deliver r f err).result = .ok 0 ∧ (w.deliver r f err).disk = d := by
  unfold deliver
  rw [hf, hc, hi]
  simp only [hwrite]
  exact ⟨rfl, rfl⟩

end Workbench

/-! ### Running the program -/

section Run

variable {env : Environment} {arguments : List String} {o : GlobalOptions} {r : FormatRequest}

theorem disk_outcome (f : Failure) (env : Environment) (verbose : Bool) (out err : String) (d : Disk) :
    (f.outcome env verbose out err d).disk = d := by
  unfold Failure.outcome
  split
  · simp only
    split <;> rfl
  · rfl

theorem run_eq_runRequest {request : Request} (h : readCommandLine arguments = .ok (o, some request)) :
    run env arguments = runRequest env o request := by
  unfold run
  rw [h]

/-- A program that is asked to check leaves the disk as it is, whatever goes wrong. -/
theorem disk_run_of_check (h : readCommandLine arguments = .ok (o, some (.format r))) (hc : r.check = true) :
    (run env arguments).disk = env.disk := by
  rw [run_eq_runRequest h]
  unfold runRequest
  simp only
  split
  · exact disk_outcome _ _ _ _ _ _
  · split
    · exact Workbench.disk_format hc
    · rw [disk_outcome]
      exact Workbench.disk_format hc

/-- A command that gives a status ends with it. -/
theorem run_of_result {request : Request} {settings : Settings} {status : Nat}
    (h : readCommandLine arguments = .ok (o, some request))
    (hs : loadSettings env.disk env.folder ((o.config.filter (!·.isEmpty)).map Path.ofString) = .ok settings)
    (hr : (Workbench.perform ⟨env.disk, settings, logText env.time (env.logLevel o)⟩ request).result = .ok status) :
    (run env arguments).ending = .finished status ∧ (run env arguments).disk =
      (Workbench.perform ⟨env.disk, settings, logText env.time (env.logLevel o)⟩ request).disk := by
  rw [run_eq_runRequest h]
  unfold runRequest
  constructor <;> simp only [hs, hr]

variable {settings : Settings} {text : Text} {lo : LayoutOptions}

/-- What formatting a file starts from: the settings that are loaded, the text of the file, and its layout. -/
structure Formats (env : Environment) (o : GlobalOptions) (r : FormatRequest) (settings : Settings) (text : Text)
    (lo : LayoutOptions) : Prop where
  loaded : loadSettings env.disk env.folder ((o.config.filter (!·.isEmpty)).map Path.ofString) = .ok settings
  read : readText env.disk (Path.ofString r.file) = .ok text
  layout : Workbench.layout ⟨env.disk, settings, logText env.time (env.logLevel o)⟩ r = .ok lo
  gap : lo.GapInRange

/-- What is asked to be done with the result plays no part in it. -/
theorem Formats.mode (h : Formats env o r settings text lo) (c i : Bool) :
    Formats env o { r with check := c, inplace := i } settings text lo :=
  ⟨h.loaded, h.read, h.layout, h.gap⟩

/-- A program that formats a file delivers the formatted text. -/
theorem Formats.exists_deliver (h : Formats env o r settings text lo) (hmode : (r.inplace && r.check) = false) :
    ∃ err, Workbench.perform ⟨env.disk, settings, logText env.time (env.logLevel o)⟩ (.format r) =
      Workbench.deliver ⟨env.disk, settings, logText env.time (env.logLevel o)⟩ r
        (formatDocument lo (normalizeNewlines text)) err := by
  have hsource := readNamedSource_of_readText h.read
  exact Workbench.exists_format_eq_deliver hmode hsource h.layout

/-- The status of a program that checks a file says whether the text changes but for its line ends. -/
theorem Formats.ending_run (hf : Formats env o r settings text lo)
    (h : readCommandLine arguments = .ok (o, some (.format r))) (hc : r.check = true) (hi : r.inplace = false) :
    (run env arguments).ending =
      .finished (if (formatDocument lo (normalizeNewlines text)).text = normalizeNewlines text then 0 else 1) := by
  obtain ⟨err, hdeliver⟩ := hf.exists_deliver (by rw [hi]; rfl)
  have hsuccess := success_formatDocument hf.gap (normalizeNewlines text)
  have hresult := congrArg Reply.result hdeliver
  rw [Workbench.result_deliver_of_check hsuccess hc, changed_formatDocument] at hresult
  obtain ⟨hending, -⟩ := run_of_result h hf.loaded hresult
  rw [hending]
  by_cases heq : (formatDocument lo (normalizeNewlines text)).text = normalizeNewlines text <;> simp [heq]

/-- A program that rewrites a file leaves the formatted text in it. -/
theorem Formats.rewritten (hf : Formats env o r settings text lo)
    (h : readCommandLine arguments = .ok (o, some (.format r))) (hc : r.check = false) (hi : r.inplace = true)
    (hfolder : DiskEntry.IsFolder env.disk.working env.disk.top) :
    (run env arguments).ending = .finished 0 ∧ readText (run env arguments).disk (Path.ofString r.file) =
      .ok (formatDocument lo (normalizeNewlines text)).text := by
  obtain ⟨d, hd⟩ := writeText_of_readText hfolder hf.read (formatDocument lo (normalizeNewlines text)).text
  obtain ⟨err, hdeliver⟩ := hf.exists_deliver (by rw [hc, hi]; rfl)
  have hsuccess := success_formatDocument hf.gap (normalizeNewlines text)
  obtain ⟨hresult, hdisk⟩ := Workbench.deliver_of_inplace
    (w := ⟨env.disk, settings, logText env.time (env.logLevel o)⟩) hsuccess hc hi hd err
  rw [← hdeliver] at hresult hdisk
  obtain ⟨hending, hrun⟩ := run_of_result h hf.loaded hresult
  refine ⟨hending, ?_⟩
  rw [hrun, hdisk]
  exact readText_of_writeText hd

/-- Let a file that can be read as text be checked and be rewritten, both with the same options. Then checking leaves
the disk alone, and rewriting keeps the bytes of the file exactly if checking finds nothing to change and the file has
no carriage return. -/
theorem rewrite_keeps_iff {checking writing : List String}
    (hchecking : readCommandLine checking = .ok (o, some (.format { r with check := true, inplace := false })))
    (hwriting : readCommandLine writing = .ok (o, some (.format { r with check := false, inplace := true })))
    (hwidth : r.width ≠ .empty)
    (hsettings : loadSettings env.disk env.folder ((o.config.filter (!·.isEmpty)).map Path.ofString) = .ok settings)
    (hfolder : DiskEntry.IsFolder env.disk.working env.disk.top)
    (hread : readText env.disk (Path.ofString r.file) = .ok text) :
    (run env checking).disk = env.disk ∧
      ((run env checking).ending = .finished 0 ∨ (run env checking).ending = .finished 1) ∧
      (run env writing).ending = .finished 0 ∧
      ((run env writing).disk.read (Path.ofString r.file) = env.disk.read (Path.ofString r.file) ↔
        (run env checking).ending = .finished 0 ∧ '\r' ∉ text) := by
  obtain ⟨lo, hlo, hgap⟩ :=
    Workbench.exists_layout ⟨env.disk, settings, logText env.time (env.logLevel o)⟩ hwidth
  have hformats : Formats env o r settings text lo := ⟨hsettings, hread, hlo, hgap⟩
  have hcheck := (hformats.mode true false).ending_run hchecking rfl rfl
  obtain ⟨hwrite, htext⟩ := (hformats.mode false true).rewritten hwriting rfl rfl hfolder
  refine ⟨disk_run_of_check hchecking rfl, ?_, hwrite, ?_⟩
  · rw [hcheck]
    split
    · exact .inl rfl
    · exact .inr rfl
  · have hkeeps : (run env writing).disk.read (Path.ofString r.file) = env.disk.read (Path.ofString r.file) ↔
        (formatDocument lo (normalizeNewlines text)).text = text := by
      rw [readText_eq_ok_iff.1 hread, ← readText_eq_ok_iff, htext, Except.ok.injEq]
    have hfound : (run env checking).ending = .finished 0 ↔
        (formatDocument lo (normalizeNewlines text)).text = normalizeNewlines text := by
      rw [hcheck]
      split <;> simp [*]
    rw [hkeeps, hfound]
    constructor
    · intro h
      have hreturn : '\r' ∉ text := by
        rw [← h]
        exact return_not_mem_formatDocument lo (return_not_mem_normalizeNewlines text)
      refine ⟨?_, hreturn⟩
      rw [h, normalizeNewlines_of_not_mem hreturn]
    · rintro ⟨h, hreturn⟩
      rw [h, normalizeNewlines_of_not_mem hreturn]

/-! ### A file with a list -/

/-- A folder with a text in its only file. -/
def listFolder (t : Text) : Environment where
  disk := ⟨.folder [("list.ebnf", .file (encodeUtf8 t))], []⟩
  time := ""

/-- What the file is formatted with. -/
def listRequest : FormatRequest where
  file := "list.ebnf"

theorem eq_ok_of_toOption {ε α : Type} {x : Except ε α} {a : α} (h : x.toOption = some a) : x = .ok a := by
  cases x with
  | error e => cases h
  | ok b => rw [Option.some.inj h]

theorem readCommandLine_checkList : readCommandLine ["format", "list.ebnf", "--check"] =
    .ok ({}, some (.format { listRequest with check := true, inplace := false })) := by
  apply eq_ok_of_toOption
  decide +kernel

theorem readCommandLine_rewriteList : readCommandLine ["format", "list.ebnf", "--inplace"] =
    .ok ({}, some (.format { listRequest with check := false, inplace := true })) := by
  apply eq_ok_of_toOption
  decide +kernel

theorem loadSettings_listFolder (t : Text) : loadSettings (listFolder t).disk (listFolder t).folder none = .ok {} := by
  refine loadSettings_of_missing fun n hn => ?_
  have hname : ∀ n ∈ configNames, Disk.IsName n ∧ n ≠ "list.ebnf" := by decide +kernel
  have hcontains := Disk.contains_name (hname n hn).1 .top [("list.ebnf", .file (encodeUtf8 t))]
  rw [DiskEntry.lookup_cons_eq_if, if_neg (hname n hn).2] at hcontains
  exact hcontains

theorem readText_listFolder (t : Text) : readText (listFolder t).disk (Path.ofString "list.ebnf") = .ok t := by
  have hpath : Path.ofString "list.ebnf" = ⟨.working, ["list.ebnf"]⟩ := by decide +kernel
  rw [hpath]
  exact readText_name (by decide +kernel) _ rfl

theorem isFolder_listFolder (t : Text) : DiskEntry.IsFolder (listFolder t).disk.working (listFolder t).disk.top :=
  ⟨_, rfl⟩

theorem formats_listFolder (t : Text) : Formats (listFolder t) {} listRequest {} t {} where
  loaded := loadSettings_listFolder t
  read := readText_listFolder t
  layout := rfl
  gap := by decide

theorem ending_checkList {t : Text} (ht : (formatDocument {} (normalizeNewlines t)).text = normalizeNewlines t) :
    (run (listFolder t) ["format", "list.ebnf", "--check"]).ending = .finished 0 := by
  rw [((formats_listFolder t).mode true false).ending_run readCommandLine_checkList rfl rfl, if_pos ht]

/-- A rule that is laid out as formatting does it. -/
def listRule : Text :=
  "list ::= item | list ',' item ;\n".toList

theorem rewrite_keeps_iff_listRule :
    (run (listFolder listRule) ["format", "list.ebnf", "--check"]).ending = .finished 0 ∧
      (run (listFolder listRule) ["format", "list.ebnf", "--inplace"]).disk.read (Path.ofString "list.ebnf") =
        (listFolder listRule).disk.read (Path.ofString "list.ebnf") := by
  have hcheck : (run (listFolder listRule) ["format", "list.ebnf", "--check"]).ending = .finished 0 :=
    ending_checkList (by decide +kernel)
  obtain ⟨-, -, -, hkeeps⟩ := rewrite_keeps_iff readCommandLine_checkList readCommandLine_rewriteList (by decide)
    (loadSettings_listFolder listRule) (isFolder_listFolder listRule) (readText_listFolder listRule)
  exact ⟨hcheck, hkeeps.2 ⟨hcheck, by decide +kernel⟩⟩

/-- The rule with the line end of another system. -/
def returnRule : Text :=
  "list ::= item ;\r\n".toList

/-- Checking finds nothing to change, and yet rewriting does not keep the file. -/
theorem returnRule_rewritten :
    (run (listFolder returnRule) ["format", "list.ebnf", "--check"]).ending = .finished 0 ∧
      (run (listFolder returnRule) ["format", "list.ebnf", "--inplace"]).disk.read (Path.ofString "list.ebnf") ≠
        (listFolder returnRule).disk.read (Path.ofString "list.ebnf") := by
  refine ⟨ending_checkList (by decide +kernel), fun heq => ?_⟩
  obtain ⟨-, hwritten⟩ := ((formats_listFolder returnRule).mode false true).rewritten readCommandLine_rewriteList rfl
    rfl (isFolder_listFolder returnRule)
  have hread : readText (listFolder returnRule).disk (Path.ofString "list.ebnf") =
      .ok (formatDocument {} (normalizeNewlines returnRule)).text := by
    rw [readText_eq_ok_iff, ← heq]
    exact readText_eq_ok_iff.1 hwritten
  rw [readText_listFolder, Except.ok.injEq] at hread
  revert hread
  decide +kernel

end Run

end GrammarText
