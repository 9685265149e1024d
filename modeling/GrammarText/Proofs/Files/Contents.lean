import GrammarText.Command.Failure
import GrammarText.Proofs.Files.Disk
import GrammarText.Proofs.Files.Path
import GrammarText.Proofs.Text.Utf8

/-!
# Texts in files

A file holds a text in UTF-8. A text is read exactly from the bytes that encode it (`readText_eq_ok_iff`), so what was
written is read back (`readText_of_writeText`). A command reads the file that it is given by the written form of its path,
and takes every line end in it for a line feed (`readNamedSource_of_readText`).
-/

namespace GrammarText

/-- Telling an error in other words lets pass what passed. -/
theorem mapError_eq_ok_iff {ε ε' α : Type} {x : Except ε α} {a : α} {f : ε → ε'} : x.mapError f = .ok a ↔ x = .ok a := by
  cases x <;> simp [Except.mapError]

section Texts

variable {d d' : Disk} {p : Path} {text old : Text}

theorem readText_eq_ok_iff : readText d p = .ok text ↔ d.read p = .ok (encodeUtf8 text) := by
  unfold readText
  cases hread : d.read p with
  | error e => simp
  | ok bytes =>
    dsimp only
    rw [mapError_eq_ok_iff, decodeUtf8_eq_ok_iff, Except.ok.injEq]

/-- A text that is filed under a name of the top folder is read from there. -/
theorem readText_name {n : String} {es : List (String × DiskEntry)} (h : Disk.IsName n) (s : PathStart)
    (hfile : es.lookup n = some (.file (encodeUtf8 text))) : readText ⟨.folder es, []⟩ ⟨s, [n]⟩ = .ok text :=
  readText_eq_ok_iff.2 (Disk.read_name h s hfile)

theorem writeText_eq_ok_iff : writeText d p text = .ok d' ↔ d.write p (encodeUtf8 text) = .ok d' := by
  unfold writeText
  cases d.write p (encodeUtf8 text) with
  | ok d => simp
  | error e =>
    refine iff_of_false ?_ (by simp)
    dsimp only
    split <;> simp

/-- A text that was written to a path is read from it. -/
theorem readText_of_writeText (h : writeText d p text = .ok d') : readText d' p = .ok text :=
  readText_eq_ok_iff.2 (Disk.read_of_write (writeText_eq_ok_iff.1 h))

/-- A file whose text can be read can be written. -/
theorem writeText_of_readText (hw : DiskEntry.IsFolder d.working d.top) (h : readText d p = .ok old) (text : Text) :
    ∃ d', writeText d p text = .ok d' := by
  obtain ⟨d', hd⟩ := Disk.write_of_read hw (readText_eq_ok_iff.1 h) (encodeUtf8 text)
  exact ⟨d', writeText_eq_ok_iff.2 hd⟩

/-- A grammar is read with its line ends written as line feeds. -/
theorem readNamedSource_of_readText {name : String} (h : readText d (Path.ofString name) = .ok text) :
    readNamedSource d name = .ok ⟨(Path.ofString name).toString.toList, normalizeNewlines text⟩ := by
  have hcontains := Disk.contains_of_read (readText_eq_ok_iff.1 h)
  unfold readNamedSource
  simp only [hcontains]
  unfold readSource
  rw [Path.ofString_toString_ofString, h]

end Texts

end GrammarText
