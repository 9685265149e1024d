import GrammarText.Files.Disk
import Mathlib.Data.List.Basic

/-!
# Reading what was written

Writing to a path puts a file where the path leads, and a path leads there through folders only. A file that is put
where no folder is leaves every folder a folder (`IsFolder.put`), so the path leads to the same place afterwards
(`Disk.follow_of_folders`) and the bytes are read back (`Disk.read_of_write`). A file that can be read can be written
(`Disk.write_of_read`), as long as the working folder is a folder. A single name leads to the entry of the top folder
that has it (`Disk.resolve_name`).
-/

namespace GrammarText

/-! ### Folders -/

namespace DiskEntry

variable {e f : DiskEntry} {names ns : List String} {n m : String} {es : List (String × DiskEntry)} {bytes : List UInt8}

/-- Whether the names lead to a folder. -/
def IsFolder (names : List String) (e : DiskEntry) : Prop :=
  ∃ es, at? names e = some (.folder es)

@[simp] theorem at?_nil (e : DiskEntry) : at? [] e = some e := rfl

theorem at?_cons (n : String) (ns : List String) (e : DiskEntry) : at? (n :: ns) e = (e.child? n).bind (at? ns) := rfl

theorem at?_append (ns ms : List String) (e : DiskEntry) : at? (ns ++ ms) e = (at? ns e).bind (at? ms) := by
  induction ns generalizing e with
  | nil => rfl
  | cons n ns ih =>
    rw [List.cons_append, at?_cons, at?_cons]
    cases e.child? n with
    | none => rfl
    | some c => exact ih c

theorem at?_concat (h : at? names e = some (.folder es)) (n : String) : at? (names ++ [n]) e = es.lookup n := by
  rw [at?_append, h, Option.bind_some, at?_cons, child?]
  cases es.lookup n <;> rfl

/-- Whatever has a name on the way is a folder. -/
theorem isFolder_of_append (h : (at? (ns ++ n :: names) e).isSome) : IsFolder ns e := by
  rw [at?_append] at h
  unfold IsFolder
  cases hns : at? ns e with
  | none => simp [hns] at h
  | some f =>
    cases f with
    | file bytes => simp [hns, at?_cons, child?] at h
    | folder es => exact ⟨es, rfl⟩

theorem IsFolder.exists_eq (h : IsFolder ns e) : ∃ es, e = .folder es := by
  cases ns with
  | nil =>
    obtain ⟨es, hes⟩ := h
    exact ⟨es, by simpa using hes⟩
  | cons n ns =>
    obtain ⟨es, hes⟩ := h
    cases e with
    | file b => simp [at?_cons, child?] at hes
    | folder es => exact ⟨es, rfl⟩

theorem isFolder_cons : IsFolder (n :: ns) (.folder es) ↔ ∃ f, es.lookup n = some f ∧ IsFolder ns f := by
  unfold IsFolder
  rw [at?_cons, child?]
  cases es.lookup n <;> simp

theorem IsFolder.dropLast (h : IsFolder names e) : IsFolder names.dropLast e := by
  rcases List.eq_nil_or_concat' names with rfl | ⟨before, last, rfl⟩
  · exact h
  · rw [List.dropLast_concat]
    obtain ⟨es, hes⟩ := h
    apply isFolder_of_append
    rw [hes]
    rfl

theorem lookup_cons_eq_if (m k : String) (f : DiskEntry) (es : List (String × DiskEntry)) :
    ((k, f) :: es).lookup m = if m = k then some f else es.lookup m := by
  by_cases h : m = k
  · rw [if_pos h, h, List.lookup_cons_self]
  · rw [if_neg h, List.lookup_cons, beq_false_of_ne h]

theorem lookup_setChild (n m : String) (f : DiskEntry) (es : List (String × DiskEntry)) :
    (setChild n f es).lookup m = if m = n then some f else es.lookup m := by
  induction es with
  | nil => exact lookup_cons_eq_if m n f []
  | cons d es ih =>
    obtain ⟨k, g⟩ := d
    unfold setChild
    split
    · rename_i hk
      subst hk
      rw [lookup_cons_eq_if, lookup_cons_eq_if]
      split <;> rfl
    · rename_i hk
      rw [lookup_cons_eq_if, lookup_cons_eq_if, ih]
      by_cases hm : m = k
      · have hmn : m ≠ n := fun heq => hk (hm ▸ heq)
        rw [if_pos hm, if_neg hmn, if_pos hm]
      · rw [if_neg hm, if_neg hm]

theorem at?_put (bytes : List UInt8) (names : List String) (e : DiskEntry) :
    at? names (e.put bytes names) = some (.file bytes) := by
  induction names generalizing e with
  | nil => rfl
  | cons n ns ih =>
    cases e with
    | file b => simp [put, at?_cons, child?, ih]
    | folder es => simp [put, at?_cons, child?, lookup_setChild, ih]

/-- A file put where no folder is leaves every folder a folder. -/
theorem IsFolder.put (h : IsFolder ns e) (hn : ¬IsFolder names e) : IsFolder ns (e.put bytes names) := by
  obtain ⟨es, rfl⟩ := h.exists_eq
  induction names generalizing ns es with
  | nil => exact absurd ⟨es, rfl⟩ hn
  | cons n names ih =>
    unfold DiskEntry.put
    cases ns with
    | nil => exact ⟨_, rfl⟩
    | cons m ns =>
      obtain ⟨f, hf, hns⟩ := isFolder_cons.1 h
      rw [isFolder_cons, lookup_setChild]
      by_cases hm : m = n
      · rw [if_pos hm, ← hm, hf, Option.getD_some]
        obtain ⟨fs, rfl⟩ := hns.exists_eq
        refine ⟨_, rfl, ih fs hns fun hnames => hn ?_⟩
        rw [← hm]
        exact isFolder_cons.2 ⟨_, hf, hnames⟩
      · rw [if_neg hm]
        exact ⟨f, hf, hns⟩

end DiskEntry

/-! ### Following a path -/

namespace Disk

open DiskEntry

variable {d d' : Disk} {p : Path} {done names ns : List String} {n : String} {bytes : List UInt8}

theorem follow_nil_eq_ok_iff : d.follow done [] = .ok names ↔ (at? done d.top).isSome ∧ names = done := by
  unfold follow
  split
  · rename_i h
    simp [h, eq_comm]
  · rename_i h
    simp [h]

/-- One step on the way: a name in a folder, or the folder above. -/
theorem follow_cons_eq_ok_iff : d.follow done (n :: ns) = .ok names ↔ IsFolder done d.top ∧
    n.utf8ByteSize ≤ maxNameBytes ∧ d.follow (if n = ".." then done.dropLast else done ++ [n]) ns = .ok names := by
  rw [follow]
  unfold IsFolder
  split
  · rename_i h
    simp [h]
  · rename_i h
    simp [h]
  · rename_i es h
    by_cases hn : n.utf8ByteSize > maxNameBytes
    · rw [if_pos hn]
      refine iff_of_false (by simp) fun hstep => ?_
      omega
    · have hle : n.utf8ByteSize ≤ maxNameBytes := by omega
      rw [if_neg hn]
      split <;> simp [hle, h]

/-- The last step of the way. -/
theorem follow_concat_eq_ok_iff : d.follow done (ns ++ [n]) = .ok names ↔ ∃ before, d.follow done ns = .ok before ∧
    IsFolder before d.top ∧ n.utf8ByteSize ≤ maxNameBytes ∧
    names = (if n = ".." then before.dropLast else before ++ [n]) ∧ (at? names d.top).isSome := by
  induction ns generalizing done with
  | nil =>
    rw [List.nil_append, follow_cons_eq_ok_iff, follow_nil_eq_ok_iff]
    constructor
    · rintro ⟨hfolder, hsize, hsome, rfl⟩
      obtain ⟨es, hes⟩ := hfolder
      exact ⟨done, follow_nil_eq_ok_iff.2 ⟨by rw [hes]; rfl, rfl⟩, ⟨es, hes⟩, hsize, rfl, hsome⟩
    · rintro ⟨before, hbefore, hfolder, hsize, rfl, hsome⟩
      obtain ⟨-, rfl⟩ := follow_nil_eq_ok_iff.1 hbefore
      exact ⟨hfolder, hsize, hsome, rfl⟩
  | cons m ns ih =>
    rw [List.cons_append, follow_cons_eq_ok_iff, ih]
    constructor
    · rintro ⟨hdone, hm, before, hbefore, hrest⟩
      exact ⟨before, follow_cons_eq_ok_iff.2 ⟨hdone, hm, hbefore⟩, hrest⟩
    · rintro ⟨before, hbefore, hrest⟩
      obtain ⟨hdone, hm, hbefore⟩ := follow_cons_eq_ok_iff.1 hbefore
      exact ⟨hdone, hm, before, hbefore, hrest⟩

/-- A path to a folder leads there again if the folders of the disk stay folders. -/
theorem follow_of_folders (hd : ∀ ms, IsFolder ms d.top → IsFolder ms d'.top) (h : d.follow done ns = .ok names)
    (hn : IsFolder names d.top) : d'.follow done ns = .ok names := by
  induction ns generalizing done with
  | nil =>
    obtain ⟨-, rfl⟩ := follow_nil_eq_ok_iff.1 h
    obtain ⟨es, hes⟩ := hd names hn
    exact follow_nil_eq_ok_iff.2 ⟨by rw [hes]; rfl, rfl⟩
  | cons n ns ih =>
    obtain ⟨hdone, hsize, hrest⟩ := follow_cons_eq_ok_iff.1 h
    exact follow_cons_eq_ok_iff.2 ⟨hd done hdone, hsize, ih hrest⟩

/-! ### Writing and reading -/

theorem read_eq_ok_iff : d.read p = .ok bytes ↔
    ∃ names, d.resolve p = .ok names ∧ at? names d.top = some (.file bytes) := by
  unfold read
  split
  · rename_i h
    simp [h]
  · rename_i names h
    split <;> rename_i hat <;> simp [h, hat]

/-- What can be read exists. -/
theorem contains_of_read (h : d.read p = .ok bytes) : d.contains p = .ok true := by
  obtain ⟨names, hnames, -⟩ := read_eq_ok_iff.1 h
  unfold contains
  rw [hnames]

/-- The disk can tell whether a path leads anywhere, unless a name on the way, or the path, is too long. -/
theorem exists_contains_iff : (∃ b, d.contains p = .ok b) ↔ d.resolve p ≠ .error .nameTooLong := by
  unfold contains
  cases d.resolve p with
  | ok names => simp
  | error f => cases f <;> simp

theorem resolve_eq_ok_iff : d.resolve p = .ok names ↔
    refused? p = none ∧ d.follow (d.origin p) p.parts = .ok names := by
  unfold resolve
  split <;> rename_i h <;> simp [h]

/-! ### Names in the top folder -/

/-- A name by which the disk looks for an entry of a folder. -/
def IsName (n : String) : Prop :=
  '\x00' ∉ n.toList ∧ n.utf8ByteSize ≤ maxNameBytes ∧ n ≠ ".."

instance (n : String) : Decidable (IsName n) :=
  inferInstanceAs (Decidable (_ ∧ _))

theorem refused?_eq_none_iff :
    refused? p = none ↔ '\x00' ∉ p.toString.toList ∧ p.toString.utf8ByteSize ≤ maxPathBytes := by
  unfold refused?
  simp only [String.contains_char_eq, decide_eq_true_eq]
  split
  · rename_i hnull
    exact iff_of_false (by simp) fun h => h.1 hnull
  · rename_i hnull
    split
    · rename_i hsize
      exact iff_of_false (by simp) fun h => absurd h.2 (Nat.not_le.2 hsize)
    · rename_i hsize
      exact iff_of_true rfl ⟨hnull, Nat.not_lt.1 hsize⟩

theorem origin_eq_nil (es : List (String × DiskEntry)) (p : Path) : origin ⟨.folder es, []⟩ p = [] := by
  unfold origin
  split <;> rfl

theorem refused?_name (h : IsName n) (s : PathStart) : refused? ⟨s, [n]⟩ = none := by
  have hpath : Path.toString ⟨s, [n]⟩ = if (s.slashes ++ n).isEmpty then "." else s.slashes ++ n := by
    simp [Path.toString]
  have hslashes : '\x00' ∉ s.slashes.toList ∧ s.slashes.utf8ByteSize ≤ 2 := by
    cases s <;> decide +kernel
  rw [refused?_eq_none_iff, hpath]
  split
  · decide +kernel
  · rw [String.toList_append, String.utf8ByteSize_append, List.mem_append, not_or]
    have hsize := h.2.1
    unfold maxNameBytes at hsize
    unfold maxPathBytes
    exact ⟨⟨hslashes.1, h.1⟩, by omega⟩

/-- A name leads to the entry that has it. -/
theorem resolve_name (h : IsName n) (s : PathStart) (es : List (String × DiskEntry)) :
    resolve ⟨.folder es, []⟩ ⟨s, [n]⟩ = if (es.lookup n).isSome then .ok [n] else .error .missing := by
  have hlookup : at? [n] (.folder es) = es.lookup n := at?_concat (at?_nil _) n
  unfold resolve
  rw [refused?_name h, origin_eq_nil, ← hlookup]
  simp only [follow, at?_nil, if_neg h.2.2, if_neg (Nat.not_lt.2 h.2.1), List.nil_append]

theorem contains_name (h : IsName n) (s : PathStart) (es : List (String × DiskEntry)) :
    contains ⟨.folder es, []⟩ ⟨s, [n]⟩ = .ok (es.lookup n).isSome := by
  unfold contains
  rw [resolve_name h]
  cases es.lookup n <;> rfl

theorem read_name (h : IsName n) (s : PathStart) {es : List (String × DiskEntry)}
    (hfile : es.lookup n = some (.file bytes)) : read ⟨.folder es, []⟩ ⟨s, [n]⟩ = .ok bytes := by
  refine read_eq_ok_iff.2 ⟨[n], by rw [resolve_name h, hfile]; rfl, ?_⟩
  rw [← hfile]
  exact at?_concat (at?_nil _) n

/-! ### Places -/

/-- A place for a file: a name in a folder, which is no folder itself. -/
structure Place (d : Disk) (folder : List String) (n : String) : Prop where
  isFolder : IsFolder folder d.top
  size : n.utf8ByteSize ≤ maxNameBytes
  notFolder : ¬IsFolder (folder ++ [n]) d.top

theorem Place.target {before folder : List String} (hp : d.Place folder n) (hr : refused? p = none)
    (hparts : p.parts = before ++ [n]) (hn : n ≠ "..") (hf : d.follow (d.origin p) before = .ok folder) :
    d.target p = .ok (folder ++ [n]) := by
  obtain ⟨es, hes⟩ := hp.isFolder
  have hsize := hp.size
  have hnot := hp.notFolder
  unfold IsFolder at hnot
  rw [at?_concat hes] at hnot
  unfold Disk.target
  rw [hr, hparts, List.getLast?_concat, List.dropLast_concat, hf]
  dsimp only
  split
  · rename_i heq
    cases heq
  · rename_i heq
    exact absurd (by simpa using heq) hn
  · rename_i m _ heq
    obtain rfl : n = m := by simpa using heq
    dsimp only [bind, Except.bind]
    rw [hes]
    dsimp only
    rw [if_neg (by omega)]
    split
    · rename_i fs hfs
      exact absurd ⟨fs, hfs⟩ hnot
    · rfl

/-- Writing to a path makes or replaces the entry of a folder. -/
theorem place_of_target (h : d.target p = .ok names) : refused? p = none ∧ ∃ before n folder,
    p.parts = before ++ [n] ∧ n ≠ ".." ∧ d.follow (d.origin p) before = .ok folder ∧ d.Place folder n ∧
      names = folder ++ [n] := by
  unfold target at h
  split at h
  · cases h
  · rename_i hr
    refine ⟨hr, ?_⟩
    split at h
    · cases h
    · cases hf : d.follow (d.origin p) p.parts <;> rw [hf] at h <;> cases h
    · rename_i n hup hlast
      obtain ⟨before, hparts⟩ := List.getLast?_eq_some_iff.1 hlast
      rw [hparts, List.dropLast_concat] at h
      cases hf : d.follow (d.origin p) before with
      | error f => rw [hf] at h; cases h
      | ok folder =>
        rw [hf] at h
        dsimp only [bind, Except.bind] at h
        split at h
        · rename_i es hes
          split at h
          · cases h
          · split at h
            · cases h
            · rename_i hsize hnot
              cases h
              refine ⟨before, n, folder, hparts, hup, hf, ⟨⟨es, hes⟩, by omega, ?_⟩, rfl⟩
              rintro ⟨fs, hfs⟩
              rw [at?_concat hes] at hfs
              exact hnot fs hfs
        · cases h

/-- What was written to a path is read from it. -/
theorem read_of_write (h : d.write p bytes = .ok d') : d'.read p = .ok bytes := by
  unfold write at h
  split at h
  · cases h
  · rename_i names hnames
    cases h
    obtain ⟨hr, before, n, folder, hparts, hn, hf, hp, rfl⟩ := place_of_target hnames
    have hfolders : ∀ ms, IsFolder ms d.top → IsFolder ms (d.top.put bytes (folder ++ [n])) :=
      fun ms hms => hms.put hp.notFolder
    apply read_eq_ok_iff.2
    refine ⟨folder ++ [n], resolve_eq_ok_iff.2 ⟨hr, ?_⟩, at?_put bytes _ d.top⟩
    rw [hparts]
    refine follow_concat_eq_ok_iff.2 ⟨folder, follow_of_folders hfolders hf hp.isFolder, hfolders folder hp.isFolder,
      hp.size, by rw [if_neg hn], ?_⟩
    rw [at?_put]
    rfl

theorem isFolder_origin (hw : IsFolder d.working d.top) (p : Path) : IsFolder (d.origin p) d.top := by
  obtain ⟨es, hes⟩ := hw.exists_eq
  unfold origin
  split
  · exact hw
  · exact ⟨es, by rw [at?_nil, hes]⟩

/-- A file that can be read can be written. -/
theorem write_of_read {old : List UInt8} (hw : IsFolder d.working d.top) (h : d.read p = .ok old)
    (bytes : List UInt8) : ∃ d', d.write p bytes = .ok d' := by
  obtain ⟨names, hnames, hfile⟩ := read_eq_ok_iff.1 h
  obtain ⟨hr, hf⟩ := resolve_eq_ok_iff.1 hnames
  have hnot : ¬IsFolder names d.top := by
    rintro ⟨es, hes⟩
    rw [hfile] at hes
    cases hes
  rcases List.eq_nil_or_concat' p.parts with hparts | ⟨before, n, hparts⟩
  · -- the path of a folder
    rw [hparts] at hf
    obtain ⟨-, rfl⟩ := follow_nil_eq_ok_iff.1 hf
    exact absurd (isFolder_origin hw p) hnot
  · rw [hparts] at hf
    obtain ⟨folder, hfolder, hisFolder, hsize, rfl, -⟩ := follow_concat_eq_ok_iff.1 hf
    by_cases hup : n = ".."
    · rw [if_pos hup] at hnot
      exact absurd hisFolder.dropLast hnot
    · rw [if_neg hup] at hnot
      have hplace : d.Place folder n := ⟨hisFolder, hsize, hnot⟩
      unfold write
      rw [hplace.target hr hparts hup hfolder]
      exact ⟨_, rfl⟩

end Disk

end GrammarText
