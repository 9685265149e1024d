import GrammarText.Text.Utf8
import Mathlib.Algebra.Group.Nat.Defs
import Mathlib.Tactic.SplitIfs

/-!
# Reading and writing UTF-8

Bytes are read as a text exactly if they are the bytes that writing the text gives (`decodeUtf8_eq_ok_iff`): the first
byte of a character fixes how many follow and, where fewer bytes would have done or no character has the number, bounds
the next one. So a file has the bytes of one text only, and writing back what was read changes nothing. What may
change it is the step between: `normalizeNewlines` keeps a text exactly if it has no carriage return.
-/

namespace GrammarText

/-! ### Characters -/

section Characters

variable {b : UInt8} {value missing low high v n : Nat} {bytes rest : List UInt8}

/-- The last bytes of the character with the number `v`, `missing` of them. -/
def utf8Rest (v : Nat) : Nat → List UInt8
  | 0 => []
  | missing + 1 => utf8Continuation (v / 64 ^ missing) :: utf8Rest v missing

theorem toNat_utf8Continuation (n : Nat) : (utf8Continuation n).toNat = 0x80 + n % 0x40 := by
  have hlt : 0x80 + n % 0x40 < 256 := by omega
  rw [utf8Continuation, UInt8.toNat_ofNat', Nat.mod_eq_of_lt hlt]

theorem eq_utf8Continuation (h : b.toNat = 0x80 + n % 0x40) : b = utf8Continuation n :=
  UInt8.toNat_inj.1 (h.trans (toNat_utf8Continuation n).symm)

/-- Whether the first of the last bytes is between the bounds, if there is one. -/
def RestWithin (low high v missing : Nat) : Prop :=
  missing ≠ 0 → low ≤ 0x80 + v / 64 ^ (missing - 1) % 64 ∧ 0x80 + v / 64 ^ (missing - 1) % 64 ≤ high

theorem utf8Tail_cons_eq_ok_iff {r : Nat × List UInt8} :
    utf8Tail value (missing + 1) low high (b :: bytes) = .ok r ↔
      (low ≤ b.toNat ∧ b.toNat ≤ high) ∧
        utf8Tail (value * 64 + (b.toNat - 0x80)) missing 0x80 0xbf bytes = .ok r := by
  rw [utf8Tail]
  split
  · rename_i hb
    cases utf8Tail (value * 64 + (b.toNat - 0x80)) missing 0x80 0xbf bytes <;> simp [hb]
  · rename_i hb
    simp [hb]

/-- Reading the rest of a character gives the number whose last bytes stand there. -/
theorem utf8Tail_eq_ok_iff (hb : missing ≠ 0 → 0x80 ≤ low ∧ high ≤ 0xbf) :
    utf8Tail value missing low high bytes = .ok (v, rest) ↔
      bytes = utf8Rest v missing ++ rest ∧ v / 64 ^ missing = value ∧ RestWithin low high v missing := by
  induction missing generalizing value low high bytes with
  | zero =>
    rw [utf8Tail, utf8Rest, List.nil_append, Nat.pow_zero, Nat.div_one, Except.ok.injEq, Prod.mk.injEq]
    exact ⟨fun h => ⟨h.2, h.1.symm, fun hne => absurd rfl hne⟩, fun h => ⟨h.2.1.symm, h.1⟩⟩
  | succ missing ih =>
    have hdiv : v / 64 ^ (missing + 1) = v / 64 ^ missing / 64 := by
      rw [Nat.pow_succ, Nat.div_div_eq_div_mul]
    cases bytes with
    | nil => simp [utf8Tail, utf8Rest]
    | cons b bytes =>
      obtain ⟨hlow, hhigh⟩ := hb (Nat.succ_ne_zero missing)
      rw [utf8Tail_cons_eq_ok_iff, ih fun _ => ⟨Nat.le_refl _, Nat.le_refl _⟩, utf8Rest, List.cons_append, List.cons.injEq, hdiv]
      constructor
      · rintro ⟨hb, hbytes, hv, -⟩
        have hbv : b.toNat = 0x80 + v / 64 ^ missing % 0x40 := by omega
        refine ⟨⟨eq_utf8Continuation hbv, hbytes⟩, by omega, fun _ => ?_⟩
        rwa [Nat.add_sub_cancel, ← hbv]
      · rintro ⟨⟨rfl, hbytes⟩, hv, hw⟩
        have hw := hw (Nat.succ_ne_zero missing)
        rw [Nat.add_sub_cancel] at hw
        rw [toNat_utf8Continuation]
        exact ⟨hw, hbytes, by omega, fun _ => by omega⟩

/-- What the first byte says about the next one is never less than that it continues a character. -/
theorem bounds_of_utf8Lead? {b : Nat} (h : utf8Lead? b = some (value, missing, low, high)) :
    b < 256 ∧ (missing ≠ 0 → 0x80 ≤ low ∧ high ≤ 0xbf) := by
  unfold utf8Lead? at h
  split_ifs at h <;> simp only [Option.some.injEq, Prod.mk.injEq] at h <;> omega

/-- How many bytes follow the first one of the character with the number `v`. -/
def utf8Missing (v : Nat) : Nat :=
  if v < 0x80 then 0 else if v < 0x800 then 1 else if v < 0x10000 then 2 else 3

/-- The bits by which a first byte says how many bytes follow. -/
def utf8Mark : Nat → Nat
  | 0 => 0
  | 1 => 0xc0
  | 2 => 0xe0
  | _ => 0xf0

theorem utf8Missing_cases (v : Nat) : (v < 0x80 ∧ utf8Missing v = 0) ∨ (0x80 ≤ v ∧ v < 0x800 ∧ utf8Missing v = 1) ∨
    (0x800 ≤ v ∧ v < 0x10000 ∧ utf8Missing v = 2) ∨ (0x10000 ≤ v ∧ utf8Missing v = 3) := by
  unfold utf8Missing
  split_ifs <;> omega

theorem utf8Bytes_eq (c : Char) : utf8Bytes c =
    UInt8.ofNat (utf8Mark (utf8Missing c.toNat) + c.toNat / 64 ^ utf8Missing c.toNat) ::
      utf8Rest c.toNat (utf8Missing c.toNat) := by
  obtain ⟨h, hm⟩ | ⟨h, h', hm⟩ | ⟨h, h', hm⟩ | ⟨h, hm⟩ := utf8Missing_cases c.toNat
  · rw [hm, utf8Bytes, if_pos h]
    simp [utf8Mark, utf8Rest]
  · rw [hm, utf8Bytes, if_neg (by omega), if_pos h']
    simp [utf8Mark, utf8Rest]
  · rw [hm, utf8Bytes, if_neg (by omega), if_neg (by omega), if_pos h']
    simp [utf8Mark, utf8Rest]
  · rw [hm, utf8Bytes, if_neg (by omega), if_neg (by omega), if_neg (by omega)]
    simp [utf8Mark, utf8Rest]

/-- A first byte, and bounds for the next that are kept, belong to one character. -/
theorem of_utf8Lead? {b : Nat} (h : utf8Lead? b = some (v / 64 ^ missing, missing, low, high))
    (hw : RestWithin low high v missing) :
    v.isValidChar ∧ utf8Missing v = missing ∧ utf8Mark missing + v / 64 ^ missing = b := by
  have hm := utf8Missing_cases v
  unfold utf8Lead? at h
  unfold RestWithin at hw
  -- one case for each row of the table
  split_ifs at h <;> simp only [Option.some.injEq, Prod.mk.injEq] at h <;> obtain ⟨hv, rfl, rfl, rfl⟩ := h <;>
    simp only [utf8Mark, Nat.isValidChar, Nat.reducePow, Nat.reduceSub, Nat.pow_zero, Nat.div_one] at hv hw ⊢ <;> omega

/-- The first byte of a character says what follows it. -/
theorem exists_utf8Lead? (hv : v.isValidChar) : ∃ low high,
    utf8Lead? (utf8Mark (utf8Missing v) + v / 64 ^ utf8Missing v) =
        some (v / 64 ^ utf8Missing v, utf8Missing v, low, high) ∧
      RestWithin low high v (utf8Missing v) := by
  unfold Nat.isValidChar at hv
  unfold RestWithin utf8Lead?
  obtain ⟨h, hm⟩ | ⟨h, h', hm⟩ | ⟨h, h', hm⟩ | ⟨h, hm⟩ := utf8Missing_cases v <;> rw [hm] <;>
    simp only [utf8Mark, Nat.reducePow, Nat.reduceSub, Nat.pow_zero, Nat.div_one]
  · refine ⟨0, 0, ?_, fun hne => absurd rfl hne⟩
    rw [if_pos (by omega), Nat.zero_add]
  · refine ⟨0x80, 0xbf, ?_, fun _ => by omega⟩
    rw [if_neg (by omega), if_pos (by omega), Nat.add_sub_cancel_left]
  · -- the first byte is one of the two that bound the next, or none of them
    by_cases hzero : v / 4096 = 0
    · refine ⟨0xa0, 0xbf, ?_, fun _ => by omega⟩
      rw [if_neg (by omega), if_neg (by omega), if_pos (by omega), hzero]
    by_cases hlast : v / 4096 = 0xd
    · refine ⟨0x80, 0x9f, ?_, fun _ => by omega⟩
      rw [if_neg (by omega), if_neg (by omega), if_neg (by omega), if_pos (by omega), hlast]
    · refine ⟨0x80, 0xbf, ?_, fun _ => by omega⟩
      rw [if_neg (by omega), if_neg (by omega), if_neg (by omega), if_neg (by omega), if_pos (by omega),
        Nat.add_sub_cancel_left]
  · by_cases hzero : v / 262144 = 0
    · refine ⟨0x90, 0xbf, ?_, fun _ => by omega⟩
      rw [if_neg (by omega), if_neg (by omega), if_neg (by omega), if_neg (by omega), if_neg (by omega),
        if_pos (by omega), hzero]
    by_cases hlast : v / 262144 = 4
    · refine ⟨0x80, 0x8f, ?_, fun _ => by omega⟩
      rw [if_neg (by omega), if_neg (by omega), if_neg (by omega), if_neg (by omega), if_neg (by omega),
        if_neg (by omega), if_neg (by omega), if_pos (by omega), hlast]
    · refine ⟨0x80, 0xbf, ?_, fun _ => by omega⟩
      rw [if_neg (by omega), if_neg (by omega), if_neg (by omega), if_neg (by omega), if_neg (by omega),
        if_neg (by omega), if_pos (by omega), Nat.add_sub_cancel_left]

theorem toNat_ofNat (hv : v.isValidChar) : (Char.ofNat v).toNat = v := by
  rw [Char.ofNat, dif_pos hv]
  rfl

end Characters

/-! ### Texts -/

/-- The bytes of a character are read as that character. -/
theorem decodeUtf8From_utf8Bytes (offset : Nat) (c : Char) (rest : List UInt8) : ∃ offset',
    decodeUtf8From offset (utf8Bytes c ++ rest) = (decodeUtf8From offset' rest).map (c :: ·) := by
  obtain ⟨low, high, hlead, hw⟩ := exists_utf8Lead? (show c.toNat.isValidChar from c.valid)
  obtain ⟨hlt, hb⟩ := bounds_of_utf8Lead? hlead
  have htail : utf8Tail (c.toNat / 64 ^ utf8Missing c.toNat) (utf8Missing c.toNat) low high
      (utf8Rest c.toNat (utf8Missing c.toNat) ++ rest) = .ok (c.toNat, rest) :=
    (utf8Tail_eq_ok_iff hb).2 ⟨rfl, rfl, hw⟩
  refine ⟨offset + utf8Missing c.toNat + 1, ?_⟩
  rw [utf8Bytes_eq, List.cons_append, decodeUtf8From, UInt8.toNat_ofNat', Nat.mod_eq_of_lt hlt]
  split
  · rename_i hnone
    rw [hlead] at hnone
    cases hnone
  · rename_i hsome
    rw [hlead] at hsome
    cases hsome
    split
    · rename_i herror
      rw [htail] at herror
      cases herror
    · rename_i hok
      rw [htail] at hok
      cases hok
      rw [Char.ofNat_toNat]

/-- Bytes are read as a text exactly if they are the bytes of the text. -/
theorem decodeUtf8From_eq_ok_iff {offset : Nat} {bytes : List UInt8} {t : Text} :
    decodeUtf8From offset bytes = .ok t ↔ bytes = encodeUtf8 t := by
  constructor
  · intro h
    fun_induction decodeUtf8From offset bytes generalizing t with
    | case1 => cases h; rfl
    | case2 => cases h
    | case3 => cases h
    | case4 offset b bytes value missing low high hlead v rest htail ih =>
      obtain ⟨rfl, rfl, hw⟩ := (utf8Tail_eq_ok_iff (bounds_of_utf8Lead? hlead).2).1 htail
      obtain ⟨hv, hm, hb⟩ := of_utf8Lead? hlead hw
      cases hrest : decodeUtf8From (offset + missing + 1) rest with
      | error e => simp [hrest, Except.map] at h
      | ok s =>
        obtain rfl : Char.ofNat v :: s = t := by simpa [hrest, Except.map] using h
        rw [encodeUtf8, List.flatMap_cons, utf8Bytes_eq, toNat_ofNat hv, hm, hb, UInt8.ofNat_toNat, ih hrest]
        rfl
  · rintro rfl
    induction t generalizing offset with
    | nil => rw [encodeUtf8, List.flatMap_nil, decodeUtf8From]
    | cons c t ih =>
      obtain ⟨offset', h⟩ := decodeUtf8From_utf8Bytes offset c (encodeUtf8 t)
      rw [encodeUtf8, List.flatMap_cons, ← encodeUtf8, h, ih]
      rfl

theorem decodeUtf8_eq_ok_iff {bytes : List UInt8} {t : Text} : decodeUtf8 bytes = .ok t ↔ bytes = encodeUtf8 t :=
  decodeUtf8From_eq_ok_iff

/-! ### Line ends -/

/-- No carriage return is left when line ends are written as line feeds. -/
theorem return_not_mem_normalizeNewlines (t : Text) : '\r' ∉ normalizeNewlines t := by
  fun_induction normalizeNewlines t with
  | case1 => exact List.not_mem_nil
  | case2 r ih =>
    rw [List.mem_cons, not_or]
    exact ⟨by decide, ih⟩
  | case3 c r hr ih =>
    rw [List.mem_cons, not_or]
    refine ⟨?_, ih⟩
    split
    · decide
    · rename_i hc
      exact fun heq => hc (beq_iff_eq.2 heq.symm)

theorem normalizeNewlines_of_not_mem {t : Text} (h : '\r' ∉ t) : normalizeNewlines t = t := by
  fun_induction normalizeNewlines t with
  | case1 => rfl
  | case2 r ih => exact absurd List.mem_cons_self h
  | case3 c r hr ih =>
    rw [List.mem_cons, not_or] at h
    rw [ih h.2, if_neg fun heq => h.1 (beq_iff_eq.1 heq).symm]

end GrammarText
