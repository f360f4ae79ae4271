import Mathlib.Algebra.Group.Nat.Defs
import TagLexer.Proofs.Text.Quoted
import TagLexer.Proofs.Toml.Reading

/-!
# Reading escaped text

Text between quotes is read character by character up to the quote that ends it. A backslash starts
an escape, whose form is left to a reader of its own, and the other characters stand for themselves.
Escapes by code point are hexadecimal numerals of a fixed width, which give back the number they
were written for (`Text.isCode_hex`).
-/

namespace TagLexer

open Toml (Found Reader Remainder)
open Toml.Reader (Reads)

/-- In a table without repeated keys exactly its entries are found. -/
theorem lookup_eq_some_iff_mem {α β : Type} [BEq α] [LawfulBEq α]
    {table : List (α × β)}
    (h : (table.map Prod.fst).Nodup) {a : α} {b : β} :
    table.lookup a = some b ↔ (a, b) ∈ table := by
  rw [List.lookup_eq_some_iff]
  constructor
  · rintro ⟨before, after, rfl, -⟩
    simp
  · intro hmem
    obtain ⟨before, after, rfl⟩ := List.append_of_mem hmem
    refine ⟨before, after, rfl, fun entry hentry => ?_⟩
    rw [List.map_append, List.map_cons] at h
    have hne := (List.nodup_append.mp h).2.2 entry.1 (List.mem_map_of_mem hentry) a
      List.mem_cons_self
    simpa using hne.symm

namespace Text

/-- The digits of numbers below sixteen are hexadecimal digits with these values. -/
theorem digitValue_digitChar {d : Nat} (h : d < 16) :
    digitValue d.digitChar = d ∧ isHexDigit d.digitChar = true := by
  have hall : (List.range 16).all fun d =>
      digitValue d.digitChar == d && isHexDigit d.digitChar := by decide
  have hd := List.all_eq_true.mp hall d (List.mem_range.mpr h)
  rw [Bool.and_eq_true, beq_iff_eq] at hd
  exact hd

/-- A further digit adds its value to the base times the value of the digits before it. -/
theorem valueIn_concat (base : Nat) (digits : Text) (d : Char) :
    valueIn base (digits ++ [d]) = valueIn base digits * base + digitValue d := by
  rw [valueIn, List.foldl_append]
  rfl

/-- Zeros in front do not change a value. -/
theorem valueIn_zeros_append (base k : Nat) (digits : Text) :
    valueIn base (List.replicate k '0' ++ digits) = valueIn base digits := by
  induction k with
  | zero => rfl
  | succ k ih =>
    have hzero : 0 * base + digitValue '0' = 0 := by
      rw [Nat.zero_mul]
      rfl
    rw [List.replicate_succ, List.cons_append, valueIn, List.foldl_cons, hzero]
    exact ih

/-- A hexadecimal numeral has the value of its number. -/
theorem valueIn_toDigits (n : Nat) : valueIn 16 (Nat.toDigits 16 n) = n := by
  induction n using Nat.strongRecOn with
  | ind n ih =>
    rw [Nat.toDigits_eq_if (by decide)]
    split
    · next hn =>
      have hvalue := valueIn_concat 16 [] n.digitChar
      rw [List.nil_append] at hvalue
      rw [hvalue, (digitValue_digitChar hn).1]
      exact Nat.zero_add n
    · next hn =>
      have hdigit := (digitValue_digitChar (Nat.mod_lt n (show 0 < 16 by decide))).1
      rw [valueIn_concat, ih (n / 16) (by omega), hdigit]
      omega

/-- Hexadecimal digits that give a number in a fixed width. -/
structure IsCode (width : Nat) (digits : Text) (n : Nat) : Prop where
  /-- There are as many digits as the width says. -/
  length : digits.length = width
  /-- All of them are hexadecimal digits. -/
  all : ∀ d ∈ digits, isHexDigit d = true
  /-- Their value is the number. -/
  value : digits.valueIn 16 = n

/-- The hexadecimal numeral of a number that is small enough for the width gives the number back. -/
theorem isCode_hex {width n : Nat} (hwidth : 0 < width) (hn : n < 16 ^ width) :
    IsCode width (hex width n) n := by
  have hlength : (Nat.toDigits 16 n).length ≤ width :=
    (Nat.length_toDigits_le_iff (by decide) hwidth).mpr hn
  refine ⟨?_, ?_, ?_⟩
  · rw [hex, padLeft, List.length_append, List.length_replicate]
    omega
  · intro d hd
    rcases List.mem_append.mp hd with hd | hd
    · rw [(List.mem_replicate.mp hd).2]
      decide
    · obtain ⟨k, hk, rfl⟩ := exists_digitChar_of_mem_toDigits (by decide) hd
      exact (digitValue_digitChar hk).2
  · rw [hex, padLeft, valueIn_zeros_append, valueIn_toDigits]

/-- The number that hexadecimal digits of a width give. -/
def code (width : Nat) : Reader Nat := do
  let digits ← Reader.count width isHexDigit
  return digits.valueIn 16

/-- Exactly the digits of a width are read as a number. -/
theorem reads_code_iff {width n : Nat} {s rest : Text} :
    Reads (code width) s n rest ↔ ∃ digits, digits ++ rest = s ∧ IsCode width digits n := by
  rw [code, Reader.reads_bind_iff]
  constructor
  · rintro ⟨digits, after, hcount, hreturn⟩
    obtain ⟨hsplit, hlength, hall⟩ := Reader.reads_count_iff.mp hcount
    obtain ⟨hvalue, rfl⟩ := Reader.reads_pure_iff.mp hreturn
    exact ⟨digits, hsplit, hlength, hall, hvalue⟩
  · rintro ⟨digits, hsplit, hcode⟩
    refine ⟨digits, rest, ?_, Reader.reads_pure_iff.mpr ⟨hcode.value, rfl⟩⟩
    exact Reader.reads_count_iff.mpr ⟨hsplit, hcode.length, hcode.all⟩

end Text

/-- A way to write text between quotes. -/
structure Escaping where
  /-- The quote that ends a text. -/
  quote : Char
  /-- The characters that stand for themselves. -/
  plain : Char → Bool
  /-- What an escape stands for, read behind its backslash. -/
  escape : Reader Char
  /-- A backslash ends no text. -/
  quote_ne : quote ≠ '\\'
  /-- Neither the quote nor the backslash stands for itself. -/
  plain_ne : ∀ c, plain c = true → c ≠ quote ∧ c ≠ '\\'

namespace Escaping

variable (e : Escaping)

/-- The text up to the quote that ends it. -/
def read : Reader Text
  | [] => .error .malformed
  | c :: rest =>
    if c = e.quote then .ok ([], (Remainder.whole rest).cons c)
    else if c = '\\' then
      match e.escape rest with
      | .error fault => .error fault
      | .ok (d, r) =>
        match read r.text with
        | .error fault => .error fault
        | .ok (more, r') => .ok (d :: more, (r.trans r').cons c)
    else if e.plain c then
      match read rest with
      | .error fault => .error fault
      | .ok (more, r) => .ok (c :: more, r.cons c)
    else .error .malformed
termination_by s => s.length
decreasing_by
  · have := r.le
    simp only [List.length_cons]
    omega
  · simp

variable {e}

/-- The quote ends the text. -/
theorem reads_quote (rest : Text) : Reads e.read (e.quote :: rest) [] rest := by
  refine ⟨(Remainder.whole rest).cons e.quote, ?_, rfl⟩
  rw [read, if_pos rfl]

/-- A plain character stands for itself. -/
theorem reads_plain {c : Char} {s text rest : Text} (hc : e.plain c = true)
    (h : Reads e.read s text rest) : Reads e.read (c :: s) (c :: text) rest := by
  obtain ⟨r, hr, rfl⟩ := h
  obtain ⟨hquote, hbackslash⟩ := e.plain_ne c hc
  refine ⟨r.cons c, ?_, rfl⟩
  rw [read, if_neg hquote, if_neg hbackslash, if_pos hc, hr]

/-- A backslash and an escape stand for what the escape gives. -/
theorem reads_escape {c : Char} {s after text rest : Text} (hc : Reads e.escape s c after)
    (h : Reads e.read after text rest) : Reads e.read ('\\' :: s) (c :: text) rest := by
  obtain ⟨r, hr, rfl⟩ := hc
  obtain ⟨r', hr', rfl⟩ := h
  refine ⟨(r.trans r').cons '\\', ?_, rfl⟩
  rw [read, if_neg e.quote_ne.symm, if_pos rfl, hr]
  simp only [hr']

/-- Text is read in these three ways only. -/
theorem reads_cases {s text rest : Text} (h : Reads e.read s text rest) :
    (text = [] ∧ s = e.quote :: rest) ∨
      (∃ c s' more, s = c :: s' ∧ text = c :: more ∧ e.plain c = true ∧
        Reads e.read s' more rest) ∨
      ∃ c s' after more, s = '\\' :: s' ∧ text = c :: more ∧ Reads e.escape s' c after ∧
        Reads e.read after more rest := by
  obtain ⟨r, hr, rfl⟩ := h
  cases s with
  | nil => simp [read] at hr
  | cons c s =>
    rw [read] at hr
    split at hr
    · next hquote =>
      obtain ⟨rfl, rfl⟩ := Prod.mk.inj (Except.ok.inj hr)
      exact .inl ⟨rfl, by rw [hquote]; rfl⟩
    split at hr
    · next hbackslash =>
      split at hr
      · cases hr
      next d r₁ hescape =>
      split at hr
      · cases hr
      next more r₂ hread =>
      obtain ⟨rfl, rfl⟩ := Prod.mk.inj (Except.ok.inj hr)
      exact .inr (.inr ⟨d, s, r₁.text, more, by rw [hbackslash], rfl, ⟨r₁, hescape, rfl⟩,
        ⟨r₂, hread, rfl⟩⟩)
    split at hr
    · next hplain =>
      split at hr
      · cases hr
      next more r₁ hread =>
      obtain ⟨rfl, rfl⟩ := Prod.mk.inj (Except.ok.inj hr)
      exact .inr (.inl ⟨c, s, more, rfl, rfl, hplain, ⟨r₁, hread, rfl⟩⟩)
    · cases hr

end Escaping

end TagLexer
