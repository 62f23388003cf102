import Std.Data.String.ToInt
import TreeCheck.Proofs.Text.Quoted
import TreeCheck.Proofs.Tree.Alike

/-!
# The texts of literals

The characters of a literal's text tell which of the five sorts of literal it is.  Only a
quoted text holds a quote.  An integer is made of digits and a sign; a double has a point,
a power of ten or a word besides; and the letters of `null`, `true` and `false` do not all
occur in doubles.

So literals with one text are alike, and of two doubles no more is known than that they
have one text (`LiteralValue.text_eq_iff`).
-/

namespace TreeCheck

open Text (MadeOf isWordChar isInline)

/-! ## Numbers -/

def isNumeral (c : Char) : Bool := c.isDigit || c == '-'

def isFloatChar (c : Char) : Bool := isNumeral c || ['.', 'e', 'N', 'a', 'i', 'n', 'f'].contains c

theorem isNumeral_of_isDigit (c : Char) (h : c.isDigit = true) : isNumeral c = true := by
  simp [isNumeral, h]

theorem isFloatChar_of_isNumeral (c : Char) (h : isNumeral c = true) : isFloatChar c = true := by
  simp [isFloatChar, h]

theorem isWordChar_of_isFloatChar (c : Char) (h : isFloatChar c = true) : isWordChar c = true := by
  simp only [isFloatChar, isNumeral, Bool.or_eq_true, beq_iff_eq, List.contains_eq_mem,
    decide_eq_true_eq] at h
  obtain (h | rfl) | h := h
  · exact Text.isWordChar_of_isDigit c h
  · decide
  · have word : MadeOf isWordChar ['.', 'e', 'N', 'a', 'i', 'n', 'f'] := by decide
    exact word c h

theorem digits_repr (n : Nat) : MadeOf Char.isDigit n.repr.toList := by
  intro c hc
  rw [Nat.toList_repr] at hc
  exact Nat.isDigit_of_mem_toDigits (by decide) (by decide) hc

theorem numeral_repr (i : Int) : MadeOf isNumeral i.repr.toList := by
  rw [Int.repr_eq_if]
  split
  · exact (digits_repr _).imp isNumeral_of_isDigit
  · have sign : MadeOf isNumeral ['-'] := by decide
    rw [String.toList_append]
    exact sign.append ((digits_repr _).imp isNumeral_of_isDigit)

/-- The text of a double: there is more in it than digits and signs. -/
structure FloatText (cs : List Char) : Prop where
  chars : MadeOf isFloatChar cs
  mark : ¬ MadeOf isNumeral cs

theorem FloatText.append_right {cs ds : List Char} (h : FloatText cs) (hd : MadeOf isFloatChar ds) :
    FloatText (cs ++ ds) :=
  ⟨h.chars.append hd, fun hn => h.mark (hn.subset (List.subset_append_left cs ds))⟩

theorem FloatText.append_left {cs ds : List Char} (h : FloatText cs) (hd : MadeOf isFloatChar ds) :
    FloatText (ds ++ cs) :=
  ⟨hd.append h.chars, fun hn => h.mark (hn.subset (List.subset_append_right ds cs))⟩

theorem FloatText.ne_nil {cs : List Char} (h : FloatText cs) : cs ≠ [] := by
  rintro rfl
  exact h.mark nofun

namespace Decimal

theorem floatChars_coefficient (d : Decimal) : MadeOf isFloatChar d.coefficient.repr.toList :=
  (digits_repr _).imp fun c hc => isFloatChar_of_isNumeral c (isNumeral_of_isDigit c hc)

theorem floatChars_zeros (n : Nat) : MadeOf isFloatChar (zeros n).toList := by
  intro c hc
  rw [zeros, String.toList_ofList] at hc
  rw [List.eq_of_mem_replicate hc]
  decide

theorem floatText_positional (d : Decimal) : FloatText d.positional.toList := by
  have digits := d.floatChars_coefficient
  unfold positional
  split
  · have tail : FloatText ['.', '0'] := ⟨by decide, by decide⟩
    rw [String.toList_append, String.toList_append]
    exact tail.append_left (digits.append (floatChars_zeros _))
  · split
    · have point : FloatText ['.'] := ⟨by decide, by decide⟩
      simp only [String.toList_append, String.toList_ofList]
      exact (point.append_left (digits.subset (List.take_subset _ _))).append_right
        (digits.subset (List.drop_subset _ _))
    · have start : FloatText ['0', '.'] := ⟨by decide, by decide⟩
      rw [String.toList_append, String.toList_append]
      exact (start.append_right (floatChars_zeros _)).append_right digits

theorem floatChars_fraction {digits : List Char} (h : MadeOf isFloatChar digits) :
    MadeOf isFloatChar (if digits.isEmpty then "" else "." ++ String.ofList digits).toList := by
  split
  · nofun
  · have point : MadeOf isFloatChar ['.'] := by decide
    simp only [String.toList_append, String.toList_ofList]
    exact point.append h

theorem floatText_scientific (d : Decimal) : FloatText d.scientific.toList := by
  have digits := d.floatChars_coefficient
  have letter : FloatText ['e'] := ⟨by decide, by decide⟩
  have power := letter.append_right ((numeral_repr d.leadingExponent).imp isFloatChar_of_isNumeral)
  have others := floatChars_fraction (digits.subset (List.drop_subset 1 _))
  simp only [scientific, String.toList_append, String.toList_ofList, List.append_assoc]
  exact (power.append_left others).append_left (digits.subset (List.take_subset _ _))

end Decimal

theorem Binary64.floatText (x : Binary64) : FloatText (x.text LiteralValue.floatLayout).toList := by
  have sign : MadeOf isFloatChar (if x.isNegative then "-" else "").toList := by
    split
    · decide
    · nofun
  unfold Binary64.text
  split
  · exact ⟨by decide, by decide⟩
  · rw [String.toList_append]
    apply FloatText.append_left ?_ sign
    split
    · exact ⟨by decide, by decide⟩
    · split
      · exact ⟨by decide, by decide⟩
      · unfold Decimal.text
        split
        · exact Decimal.floatText_positional _
        · exact Decimal.floatText_scientific _

/-! ## The sorts of literals -/

inductive LiteralSort where
  | null
  | bool
  | int
  | float
  | str
  deriving DecidableEq

def LiteralValue.sort : LiteralValue → LiteralSort
  | .null => .null
  | .bool _ => .bool
  | .int _ => .int
  | .float _ => .float
  | .str _ => .str

/-- The sort of a literal by the characters of its text. -/
def LiteralSort.ofText (cs : List Char) : LiteralSort :=
  if '"' ∈ cs then .str
  else if MadeOf isNumeral cs then .int
  else if MadeOf isFloatChar cs then .float
  else if 'l' ∈ cs ∧ 'u' ∈ cs then .null
  else .bool

theorem quote_notMem_of_floatChars {cs : List Char} (h : MadeOf isFloatChar cs) : '"' ∉ cs := by
  intro hmem
  cases h _ hmem

theorem LiteralValue.ofText_text (v : LiteralValue) : LiteralSort.ofText v.text.toList = v.sort := by
  unfold LiteralSort.ofText
  cases v with
  | null => decide
  | bool b => cases b <;> decide
  | int i =>
    have numeral : MadeOf isNumeral (LiteralValue.int i).text.toList := numeral_repr i.toInt
    rw [if_neg (quote_notMem_of_floatChars (numeral.imp isFloatChar_of_isNumeral)), if_pos numeral]
    rfl
  | float x =>
    have float : FloatText (LiteralValue.float x).text.toList := x.floatText
    rw [if_neg (quote_notMem_of_floatChars float.chars), if_neg float.mark, if_pos float.chars]
    rfl
  | str s =>
    have quoted : '"' ∈ (LiteralValue.str s).text.toList := by
      rw [text, Text.toList_quote]
      exact List.mem_cons_self
    rw [if_pos quoted]
    rfl

/-- Doubles are the same to a reader if they are written alike. -/
def Binary64.SameText (x y : Binary64) : Prop :=
  x.text LiteralValue.floatLayout = y.text LiteralValue.floatLayout

theorem LiteralValue.sort_eq_of_text_eq {v w : LiteralValue} (h : v.text = w.text) :
    v.sort = w.sort := by
  rw [← v.ofText_text, ← w.ofText_text, h]

theorem LiteralValue.text_eq_iff {v w : LiteralValue} :
    v.text = w.text ↔ v.AlikeBy Binary64.SameText w := by
  constructor
  · intro h
    have hsort := sort_eq_of_text_eq h
    cases v with
    | null =>
      cases w with
      | null => rfl
      | _ => cases hsort
    | bool b =>
      cases w with
      | bool c => cases b <;> cases c <;> first | rfl | exact absurd h (by decide)
      | _ => cases hsort
    | int i =>
      cases w with
      | int j => exact congrArg int (Int64.toInt_inj.mp (Int.repr_inj.mp h))
      | _ => cases hsort
    | float x =>
      cases w with
      | float y => exact h
      | _ => cases hsort
    | str s =>
      cases w with
      | str t => exact congrArg str (Text.legible_quote.same_of_eq (congrArg String.toList h))
      | _ => cases hsort
  · intro h
    cases v with
    | float x =>
      cases w with
      | float y => exact h
      | _ => cases h
    | _ => rw [show _ = w from h]

/-! ## Literals on a line -/

theorem toList_repr_ne_nil (i : Int) : i.repr.toList ≠ [] := by
  have digits : ∀ n : Nat, n.repr.toList ≠ [] := by
    intro n
    rw [Nat.toList_repr]
    exact Nat.toDigits_ne_nil
  rw [Int.repr_eq_if]
  split
  · exact digits _
  · rw [String.toList_append]
    exact List.append_ne_nil_of_right_ne_nil _ (digits _)

theorem LiteralValue.quoted_or_word (v : LiteralValue) :
    (∃ s, v = .str s) ∨ v.text.toList ≠ [] ∧ MadeOf isWordChar v.text.toList := by
  cases v with
  | null => exact Or.inr (by decide)
  | bool b =>
    right
    cases b <;> decide
  | int i =>
    have numeral : MadeOf isNumeral (LiteralValue.int i).text.toList := numeral_repr i.toInt
    exact Or.inr ⟨toList_repr_ne_nil i.toInt,
      (numeral.imp isFloatChar_of_isNumeral).imp isWordChar_of_isFloatChar⟩
  | float x => exact Or.inr ⟨x.floatText.ne_nil, x.floatText.chars.imp isWordChar_of_isFloatChar⟩
  | str s => exact Or.inl ⟨s, rfl⟩

theorem LiteralValue.legible_text :
    Text.Legible (LiteralValue.AlikeBy Binary64.SameText) fun v => v.text.toList := by
  have apart : ∀ {w r u : List Char} {s : String}, w ≠ [] →
      MadeOf isWordChar w → w ++ r ≠ (LiteralValue.str s).text.toList ++ u := by
    intro w r u s hne hword h
    obtain ⟨c, w, rfl⟩ := List.exists_cons_of_ne_nil hne
    rw [text, Text.toList_quote] at h
    have hc := hword c List.mem_cons_self
    rw [(List.cons.inj h).1] at hc
    cases hc
  intro v w r s hr hs h
  rcases v.quoted_or_word with ⟨x, rfl⟩ | ⟨hv, hv'⟩
  · rcases w.quoted_or_word with ⟨y, rfl⟩ | ⟨hw, hw'⟩
    · obtain ⟨hxy, hrs⟩ := Text.legible_quote hr hs h
      exact ⟨congrArg str hxy, hrs⟩
    · exact absurd h.symm (apart hw hw')
  · rcases w.quoted_or_word with ⟨y, rfl⟩ | ⟨hw, hw'⟩
    · exact absurd h (apart hv hv')
    · obtain ⟨hvw, hrs⟩ := Text.append_inj_of_stopsAt hv' hw' hr hs h
      exact ⟨text_eq_iff.mp (String.toList_inj.mp hvw), hrs⟩

theorem LiteralValue.inline_text (v : LiteralValue) : MadeOf isInline v.text.toList := by
  rcases v.quoted_or_word with ⟨s, rfl⟩ | ⟨-, hword⟩
  · exact Text.inline_quote s
  · exact hword.imp Text.isInline_of_isWordChar

end TreeCheck
