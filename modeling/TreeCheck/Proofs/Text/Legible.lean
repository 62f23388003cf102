import Mathlib.Data.List.Forall2

/-!
# Written forms that can be told apart

Numbers, words and marks are made of word characters, and whatever follows one of them
on a line starts with another character.  A way of writing is `Legible` if, under this
condition, the written form shows where it ends and which value it was made from.  The
relation `same` leaves room for values that are written alike.

A list in brackets is legible if its entries are.  The lemma on the rest of a list,
`Legible.rest`, is the induction: every further entry is announced by a comma, so the
closing character cannot be taken for one.
-/

namespace TreeCheck
namespace Text

variable {α : Type} {same : α → α → Prop} {write : α → List Char}

/-- The text has characters of the class only. -/
def MadeOf (p : Char → Bool) (cs : List Char) : Prop := ∀ c ∈ cs, p c = true

-- Not left to be inferred: an instance for all characters would go through all of them.
instance (p : Char → Bool) (cs : List Char) : Decidable (MadeOf p cs) :=
  List.decidableBAll (fun c => p c = true) cs

section MadeOf

variable {p q : Char → Bool} {cs ds : List Char}

theorem MadeOf.append (hc : MadeOf p cs) (hd : MadeOf p ds) : MadeOf p (cs ++ ds) :=
  List.forall_mem_append.mpr ⟨hc, hd⟩

theorem MadeOf.subset (h : MadeOf p ds) (hsub : cs ⊆ ds) : MadeOf p cs :=
  fun c hc => h c (hsub hc)

theorem MadeOf.imp (hpq : ∀ c, p c = true → q c = true) (h : MadeOf p cs) : MadeOf q cs :=
  fun c hc => hpq c (h c hc)

end MadeOf

/-- What follows does not start with a character of the class. -/
def StopsAt (p : Char → Bool) (r : List Char) : Prop := ∀ c ∈ r.head?, p c = false

theorem stopsAt_nil (p : Char → Bool) : StopsAt p [] := nofun

theorem stopsAt_cons {p : Char → Bool} {c : Char} (h : p c = false) (r : List Char) :
    StopsAt p (c :: r) := by
  intro d hd
  cases hd
  exact h

/-- A longest run of characters of one class ends at one place only. -/
theorem append_inj_of_stopsAt {p : Char → Bool} {w v r s : List Char}
    (hw : MadeOf p w) (hv : MadeOf p v) (hr : StopsAt p r) (hs : StopsAt p s)
    (h : w ++ r = v ++ s) : w = v ∧ r = s := by
  induction w generalizing v with
  | nil =>
    cases v with
    | nil => exact ⟨rfl, h⟩
    | cons d v =>
      have hd : p d = false := hr d (by rw [← List.nil_append r, h]; rfl)
      rw [hv d List.mem_cons_self] at hd
      cases hd
  | cons c w ih =>
    cases v with
    | nil =>
      have hc : p c = false := hs c (by rw [← List.nil_append s, ← h]; rfl)
      rw [hw c List.mem_cons_self] at hc
      cases hc
    | cons d v =>
      rw [List.cons_append, List.cons_append, List.cons.injEq] at h
      obtain ⟨hwv, hrs⟩ :=
        ih (hw.subset (List.subset_cons_self c w)) (hv.subset (List.subset_cons_self d v)) h.2
      exact ⟨by rw [h.1, hwv], hrs⟩

def isWordChar (c : Char) : Bool := c.isAlphanum || c == '.' || c == '-' || c == '#'

def Legible (same : α → α → Prop) (write : α → List Char) : Prop :=
  ∀ ⦃x y r s⦄, StopsAt isWordChar r → StopsAt isWordChar s → write x ++ r = write y ++ s → same x y ∧ r = s

theorem Legible.same_of_eq (h : Legible same write) {x y : α} (hxy : write x = write y) :
    same x y :=
  (h (stopsAt_nil _) (stopsAt_nil _) (by rw [hxy])).1

/-! ## Words -/

theorem legible_of_word (hword : ∀ x, MadeOf isWordChar (write x))
    (hsame : ∀ x y, write x = write y → same x y) : Legible same write := by
  intro x y r s hr hs h
  obtain ⟨hxy, hrs⟩ := append_inj_of_stopsAt (hword x) (hword y) hr hs h
  exact ⟨hsame x y hxy, hrs⟩

theorem isWordChar_of_isDigit (c : Char) (h : c.isDigit = true) : isWordChar c = true := by
  simp [isWordChar, Char.isAlphanum, h]

/-! ## Lists -/

theorem intercalate_cons (sep xs : List Char) (yss : List (List Char)) :
    sep.intercalate (xs :: yss) = xs ++ yss.flatMap fun ys => sep ++ ys := by
  induction yss generalizing xs with
  | nil => simp [List.intercalate]
  | cons ys yss ih =>
    rw [List.intercalate_cons_cons, ih, List.flatMap_cons, List.append_assoc, List.append_assoc]

/-- The entries of a list after the first one. -/
def rest (write : α → List Char) (xs : List α) : List Char :=
  xs.flatMap fun x => ',' :: ' ' :: write x

theorem intercalate_map_cons (write : α → List Char) (x : α) (xs : List α) :
    [',', ' '].intercalate ((x :: xs).map write) = write x ++ rest write xs := by
  rw [List.map_cons, intercalate_cons, List.flatMap_map]
  rfl

theorem stopsAt_rest {stop : Char} (hword : isWordChar stop = false) (xs : List α)
    (t : List Char) : StopsAt isWordChar (rest write xs ++ stop :: t) := by
  cases xs with
  | nil => exact stopsAt_cons hword t
  | cons x xs => exact stopsAt_cons (by decide) _

theorem Legible.rest (h : Legible same write) {stop : Char} (hword : isWordChar stop = false)
    (hstop : stop ≠ ',') {xs ys : List α} {r s : List Char}
    (hxy : rest write xs ++ stop :: r = rest write ys ++ stop :: s) :
    List.Forall₂ same xs ys ∧ r = s := by
  induction xs generalizing ys with
  | nil =>
    cases ys with
    | nil => exact ⟨.nil, (List.cons.inj hxy).2⟩
    | cons y ys => exact absurd (List.cons.inj hxy).1 hstop
  | cons x xs ih =>
    cases ys with
    | nil => exact absurd (List.cons.inj hxy).1.symm hstop
    | cons y ys =>
      have hcons : write x ++ (Text.rest write xs ++ stop :: r) =
          write y ++ (Text.rest write ys ++ stop :: s) := by
        simpa [Text.rest] using hxy
      obtain ⟨hhead, htail⟩ := h (stopsAt_rest hword xs r) (stopsAt_rest hword ys s) hcons
      obtain ⟨hrest, hrs⟩ := ih htail
      exact ⟨.cons hhead hrest, hrs⟩

/-- The first character of an entry tells a list that has one from the empty list. -/
theorem Legible.bracketed (h : Legible same write) (first : Char) (hfirst : first ≠ ']')
    (hopen : ∀ x, (write x).head? = some first) :
    Legible (List.Forall₂ same)
      (fun xs => '[' :: ([',', ' '].intercalate (xs.map write) ++ [']'])) := by
  have hnonempty : ∀ (x : α) (t u : List Char), ']' :: t ≠ write x ++ u := by
    intro x t u he
    obtain ⟨w, hw⟩ := List.head?_eq_some_iff.mp (hopen x)
    rw [hw] at he
    exact hfirst (List.cons.inj he).1.symm
  intro xs ys r s _ _ hxy
  have hinner : [',', ' '].intercalate (xs.map write) ++ ']' :: r =
      [',', ' '].intercalate (ys.map write) ++ ']' :: s := by
    simpa using hxy
  cases xs with
  | nil =>
    cases ys with
    | nil => exact ⟨.nil, (List.cons.inj hinner).2⟩
    | cons y ys =>
      rw [intercalate_map_cons, List.append_assoc] at hinner
      exact absurd hinner (hnonempty y r _)
  | cons x xs =>
    cases ys with
    | nil =>
      rw [intercalate_map_cons, List.append_assoc] at hinner
      exact absurd hinner.symm (hnonempty x s _)
    | cons y ys =>
      rw [intercalate_map_cons, intercalate_map_cons, List.append_assoc, List.append_assoc] at hinner
      obtain ⟨hhead, htail⟩ :=
        h (stopsAt_rest (by decide) xs r) (stopsAt_rest (by decide) ys s) hinner
      obtain ⟨hrest, hrs⟩ := h.rest (by decide) (by decide) htail
      exact ⟨.cons hhead hrest, hrs⟩

/-! ## Lines -/

/-- The character does not end a line. -/
def isInline (c : Char) : Bool := c != '\n' && c != '\r'

theorem isInline_of_isWordChar (c : Char) (h : isWordChar c = true) : isInline c = true := by
  simp only [isInline, Bool.and_eq_true, bne_iff_ne]
  constructor
  · rintro rfl
    cases h
  · rintro rfl
    cases h

theorem inline_intercalate {xss : List (List Char)} (h : ∀ xs ∈ xss, MadeOf isInline xs) :
    MadeOf isInline ([',', ' '].intercalate xss) := by
  cases xss with
  | nil => decide
  | cons xs xss =>
    rw [intercalate_cons]
    apply MadeOf.append (h xs List.mem_cons_self)
    intro c hc
    obtain ⟨ys, hys, hmem⟩ := List.mem_flatMap.mp hc
    have separator : MadeOf isInline [',', ' '] := by decide
    exact separator.append (h ys (List.mem_cons_of_mem xs hys)) c hmem

theorem inline_bracketed {xss : List (List Char)} (h : ∀ xs ∈ xss, MadeOf isInline xs) :
    MadeOf isInline ('[' :: ([',', ' '].intercalate xss ++ [']'])) := by
  have opening : MadeOf isInline ['['] := by decide
  have closing : MadeOf isInline [']'] := by decide
  exact opening.append ((inline_intercalate h).append closing)

end Text
end TreeCheck
